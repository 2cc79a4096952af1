import Beyvra.Foundation.Records

namespace Beyvra

open Relational

namespace OperatorControls

inductive ActionType where
  | unfreeze | complianceOverride | financialOverride | withdrawalOverride | providerActivation
  | realMoneyActivation | killSwitchRelease | legalHoldRelease
  deriving DecidableEq

def ActionType.named : List (String × ActionType) :=
  [("UNFREEZE", .unfreeze), ("COMPLIANCE_OVERRIDE", .complianceOverride),
    ("FINANCIAL_OVERRIDE", .financialOverride), ("WITHDRAWAL_OVERRIDE", .withdrawalOverride),
    ("PROVIDER_ACTIVATION", .providerActivation), ("REAL_MONEY_ACTIVATION", .realMoneyActivation),
    ("KILL_SWITCH_RELEASE", .killSwitchRelease), ("LEGAL_HOLD_RELEASE", .legalHoldRelease)]

-- ACTION_ROLE_POLICY
def ActionType.roles : ActionType → List String
  | .unfreeze => ["security_manager", "platform_admin"]
  | .complianceOverride => ["compliance_manager", "platform_admin"]
  | .financialOverride => ["financial_manager", "platform_admin"]
  | .withdrawalOverride => ["financial_manager", "platform_admin"]
  | .providerActivation => ["operations_manager", "platform_admin"]
  | .realMoneyActivation => ["platform_admin"]
  | .killSwitchRelease => ["operations_manager", "platform_admin"]
  | .legalHoldRelease => ["compliance_manager", "platform_admin"]

def ActionType.executable : List ActionType := [.unfreeze, .killSwitchRelease, .legalHoldRelease]

inductive RequestStatus where
  | pending | approved | executed
  deriving DecidableEq

structure OperatorActionRequest where
  tenantId : String
  actionType : ActionType
  targetRef : String
  requestedBy : Nat
  requestedAt : Timestamp
  reason : String
  status : RequestStatus := .pending
  approvedBy : Option Nat := none
  approvedAt : Option Timestamp := none
  executedAt : Option Timestamp := none
  expiresAt : Timestamp
  deriving DecidableEq

inductive FreezeLevel where
  | noFreeze | partialFreeze | fullFreeze
  deriving DecidableEq

structure ReviewEvidence where
  operatorActionRequest : Uuid
  approvedBy : Option Nat
  deriving DecidableEq

structure AccountFreeze where
  tenantId : String
  account : Nat
  level : FreezeLevel
  reasonCode : String
  actor : Nat
  createdAt : Timestamp
  releasedAt : Option Timestamp := none
  reviewEvidence : Option ReviewEvidence := none
  deriving DecidableEq

structure TradingHalt where
  tenantId : String
  reason : String
  activatedBy : Nat
  activatedAt : Timestamp
  releasedBy : Option Nat := none
  releasedAt : Option Timestamp := none
  deriving DecidableEq

structure LegalHold where
  tenantId : String
  account : Nat
  active : Bool := true
  reason : String
  createdBy : Nat
  createdAt : Timestamp
  releasedBy : Option Nat := none
  releasedAt : Option Timestamp := none
  deriving DecidableEq

-- The primary key of a freeze or a hold is its place in the order of the inserts.
structure OperationsTables where
  requests : Table Uuid OperatorActionRequest := Table.empty
  freezes : List AccountFreeze := []
  halts : Table Uuid TradingHalt := Table.empty
  holds : List LegalHold := []

inductive OperatorError where
  | permissionError (code : String)
  | response (code : String) (status : Nat)
  | validationError (message : String)
  | doesNotExist
  | dataError (field : String)
  | integrityError (constraint : String)
  deriving DecidableEq

abbrev OperatorOutcome := Except OperatorError

-- tenantAccount says which accounts tenant_account_q selects when the command runs.
structure OperatorEnv where
  now : Timestamp
  uuid4 : Uuid
  tenantAccount : String → Nat → Bool

-- What str.isdigit, int and uuid.UUID make of the text behind the colon, none where they refuse it.
structure TargetText where
  accountId : String → Option Nat
  holdId : String → Option Nat
  haltId : String → Option Uuid

inductive OperatorTarget where
  | halt (id : Uuid)
  | hold (id : Nat)
  | account (id : Nat)
  deriving DecidableEq

-- str.partition(":")
def partitionColon (text : String) : String × Bool × String :=
  let head := text.toList.takeWhile (· ≠ ':')
  match text.toList.drop head.length with
  | [] => (text, false, "")
  | _ :: tail => (String.ofList head, true, String.ofList tail)

def OperatorActionRequest.target (text : TargetText) (request : OperatorActionRequest) :
    Option OperatorTarget :=
  let (kind, separator, raw) := partitionColon request.targetRef
  if ¬separator then none
  else match request.actionType with
    | .killSwitchRelease => if kind = "trading_halt" then (text.haltId raw).map .halt else none
    | .legalHoldRelease => if kind = "legal_hold" then (text.holdId raw).map .hold else none
    | .unfreeze => if kind = "account" then (text.accountId raw).map .account else none
    | _ => none

def permitted (allowed roles : List String) : Bool := roles.any (· ∈ allowed)

def requestTtl : Int := 3600 * microsecondsPerSecond

def managerRoles : List String :=
  ["support_manager", "security_manager", "compliance_manager", "financial_manager", "operations_manager",
    "platform_admin"]

def createAction (env : OperatorEnv) (tenant : String) (user : Nat) (roles : List String)
    (actionType reason targetRef : String) (s : OperationsTables) : OperatorOutcome OperationsTables := do
  require (permitted managerRoles roles) (.response "ACTION_NOT_ALLOWED" 403)
  let action ← demand ((ActionType.named.find? fun p => p.1 = actionType).map Prod.snd)
    (.response "INVALID_ACTION_TYPE" 400)
  require (permitted action.roles roles) (.response "ACTION_NOT_ALLOWED" 403)
  let reason := strip reason.toList
  require (reason ≠ []) (.response "REASON_REQUIRED" 400)
  require (s.requests.find env.uuid4 = none) (.integrityError "operations_operatoractionrequest_pkey")
  let request : OperatorActionRequest :=
    { tenantId := tenant
      actionType := action
      targetRef := String.ofList (targetRef.toList.take 128)
      requestedBy := user
      requestedAt := env.now
      reason := String.ofList (reason.take 500)
      expiresAt := env.now + requestTtl }
  pure { s with requests := s.requests.put env.uuid4 request }

def OperationsTables.requestOf (s : OperationsTables) (requestId : Uuid) (tenant : String) :
    OperatorOutcome OperatorActionRequest :=
  demand ((s.requests.find requestId).filter (·.tenantId = tenant)) .doesNotExist

def approveOperatorRequest (env : OperatorEnv) (requestId : Uuid) (tenant : String) (approver : Nat)
    (roles : List String) (s : OperationsTables) : OperatorOutcome OperationsTables := do
  let request ← s.requestOf requestId tenant
  require (request.requestedBy ≠ approver) (.permissionError "SELF_APPROVAL_FORBIDDEN")
  require (request.status = .pending ∧ env.now < request.expiresAt) (.permissionError "REQUEST_NOT_APPROVABLE")
  require (permitted request.actionType.roles roles) (.permissionError "INSUFFICIENT_ROLE")
  let approved := { request with status := .approved, approvedBy := some approver, approvedAt := some env.now }
  pure { s with requests := s.requests.put requestId approved }

def AccountFreeze.activeFor (tenant : String) (account : Nat) (freeze : AccountFreeze) : Bool :=
  freeze.tenantId = tenant && freeze.account = account && freeze.releasedAt = none

def OperationsTables.activeFreeze (s : OperationsTables) (tenant : String) (account : Nat) : Option Nat :=
  s.freezes.findIdx? (·.activeFor tenant account)

def OperationsTables.release (s : OperationsTables) (env : OperatorEnv) (requestId : Uuid)
    (request : OperatorActionRequest) (executor : Nat) : OperatorTarget → OperatorOutcome OperationsTables
  | .halt id => do
    let halt ← demand ((s.halts.find id).filter fun halt =>
      halt.tenantId = request.tenantId && halt.releasedAt = none) (.permissionError "INVALID_TARGET")
    pure { s with halts := s.halts.put id { halt with releasedAt := some env.now, releasedBy := some executor } }
  | .hold id => do
    let hold ← demand (s.holds[id]?.filter fun hold =>
      hold.tenantId = request.tenantId && hold.active && hold.releasedAt = none)
      (.permissionError "INVALID_TARGET")
    pure { s with holds := s.holds.set id { hold with
      active := false, releasedAt := some env.now, releasedBy := some executor } }
  | .account id => do
    require (env.tenantAccount request.tenantId id) (.permissionError "INVALID_TARGET")
    let pk ← demand (s.activeFreeze request.tenantId id) (.permissionError "NO_ACTIVE_FREEZE")
    pure { s with freezes := s.freezes.modify pk fun freeze => { freeze with
      releasedAt := some env.now
      reviewEvidence := some ⟨requestId, request.approvedBy⟩ } }

def executeOperatorRequest (text : TargetText) (env : OperatorEnv) (requestId : Uuid) (tenant : String)
    (executor : Nat) (roles : List String) (s : OperationsTables) : OperatorOutcome OperationsTables := do
  let request ← s.requestOf requestId tenant
  require (request.status = .approved ∧ request.approvedBy.isSome) (.permissionError "REQUEST_NOT_EXECUTABLE")
  require (request.requestedBy ≠ executor) (.permissionError "MAKER_CANNOT_EXECUTE")
  require (request.actionType ∈ ActionType.executable) (.permissionError "EXTERNAL_AUTHORITY_REQUIRED")
  require (permitted request.actionType.roles roles) (.permissionError "INSUFFICIENT_ROLE")
  let target ← demand (request.target text) (.permissionError "INVALID_TARGET")
  let s ← s.release env requestId request executor target
  let executed := { request with status := .executed, executedAt := some env.now }
  pure { s with requests := s.requests.put requestId executed }

def freezeLevel (level : String) : Option FreezeLevel :=
  if level = "PARTIAL" then some .partialFreeze else if level = "FULL" then some .fullFreeze else none

def freezeAccount (env : OperatorEnv) (tenant : String) (account actor : Nat) (roles : List String)
    (level reasonCode : String) (s : OperationsTables) : OperatorOutcome OperationsTables := do
  require (permitted ["security_manager", "platform_admin"] roles) (.response "PERMISSION_DENIED" 403)
  require (env.tenantAccount tenant account) (.response "NOT_FOUND" 404)
  let level ← demand (freezeLevel level) (.response "INVALID_FREEZE_LEVEL" 400)
  require (reasonCode.length ≤ 64) (.dataError "reason_code")
  match s.activeFreeze tenant account with
  | some pk =>
    pure { s with freezes := s.freezes.modify pk fun freeze => { freeze with level, reasonCode, actor } }
  | none =>
    pure { s with freezes := s.freezes ++
      [{ tenantId := tenant, account, level, reasonCode, actor, createdAt := env.now }] }

def createLegalHold (env : OperatorEnv) (tenant : String) (account actor : Nat) (roles : List String)
    (reason : String) (s : OperationsTables) : OperatorOutcome OperationsTables := do
  require (permitted ["compliance_manager", "platform_admin"] roles) (.response "PERMISSION_DENIED" 403)
  require (env.tenantAccount tenant account) (.response "NOT_FOUND" 404)
  pure { s with holds := s.holds ++
    [{ tenantId := tenant, account, reason := String.ofList (reason.toList.take 500), createdBy := actor
       createdAt := env.now }] }

def OperationsTables.halted (s : OperationsTables) (tenant : String) : Bool :=
  s.halts.values.any fun halt => halt.tenantId = tenant && halt.releasedAt = none

def activateTradingHalt (env : OperatorEnv) (tenant : String) (actor : Nat) (roles : List String)
    (reason : String) (s : OperationsTables) : OperatorOutcome OperationsTables := do
  require (permitted ["operations_manager", "platform_admin"] roles) (.response "PERMISSION_DENIED" 403)
  let reason := strip reason.toList
  require (reason ≠ []) (.validationError "A reason is required")
  if s.halted tenant then pure s
  else do
    require (s.halts.find env.uuid4 = none) (.integrityError "operations_tradinghalt_pkey")
    let halt : TradingHalt :=
      { tenantId := tenant, reason := String.ofList (reason.take 500), activatedBy := actor, activatedAt := env.now }
    pure { s with halts := s.halts.put env.uuid4 halt }

inductive OperatorCommand where
  | create (tenant : String) (user : Nat) (roles : List String) (actionType reason targetRef : String)
  | approve (requestId : Uuid) (tenant : String) (approver : Nat) (roles : List String)
  | execute (requestId : Uuid) (tenant : String) (executor : Nat) (roles : List String)
  | freeze (tenant : String) (account actor : Nat) (roles : List String) (level reasonCode : String)
  | hold (tenant : String) (account actor : Nat) (roles : List String) (reason : String)
  | halt (tenant : String) (actor : Nat) (roles : List String) (reason : String)

def OperatorCommand.run (text : TargetText) (env : OperatorEnv) :
    OperatorCommand → OperationsTables → OperatorOutcome OperationsTables
  | .create tenant user roles actionType reason targetRef =>
    createAction env tenant user roles actionType reason targetRef
  | .approve requestId tenant approver roles => approveOperatorRequest env requestId tenant approver roles
  | .execute requestId tenant executor roles => executeOperatorRequest text env requestId tenant executor roles
  | .freeze tenant account actor roles level reasonCode =>
    freezeAccount env tenant account actor roles level reasonCode
  | .hold tenant account actor roles reason => createLegalHold env tenant account actor roles reason
  | .halt tenant actor roles reason => activateTradingHalt env tenant actor roles reason

end OperatorControls

end Beyvra
