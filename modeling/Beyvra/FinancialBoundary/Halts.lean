import Mathlib.Data.Finset.SDiff
import Beyvra.Relational.Latest
import Beyvra.FinancialBoundary.Eventing

namespace Beyvra

open Relational

inductive FinancialOperation where
  | deposit | withdrawal | transfer | reservation | settlement
  deriving DecidableEq

def FinancialOperation.named : List (String × FinancialOperation) :=
  [("DEPOSIT", .deposit), ("WITHDRAWAL", .withdrawal), ("TRANSFER", .transfer),
    ("RESERVATION", .reservation), ("SETTLEMENT", .settlement)]

inductive HaltState where
  | active | readOnly | withdrawalsHalted | fundingHalted | allMutationsHalted
  deriving DecidableEq

def HaltState.named : List (String × HaltState) :=
  [("ACTIVE", .active), ("READ_ONLY", .readOnly), ("WITHDRAWALS_HALTED", .withdrawalsHalted),
    ("FUNDING_HALTED", .fundingHalted), ("ALL_MUTATIONS_HALTED", .allMutationsHalted)]

def parseNamed {α : Type} (named : List (String × α)) (text : String) : Option α :=
  (named.find? fun p => p.1 = text).map Prod.snd

def mutations : Finset FinancialOperation :=
  {.deposit, .withdrawal, .transfer, .reservation, .settlement}

def HaltState.allowed : HaltState → Finset FinancialOperation
  | .active => mutations
  | .withdrawalsHalted => mutations \ {.withdrawal}
  | .fundingHalted => mutations \ {.deposit}
  | .readOnly => ∅
  | .allMutationsHalted => ∅

inductive HaltError where
  | operationHalted (message : String)
  | authorizationDenied (message : String)
  | transitionDenied (message : String)
  | valueError (message : String)
  | doesNotExist
  | integrityError (constraint : String)
  | dataError (field : String)
  | audit (error : EventError)
  deriving DecidableEq

structure FinancialHaltRequest where
  tenantRef : Uuid
  proposedState : HaltState
  requestedBy : Int
  reasonCode : String
  policyVersion : String := "financial-halt-v1"
  correlationId : Uuid
  requestedAt : Timestamp
  deriving DecidableEq

structure FinancialHaltApproval where
  approvalId : Uuid
  requestId : Uuid
  approvedBy : Int
  correlationId : Uuid
  approvedAt : Timestamp
  deriving DecidableEq

structure HaltTables where
  requests : Table Uuid FinancialHaltRequest := Table.empty
  approvals : List FinancialHaltApproval := []
  audits : List FinancialAuditEvent := []

-- What a call brings in that the source takes as any Python object.
inductive ActorArg where
  | int (n : Int)
  | other

inductive RolesArg where
  | collection (roles : List String)
  | other

structure HaltEnv where
  now : Timestamp
  uuid4 : Uuid

def financialOperations : String := "financial_operations"

def financialManager : String := "financial_manager"

def rolesOf : RolesArg → Except HaltError (List String)
  | .collection roles => .ok roles
  | .other => .error (.authorizationDenied "financial role required")

def actorUuid (actorId : Int) : Uuid := uuid5 ("beyvra-financial-actor:" ++ toString actorId)

def validateActor : ActorArg → Except HaltError Int
  | .int n => if n < 1 then .error (.authorizationDenied "financial actor required") else .ok n
  | .other => .error (.authorizationDenied "financial actor required")

def positiveBigIntegerMax : Int := 9223372036854775807

-- A UUID argument is none where its text is not a UUID.
def uuidOf (text : Option Uuid) : Except HaltError Uuid :=
  demand text (.valueError "badly formed hexadecimal UUID string")

abbrev HaltTables.approvalsOf (s : HaltTables) (tenant : Uuid) : List FinancialHaltApproval :=
  s.approvals.filter fun a => (s.requests.find a.requestId).any (·.tenantRef = tenant)

-- order_by("-approved_at", "-approval_id")
def approvedBefore (a b : FinancialHaltApproval) : Prop :=
  b.approvedAt < a.approvedAt ∨ b.approvedAt = a.approvedAt ∧ b.approvalId ≤ a.approvalId

instance : DecidableRel approvedBefore := fun a b => by
  unfold approvedBefore
  infer_instance

def HaltTables.proposed (s : HaltTables) (approval : FinancialHaltApproval) : HaltState :=
  ((s.requests.find approval.requestId).map (·.proposedState)).getD .active

def currentHaltState (s : HaltTables) (tenant : Uuid) : HaltState :=
  match latest approvedBefore (s.approvalsOf tenant) with
  | some approval => s.proposed approval
  | none => .active

def assertFinancialOperationAllowed (s : HaltTables) (tenantRef : Option Uuid) (operation : String) :
    Except HaltError HaltState := do
  let operation ← demand (parseNamed FinancialOperation.named operation)
    (.valueError "unknown financial operation")
  let tenant ← uuidOf tenantRef
  let state := currentHaltState s tenant
  require (operation ∈ state.allowed) (.operationHalted "financial operation halted")
  pure state

def reasonChar (c : Char) : Bool := c.isUpper || c.isDigit || c = '_'

def safeReason (reasonCode : String) : Bool :=
  match reasonCode.toList with
  | [] => false
  | c :: cs => c.isUpper && 2 ≤ cs.length && cs.length ≤ 63 && cs.all reasonChar

def auditHalt (env : HaltEnv) (action : String) (tenant correlation : Uuid) (actor : Int)
    (requestId : Uuid) (fields : List (String × Json)) : Except HaltError FinancialAuditEvent :=
  (appendFinancialAudit env.now action tenant correlation (.obj fields) (some (actorUuid actor))
    ("halt." ++ requestId)).mapError .audit

def stateName (state : HaltState) : String :=
  ((HaltState.named.find? fun p => p.2 = state).map Prod.fst).getD ""

structure HaltRequestArgs where
  tenantRef : Option Uuid
  proposedState : String
  requestedBy : ActorArg
  roles : RolesArg
  reasonCode : String
  correlationId : Option Uuid

def requestFinancialHalt (env : HaltEnv) (args : HaltRequestArgs) (s : HaltTables) :
    Except HaltError (FinancialHaltRequest × HaltTables) := do
  let requestedBy ← validateActor args.requestedBy
  let roles ← rolesOf args.roles
  require (financialOperations ∈ roles ∨ financialManager ∈ roles)
    (.authorizationDenied "financial operations role required")
  let proposedState ← demand (parseNamed HaltState.named args.proposedState)
    (.transitionDenied "halt request must reduce capability")
  require (proposedState ≠ .active) (.transitionDenied "halt request must reduce capability")
  require (safeReason args.reasonCode) (.transitionDenied "invalid safe reason code")
  let tenantRef ← uuidOf args.tenantRef
  let correlationId ← uuidOf args.correlationId
  require (requestedBy ≤ positiveBigIntegerMax) (.dataError "requested_by")
  require (s.requests.find env.uuid4 = none) (.integrityError "financial_halt_requests_pkey")
  let request : FinancialHaltRequest :=
    { tenantRef, proposedState, requestedBy, reasonCode := args.reasonCode, correlationId
      requestedAt := env.now }
  let event ← auditHalt env "financial_halt.requested" tenantRef correlationId requestedBy env.uuid4
    [("proposed_state", .str args.proposedState), ("reason_code", .str args.reasonCode)]
  pure (request,
    { s with requests := s.requests.put env.uuid4 request, audits := s.audits ++ [event] })

structure HaltApprovalArgs where
  requestId : Uuid
  approvedBy : ActorArg
  roles : RolesArg
  correlationId : Option Uuid

def HaltTables.approvalFor (s : HaltTables) (requestId : Uuid) : Option FinancialHaltApproval :=
  s.approvals.find? fun a => a.requestId = requestId

def createApproval (env : HaltEnv) (requestId : Uuid) (approvedBy : Int) (correlationId : Uuid)
    (s : HaltTables) : Except HaltError (FinancialHaltApproval × HaltTables) := do
  require (approvedBy ≤ positiveBigIntegerMax) (.dataError "approved_by")
  require (s.approvals.all fun a => a.approvalId ≠ env.uuid4)
    (.integrityError "financial_halt_approvals_pkey")
  require ((s.approvalFor requestId).isNone) (.integrityError "financial_halt_approvals_request_id_key")
  let approval : FinancialHaltApproval :=
    { approvalId := env.uuid4, requestId, approvedBy, correlationId, approvedAt := env.now }
  pure (approval, { s with approvals := s.approvals ++ [approval] })

def approvePending (env : HaltEnv) (args : HaltApprovalArgs) (approvedBy : Int)
    (request : FinancialHaltRequest) (s : HaltTables) :
    Except HaltError (FinancialHaltApproval × HaltTables) := do
  let current := currentHaltState s request.tenantRef
  require (request.proposedState.allowed ≠ current.allowed ∧
      request.proposedState.allowed ⊆ current.allowed)
    (.transitionDenied "halt transition does not reduce capability")
  let correlationId ← uuidOf args.correlationId
  let (approval, s) ← createApproval env args.requestId approvedBy correlationId s
  let event ← auditHalt env "financial_halt.approved" request.tenantRef correlationId approvedBy
    args.requestId [("state", .str (stateName request.proposedState)),
      ("reason_code", .str request.reasonCode)]
  pure (approval, { s with audits := s.audits ++ [event] })

def approveFinancialHalt (env : HaltEnv) (args : HaltApprovalArgs) (s : HaltTables) :
    Except HaltError (FinancialHaltApproval × HaltTables) := do
  let approvedBy ← validateActor args.approvedBy
  let roles ← rolesOf args.roles
  require (financialManager ∈ roles) (.authorizationDenied "financial manager role required")
  let request ← fetch s.requests args.requestId .doesNotExist
  require (request.requestedBy ≠ approvedBy)
    (.authorizationDenied "maker cannot approve own halt request")
  match s.approvalFor args.requestId with
  | some existing => pure (existing, s)
  | none => approvePending env args approvedBy request s

inductive HaltOp where
  | request (args : HaltRequestArgs)
  | approve (args : HaltApprovalArgs)

structure HaltCall where
  env : HaltEnv
  op : HaltOp

def haltStep (s : HaltTables) (call : HaltCall) : HaltTables :=
  match call.op with
  | .request args => commit (requestFinancialHalt call.env args) s
  | .approve args => commit (approveFinancialHalt call.env args) s

end Beyvra
