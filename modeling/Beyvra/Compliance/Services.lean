import Mathlib.Data.List.Sort
import Beyvra.Foundation.Services

namespace Beyvra

open Relational

def policyVersion : String := "compliance-2026-08-11.v1"

def referenceStart (c : Char) : Bool := c.isAlphanum

def referenceChar (c : Char) : Bool := c.isAlphanum || c ∈ [':', '_', '.', '-']

def opaqueReference (value : String) : Bool :=
  match value.toList with
  | [] => false
  | c :: cs => referenceStart c && cs.all referenceChar && cs.length ≤ 254

def validatedEvidenceRef (value : String) : Outcome String := do
  require (opaqueReference value) (.valueError "INVALID_EVIDENCE_REFERENCE")
  pure value

def optionalEvidence (value current : String) : Outcome String :=
  if value = "" then pure current else validatedEvidenceRef value

structure ProfileStates where
  kycState : KycState
  amlState : AmlState
  sanctionsState : SanctionsState
  jurisdictionState : JurisdictionState
  accountState : AccountState
  deriving DecidableEq

def due (deadline : Option Timestamp) (now : Timestamp) : Bool := deadline.any (· ≤ now)

def ComplianceOverride.expired (o : ComplianceOverride) (now : Timestamp) : Bool :=
  o.approvedAt.isSome && due o.expiresAt now

namespace ComplianceTables

def overridesOf (c : ComplianceTables) (accountId : Uuid) : List ComplianceOverride :=
  c.overrides.values.filter fun o => o.account = accountId

def expiredControl (c : ComplianceTables) (accountId : Uuid) (control : OverrideControl)
    (now : Timestamp) : Bool :=
  (c.overridesOf accountId).any fun o => o.control = control && o.expired now

def effectiveProfileStates (c : ComplianceTables) (accountId : Uuid) (profile : ComplianceProfile)
    (now : Timestamp) : ProfileStates :=
  let kyc := if c.expiredControl accountId .kycState now ∧ profile.kycState = .approved then
    .requiresUpdate else profile.kycState
  let aml := if c.expiredControl accountId .amlState now ∧ profile.amlState = .cleared then
    .reviewRequired else profile.amlState
  let sanctions := if c.expiredControl accountId .sanctionsState now ∧ profile.sanctionsState = .clear then
    .manualReview else profile.sanctionsState
  { kycState := if due profile.kycExpiresAt now then .expired
      else if due profile.kycNextReviewAt now then .requiresUpdate else kyc
    amlState := if due profile.amlNextReviewAt now then .reviewRequired else aml
    sanctionsState := sanctions
    jurisdictionState := if due profile.jurisdictionNextReviewAt now then .unknown
      else profile.jurisdictionState
    accountState := profile.accountState }

def activeRestrictions (c : ComplianceTables) (accountId : Uuid) (now : Timestamp) :
    List RestrictionType :=
  let own := c.restrictions.rows.filter fun p => p.2.account = accountId && !due p.2.expiresAt now
  let restored (id : Uuid) := c.expiredControl accountId (.removeRestriction id) now
  (own.filter fun p => p.2.active).map (·.2.restrictionType) ++
    (own.filter fun p => !p.2.active && restored p.1).map (·.2.restrictionType)

end ComplianceTables

inductive Severity where
  | review | deny
  deriving DecidableEq

structure Reason where
  code : String
  severity : Severity
  deriving DecidableEq

def accountReason : AccountState → Option Reason
  | .pending => some ⟨"ACCOUNT_RESTRICTED", .deny⟩
  | .restricted => some ⟨"ACCOUNT_RESTRICTED", .deny⟩
  | .closed => some ⟨"ACCOUNT_RESTRICTED", .deny⟩
  | .suspended => some ⟨"ACCOUNT_SUSPENDED", .deny⟩
  | .active => none

def kycReason : KycState → Option Reason
  | .notStarted => some ⟨"KYC_REQUIRED", .deny⟩
  | .pending => some ⟨"KYC_PENDING", .deny⟩
  | .inReview => some ⟨"KYC_PENDING", .deny⟩
  | .rejected => some ⟨"KYC_REJECTED", .deny⟩
  | .expired => some ⟨"KYC_REQUIRED", .deny⟩
  | .requiresUpdate => some ⟨"KYC_REQUIRED", .deny⟩
  | .approved => none

def amlReason : AmlState → Option Reason
  | .notScreened => some ⟨"AML_REVIEW", .review⟩
  | .pending => some ⟨"AML_REVIEW", .review⟩
  | .reviewRequired => some ⟨"AML_REVIEW", .review⟩
  | .blocked => some ⟨"AML_BLOCKED", .deny⟩
  | .cleared => none

def sanctionsReason : SanctionsState → Option Reason
  | .notChecked => some ⟨"SANCTIONS_REVIEW", .review⟩
  | .possibleMatch => some ⟨"SANCTIONS_REVIEW", .review⟩
  | .manualReview => some ⟨"SANCTIONS_REVIEW", .review⟩
  | .confirmedMatch => some ⟨"SANCTIONS_BLOCKED", .deny⟩
  | .clear => none

def jurisdictionReason : JurisdictionState → Option Reason
  | .unknown => some ⟨"JURISDICTION_RESTRICTED", .review⟩
  | .restricted => some ⟨"JURISDICTION_RESTRICTED", .deny⟩
  | .limited => some ⟨"JURISDICTION_RESTRICTED", .deny⟩
  | .supported => none

def Capability.blocking : Capability → RestrictionType
  | .trading => .tradingDisabled
  | .deposit => .depositsDisabled
  | .withdrawal => .withdrawalsDisabled
  | .transfer => .transfersDisabled

def restrictionReason (capability : Capability) (restriction : RestrictionType) : Option Reason :=
  if restriction = .manualReviewRequired then some ⟨"MANUAL_REVIEW_REQUIRED", .review⟩
  else if restriction = capability.blocking ∨ restriction = .accountReadOnly then
    some ⟨if capability = .trading then "TRADING_DISABLED" else capability.value ++ "S_DISABLED", .deny⟩
  else none

def ComplianceTables.reasons (c : ComplianceTables) (accountId : Uuid) (profile : ComplianceProfile)
    (capability : Capability) (now : Timestamp) : List Reason :=
  let states := c.effectiveProfileStates accountId profile now
  [accountReason states.accountState, kycReason states.kycState, amlReason states.amlState,
    sanctionsReason states.sanctionsState, jurisdictionReason states.jurisdictionState].reduceOption ++
    (c.activeRestrictions accountId now).filterMap (restrictionReason capability)

def decisionOf (reasons : List Reason) (now : Timestamp) : EligibilityDecisionValue where
  result := if reasons = [] then .allowed
    else if reasons.any (·.severity = .deny) then .denied else .reviewRequired
  reasonCodes := (reasons.map (·.code)).eraseDups
  policyVersion := policyVersion
  evaluatedAt := now

def ComplianceTables.evaluate (c : ComplianceTables) (accountId : Uuid) (profile : ComplianceProfile)
    (capability : Capability) (now : Timestamp) : EligibilityDecisionValue :=
  decisionOf (c.reasons accountId profile capability now) now

def ComplianceTables.firstProfile (c : ComplianceTables) (user : String) :
    Option (Uuid × ComplianceProfile) :=
  ((c.profiles.rows.filter fun p => p.2.user = user).insertionSort fun p q => p.1 ≤ q.1).head?

def complianceDecision (env : Env) (user : String) (c : ComplianceTables) :
    Option EligibilityDecisionValue :=
  (c.firstProfile user).map fun p => c.evaluate p.1 p.2 .trading env.now

def recordDecision (env : Env) (user : String) (c : ComplianceTables) : ComplianceTables :=
  match c.firstProfile user with
  | none => c
  | some p =>
    let value := c.evaluate p.1 p.2 .trading env.now
    { c with decisions := c.decisions ++
        [{ account := p.1, capability := .trading, result := value.result
           reasonCodes := value.reasonCodes, evaluatedAt := env.now }] }

structure ProfileChange where
  accountId : Uuid
  profile : ComplianceProfile
  compliance : ComplianceTables
  eventType : String
  data : Payload

def ComplianceTables.saveProfile (c : ComplianceTables) (accountId : Uuid) (profile : ComplianceProfile) :
    ComplianceTables :=
  { c with profiles := c.profiles.put accountId profile }

def profileUpdated (c : ComplianceTables) (accountId : Uuid) (profile : ComplianceProfile)
    (data : Payload) : ProfileChange where
  accountId := accountId
  profile := { profile with version := profile.version + 1 }
  compliance := c.saveProfile accountId { profile with version := profile.version + 1 }
  eventType := "compliance.profile.updated.v1"
  data := data ++ [("version", .dec (profile.version + 1))]

def fetchProfile (c : ComplianceTables) (accountId : Uuid) : Outcome ComplianceProfile :=
  fetch c.profiles accountId (.doesNotExist "ComplianceProfile")

def transitionKyc (accountId : Uuid) (new : KycState) (evidenceRef : String) (c : ComplianceTables) :
    Outcome ProfileChange := do
  let profile ← fetchProfile c accountId
  require (new ∈ kycTransitions profile.kycState) (.valueError "INVALID_KYC_TRANSITION")
  require (new = .approved → evidenceRef ≠ "") (.valueError "VERIFIED_EVIDENCE_REQUIRED")
  let evidence ← optionalEvidence evidenceRef profile.kycEvidenceRef
  pure (profileUpdated c accountId { profile with kycState := new, kycEvidenceRef := evidence }
    [("kyc_state", .str new.value)])

def amlTransitions : AmlState → List AmlState
  | .notScreened => [.pending]
  | .pending => [.cleared, .reviewRequired, .blocked]
  | .cleared => [.pending, .reviewRequired, .blocked]
  | .reviewRequired => [.pending, .cleared, .blocked]
  | .blocked => [.reviewRequired]

def transitionAml (accountId : Uuid) (new : AmlState) (evidenceRef : String) (c : ComplianceTables) :
    Outcome ProfileChange := do
  let profile ← fetchProfile c accountId
  require (new ∈ amlTransitions profile.amlState) (.valueError "INVALID_AML_TRANSITION")
  require (new = .cleared → evidenceRef ≠ "") (.valueError "VERIFIED_EVIDENCE_REQUIRED")
  let evidence ← optionalEvidence evidenceRef profile.amlEvidenceRef
  pure (profileUpdated c accountId { profile with amlState := new, amlEvidenceRef := evidence }
    [("aml_state", .str new.value)])

def sanctionsTransitions : SanctionsState → List SanctionsState
  | .notChecked => [.manualReview, .possibleMatch, .confirmedMatch, .clear]
  | .clear => [.manualReview, .possibleMatch, .confirmedMatch]
  | .possibleMatch => [.manualReview, .confirmedMatch, .clear]
  | .confirmedMatch => [.manualReview]
  | .manualReview => [.possibleMatch, .confirmedMatch, .clear]

def transitionSanctions (accountId : Uuid) (new : SanctionsState) (evidenceRef : String)
    (c : ComplianceTables) : Outcome ProfileChange := do
  let profile ← fetchProfile c accountId
  require (new ∈ sanctionsTransitions profile.sanctionsState)
    (.valueError "INVALID_SANCTIONS_TRANSITION")
  require (evidenceRef ≠ "") (.valueError "VERIFIED_EVIDENCE_REQUIRED")
  let evidence ← validatedEvidenceRef evidenceRef
  pure (profileUpdated c accountId
    { profile with sanctionsState := new, sanctionsEvidenceRef := evidence }
    [("sanctions_state", .str new.value)])

def transitionJurisdiction (accountId : Uuid) (new : JurisdictionState) (evidenceRef : String)
    (c : ComplianceTables) : Outcome ProfileChange := do
  require (evidenceRef ≠ "") (.valueError "VERIFIED_EVIDENCE_REQUIRED")
  let evidence ← validatedEvidenceRef evidenceRef
  let profile ← fetchProfile c accountId
  pure (profileUpdated c accountId
    { profile with jurisdictionState := new, jurisdictionEvidenceRef := evidence }
    [("jurisdiction_state", .str new.value)])

structure RestrictionRequest where
  restrictionType : RestrictionType
  reasonCode : String
  source : String
  actor : String
  expiresAt : Option Timestamp

def addRestriction (env : Env) (accountId : Uuid) (request : RestrictionRequest) (c : ComplianceTables) :
    Outcome ProfileChange := do
  let profile ← fetchProfile c accountId
  require (request.reasonCode ∈ reasonCodes) (.valueError "INVALID_REASON_CODE")
  require (!due request.expiresAt env.now) (.valueError "INVALID_EXPIRATION")
  let restriction : AccountRestriction :=
    { account := accountId, restrictionType := request.restrictionType
      reasonCode := request.reasonCode, source := request.source, createdBy := request.actor
      expiresAt := request.expiresAt }
  let c := { c with restrictions := c.restrictions.put (env.uuid4 "AccountRestriction") restriction }
  pure { profileUpdated c accountId profile
      [("restriction_type", .str request.restrictionType.value), ("active", .flag true)] with
    eventType := "compliance.restriction.updated.v1" }

def accountTransitions : AccountState → List AccountState
  | .pending => [.active, .restricted, .suspended, .closed]
  | .active => [.restricted, .suspended, .closed]
  | .restricted => [.active, .suspended, .closed]
  | .suspended => [.restricted, .closed]
  | .closed => []

def updateAccountState (accountId : Uuid) (new : AccountState) (c : ComplianceTables) :
    Outcome ProfileChange := do
  let profile ← fetchProfile c accountId
  require (new ∈ accountTransitions profile.accountState) (.valueError "INVALID_ACCOUNT_TRANSITION")
  pure (profileUpdated c accountId { profile with accountState := new }
    [("account_state", .str new.value)])

def OverrideValue.clearance : OverrideValue → Bool
  | .kyc .approved => true
  | .aml .cleared => true
  | .sanctions .clear => true
  | _ => false

def ComplianceProfile.valueAt (profile : ComplianceProfile) : OverrideControl → OverrideValue
  | .kycState => .kyc profile.kycState
  | .amlState => .aml profile.amlState
  | .sanctionsState => .sanctions profile.sanctionsState
  | .removeRestriction _ => .restriction true

def ComplianceProfile.override (profile : ComplianceProfile) : OverrideValue → ComplianceProfile
  | .kyc state => { profile with kycState := state }
  | .aml state => { profile with amlState := state }
  | .sanctions state => { profile with sanctionsState := state }
  | .restriction _ => profile

def fullClean (o : ComplianceOverride) : Outcome Unit := do
  require (o.reason ≠ "") (.validationError "reason")
  require (o.approvedBy ≠ some o.requestedBy) (.validationError "MAKER_CHECKER_REQUIRED")
  require (o.newState.clearance → o.evidenceRef ≠ "") (.validationError "override_clearance_has_evidence")

def overrideChange (o : ComplianceOverride) (profile : ComplianceProfile) (c : ComplianceTables) :
    Outcome ProfileChange :=
  match o.control with
  | .removeRestriction id => do
    let restriction ← fetch c.restrictions id (.doesNotExist "AccountRestriction")
    require (restriction.account = o.account ∧ restriction.active) (.doesNotExist "AccountRestriction")
    let c := { c with restrictions := c.restrictions.put id { restriction with active := false } }
    pure { profileUpdated c o.account profile
        [("restriction_id", .str id), ("active", .flag false)] with
      eventType := "compliance.restriction.updated.v1" }
  | control => do
    require (profile.valueAt control = o.previousState) (.valueError "OVERRIDE_STALE")
    pure (profileUpdated c o.account (profile.override o.newState) [])

def approveOverride (env : Env) (overrideId : Uuid) (checker : String) (c : ComplianceTables) :
    Outcome (Option ProfileChange) := do
  let o ← fetch c.overrides overrideId (.doesNotExist "ComplianceOverride")
  if o.approvedAt.isSome then pure none
  else do
    require (o.requestedBy ≠ checker) (.valueError "MAKER_CHECKER_REQUIRED")
    require (!due o.expiresAt env.now) (.valueError "OVERRIDE_EXPIRED")
    let profile ← fetchProfile c o.account
    let change ← overrideChange o profile c
    let approved := { o with approvedBy := some checker, approvedAt := some env.now }
    fullClean approved
    let overrides := change.compliance.overrides.put overrideId approved
    pure (some { change with compliance := { change.compliance with overrides } })

inductive Mutation where
  | kyc (accountId : Uuid) (new : KycState) (evidenceRef : String)
  | aml (accountId : Uuid) (new : AmlState) (evidenceRef : String)
  | sanctions (accountId : Uuid) (new : SanctionsState) (evidenceRef : String)
  | jurisdiction (accountId : Uuid) (new : JurisdictionState) (evidenceRef : String)
  | restriction (accountId : Uuid) (request : RestrictionRequest)
  | accountState (accountId : Uuid) (new : AccountState)
  | approval (overrideId : Uuid) (checker : String)

def Mutation.change (env : Env) (c : ComplianceTables) : Mutation → Outcome (Option ProfileChange)
  | .kyc accountId new evidenceRef => some <$> transitionKyc accountId new evidenceRef c
  | .aml accountId new evidenceRef => some <$> transitionAml accountId new evidenceRef c
  | .sanctions accountId new evidenceRef => some <$> transitionSanctions accountId new evidenceRef c
  | .jurisdiction accountId new evidenceRef => some <$> transitionJurisdiction accountId new evidenceRef c
  | .restriction accountId request => some <$> addRestriction env accountId request c
  | .accountState accountId new => some <$> updateAccountState accountId new c
  | .approval overrideId checker => approveOverride env overrideId checker c

def ComplianceTables.tenantRefs (c : ComplianceTables) (profile : ComplianceProfile) : List String :=
  let active := c.memberships.filter fun m =>
    m.user = profile.user && m.isActive && m.organizationActive
  if active.length = 1 then [profile.organization, "default"] else [profile.organization]

def invalidated (profile : ComplianceProfile) (tenantRefs : List String) (order : TradingOrder) : Prop :=
  order.tenantRef ∈ tenantRefs ∧ order.subjectRef = profile.user ∧ order.simulation ∧
    order.state = .pending

instance (profile : ComplianceProfile) (tenantRefs : List String) (order : TradingOrder) :
    Decidable (invalidated profile tenantRefs order) := by
  unfold invalidated
  infer_instance

def TradingOrder.invalidate (order : TradingOrder) (decision : EligibilityDecisionValue) : TradingOrder :=
  { order with
    state := .rejected
    eligibilityPolicyVersion := decision.policyVersion
    eligibilityResult := decision.result
    eligibilityReasonCodes := decision.reasonCodes
    eligibilityEvaluatedAt := some decision.evaluatedAt }

def ProfileChange.decision (env : Env) (change : ProfileChange) : EligibilityDecisionValue :=
  change.compliance.evaluate change.accountId change.profile .trading env.now

def ProfileChange.affects (change : ProfileChange) (order : TradingOrder) : Prop :=
  invalidated change.profile (change.compliance.tenantRefs change.profile) order

instance (change : ProfileChange) (order : TradingOrder) : Decidable (change.affects order) := by
  unfold ProfileChange.affects
  infer_instance

def invalidatePendingSimulationOrdersIfDenied (env : Env) (change : ProfileChange) (t : TradingTables) :
    TradingTables :=
  let decision := change.decision env
  if decision.result = .allowed then t
  else { t with orders := t.orders.mapRows fun _ order =>
      if change.affects order then order.invalidate decision else order }

def ProfileChange.apply (env : Env) (change : ProfileChange) (db : Database) : Database :=
  let db := { db with compliance := change.compliance }
  let db := db.enqueueEvent env "compliance_profile" change.accountId change.eventType
    (("channel", .str (change.eventType ++ "." ++ change.profile.user)) :: change.data)
    change.profile.organization
  { db with trading := invalidatePendingSimulationOrdersIfDenied env change db.trading }

def Mutation.run (env : Env) (m : Mutation) (db : Database) : Outcome Database := do
  match ← m.change env db.compliance with
  | none => pure db
  | some change => pure (change.apply env db)

structure OverrideRequest where
  accountId : Uuid
  control : OverrideControl
  newState : OverrideValue
  reason : String
  requester : String
  expiresAt : Option Timestamp
  evidenceRef : String

def OverrideValue.fits : OverrideValue → OverrideControl → Bool
  | .kyc _, .kycState => true
  | .aml _, .amlState => true
  | .sanctions _, .sanctionsState => true
  | _, _ => false

def requestOverride (env : Env) (request : OverrideRequest) (c : ComplianceTables) :
    Outcome ComplianceTables := do
  let profile ← fetchProfile c request.accountId
  let newState ← match request.control with
    | .removeRestriction id => do
      let restriction ← fetch c.restrictions id (.valueError "RESTRICTION_NOT_FOUND")
      require (restriction.account = request.accountId ∧ restriction.active)
        (.valueError "RESTRICTION_NOT_FOUND")
      pure (.restriction false)
    | control => do
      require (request.newState.fits control) (.valueError "INVALID_OVERRIDE_STATE")
      pure request.newState
  require (newState.clearance → request.evidenceRef ≠ "") (.valueError "VERIFIED_EVIDENCE_REQUIRED")
  let evidence ← optionalEvidence request.evidenceRef ""
  require (request.reason.length ≤ 255) (.dataError "reason")
  let o : ComplianceOverride :=
    { account := request.accountId, control := request.control
      previousState := profile.valueAt request.control, newState, reason := request.reason
      evidenceRef := evidence, requestedBy := request.requester, expiresAt := request.expiresAt }
  pure { c with overrides := c.overrides.put (env.uuid4 "ComplianceOverride") o }

theorem invalidated_pending {profile : ComplianceProfile} {tenantRefs : List String} {order : TradingOrder}
    (h : invalidated profile tenantRefs order) : order.state = .pending := h.2.2.2

theorem Mutation.run_eq_ok {env : Env} {m : Mutation} {db db' : Database} :
    m.run env db = .ok db' ↔
      (m.change env db.compliance = .ok none ∧ db' = db) ∨
        ∃ change, m.change env db.compliance = .ok (some change) ∧ db' = change.apply env db := by
  simp only [Mutation.run, bind_eq_ok]
  constructor
  · rintro ⟨change, hc, hdb⟩
    cases change with
    | none => exact .inl ⟨hc, (pure_eq_ok.mp hdb).symm⟩
    | some change => exact .inr ⟨change, hc, (pure_eq_ok.mp hdb).symm⟩
  · rintro (⟨hc, rfl⟩ | ⟨change, hc, rfl⟩)
    · exact ⟨none, hc, rfl⟩
    · exact ⟨some change, hc, rfl⟩

section Apply

variable (env : Env) (change : ProfileChange) (db : Database)

@[simp] theorem ProfileChange.apply_trading :
    (change.apply env db).trading = invalidatePendingSimulationOrdersIfDenied env change db.trading := rfl

theorem invalidatePending_orders (t : TradingTables) :
    invalidatePendingSimulationOrdersIfDenied env change t =
      { t with orders := (invalidatePendingSimulationOrdersIfDenied env change t).orders } := by
  by_cases h : (change.decision env).result = .allowed <;>
    simp [invalidatePendingSimulationOrdersIfDenied, h]

theorem find_invalidated (t : TradingTables) (orderId : Uuid) :
    (invalidatePendingSimulationOrdersIfDenied env change t).orders.find orderId =
      (t.orders.find orderId).map fun order =>
        if (change.decision env).result ≠ .allowed ∧ change.affects order then
          order.invalidate (change.decision env)
        else order := by
  unfold invalidatePendingSimulationOrdersIfDenied
  by_cases h : (change.decision env).result = .allowed
  · simp only [h, if_true, ne_eq, not_true_eq_false, false_and, if_false]
    cases t.orders.find orderId <;> rfl
  · simp only [h, if_false, Table.find_mapRows, ne_eq, not_false_eq_true, true_and]

end Apply

end Beyvra
