import Mathlib.Data.Prod.Lex
import Mathlib.Data.String.Basic
import Beyvra.Relational.Latest
import Beyvra.Foundation.Records

namespace Beyvra

open Relational

namespace Pricing

inductive PlanStatus where
  | draft | active | inactive | retired
  deriving DecidableEq

structure AccountPlan where
  status : PlanStatus := .draft
  effectiveFrom : Timestamp
  effectiveTo : Option Timestamp := none
  deriving DecidableEq

structure AccountPlanVersion where
  plan : Uuid
  status : PlanStatus := .draft
  effectiveFrom : Timestamp
  effectiveTo : Option Timestamp := none
  deriving DecidableEq

structure AccountPlanAssignment where
  account : Nat
  tenantRef : String
  planVersion : Nat
  status : String := "ACTIVE"
  effectiveFrom : Timestamp
  effectiveTo : Option Timestamp := none
  deriving DecidableEq

structure Entitlement where
  status : String := "ACTIVE"
  effectiveFrom : Timestamp
  effectiveTo : Option Timestamp := none
  deriving DecidableEq

structure PlanEntitlement where
  enabled : Bool := false
  limitValue : Option ℚ := none
  limitUnit : String := ""
  deriving DecidableEq

inductive OverrideType where
  | enable | disable | limitOverride
  deriving DecidableEq

structure AccountEntitlementOverride where
  account : Nat
  tenantRef : String := ""
  entitlement : String
  overrideType : OverrideType
  value : Option ℚ := none
  status : String := "ACTIVE"
  effectiveFrom : Timestamp
  effectiveTo : Option Timestamp := none
  deriving DecidableEq

-- Entitlements are keyed by their code, plan entitlements by plan version and code.
structure PricingTables where
  plans : Table Uuid AccountPlan := Table.empty
  versions : Table Nat AccountPlanVersion := Table.empty
  assignments : Table Nat AccountPlanAssignment := Table.empty
  entitlements : Table String Entitlement := Table.empty
  planEntitlements : Table (Nat × String) PlanEntitlement := Table.empty
  overrides : Table Nat AccountEntitlementOverride := Table.empty

inductive AccessState where
  | deny | limited | allow
  deriving DecidableEq

inductive DecisionSource where
  | defaultDeny | globalSafety | legacyRestriction | accountOverride | plan
  deriving DecidableEq

structure EntitlementDecision where
  entitlementCode : String
  state : AccessState
  limit : Option ℚ
  effectivePolicyVersion : String
  limitUnit : String := ""
  source : DecisionSource := .defaultDeny
  deriving DecidableEq

def denied (code policyVersion : String) (source : DecisionSource) : EntitlementDecision :=
  { entitlementCode := code, state := .deny, limit := none, effectivePolicyVersion := policyVersion, source }

-- effective_from__lte=at and (effective_to null or effective_to__gt=at)
def within (effectiveFrom : Timestamp) (effectiveTo : Option Timestamp) (atTime : Timestamp) : Bool :=
  effectiveFrom ≤ atTime && effectiveTo.all (atTime < ·)

def PricingTables.planActive (s : PricingTables) (planVersion : Nat) (atTime : Timestamp) : Bool :=
  (s.versions.find planVersion).any fun v =>
    v.status = .active && within v.effectiveFrom v.effectiveTo atTime &&
      (s.plans.find v.plan).any fun p => p.status = .active && within p.effectiveFrom p.effectiveTo atTime

-- order_by("tenant_ref", "-effective_from", "-pk")
def assignmentKey (row : Nat × AccountPlanAssignment) : Stringᵒᵈ ×ₗ Timestamp ×ₗ Nat :=
  toLex (OrderDual.toDual row.2.tenantRef, toLex (row.2.effectiveFrom, row.1))

def PricingTables.assignmentsOf (s : PricingTables) (account : Nat) (atTime : Timestamp) :
    List (Nat × AccountPlanAssignment) :=
  s.assignments.rows.filter fun row => row.2.account = account && row.2.status = "ACTIVE" &&
    within row.2.effectiveFrom row.2.effectiveTo atTime && s.planActive row.2.planVersion atTime

def currentPlanAssignment (s : PricingTables) (account : Nat) (tenantRef : Option String)
    (atTime : Timestamp) : Option (Nat × AccountPlanAssignment) × Bool :=
  let assignments := s.assignmentsOf account atTime
  match tenantRef with
  | some tenant =>
    (latest (descending assignmentKey) (assignments.filter fun row => row.2.tenantRef = tenant), false)
  | none =>
    let available := (assignments.insertionSort (descending assignmentKey)).take 2
    if available.length = 1 then (available.head?, false) else (none, 1 < available.length)

def globalSafetyCodes : List String := ["REAL_TRADING", "REAL_MONEY", "WITHDRAWALS", "DEPOSITS", "TRANSFERS"]

def PricingTables.entitlementActive (s : PricingTables) (code : String) (atTime : Timestamp) : Bool :=
  (s.entitlements.find code).any fun e => e.status = "ACTIVE" && within e.effectiveFrom e.effectiveTo atTime

-- order_by("-effective_from", "-pk")
def overrideKey (row : Nat × AccountEntitlementOverride) : Timestamp ×ₗ Nat :=
  toLex (row.2.effectiveFrom, row.1)

def PricingTables.overridesOf (s : PricingTables) (account : Nat) (atTime : Timestamp) :
    List (Nat × AccountEntitlementOverride) :=
  s.overrides.rows.filter fun row => row.2.account = account && row.2.status = "ACTIVE" &&
    within row.2.effectiveFrom row.2.effectiveTo atTime

def PricingTables.overridesFor (s : PricingTables) (account : Nat) (code : String) (atTime : Timestamp) :
    List (Nat × AccountEntitlementOverride) :=
  (s.overridesOf account atTime).filter fun row =>
    row.2.entitlement = code && s.entitlementActive code atTime

def restricting (override : AccountEntitlementOverride) : Bool :=
  override.tenantRef = "" && (override.overrideType = .disable || override.overrideType = .limitOverride)

def OverrideType.state : OverrideType → AccessState
  | .disable => .deny
  | .limitOverride => .limited
  | .enable => .allow

def PricingTables.planDecision (s : PricingTables) (code : String) (planVersion : Nat) (atTime : Timestamp) :
    EntitlementDecision :=
  let mapping := (s.planEntitlements.find (planVersion, code)).filter fun mapping =>
    s.entitlementActive code atTime && mapping.enabled
  match mapping with
  | none => denied code ("plan-" ++ toString planVersion) .plan
  | some mapping =>
    { entitlementCode := code
      state := if mapping.limitValue.isSome then .limited else .allow
      limit := mapping.limitValue
      effectivePolicyVersion := "plan-" ++ toString planVersion
      limitUnit := mapping.limitUnit
      source := .plan }

def PricingTables.assignedDecision (s : PricingTables) (account : Nat) (code : String) (atTime : Timestamp)
    (assignment : AccountPlanAssignment) : EntitlementDecision :=
  let overrides := s.overridesFor account code atTime
  let selectedTenant := assignment.tenantRef
  let legacy := latest (descending overrideKey) (overrides.filter fun row => restricting row.2)
  match legacy.filter fun _ => selectedTenant ≠ "" with
  | some legacy => denied code ("override-" ++ toString legacy.1) .legacyRestriction
  | none =>
    match latest (descending overrideKey) (overrides.filter fun row => row.2.tenantRef = selectedTenant) with
    | some override =>
      { entitlementCode := code
        state := override.2.overrideType.state
        limit := override.2.value
        effectivePolicyVersion := "override-" ++ toString override.1
        source := .accountOverride }
    | none => s.planDecision code assignment.planVersion atTime

def resolveEntitlement (s : PricingTables) (account : Nat) (code : String) (atTime : Timestamp)
    (tenantRef : Option String) : EntitlementDecision :=
  if code ∈ globalSafetyCodes then denied code "global-safety-v1" .globalSafety
  else match currentPlanAssignment s account tenantRef atTime with
    | (_, true) => denied code "tenant-ambiguous-v1" .defaultDeny
    | (none, false) => denied code "default-deny-v1" .defaultDeny
    | (some assignment, false) => s.assignedDecision account code atTime assignment.2

def PricingTables.listedCodes (s : PricingTables) (account : Nat) (tenant : String) (planVersion : Nat)
    (atTime : Timestamp) : List String :=
  let mapped := (s.planEntitlements.rows.filter fun row => row.1.1 = planVersion).map fun row => row.1.2
  let overridden := ((s.overridesOf account atTime).filter fun row =>
    row.2.tenantRef = tenant || restricting row.2).map fun row => row.2.entitlement
  (mapped ++ overridden).dedup

def entitlementDecisions (s : PricingTables) (account : Nat) (tenantRef : Option String) (atTime : Timestamp) :
    List EntitlementDecision :=
  match (currentPlanAssignment s account tenantRef atTime).1 with
  | none => []
  | some assignment =>
    -- str(tenant_ref) of a missing tenant is the text None.
    let codes := s.listedCodes account (tenantRef.getD "None") assignment.2.planVersion atTime
    (codes.insertionSort (· ≤ ·)).map fun code => resolveEntitlement s account code atTime tenantRef

end Pricing

end Beyvra
