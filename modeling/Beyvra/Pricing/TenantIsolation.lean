import Beyvra.Pricing.Entitlements

namespace Beyvra

open Relational

namespace Pricing

def visibleTo (tenant tenantRef : String) : Bool := tenantRef = tenant || tenantRef = ""

-- The two states differ only in assignments and overrides of other tenants.
structure SameFor (tenant : String) (s s' : PricingTables) : Prop where
  plans : s.plans = s'.plans
  versions : s.versions = s'.versions
  entitlements : s.entitlements = s'.entitlements
  planEntitlements : s.planEntitlements = s'.planEntitlements
  assignments : ∀ pk, (s.assignments.find pk).filter (visibleTo tenant ·.tenantRef) =
    (s'.assignments.find pk).filter (visibleTo tenant ·.tenantRef)
  overrides : ∀ pk, (s.overrides.find pk).filter (visibleTo tenant ·.tenantRef) =
    (s'.overrides.find pk).filter (visibleTo tenant ·.tenantRef)

section Isolation

variable {tenant : String} {s s' : PricingTables} {account : Nat} {code : String} {atTime : Timestamp}

theorem SameFor.planActive (h : SameFor tenant s s') (planVersion : Nat) :
    s.planActive planVersion atTime = s'.planActive planVersion atTime := by
  simp only [PricingTables.planActive, h.plans, h.versions]

theorem SameFor.entitlementActive (h : SameFor tenant s s') :
    s.entitlementActive code atTime = s'.entitlementActive code atTime := by
  simp only [PricingTables.entitlementActive, h.entitlements]

theorem SameFor.planDecision (h : SameFor tenant s s') (planVersion : Nat) :
    s.planDecision code planVersion atTime = s'.planDecision code planVersion atTime := by
  simp only [PricingTables.planDecision, h.planEntitlements, h.entitlementActive]

theorem SameFor.currentPlanAssignment (h : SameFor tenant s s') :
    currentPlanAssignment s account (some tenant) atTime =
      currentPlanAssignment s' account (some tenant) atTime := by
  simp only [Pricing.currentPlanAssignment, PricingTables.assignmentsOf, h.planActive, List.filter_filter]
  congr 1
  refine latest_descending_congr (Table.mem_filter_rows_congr h.assignments fun x hx => ?_) ?_
  · have htenant : x.2.tenantRef = tenant := by simpa using (Bool.and_eq_true_iff.mp hx).1
    simp [visibleTo, htenant]
  · intro x hx y hy hkey
    have hpk : x.1 = y.1 := congrArg (fun key => (ofLex (ofLex key).2).2) hkey
    exact Table.eq_of_mem_rows (List.mem_filter.mp hx).1 (List.mem_filter.mp hy).1 hpk

-- An override query that keeps only rows of the tenant or of the legacy tenant.
theorem SameFor.latestOverride (h : SameFor tenant s s') (account : Nat) (code : String) (atTime : Timestamp)
    {p : AccountEntitlementOverride → Bool}
    (hp : ∀ o, p o → visibleTo tenant o.tenantRef) :
    latest (descending overrideKey) ((s.overridesFor account code atTime).filter fun row => p row.2) =
      latest (descending overrideKey) ((s'.overridesFor account code atTime).filter fun row => p row.2) := by
  simp only [PricingTables.overridesFor, PricingTables.overridesOf, h.entitlementActive, List.filter_filter]
  refine latest_descending_congr (Table.mem_filter_rows_congr h.overrides fun x hx => ?_) ?_
  · exact hp x.2 (Bool.and_eq_true_iff.mp hx).1
  · intro x hx y hy hkey
    have hpk : x.1 = y.1 := congrArg (fun key => (ofLex key).2) hkey
    exact Table.eq_of_mem_rows (List.mem_filter.mp hx).1 (List.mem_filter.mp hy).1 hpk

theorem visible_of_restricting {o : AccountEntitlementOverride} (h : restricting o) :
    visibleTo tenant o.tenantRef := by
  have hempty : o.tenantRef = "" := by simpa using (Bool.and_eq_true_iff.mp h).1
  simp [visibleTo, hempty]

theorem SameFor.assignedDecision (h : SameFor tenant s s') {assignment : AccountPlanAssignment}
    (htenant : assignment.tenantRef = tenant) :
    s.assignedDecision account code atTime assignment = s'.assignedDecision account code atTime assignment := by
  have hlegacy := h.latestOverride account code atTime
    fun _ => visible_of_restricting
  have hown := h.latestOverride account code atTime
    (p := fun o => o.tenantRef = tenant) fun o ho => by simp [visibleTo, of_decide_eq_true ho]
  simp only [PricingTables.assignedDecision, htenant, hlegacy, hown, h.planDecision]

theorem mem_of_current {assignment : Nat × AccountPlanAssignment} {ambiguous : Bool}
    (h : currentPlanAssignment s account (some tenant) atTime = (some assignment, ambiguous)) :
    assignment.2.tenantRef = tenant ∧ ambiguous = false := by
  obtain ⟨hlatest, rfl⟩ := Prod.mk.inj h
  have hmem := mem_of_latest hlatest
  exact ⟨by simpa using (List.mem_filter.mp hmem).2, rfl⟩

theorem SameFor.resolveEntitlement (h : SameFor tenant s s') :
    resolveEntitlement s account code atTime (some tenant) =
      resolveEntitlement s' account code atTime (some tenant) := by
  unfold Pricing.resolveEntitlement
  split
  · rfl
  rw [h.currentPlanAssignment]
  split
  · rfl
  · rfl
  · next assignment hassignment => exact h.assignedDecision (mem_of_current hassignment).1

end Isolation

section Listing

variable {s : PricingTables} {account : Nat} {code tenant : String} {atTime : Timestamp}

@[simp] theorem entitlementCode_planDecision (planVersion : Nat) :
    (s.planDecision code planVersion atTime).entitlementCode = code := by
  unfold PricingTables.planDecision
  dsimp only
  split <;> rfl

@[simp] theorem entitlementCode_assignedDecision (assignment : AccountPlanAssignment) :
    (s.assignedDecision account code atTime assignment).entitlementCode = code := by
  unfold PricingTables.assignedDecision
  dsimp only
  split
  · rfl
  · split
    · rfl
    · exact entitlementCode_planDecision _

@[simp] theorem entitlementCode_resolveEntitlement (tenantRef : Option String) :
    (resolveEntitlement s account code atTime tenantRef).entitlementCode = code := by
  unfold resolveEntitlement
  split
  · rfl
  split
  · rfl
  · rfl
  · exact entitlementCode_assignedDecision _

theorem mem_listedCodes_of_mapped {planVersion : Nat} {mapping : PlanEntitlement}
    (h : s.planEntitlements.find (planVersion, code) = some mapping) :
    code ∈ s.listedCodes account tenant planVersion atTime := by
  have hrow := Table.mem_rows_iff.mpr h
  refine List.mem_dedup.mpr (List.mem_append_left _ (List.mem_map.mpr ⟨_, List.mem_filter.mpr ⟨hrow, ?_⟩, rfl⟩))
  simp

theorem mem_listedCodes_of_overridden {planVersion : Nat} {row : Nat × AccountEntitlementOverride}
    (h : row ∈ s.overridesFor account code atTime) (htenant : row.2.tenantRef = tenant) :
    code ∈ s.listedCodes account tenant planVersion atTime := by
  obtain ⟨hrow, hcode⟩ := List.mem_filter.mp h
  have hentitlement : row.2.entitlement = code := by simpa using (Bool.and_eq_true_iff.mp hcode).1
  refine List.mem_dedup.mpr (List.mem_append_right _ (List.mem_map.mpr ⟨row, ?_, hentitlement⟩))
  exact List.mem_filter.mpr ⟨hrow, by simp [htenant]⟩

theorem mapped_of_planDecision {planVersion : Nat}
    (h : (s.planDecision code planVersion atTime).state ≠ .deny) :
    ∃ mapping, s.planEntitlements.find (planVersion, code) = some mapping := by
  unfold PricingTables.planDecision at h
  dsimp only at h
  split at h
  · exact absurd rfl h
  · next mapping hmapping => exact ⟨mapping, (Option.filter_eq_some_iff.mp hmapping).1⟩

-- What is not denied rests on an override of the tenant or on an entry of the plan, and both are listed.
theorem mem_listedCodes_of_granted {assignment : AccountPlanAssignment}
    (h : (s.assignedDecision account code atTime assignment).state ≠ .deny) :
    code ∈ s.listedCodes account assignment.tenantRef assignment.planVersion atTime := by
  unfold PricingTables.assignedDecision at h
  dsimp only at h
  split at h
  · exact absurd rfl h
  split at h
  · next override hoverride =>
    obtain ⟨hrow, htenant⟩ := List.mem_filter.mp (mem_of_latest hoverride)
    exact mem_listedCodes_of_overridden hrow (of_decide_eq_true htenant)
  · obtain ⟨mapping, hmapping⟩ := mapped_of_planDecision h
    exact mem_listedCodes_of_mapped hmapping

theorem assigned_of_granted (h : (resolveEntitlement s account code atTime (some tenant)).state ≠ .deny) :
    ∃ assignment, (currentPlanAssignment s account (some tenant) atTime).1 = some assignment ∧
      assignment.2.tenantRef = tenant ∧
      (s.assignedDecision account code atTime assignment.2).state ≠ .deny := by
  unfold resolveEntitlement at h
  split at h
  · exact absurd rfl h
  split at h
  · exact absurd rfl h
  · exact absurd rfl h
  · next assignment hassignment =>
    exact ⟨assignment, congrArg Prod.fst hassignment, (mem_of_current hassignment).1, h⟩

theorem filter_eq_singleton {codes : List String} (hnodup : codes.Nodup) (hmem : code ∈ codes) :
    codes.filter (· = code) = [code] := by
  rw [List.filter_eq, List.count_eq_one_of_mem hnodup hmem]
  rfl

theorem listing_of_granted (h : (resolveEntitlement s account code atTime (some tenant)).state ≠ .deny) :
    (entitlementDecisions s account (some tenant) atTime).filter (·.entitlementCode = code) =
      [resolveEntitlement s account code atTime (some tenant)] := by
  obtain ⟨assignment, hassignment, htenant, hgranted⟩ := assigned_of_granted h
  have hlisted := mem_listedCodes_of_granted hgranted
  rw [htenant] at hlisted
  unfold entitlementDecisions
  simp only [hassignment, Option.getD_some, List.filter_map, Function.comp_def,
    entitlementCode_resolveEntitlement]
  have hperm := List.perm_insertionSort (· ≤ ·) (s.listedCodes account tenant assignment.2.planVersion atTime)
  rw [filter_eq_singleton (hperm.nodup_iff.mpr (List.nodup_dedup _)) (hperm.mem_iff.mpr hlisted)]
  rfl

end Listing

theorem entitlement_isolation (account : Nat) (code : String) (atTime : Timestamp) (tenant : String) :
    (∀ s s', SameFor tenant s s' →
      resolveEntitlement s account code atTime (some tenant) =
        resolveEntitlement s' account code atTime (some tenant)) ∧
    ∀ s, (resolveEntitlement s account code atTime (some tenant)).state ≠ .deny →
      (entitlementDecisions s account (some tenant) atTime).filter (·.entitlementCode = code) =
        [resolveEntitlement s account code atTime (some tenant)] :=
  ⟨fun _ _ => SameFor.resolveEntitlement, fun _ => listing_of_granted⟩

def newsPlan : PricingTables where
  plans := Table.empty.put "plan" { status := .active, effectiveFrom := 0 }
  versions := Table.empty.put 1 { plan := "plan", status := .active, effectiveFrom := 0 }
  assignments := Table.empty.put 1 { account := 5, tenantRef := "acme", planVersion := 1, effectiveFrom := 0 }
  entitlements := Table.empty.put "NEWS" { effectiveFrom := 0 }
  planEntitlements := Table.empty.put (1, "NEWS") { enabled := true }

def newsPlanDisabledElsewhere : PricingTables :=
  let disable : AccountEntitlementOverride :=
    { account := 5, tenantRef := "umbrella", entitlement := "NEWS", overrideType := .disable, effectiveFrom := 0 }
  { newsPlan with overrides := Table.empty.put 1 disable }

theorem sameFor_newsPlan : SameFor "acme" newsPlan newsPlanDisabledElsewhere where
  plans := rfl
  versions := rfl
  entitlements := rfl
  planEntitlements := rfl
  assignments _ := rfl
  overrides pk := by
    simp only [newsPlanDisabledElsewhere, newsPlan, Table.find_put, Table.find_empty]
    split <;> rfl

theorem entitlement_isolation_news :
    resolveEntitlement newsPlan 5 "NEWS" 3 (some "acme") =
        resolveEntitlement newsPlanDisabledElsewhere 5 "NEWS" 3 (some "acme") ∧
      (entitlementDecisions newsPlan 5 (some "acme") 3).filter (·.entitlementCode = "NEWS") =
        [resolveEntitlement newsPlan 5 "NEWS" 3 (some "acme")] :=
  ⟨(entitlement_isolation 5 "NEWS" 3 "acme").1 _ _ sameFor_newsPlan,
    (entitlement_isolation 5 "NEWS" 3 "acme").2 newsPlan (by decide +kernel)⟩

end Pricing

end Beyvra
