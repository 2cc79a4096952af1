import Mathlib.Data.String.Basic
import Mathlib.Data.Prod.Lex
import Beyvra.Foundation.Integers
import Beyvra.Numeric.HalfOpen
import Beyvra.Relational.SortedBy
import Beyvra.Text.IsoDate

namespace Beyvra

open Relational Numeric

namespace ReferenceData

def instantOf (date : Nat × Nat × Nat) : Timestamp :=
  (IsoDate.ordinalOf date - IsoDate.ordinalOf (1970, 1, 1) : Int) * microsecondsPerDay

-- What stands for the end of a mapping that has none
def openEnd : Timestamp := instantOf (9999, 12, 31)

structure ProviderSymbolMapping where
  id : Nat
  providerId : String
  providerSymbol : String
  product : String
  instrument : Uuid
  effective : HalfOpen Timestamp

namespace ProviderSymbolMapping

variable (m : ProviderSymbolMapping)

def effectiveFrom : Timestamp := m.effective.start

def effectiveTo : Option Timestamp := m.effective.stop

def SameKey (m o : ProviderSymbolMapping) : Prop :=
  o.providerId = m.providerId ∧ o.product = m.product ∧ o.providerSymbol = m.providerSymbol

instance (m o : ProviderSymbolMapping) : Decidable (m.SameKey o) := inferInstanceAs (Decidable (_ ∧ _))

end ProviderSymbolMapping

structure InstrumentVersion where
  instrument : Uuid
  effectiveTo : Option Timestamp

structure MarketDataObservation where
  observationId : Uuid
  instrument : Uuid
  payloadHash : String
  mapping : Nat

structure ReferenceDataAudit where
  entityType : String
  entityRef : String

-- The tables; of one key at most one mapping has no end (reference_one_current_provider_symbol).
structure Tables where
  mappings : List ProviderSymbolMapping
  instruments : List Uuid
  versions : List InstrumentVersion
  observations : List MarketDataObservation
  audits : List ReferenceDataAudit
  distinct : (mappings.map (·.id)).Nodup
  oneCurrent : ∀ m ∈ mappings, ∀ o ∈ mappings, m.SameKey o → m.effectiveTo = none → o.effectiveTo = none → m = o

inductive Check where
  | providerMappingOverlap | currentInstrumentVersionCount | mappingInstrumentMismatch | missingPayloadHash
  | missingAudit
  deriving DecidableEq

structure Violation where
  check : Check
  entityRef : String
  observed : Option Nat := none
  deriving DecidableEq

structure Report where
  passed : Bool
  checks : Nat
  violations : List Violation

namespace Tables

variable (db : Tables)

def overlaps (m : ProviderSymbolMapping) : List ProviderSymbolMapping :=
  db.mappings.filter fun o =>
    m.SameKey o ∧ o.effectiveFrom < m.effectiveTo.getD openEnd ∧ (∀ e ∈ o.effectiveTo, m.effectiveFrom < e) ∧
      o.id ≠ m.id

def orderedMappings : List ProviderSymbolMapping :=
  sortedBy (fun m => toLex (m.providerId, toLex (m.providerSymbol, m.effectiveFrom))) db.mappings

def overlapViolations : List Violation :=
  db.orderedMappings.filterMap fun m =>
    if db.overlaps m ≠ [] then some ⟨.providerMappingOverlap, toString m.id, none⟩ else none

def versionViolations : List Violation :=
  db.instruments.filterMap fun instrument =>
    let current := (db.versions.filter fun v => v.instrument = instrument ∧ v.effectiveTo = none).length
    if current ≠ 1 then some ⟨.currentInstrumentVersionCount, instrument, some current⟩ else none

def mismatched (o : MarketDataObservation) : Bool :=
  (db.mappings.find? fun m => m.id = o.mapping).any fun m => m.instrument ≠ o.instrument

def observationViolations (check : Check) (failing : MarketDataObservation → Bool) : List Violation :=
  (db.observations.filter failing).map fun o => ⟨check, o.observationId, none⟩

def auditedRefs : List String :=
  (db.audits.filter fun a => a.entityType = "MARKET_DATA_OBSERVATION").map (·.entityRef)

def runReferenceDataReconciliation : Report :=
  let violations := db.overlapViolations ++ db.versionViolations ++
    db.observationViolations .mappingInstrumentMismatch db.mismatched ++
    db.observationViolations .missingPayloadHash (fun o => o.payloadHash = "") ++
    db.observationViolations .missingAudit fun o => o.observationId ∉ db.auditedRefs
  ⟨violations = [], 5, violations⟩

def inEffect (providerId providerSymbol product : String) (at_ : Timestamp) : List ProviderSymbolMapping :=
  db.mappings.filter fun m =>
    m.providerId = providerId ∧ m.providerSymbol = providerSymbol ∧ m.product = product ∧ m.effectiveFrom ≤ at_ ∧
      ∀ e ∈ m.effectiveTo, at_ < e

-- Nothing where it raises ValidationError
def resolveProviderSymbol (providerId providerSymbol product : String) (at_ : Timestamp) :
    Option ProviderSymbolMapping :=
  match db.inEffect providerId providerSymbol product at_ with
  | [m] => some m
  | _ => none

-- `m` and another mapping of its key are in effect at one time; a mapping that has no end is only
-- compared with those that start before `openEnd`.
def Conflicts (m : ProviderSymbolMapping) (compared : ProviderSymbolMapping → Prop) : Prop :=
  ∃ o ∈ db.mappings, o ≠ m ∧ m.SameKey o ∧ compared o ∧ m.effective.Meets o.effective

def Reported (m : ProviderSymbolMapping) : Prop :=
  ⟨.providerMappingOverlap, toString m.id, none⟩ ∈ db.runReferenceDataReconciliation.violations

def ReportsOverlap : Prop :=
  ∃ v ∈ db.runReferenceDataReconciliation.violations, v.check = .providerMappingOverlap

section Overlaps

variable {db} {m o : ProviderSymbolMapping}

theorem id_injective (hm : m ∈ db.mappings) (ho : o ∈ db.mappings) (h : o.id = m.id) : o = m :=
  List.inj_on_of_nodup_map db.distinct ho hm h

theorem mem_overlaps (hm : m ∈ db.mappings) : o ∈ db.overlaps m ↔
    o ∈ db.mappings ∧ o ≠ m ∧ m.SameKey o ∧ (m.effectiveTo = none → o.effectiveFrom < openEnd) ∧
      m.effective.Meets o.effective := by
  have hne (ho : o ∈ db.mappings) : o.id ≠ m.id ↔ o ≠ m :=
    not_congr ⟨id_injective hm ho, fun h => h ▸ rfl⟩
  have hbound : o.effectiveFrom < m.effectiveTo.getD openEnd ↔
      (m.effectiveTo = none → o.effectiveFrom < openEnd) ∧ ∀ e ∈ m.effectiveTo, o.effectiveFrom < e := by
    cases m.effectiveTo <;> simp
  rw [overlaps, List.mem_filter, decide_eq_true_eq, hbound, HalfOpen.meets_iff_bounds]
  constructor
  · rintro ⟨ho, hkey, ⟨hopen, hstop⟩, hstart, hid⟩
    exact ⟨ho, (hne ho).mp hid, hkey, hopen, hstop, hstart⟩
  · rintro ⟨ho, hother, hkey, hopen, hstop, hstart⟩
    exact ⟨ho, hkey, ⟨hopen, hstop⟩, hstart, (hne ho).mpr hother⟩

theorem mem_violations {ref : String} :
    ⟨.providerMappingOverlap, ref, none⟩ ∈ db.runReferenceDataReconciliation.violations ↔
      ∃ m ∈ db.mappings, db.overlaps m ≠ [] ∧ toString m.id = ref := by
  have hordered (m : ProviderSymbolMapping) : m ∈ db.orderedMappings ↔ m ∈ db.mappings := perm_sortedBy.mem_iff
  have hfirst : ⟨.providerMappingOverlap, ref, none⟩ ∈ db.runReferenceDataReconciliation.violations ↔
      ⟨.providerMappingOverlap, ref, none⟩ ∈ db.overlapViolations := by
    simp [runReferenceDataReconciliation, versionViolations, observationViolations]
  rw [hfirst, overlapViolations, List.mem_filterMap]
  refine exists_congr fun m => and_congr (hordered m) ?_
  split_ifs with h
  · simp [h]
  · simp [h]

theorem reported_iff (hm : m ∈ db.mappings) : db.Reported m ↔
    db.Conflicts m fun o => m.effectiveTo = none → o.effectiveFrom < openEnd := by
  have hoverlaps : db.overlaps m ≠ [] ↔ db.Conflicts m fun o => m.effectiveTo = none → o.effectiveFrom < openEnd := by
    rw [ne_eq, List.eq_nil_iff_forall_not_mem, not_forall_not]
    exact exists_congr fun o => mem_overlaps hm
  rw [Reported, mem_violations, ← hoverlaps]
  constructor
  · rintro ⟨m', hm', hne, hid⟩
    obtain rfl := id_injective hm hm' (toString_injective hid)
    exact hne
  · exact fun h => ⟨m, hm, h, rfl⟩

end Overlaps

section Times

variable {db} {m o : ProviderSymbolMapping} {providerId providerSymbol product : String} {at_ : Timestamp}

theorem mem_inEffect : m ∈ db.inEffect providerId providerSymbol product at_ ↔ m ∈ db.mappings ∧
    m.providerId = providerId ∧ m.providerSymbol = providerSymbol ∧ m.product = product ∧ m.effective.Contains at_ := by
  rw [inEffect, List.mem_filter, decide_eq_true_eq]
  rfl

theorem inEffect_single_iff : (db.inEffect providerId providerSymbol product at_).length ≤ 1 ↔
    ∀ m ∈ db.inEffect providerId providerSymbol product at_, ∀ o ∈ db.inEffect providerId providerSymbol product at_,
      o = m := by
  have hnodup : (db.inEffect providerId providerSymbol product at_).Nodup := db.distinct.of_map.filter _
  generalize db.inEffect providerId providerSymbol product at_ = found at hnodup
  constructor
  · intro hlength m hm o ho
    match found, hlength with
    | [m'], _ => rw [List.mem_singleton.mp hm, List.mem_singleton.mp ho]
  · intro hall
    match found, hnodup with
    | [], _ => exact Nat.zero_le 1
    | [_], _ => exact le_rfl
    | m :: o :: rest, hnodup =>
      have heq : o = m := hall m (by simp) o (by simp)
      exact absurd heq (List.ne_of_not_mem_cons (List.nodup_cons.mp hnodup).1).symm

theorem resolve_of_single (h : (db.inEffect providerId providerSymbol product at_).length ≤ 1) :
    db.resolveProviderSymbol providerId providerSymbol product at_ =
      (db.inEffect providerId providerSymbol product at_).head? := by
  unfold resolveProviderSymbol
  match db.inEffect providerId providerSymbol product at_, h with
  | [], _ => rfl
  | [_], _ => rfl

theorem reportsOverlap_iff : db.ReportsOverlap ↔ ∃ m ∈ db.mappings, db.Reported m := by
  constructor
  · rintro ⟨v, hv, hcheck⟩
    have hfirst : v ∈ db.overlapViolations := by
      simp only [runReferenceDataReconciliation, List.mem_append] at hv
      rcases hv with (((hv | hv) | hv) | hv) | hv
      · exact hv
      · obtain ⟨instrument, -, hv⟩ := List.mem_filterMap.mp hv
        dsimp only at hv
        split_ifs at hv
        obtain rfl := Option.some.inj hv
        exact nomatch hcheck
      all_goals
        obtain ⟨observation, -, rfl⟩ := List.mem_map.mp hv
        exact nomatch hcheck
    obtain ⟨m, hm, hv⟩ := List.mem_filterMap.mp hfirst
    split_ifs at hv with hoverlaps
    obtain rfl := Option.some.inj hv
    have hmem : m ∈ db.mappings := perm_sortedBy.mem_iff.mp hm
    exact ⟨m, hmem, mem_violations.mpr ⟨m, hmem, hoverlaps, rfl⟩⟩
  · rintro ⟨m, -, hreported⟩
    exact ⟨_, hreported, rfl⟩

-- Of two mappings of a key that meet, one has an end, and that one is reported.
theorem quiet_iff_single {P : Timestamp → Prop} (hmeets : ∀ m ∈ db.mappings, ∀ o ∈ db.mappings,
    m.effective.Meets o.effective → ∃ t, P t ∧ m.effective.Contains t ∧ o.effective.Contains t) :
    ¬db.ReportsOverlap ↔ ∀ providerId providerSymbol product at_, P at_ →
      (db.inEffect providerId providerSymbol product at_).length ≤ 1 := by
  rw [reportsOverlap_iff]
  constructor
  · rintro hquiet providerId providerSymbol product t -
    refine inEffect_single_iff.mpr fun m hm o ho => ?_
    obtain ⟨hmrow, rfl, rfl, rfl, hmt⟩ := mem_inEffect.mp hm
    obtain ⟨horow, hprovider, hsymbol, hproduct, hot⟩ := mem_inEffect.mp ho
    by_contra hne
    have hquiet' (m o : ProviderSymbolMapping) (hm : m ∈ db.mappings) (ho : o ∈ db.mappings) (hne : o ≠ m)
        (hkey : m.SameKey o) (hmeets : m.effective.Meets o.effective) : m.effectiveTo = none := by
      by_contra hstop
      exact hquiet ⟨m, hm, (reported_iff hm).mpr ⟨o, ho, hne, hkey, fun h => absurd h hstop, hmeets⟩⟩
    have hkey : m.SameKey o := ⟨hprovider, hproduct, hsymbol⟩
    have hkey' : o.SameKey m := ⟨hprovider.symm, hproduct.symm, hsymbol.symm⟩
    refine hne (db.oneCurrent m hmrow o horow hkey ?_ ?_).symm
    · exact hquiet' m o hmrow horow hne hkey ⟨t, hmt, hot⟩
    · exact hquiet' o m horow hmrow (Ne.symm hne) hkey' ⟨t, hot, hmt⟩
  · rintro hsingle ⟨m, hm, hreported⟩
    obtain ⟨o, ho, hne, ⟨hprovider, hproduct, hsymbol⟩, -, hmeet⟩ := (reported_iff hm).mp hreported
    obtain ⟨t, ht, hmt, hot⟩ := hmeets m hm o ho hmeet
    have hone := inEffect_single_iff.mp (hsingle m.providerId m.providerSymbol m.product t ht)
    exact hne (hone m (mem_inEffect.mpr ⟨hm, rfl, rfl, rfl, hmt⟩) o
      (mem_inEffect.mpr ⟨ho, hprovider, hsymbol, hproduct, hot⟩))

end Times

end Tables

def year9999 : Timestamp := instantOf (9999, 1, 1)

open Tables in
theorem overlap_report_sound (db : Tables) :
    (∀ m ∈ db.mappings, db.Reported m ↔
        db.Conflicts m fun o => m.effectiveTo = none → o.effectiveFrom < openEnd) ∧
      (¬db.ReportsOverlap ↔ ∀ providerId providerSymbol product at_,
        (db.inEffect providerId providerSymbol product at_).length ≤ 1) ∧
        (¬db.ReportsOverlap → ∀ providerId providerSymbol product at_,
          db.resolveProviderSymbol providerId providerSymbol product at_ =
            (db.inEffect providerId providerSymbol product at_).head?) ∧
          ((∀ m ∈ db.mappings, m.effectiveFrom < year9999) →
            (∀ m ∈ db.mappings, db.Reported m ↔ ∃ o ∈ db.mappings, o ≠ m ∧ m.SameKey o ∧
              ∃ t < year9999, m.effective.Contains t ∧ o.effective.Contains t) ∧
            (¬db.ReportsOverlap ↔ ∀ providerId providerSymbol product, ∀ at_ < year9999,
              (db.inEffect providerId providerSymbol product at_).length ≤ 1)) := by
  have hquiet : ¬db.ReportsOverlap ↔ ∀ providerId providerSymbol product at_,
      (db.inEffect providerId providerSymbol product at_).length ≤ 1 := by
    have hiff : ¬db.ReportsOverlap ↔ ∀ providerId providerSymbol product at_, True →
        (db.inEffect providerId providerSymbol product at_).length ≤ 1 :=
      quiet_iff_single fun m _ o _ ⟨t, h⟩ => ⟨t, trivial, h⟩
    simpa using hiff
  refine ⟨fun m hm => reported_iff hm, hquiet, fun h _ _ _ _ => resolve_of_single (hquiet.mp h _ _ _ _),
    fun hbefore => ⟨fun m hm => ?_, ?_⟩⟩
  · rw [reported_iff hm]
    refine exists_congr fun o => and_congr_right fun ho => and_congr_right fun _ => and_congr_right fun _ => ?_
    have hopen : o.effectiveFrom < openEnd := (hbefore o ho).trans (by decide)
    rw [and_iff_right fun _ => hopen]
    exact HalfOpen.meets_iff_before (hbefore m hm) (hbefore o ho)
  · exact quiet_iff_single fun m hm o ho hmeet => (HalfOpen.meets_iff_before (hbefore m hm) (hbefore o ho)).mp hmeet

def mappingFrom (id : Nat) (effective : HalfOpen Timestamp) : ProviderSymbolMapping :=
  ⟨id, "feed", "ABC", "MARKET_DATA", "instrument", effective⟩

-- Two mappings of the year 9999, of which the later one has no end
def lastYear : Tables where
  mappings := [mappingFrom 1 ⟨instantOf (9999, 2, 1), some (instantOf (9999, 6, 1)), by decide⟩,
    mappingFrom 2 ⟨instantOf (9999, 3, 1), none, nofun⟩]
  instruments := []
  versions := []
  observations := []
  audits := []
  distinct := by decide
  oneCurrent := by
    intro m hm o ho _ hmopen hoopen
    simp only [List.mem_cons, List.not_mem_nil, or_false] at hm ho
    rcases hm with rfl | rfl
    · exact nomatch hmopen
    · rcases ho with rfl | rfl
      · exact nomatch hoopen
      · rfl

theorem last_year_reported : ¬∀ db : Tables, ¬db.ReportsOverlap ↔ ∀ providerId providerSymbol product,
    ∀ at_ < year9999, (db.inEffect providerId providerSymbol product at_).length ≤ 1 := by
  intro h
  refine (h lastYear).mpr (fun providerId providerSymbol product at_ hat => ?_)
    ⟨⟨.providerMappingOverlap, "1", none⟩, by decide +kernel, rfl⟩
  have hnone : lastYear.inEffect providerId providerSymbol product at_ = [] := by
    rw [List.eq_nil_iff_forall_not_mem]
    intro m hm
    obtain ⟨hm, -, -, -, hstart, -⟩ := Tables.mem_inEffect.mp hm
    have hlate : ∀ m ∈ lastYear.mappings, year9999 ≤ m.effectiveFrom := by decide
    exact absurd (hat.trans_le (hlate m hm)) (not_lt.mpr hstart)
  rw [hnone]
  exact Nat.zero_le 1

end ReferenceData

end Beyvra
