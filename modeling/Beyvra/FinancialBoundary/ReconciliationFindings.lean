import Beyvra.FinancialBoundary.Reconciliation

namespace Beyvra

open Relational

namespace FinancialReconciliation

variable {V : Type}

inductive Sign where
  | raised
  | found (violation : Violation) (reference : String)
  deriving DecidableEq

def ReconciliationFinding.sign (f : ReconciliationFinding V) : Sign := .found f.violation f.reference

structure Keyed (e : ReconciliationEvidence V) : Prop where
  operations : ∀ op ∈ e.applicationOperations, op.reference ≠ ""
  financial : ∀ op ∈ e.financialOperations, op.reference ≠ ""
  domains : ∀ d, (∀ row ∈ e.application d, row.reference ≠ "") ∧ ∀ row ∈ e.financial d, row.reference ≠ ""

-- What the evidence shows whatever the order of its rows.
inductive FixedShows (e : ReconciliationEvidence V) : Sign → Prop
  | unkeyed (h : ¬Keyed e) : FixedShows e .raised
  | duplicate (x : String)
    (h : duplicated e.financialOperations (rowsAt (·.reference) e.financialOperations x) = true) :
    FixedShows e (.found .duplicateFinancialEffect x)
  | event (eventId : Option String) (hmem : eventId ∈ e.receivedEvents) (h : unreceived e eventId = true) :
    FixedShows e (.found .auditGap (eventRef eventId))

def reservationSigns (V : Type) (t : Timestamp) (row : ReservationEvidence)
    (owner : Option ApplicationOperation) : List Sign :=
  match reservationFindings (V := V) t row owner with
  | .ok found => found.map (·.sign)
  | .error _ => [.raised]

-- What the evidence shows of a reference when its last application row is the one given.
inductive OperationShows (e : ReconciliationEvidence V) (t : Timestamp) (x : String)
    (owner : Option ApplicationOperation) : Sign → Prop
  | missing (op : ApplicationOperation) (h : owner = some op) (hrequires : op.requiresFinancialOperation = true)
    (hnone : ∀ f ∈ e.financialOperations, f.reference ≠ x) :
    OperationShows e t x owner (.found .missingFinancialOperation x)
  | gap (op : ApplicationOperation) (h : owner = some op) (hgap : operationGap e op = true) :
    OperationShows e t x owner (.found .auditGap x)
  | reservation (row : ReservationEvidence) (hrow : row ∈ e.reservations) (horder : row.orderRef = x)
    (s : Sign) (hs : s ∈ reservationSigns V t row owner) : OperationShows e t x owner s

def ComparedShows [DecidableEq V] (d : Domain) (x : String) (left right : Option (DomainRow V)) (s : Sign) : Prop :=
  s = .found d.violation x ∧ differs d left right = true

def operationIndex (e : ReconciliationEvidence V) : Table String ApplicationOperation :=
  indexBy (·.reference) e.applicationOperations

def domainIndex (rows : List (DomainRow V)) : Table String (DomainRow V) := indexBy (·.reference) rows

inductive Actual [DecidableEq V] (e : ReconciliationEvidence V) (t : Timestamp) (s : Sign) : Prop
  | fixed (h : FixedShows e s)
  | operation (x : String) (h : OperationShows e t x ((operationIndex e).find x) s)
  | compared (d : Domain) (x : String)
    (h : ComparedShows d x ((domainIndex (e.application d)).find x) ((domainIndex (e.financial d)).find x) s)

section Report

variable {found : List (ReconciliationFinding V)} {f : ReconciliationFinding V} {t : Timestamp} {s : Sign}

theorem find_add (findings : Table (Violation × String) (ReconciliationFinding V))
    (found : List (ReconciliationFinding V)) (k : Violation × String) :
    (found.foldl add findings).find k =
      (findings.find k).or (found.find? fun f => (f.violation, f.reference) = k) := by
  induction found generalizing findings with
  | nil => simp
  | cons f found ih =>
    rw [List.foldl_cons, ih, List.find?_cons]
    unfold add
    by_cases hk : (f.violation, f.reference) = k
    · subst hk
      cases hfind : findings.find (f.violation, f.reference) with
      | none => simp
      | some old => simp [hfind]
    · have hother : (if (findings.find (f.violation, f.reference)).isNone then
          findings.put (f.violation, f.reference) f else findings).find k = findings.find k := by
        split
        · exact Table.find_put_of_ne _ _ (Ne.symm hk)
        · rfl
      rw [hother]
      simp [hk]

theorem mem_report : (∃ f ∈ (report t found).findings, f.sign = s) ↔ ∃ f ∈ found, f.sign = s := by
  have hvalues (g : ReconciliationFinding V) : g ∈ (report t found).findings ↔
      ∃ k, found.find? (fun f => (f.violation, f.reference) = k) = some g := by
    have hmem : g ∈ (report t found).findings ↔ g ∈ (found.foldl add Table.empty).values :=
      List.mem_insertionSort _
    rw [hmem, Table.mem_values_iff]
    simp only [find_add, Table.find_empty, Option.none_or]
  constructor
  · rintro ⟨g, hg, rfl⟩
    obtain ⟨k, hk⟩ := (hvalues g).mp hg
    exact ⟨g, List.mem_of_find?_eq_some hk, rfl⟩
  · rintro ⟨f, hf, rfl⟩
    have hsome : (found.find? fun g => (g.violation, g.reference) = (f.violation, f.reference)).isSome := by
      rw [List.find?_isSome]
      exact ⟨f, hf, by simp⟩
    obtain ⟨g, hg⟩ := Option.isSome_iff_exists.mp hsome
    have hkey : (g.violation, g.reference) = (f.violation, f.reference) := by
      simpa using List.find?_some hg
    obtain ⟨hv, hr⟩ := Prod.mk.inj hkey
    exact ⟨g, (hvalues g).mpr ⟨_, hg⟩, by rw [ReconciliationFinding.sign, hv, hr]; rfl⟩

end Report

section Sections

variable {e : ReconciliationEvidence V} {t : Timestamp} {s : Sign} {d : Domain}

theorem groups_eq_ok {R : Type} {items : List R} {reference : R → String} {g : Table String (List R)} :
    groups items reference = .ok g ↔ (∀ item ∈ items, reference item ≠ "") ∧ g = groupBy reference items := by
  simp only [groups, bind_eq_ok, require_eq_ok, pure_eq_ok, exists_const]
  exact and_congr_right fun _ => eq_comm

theorem singleIndex_eq_ok {R : Type} {items : List R} {reference : R → String} {t : Table String R} :
    singleIndex items reference = .ok t ↔
      (∀ item ∈ items, reference item ≠ "") ∧ t = indexBy reference items := by
  simp only [singleIndex, bind_eq_ok, groups_eq_ok, pure_eq_ok]
  constructor
  · rintro ⟨_, ⟨hkeyed, -⟩, rfl⟩
    exact ⟨hkeyed, rfl⟩
  · rintro ⟨hkeyed, rfl⟩
    exact ⟨_, ⟨hkeyed, rfl⟩, rfl⟩

theorem find_groupBy_eq_none {x : String} :
    (groupBy (·.reference) e.financialOperations).find x = none ↔
      ∀ f ∈ e.financialOperations, f.reference ≠ x := by
  rw [find_groupBy]
  split
  · rename_i hnil
    rw [eq_self, true_iff]
    intro f hf hx
    exact rowsAt_ne_nil.mpr ⟨f, hf, hx⟩ hnil
  · rename_i hrows
    obtain ⟨f, hf, hx⟩ := rowsAt_ne_nil.mp hrows
    exact iff_of_false (Option.some_ne_none _) fun h => h f hf hx

theorem sign_missingOperations :
    (∃ f ∈ missingOperations (V := V) (operationIndex e) (groupBy (·.reference) e.financialOperations),
      f.sign = s) ↔
    ∃ x op, (operationIndex e).find x = some op ∧ op.requiresFinancialOperation = true ∧
      (∀ f ∈ e.financialOperations, f.reference ≠ x) ∧ s = .found .missingFinancialOperation x := by
  simp only [missingOperations, List.mem_map, List.mem_filter, Prod.exists, Table.mem_rows_iff,
    Bool.and_eq_true, Option.isNone_iff_eq_none, find_groupBy_eq_none]
  constructor
  · rintro ⟨_, ⟨x, op, ⟨hfind, hrequires, hnone⟩, rfl⟩, rfl⟩
    exact ⟨x, op, hfind, hrequires, hnone, rfl⟩
  · rintro ⟨x, op, hfind, hrequires, hnone, rfl⟩
    exact ⟨_, ⟨x, op, ⟨hfind, hrequires, hnone⟩, rfl⟩, rfl⟩

theorem sign_operationGaps : (∃ f ∈ operationGaps e (operationIndex e), f.sign = s) ↔
    ∃ x op, (operationIndex e).find x = some op ∧ operationGap e op = true ∧ s = .found .auditGap x := by
  simp only [operationGaps, List.mem_map, List.mem_filter, Prod.exists, Table.mem_rows_iff]
  constructor
  · rintro ⟨_, ⟨x, op, ⟨hfind, hgap⟩, rfl⟩, rfl⟩
    exact ⟨x, op, hfind, hgap, rfl⟩
  · rintro ⟨x, op, hfind, hgap, rfl⟩
    exact ⟨_, ⟨x, op, ⟨hfind, hgap⟩, rfl⟩, rfl⟩

theorem sign_duplicateEffects :
    (∃ f ∈ duplicateEffects e (groupBy (·.reference) e.financialOperations), f.sign = s) ↔
    ∃ x, duplicated e.financialOperations (rowsAt (·.reference) e.financialOperations x) = true ∧
      s = .found .duplicateFinancialEffect x := by
  simp only [duplicateEffects, List.mem_map, List.mem_filter, Prod.exists, Table.mem_rows_iff, find_groupBy]
  constructor
  · rintro ⟨_, ⟨x, rows, ⟨hfind, hduplicated⟩, rfl⟩, rfl⟩
    split at hfind
    · cases hfind
    · obtain rfl := Option.some.inj hfind
      exact ⟨x, hduplicated, rfl⟩
  · rintro ⟨x, hduplicated, rfl⟩
    refine ⟨_, ⟨x, _, ⟨if_neg ?_, hduplicated⟩, rfl⟩, rfl⟩
    rintro hnil
    rw [hnil] at hduplicated
    cases hduplicated

theorem sign_eventGaps : (∃ f ∈ eventGaps e, f.sign = s) ↔
    ∃ eventId ∈ e.receivedEvents, unreceived e eventId = true ∧ s = .found .auditGap (eventRef eventId) := by
  simp only [eventGaps, List.mem_map, List.mem_filter]
  constructor
  · rintro ⟨_, ⟨eventId, ⟨hmem, hunreceived⟩, rfl⟩, rfl⟩
    exact ⟨eventId, hmem, hunreceived, rfl⟩
  · rintro ⟨eventId, hmem, hunreceived, rfl⟩
    exact ⟨_, ⟨eventId, ⟨hmem, hunreceived⟩, rfl⟩, rfl⟩

variable [DecidableEq V]

def comparedFindings (e : ReconciliationEvidence V) (d : Domain) : List (ReconciliationFinding V) :=
  let left := domainIndex (e.application d)
  let right := domainIndex (e.financial d)
  let references := ((left.rows.map Prod.fst ++ right.rows.map Prod.fst).dedup).insertionSort (· ≤ ·)
  (references.filter fun reference => differs d (left.find reference) (right.find reference)).map
    fun reference => finding d.violation reference (.compared (left.find reference) (right.find reference))

theorem compareDomain_eq_ok {found : List (ReconciliationFinding V)} : compareDomain e d = .ok found ↔
    ((∀ row ∈ e.application d, row.reference ≠ "") ∧ ∀ row ∈ e.financial d, row.reference ≠ "") ∧
      found = comparedFindings e d := by
  simp only [compareDomain, bind_eq_ok, singleIndex_eq_ok, pure_eq_ok]
  constructor
  · rintro ⟨_, ⟨hleft, rfl⟩, _, ⟨hright, rfl⟩, rfl⟩
    exact ⟨⟨hleft, hright⟩, rfl⟩
  · rintro ⟨⟨hleft, hright⟩, rfl⟩
    exact ⟨_, ⟨hleft, rfl⟩, _, ⟨hright, rfl⟩, rfl⟩

theorem mem_references {K R : Type} [DecidableEq K] {t : Table K R} {k : K} :
    (∃ p ∈ t.rows, p.1 = k) ↔ t.find k ≠ none := by
  simp only [Prod.exists, Table.mem_rows_iff, Option.ne_none_iff_exists']
  constructor
  · rintro ⟨_, _, h, rfl⟩
    exact ⟨_, h⟩
  · rintro ⟨r, h⟩
    exact ⟨k, r, h, rfl⟩

theorem sign_comparedFindings : (∃ f ∈ comparedFindings e d, f.sign = s) ↔
    ∃ x, ComparedShows d x ((domainIndex (e.application d)).find x) ((domainIndex (e.financial d)).find x) s := by
  simp only [comparedFindings, List.mem_map, List.mem_filter, List.mem_insertionSort, List.mem_dedup,
    List.mem_append, mem_references, ComparedShows]
  constructor
  · rintro ⟨_, ⟨x, ⟨-, hdiffers⟩, rfl⟩, rfl⟩
    exact ⟨x, rfl, hdiffers⟩
  · rintro ⟨x, rfl, hdiffers⟩
    refine ⟨_, ⟨x, ⟨?_, hdiffers⟩, rfl⟩, rfl⟩
    by_contra hnone
    obtain ⟨hleft, hright⟩ := not_or.mp hnone
    rw [not_not.mp hleft, not_not.mp hright] at hdiffers
    cases hdiffers

end Sections

section Reserved

variable {e : ReconciliationEvidence V} {t : Timestamp}

def reserve (e : ReconciliationEvidence V) (t : Timestamp) (row : ReservationEvidence) :
    Except ReconciliationError (List (ReconciliationFinding V)) :=
  reservationFindings t row ((operationIndex e).find row.orderRef)

theorem reserve_raises {row : ReservationEvidence} :
    .raised ∈ reservationSigns V t row ((operationIndex e).find row.orderRef) ↔
      ∀ found, reserve e t row ≠ .ok found := by
  unfold reservationSigns reserve
  cases reservationFindings t row ((operationIndex e).find row.orderRef) with
  | error err => simp
  | ok found => simp [ReconciliationFinding.sign]

theorem sign_reserved {reserved : List (List (ReconciliationFinding V))}
    (hreserved : e.reservations.mapM (reserve e t) = .ok reserved) (v : Violation) (x : String) :
    (∃ f ∈ reserved.flatten, f.sign = .found v x) ↔ ∃ row ∈ e.reservations,
      .found v x ∈ reservationSigns V t row ((operationIndex e).find row.orderRef) := by
  have hsigns {row : ReservationEvidence} {found : List (ReconciliationFinding V)}
      (hok : reserve e t row = .ok found) :
      reservationSigns V t row ((operationIndex e).find row.orderRef) = found.map (·.sign) := by
    unfold reservationSigns
    rw [show reservationFindings t row ((operationIndex e).find row.orderRef) = .ok found from hok]
  constructor
  · rintro ⟨f, hf, hsign⟩
    obtain ⟨found, hfound, hmem⟩ := List.mem_flatten.mp hf
    obtain ⟨row, hrow, hok⟩ := mem_of_mapM hreserved hfound
    refine ⟨row, hrow, ?_⟩
    rw [hsigns hok]
    exact List.mem_map.mpr ⟨f, hmem, hsign⟩
  · rintro ⟨row, hrow, hs⟩
    obtain ⟨found, hfound, hok⟩ := ok_of_mapM hreserved row hrow
    rw [hsigns hok] at hs
    obtain ⟨f, hmem, hsign⟩ := List.mem_map.mp hs
    exact ⟨f, List.mem_flatten.mpr ⟨found, hfound, hmem⟩, hsign⟩

end Reserved

section Reconcile

variable [DecidableEq V] {e : ReconciliationEvidence V} {now t : Timestamp} {asOf : Option Moment} {s : Sign}

def allFindings (e : ReconciliationEvidence V) (reserved : List (List (ReconciliationFinding V))) :
    List (ReconciliationFinding V) :=
  missingOperations (operationIndex e) (groupBy (·.reference) e.financialOperations) ++
    duplicateEffects e (groupBy (·.reference) e.financialOperations) ++ reserved.flatten ++
    (Domain.all.map (comparedFindings e)).flatten ++ operationGaps e (operationIndex e) ++ eventGaps e

theorem Domain.mem_all (d : Domain) : d ∈ Domain.all := by
  cases d <;> decide

theorem reconcile_eq_ok (hresolve : resolve asOf now = .ok t) {r : ReconciliationReport V} :
    reconcileFinancialBoundary now asOf e = .ok r ↔
      Keyed e ∧ ∃ reserved, e.reservations.mapM (reserve e t) = .ok reserved ∧
        r = report t (allFindings e reserved) := by
  unfold reconcileFinancialBoundary
  rw [bind_of_ok hresolve]
  simp only [bind_eq_ok, singleIndex_eq_ok, groups_eq_ok, pure_eq_ok]
  constructor
  · rintro ⟨_, ⟨hoperations, rfl⟩, _, ⟨hfinancial, rfl⟩, reserved, hreserved, compared, hcompared, rfl⟩
    have hdomains (d : Domain) : (∀ row ∈ e.application d, row.reference ≠ "") ∧
        ∀ row ∈ e.financial d, row.reference ≠ "" := by
      obtain ⟨_, -, hok⟩ := ok_of_mapM hcompared d (Domain.mem_all d)
      exact (compareDomain_eq_ok.mp hok).1
    have hall : Domain.all.mapM (compareDomain e) = .ok (Domain.all.map (comparedFindings e)) :=
      mapM_of_ok fun d _ => compareDomain_eq_ok.mpr ⟨hdomains d, rfl⟩
    obtain rfl := Except.ok.inj (hcompared.symm.trans hall)
    exact ⟨⟨hoperations, hfinancial, hdomains⟩, reserved, hreserved, rfl⟩
  · rintro ⟨hkeyed, reserved, hreserved, rfl⟩
    exact ⟨_, ⟨hkeyed.operations, rfl⟩, _, ⟨hkeyed.financial, rfl⟩, reserved, hreserved, _,
      mapM_of_ok fun d _ => compareDomain_eq_ok.mpr ⟨hkeyed.domains d, rfl⟩, rfl⟩

theorem actual_raised : Actual e t .raised ↔
    ¬Keyed e ∨ ∃ row ∈ e.reservations, ∀ found, reserve e t row ≠ .ok found := by
  constructor
  · rintro (h | ⟨x, h⟩ | ⟨d, x, ⟨h, -⟩⟩)
    · cases h with
      | unkeyed h => exact .inl h
    · cases h with
      | reservation row hrow horder _ hs =>
        subst horder
        exact .inr ⟨row, hrow, reserve_raises.mp hs⟩
    · cases h
  · rintro (h | ⟨row, hrow, hraises⟩)
    · exact .fixed (.unkeyed h)
    · exact .operation row.orderRef (.reservation row hrow rfl _ (reserve_raises.mpr hraises))

theorem sign_allFindings {reserved : List (List (ReconciliationFinding V))}
    (hreserved : e.reservations.mapM (reserve e t) = .ok reserved) (v : Violation) (x : String) :
    (∃ f ∈ allFindings e reserved, f.sign = .found v x) ↔ Actual e t (.found v x) := by
  have hcompared : (∃ f ∈ (Domain.all.map (comparedFindings e)).flatten, f.sign = .found v x) ↔
      ∃ d, ∃ f ∈ comparedFindings e d, f.sign = .found v x := by
    constructor
    · rintro ⟨f, hf, hsign⟩
      obtain ⟨found, hfound, hmem⟩ := List.mem_flatten.mp hf
      obtain ⟨d, -, rfl⟩ := List.mem_map.mp hfound
      exact ⟨d, f, hmem, hsign⟩
    · rintro ⟨d, f, hmem, hsign⟩
      exact ⟨f, List.mem_flatten.mpr ⟨_, List.mem_map.mpr ⟨d, Domain.mem_all d, rfl⟩, hmem⟩, hsign⟩
  unfold allFindings
  simp only [List.mem_append, or_and_right, exists_or, sign_missingOperations, sign_duplicateEffects,
    sign_reserved hreserved, hcompared, sign_comparedFindings, sign_operationGaps, sign_eventGaps]
  constructor
  · rintro (((((⟨y, op, hfind, hrequires, hnone, hs⟩ | ⟨y, hduplicated, hs⟩) | ⟨row, hrow, hs⟩) |
      ⟨d, y, hs⟩) | ⟨y, op, hfind, hgap, hs⟩) | ⟨eventId, hmem, hunreceived, hs⟩)
    · exact hs ▸ .operation y (.missing op hfind hrequires hnone)
    · exact hs ▸ .fixed (.duplicate y hduplicated)
    · exact .operation row.orderRef (.reservation row hrow rfl _ hs)
    · exact .compared d y hs
    · exact hs ▸ .operation y (.gap op hfind hgap)
    · exact hs ▸ .fixed (.event eventId hmem hunreceived)
  · rintro (h | ⟨y, h⟩ | ⟨d, y, h⟩)
    · cases h with
      | duplicate _ hduplicated => exact .inl (.inl (.inl (.inl (.inr ⟨x, hduplicated, rfl⟩))))
      | event eventId hmem hunreceived => exact .inr ⟨eventId, hmem, hunreceived, rfl⟩
    · cases h with
      | missing op hfind hrequires hnone =>
        exact .inl (.inl (.inl (.inl (.inl ⟨x, op, hfind, hrequires, hnone, rfl⟩))))
      | gap op hfind hgap => exact .inl (.inr ⟨x, op, hfind, hgap, rfl⟩)
      | reservation row hrow horder _ hs =>
        subst horder
        exact .inl (.inl (.inl (.inr ⟨row, hrow, hs⟩)))
    · exact .inl (.inl (.inr ⟨d, y, h⟩))

theorem reconcile_cases (hresolve : resolve asOf now = .ok t) :
    (∃ r, reconcileFinancialBoundary now asOf e = .ok r ∧ ¬Actual e t .raised ∧
      ∀ v x, (∃ f ∈ r.findings, f.sign = .found v x) ↔ Actual e t (.found v x)) ∨
    (∃ err, reconcileFinancialBoundary now asOf e = .error err) ∧ Actual e t .raised := by
  by_cases hraised : Actual e t .raised
  · refine .inr ⟨?_, hraised⟩
    cases hr : reconcileFinancialBoundary now asOf e with
    | error err => exact ⟨err, rfl⟩
    | ok r =>
      obtain ⟨hkeyed, reserved, hreserved, -⟩ := (reconcile_eq_ok hresolve).mp hr
      rcases actual_raised.mp hraised with hunkeyed | ⟨row, hrow, hraises⟩
      · exact absurd hkeyed hunkeyed
      · obtain ⟨found, -, hok⟩ := ok_of_mapM hreserved row hrow
        exact absurd hok (hraises found)
  · have hsafe : Keyed e ∧ ∀ row ∈ e.reservations, ∃ found, reserve e t row = .ok found := by
      rw [actual_raised, not_or] at hraised
      refine ⟨not_not.mp hraised.1, fun row hrow => ?_⟩
      by_contra hnone
      exact hraised.2 ⟨row, hrow, fun found hok => hnone ⟨found, hok⟩⟩
    obtain ⟨reserved, hreserved⟩ := exists_mapM hsafe.2
    refine .inl ⟨_, (reconcile_eq_ok hresolve).mpr ⟨hsafe.1, reserved, hreserved, rfl⟩, hraised, ?_⟩
    intro v x
    exact mem_report.trans (sign_allFindings hreserved v x)

end Reconcile

end FinancialReconciliation

end Beyvra
