import Beyvra.FinancialBoundary.ReconciliationFindings

namespace Beyvra

open Relational

namespace FinancialReconciliation

variable {V : Type} [DecidableEq V]

-- What some choice of a last row for each reference shows, and what every choice shows.
inductive Shown (e : ReconciliationEvidence V) (t : Timestamp) (s : Sign) : Prop
  | fixed (h : FixedShows e s)
  | operation (x : String) (owner : Option ApplicationOperation)
    (hlast : Candidate (·.reference) e.applicationOperations x owner) (h : OperationShows e t x owner s)
  | compared (d : Domain) (x : String) (left right : Option (DomainRow V))
    (hleft : Candidate (·.reference) (e.application d) x left)
    (hright : Candidate (·.reference) (e.financial d) x right) (h : ComparedShows d x left right s)

inductive Certain (e : ReconciliationEvidence V) (t : Timestamp) (s : Sign) : Prop
  | fixed (h : FixedShows e s)
  | operation (x : String)
    (h : ∀ owner, Candidate (·.reference) e.applicationOperations x owner → OperationShows e t x owner s)
  | compared (d : Domain) (x : String)
    (h : ∀ left right, Candidate (·.reference) (e.application d) x left →
      Candidate (·.reference) (e.financial d) x right → ComparedShows d x left right s)

structure Permuted (e e' : ReconciliationEvidence V) : Prop where
  applicationOperations : e.applicationOperations.Perm e'.applicationOperations
  financialOperations : e.financialOperations.Perm e'.financialOperations
  reservations : e.reservations.Perm e'.reservations
  application : ∀ d, (e.application d).Perm (e'.application d)
  financial : ∀ d, (e.financial d).Perm (e'.financial d)
  outbox : e.outbox.Perm e'.outbox
  receivedEvents : e.receivedEvents.Perm e'.receivedEvents
  inbox : e.inbox.Perm e'.inbox
  audits : e.audits.Perm e'.audits

def codes (r : Except ReconciliationError (ReconciliationReport V)) : Option (Set (Violation × String)) :=
  r.toOption.map fun report => {code | ∃ f ∈ report.findings, (f.violation, f.reference) = code}

def matched : List Domain := [.settlements, .deposits, .withdrawals, .transfers]

def OneToOne (e : ReconciliationEvidence V) : Prop :=
  ∀ d ∈ matched, ∀ row ∈ e.application d ++ e.financial d, ∃ left right,
    rowsAt (·.reference) (e.application d) row.reference = [left] ∧
      rowsAt (·.reference) (e.financial d) row.reference = [right] ∧ same left right d.keys = true

structure Reconciles (e : ReconciliationEvidence V) (now : Timestamp) (asOf : Option Moment) : Prop where
  permutation : ∀ e', Permuted e e' →
    codes (reconcileFinancialBoundary now asOf e') = codes (reconcileFinancialBoundary now asOf e)
  ready : ∀ report, reconcileFinancialBoundary now asOf e = .ok report → report.activationReady = true →
    OneToOne e

structure Decided (e : ReconciliationEvidence V) (t : Timestamp) : Prop where
  raised : Shown e t .raised → Certain e t .raised
  found : ¬Certain e t .raised → ∀ v x, Shown e t (.found v x) → Certain e t (.found v x)

def SingleRows (e : ReconciliationEvidence V) : Prop :=
  ∀ d ∈ matched, ((e.application d).map (·.reference)).Nodup ∧ ((e.financial d).map (·.reference)).Nodup

section Choice

variable {e e' : ReconciliationEvidence V} {t : Timestamp} {s : Sign} {x : String}
  {owner : Option ApplicationOperation}

theorem Certain.actual (h : Certain e t s) : Actual e t s := by
  rcases h with h | ⟨x, h⟩ | ⟨d, x, h⟩
  · exact .fixed h
  · exact .operation x (h _ (candidate_indexBy _ _ _))
  · exact .compared d x (h _ _ (candidate_indexBy _ _ _) (candidate_indexBy _ _ _))

theorem Actual.shown (h : Actual e t s) : Shown e t s := by
  rcases h with h | ⟨x, h⟩ | ⟨d, x, h⟩
  · exact .fixed h
  · exact .operation x _ (candidate_indexBy _ _ _) h
  · exact .compared d x _ _ (candidate_indexBy _ _ _) (candidate_indexBy _ _ _) h

end Choice

section Permute

variable {e e' : ReconciliationEvidence V} {t : Timestamp} {s : Sign} {x : String}
  {owner : Option ApplicationOperation}

omit [DecidableEq V] in
theorem Permuted.symm (h : Permuted e e') : Permuted e' e where
  applicationOperations := h.applicationOperations.symm
  financialOperations := h.financialOperations.symm
  reservations := h.reservations.symm
  application d := (h.application d).symm
  financial d := (h.financial d).symm
  outbox := h.outbox.symm
  receivedEvents := h.receivedEvents.symm
  inbox := h.inbox.symm
  audits := h.audits.symm

omit [DecidableEq V] in
theorem Permuted.keyed (h : Permuted e e') (hk : Keyed e) : Keyed e' where
  operations op hop := hk.operations op (h.applicationOperations.mem_iff.mpr hop)
  financial op hop := hk.financial op (h.financialOperations.mem_iff.mpr hop)
  domains d := ⟨fun row hrow => (hk.domains d).1 row ((h.application d).mem_iff.mpr hrow),
    fun row hrow => (hk.domains d).2 row ((h.financial d).mem_iff.mpr hrow)⟩

theorem effectCount_perm {rows rows' : List FinancialOperation} (h : rows.Perm rows')
    (effectId : Option String) : effectCount rows effectId = effectCount rows' effectId :=
  (h.filter _).length_eq

theorem duplicated_perm {all all' rows rows' : List FinancialOperation} (hall : all.Perm all')
    (h : rows.Perm rows') : duplicated all rows = duplicated all' rows' := by
  unfold duplicated
  simp only [h.length_eq, effectCount_perm hall, h.any_eq]

omit [DecidableEq V] in
theorem Permuted.fixed (h : Permuted e e') (hs : FixedShows e s) : FixedShows e' s := by
  cases hs with
  | unkeyed hunkeyed => exact .unkeyed fun hk => hunkeyed (h.symm.keyed hk)
  | duplicate x hx =>
    refine .duplicate x ?_
    rwa [← duplicated_perm h.financialOperations (rowsAt_perm h.financialOperations)]
  | event eventId hmem hx =>
    refine .event eventId (h.receivedEvents.mem_iff.mp hmem) ?_
    simpa only [unreceived, (h.inbox.map str).mem_iff] using hx

omit [DecidableEq V] in
theorem Permuted.gap (h : Permuted e e') (op : ApplicationOperation) :
    operationGap e op = operationGap e' op := by
  simp only [operationGap, (h.audits.map _).mem_iff, (h.outbox.map str).mem_iff]

omit [DecidableEq V] in
theorem Permuted.operation (h : Permuted e e') (hs : OperationShows e t x owner s) :
    OperationShows e' t x owner s := by
  cases hs with
  | missing op howner hrequires hnone =>
    exact .missing op howner hrequires fun f hf => hnone f (h.financialOperations.mem_iff.mpr hf)
  | gap op howner hgap => exact .gap op howner (h.gap op ▸ hgap)
  | reservation row hrow horder _ hs => exact .reservation row (h.reservations.mem_iff.mp hrow) horder _ hs

theorem Permuted.shown (h : Permuted e e') (hs : Shown e t s) : Shown e' t s := by
  rcases hs with hs | ⟨x, owner, hlast, hs⟩ | ⟨d, x, left, right, hleft, hright, hs⟩
  · exact .fixed (h.fixed hs)
  · exact .operation x owner (hlast.perm h.applicationOperations) (h.operation hs)
  · exact .compared d x left right (hleft.perm (h.application d)) (hright.perm (h.financial d)) hs

theorem Permuted.certain (h : Permuted e e') (hs : Certain e t s) : Certain e' t s := by
  rcases hs with hs | ⟨x, hs⟩ | ⟨d, x, hs⟩
  · exact .fixed (h.fixed hs)
  · exact .operation x fun owner hlast =>
      h.operation (hs owner (hlast.perm h.applicationOperations.symm))
  · exact .compared d x fun left right hleft hright =>
      hs left right (hleft.perm (h.application d).symm) (hright.perm (h.financial d).symm)

end Permute

section Exhibit

variable {e : ReconciliationEvidence V} {t : Timestamp} {s : Sign}

-- The evidence with the given rows moved to the end wherever they stand.
def reordered (e : ReconciliationEvidence V) (p : ApplicationOperation → Prop) [DecidablePred p]
    (left right : Domain → Option (DomainRow V)) : ReconciliationEvidence V :=
  { e with
    applicationOperations := prefer p e.applicationOperations
    application := fun d => prefer (some · = left d) (e.application d)
    financial := fun d => prefer (some · = right d) (e.financial d) }

theorem reordered_permuted (p : ApplicationOperation → Prop) [DecidablePred p]
    (left right : Domain → Option (DomainRow V)) : Permuted e (reordered e p left right) where
  applicationOperations := prefer_perm p e.applicationOperations
  financialOperations := .refl _
  reservations := .refl _
  application d := prefer_perm _ (e.application d)
  financial d := prefer_perm _ (e.financial d)
  outbox := .refl _
  receivedEvents := .refl _
  inbox := .refl _
  audits := .refl _

theorem Shown.exhibited (h : Shown e t s) : ∃ e', Permuted e e' ∧ Actual e' t s := by
  rcases h with h | ⟨x, owner, hlast, h⟩ | ⟨d, x, left, right, hleft, hright, h⟩
  · exact ⟨_, reordered_permuted (fun _ => True) (fun _ => none) fun _ => none,
      .fixed ((reordered_permuted _ _ _).fixed h)⟩
  · have hperm := reordered_permuted (e := e) (some · = owner) (fun _ => none) fun _ => none
    refine ⟨_, hperm, .operation x ?_⟩
    have hfind : (operationIndex (reordered e (some · = owner) (fun _ => none) fun _ => none)).find x =
        owner := hlast.find_prefer
    rw [hfind]
    exact hperm.operation h
  · refine ⟨_, reordered_permuted (fun _ => True) (fun _ => left) fun _ => right, .compared d x ?_⟩
    have hl : (domainIndex ((reordered e (fun _ => True) (fun _ => left) fun _ => right).application d)).find
        x = left := hleft.find_prefer
    have hr : (domainIndex ((reordered e (fun _ => True) (fun _ => left) fun _ => right).financial d)).find
        x = right := hright.find_prefer
    rw [hl, hr]
    exact h

def Sign.reference : Sign → String
  | .raised => ""
  | .found _ x => x

open Classical in
theorem exists_concealed (h : ¬Certain e t s) : ∃ e', Permuted e e' ∧ ¬Actual e' t s := by
  have hpair (d : Domain) : ∃ left right, Candidate (·.reference) (e.application d) s.reference left ∧
      Candidate (·.reference) (e.financial d) s.reference right ∧
      ¬ComparedShows d s.reference left right s := by
    by_contra hnone
    refine h (.compared d s.reference fun left right hleft hright => ?_)
    by_contra hshows
    exact hnone ⟨left, right, hleft, hright, hshows⟩
  choose left right hleft hright hpairs using hpair
  let p : ApplicationOperation → Prop := fun op => ¬OperationShows e t op.reference (some op) s
  have hperm := reordered_permuted (e := e) p left right
  refine ⟨_, hperm, ?_⟩
  rintro (hfixed | ⟨x, hoperation⟩ | ⟨d, x, hcompared⟩)
  · exact h (.fixed (hperm.symm.fixed hfixed))
  · have hshows := hperm.symm.operation hoperation
    have hown : ∃ owner, Candidate (·.reference) e.applicationOperations x owner ∧
        ¬OperationShows e t x owner s := by
      by_contra hnone
      refine h (.operation x fun owner hlast => ?_)
      by_contra hnot
      exact hnone ⟨owner, hlast, hnot⟩
    obtain ⟨owner, hlast, hnot⟩ := hown
    cases hlast with
    | absent habsent =>
      have hlast := (candidate_indexBy (·.reference) (prefer p e.applicationOperations) x).perm
        hperm.applicationOperations.symm
      have hfind : (operationIndex (reordered e p left right)).find x = none := by
        cases hlast' : (operationIndex (reordered e p left right)).find x with
        | none => rfl
        | some op =>
          rw [show (indexBy (·.reference) (prefer p e.applicationOperations)).find x = some op from
            hlast'] at hlast
          cases hlast with
          | row _ hrow =>
            rw [habsent] at hrow
            cases hrow
      rw [hfind] at hshows
      exact hnot hshows
    | row op hop =>
      obtain ⟨hmem, hkey⟩ := mem_rowsAt.mp hop
      have hp : p op := by
        change ¬OperationShows e t op.reference (some op) s
        rwa [hkey]
      obtain ⟨last, hfind, hlast⟩ := find_prefer (p := p) ⟨op, hmem, hkey, hp⟩
      have hreference : last.reference = x := (mem_of_find_indexBy hfind).2
      rw [show (operationIndex (reordered e p left right)).find x = some last from hfind,
        ← hreference] at hshows
      exact hlast hshows
  · have hx : x = s.reference := by
      rw [hcompared.1]
      rfl
    subst hx
    have hl : (domainIndex ((reordered e p left right).application d)).find s.reference = left d :=
      (hleft d).find_prefer
    have hr : (domainIndex ((reordered e p left right).financial d)).find s.reference = right d :=
      (hright d).find_prefer
    rw [hl, hr] at hcompared
    exact hpairs d hcompared

end Exhibit

section Reconciles

variable {e e' : ReconciliationEvidence V} {t now : Timestamp} {asOf : Option Moment}

theorem codes_of_raised (hresolve : resolve asOf now = .ok t) (h : Actual e t .raised) :
    codes (reconcileFinancialBoundary now asOf e) = none := by
  rcases reconcile_cases (e := e) hresolve with ⟨r, -, hnot, -⟩ | ⟨⟨err, herr⟩, -⟩
  · exact absurd h hnot
  · rw [herr]
    rfl

theorem codes_of_reported (hresolve : resolve asOf now = .ok t) (h : ¬Actual e t .raised) :
    codes (reconcileFinancialBoundary now asOf e) = some {code | Actual e t (.found code.1 code.2)} := by
  rcases reconcile_cases (e := e) hresolve with ⟨r, hr, -, hfound⟩ | ⟨-, hraised⟩
  · rw [hr]
    refine congrArg some (Set.ext ?_)
    rintro ⟨v, x⟩
    refine Iff.trans ?_ (hfound v x)
    simp only [Set.mem_ofPred_eq, Prod.mk.injEq, ReconciliationFinding.sign, Sign.found.injEq]
  · exact absurd hraised h

theorem raised_of_codes (hresolve : resolve asOf now = .ok t)
    (h : codes (reconcileFinancialBoundary now asOf e) = codes (reconcileFinancialBoundary now asOf e'))
    (hraised : Actual e t .raised) : Actual e' t .raised := by
  by_contra hnot
  rw [codes_of_raised hresolve hraised, codes_of_reported hresolve hnot] at h
  cases h

theorem found_of_codes (hresolve : resolve asOf now = .ok t)
    (h : codes (reconcileFinancialBoundary now asOf e) = codes (reconcileFinancialBoundary now asOf e'))
    (hnot : ¬Actual e t .raised) {v : Violation} {x : String} (hfound : Actual e t (.found v x)) :
    Actual e' t (.found v x) := by
  have hnot' : ¬Actual e' t .raised := fun hraised => hnot (raised_of_codes hresolve h.symm hraised)
  rw [codes_of_reported hresolve hnot, codes_of_reported hresolve hnot'] at h
  have hmem := congrArg (fun codes : Set (Violation × String) => (v, x) ∈ codes) (Option.some.inj h)
  exact (iff_of_eq hmem).mp hfound

theorem ready_iff (hresolve : resolve asOf now = .ok t) : (∃ r, reconcileFinancialBoundary now asOf e = .ok r ∧
      r.activationReady = true) ↔ ∀ s, ¬Actual e t s := by
  rcases reconcile_cases (e := e) hresolve with ⟨r, hr, hnot, hfound⟩ | ⟨⟨err, herr⟩, hraised⟩
  · constructor
    · rintro ⟨r', hr', hready⟩ s hs
      obtain rfl := Except.ok.inj (hr.symm.trans hr')
      cases s with
      | raised => exact hnot hs
      | found v x =>
        obtain ⟨f, hf, -⟩ := (hfound v x).mpr hs
        rw [List.isEmpty_iff.mp hready] at hf
        cases hf
    · intro hnone
      refine ⟨r, hr, List.isEmpty_iff.mpr (List.eq_nil_iff_forall_not_mem.mpr fun f hf => ?_)⟩
      exact hnone _ ((hfound f.violation f.reference).mp ⟨f, hf, rfl⟩)
  · refine iff_of_false ?_ fun hnone => hnone _ hraised
    rintro ⟨r, hr, -⟩
    rw [herr] at hr
    cases hr

theorem permutation_iff (hresolve : resolve asOf now = .ok t) :
    (∀ e', Permuted e e' →
      codes (reconcileFinancialBoundary now asOf e') = codes (reconcileFinancialBoundary now asOf e)) ↔
    Decided e t := by
  constructor
  · intro hsame
    refine ⟨fun hshown => ?_, fun huncertain v x hshown => ?_⟩
    · by_contra hcertain
      obtain ⟨e₁, h₁, hraised⟩ := hshown.exhibited
      obtain ⟨e₂, h₂, hnot⟩ := exists_concealed hcertain
      exact hnot (raised_of_codes hresolve ((hsame e₁ h₁).trans (hsame e₂ h₂).symm) hraised)
    · by_contra hcertain
      obtain ⟨e₀, h₀, hquiet⟩ := exists_concealed huncertain
      obtain ⟨e₁, h₁, hfound⟩ := hshown.exhibited
      obtain ⟨e₂, h₂, hnot⟩ := exists_concealed hcertain
      have hreported : ¬Actual e₁ t .raised := fun hraised =>
        hquiet (raised_of_codes hresolve ((hsame e₁ h₁).trans (hsame e₀ h₀).symm) hraised)
      exact hnot (found_of_codes hresolve ((hsame e₁ h₁).trans (hsame e₂ h₂).symm) hreported hfound)
  · intro hdecided e' hperm
    by_cases hcertain : Certain e t .raised
    · rw [codes_of_raised hresolve hcertain.actual, codes_of_raised hresolve (hperm.certain hcertain).actual]
    · have hquiet : ¬Shown e t .raised := fun hshown => hcertain (hdecided.raised hshown)
      have hnot : ¬Actual e t .raised := fun hraised => hquiet hraised.shown
      have hnot' : ¬Actual e' t .raised := fun hraised => hquiet (hperm.symm.shown hraised.shown)
      rw [codes_of_reported hresolve hnot, codes_of_reported hresolve hnot']
      refine congrArg some (Set.ext fun code => ⟨fun hfound => ?_, fun hfound => ?_⟩)
      · exact (hdecided.found hcertain _ _ (hperm.symm.shown hfound.shown)).actual
      · exact (hperm.certain (hdecided.found hcertain _ _ hfound.shown)).actual

end Reconciles

section OneToOne

variable {e : ReconciliationEvidence V} {t : Timestamp} {d : Domain} {row : DomainRow V}

theorem rowsAt_singleton_of_nodup {R : Type} {key : R → String} {rows : List R} (h : (rows.map key).Nodup)
    {r : R} (hr : r ∈ rows) : rowsAt key rows (key r) = [r] := by
  have hperm : (rowsAt key rows (key r)).Perm [r] := by
    have hnodup : (rowsAt key rows (key r)).Nodup := (List.Nodup.of_map key h).filter _
    refine (List.perm_ext_iff_of_nodup hnodup (List.nodup_singleton r)).mpr fun r' => ?_
    rw [mem_rowsAt, List.mem_singleton]
    constructor
    · rintro ⟨hr', hkey⟩
      exact List.inj_on_of_nodup_map h hr' hr hkey
    · rintro rfl
      exact ⟨hr, rfl⟩
  exact List.perm_singleton.mp hperm

theorem nodup_of_rowsAt {R : Type} {key : R → String} {rows : List R}
    (h : ∀ r ∈ rows, ∃ r', rowsAt key rows (key r) = [r']) : (rows.map key).Nodup := by
  rw [List.nodup_iff_count_le_one]
  intro k
  by_cases hk : k ∈ rows.map key
  · obtain ⟨r, hr, rfl⟩ := List.mem_map.mp hk
    obtain ⟨r', hrows⟩ := h r hr
    rw [List.count, List.countP_map, List.countP_eq_length_filter]
    have hlength := congrArg List.length hrows
    unfold rowsAt at hlength
    simp only [List.length_singleton] at hlength
    refine le_of_eq (Eq.trans ?_ hlength)
    rfl
  · rw [List.count_eq_zero.mpr hk]
    exact Nat.zero_le 1

-- With nothing shown, the rows of a reference agree on both sides, and only their number is left open.
theorem oneToOne_iff (hclean : ∀ s, ¬Shown e t s) : OneToOne e ↔ SingleRows e := by
  constructor
  · intro hone d hd
    refine ⟨nodup_of_rowsAt fun row hrow => ?_, nodup_of_rowsAt fun row hrow => ?_⟩
    · obtain ⟨left, -, hleft, -⟩ := hone d hd row (List.mem_append_left _ hrow)
      exact ⟨left, hleft⟩
    · obtain ⟨-, right, -, hright, -⟩ := hone d hd row (List.mem_append_right _ hrow)
      exact ⟨right, hright⟩
  · intro hsingle d hd row hrow
    obtain ⟨hleft, hright⟩ := hsingle d hd
    have hsame : ¬differs d ((domainIndex (e.application d)).find row.reference)
        ((domainIndex (e.financial d)).find row.reference) = true := fun hdiffers =>
      hclean _ (.compared d row.reference _ _ (candidate_indexBy _ _ _) (candidate_indexBy _ _ _)
        ⟨rfl, hdiffers⟩)
    have hsome : ∃ left right, (domainIndex (e.application d)).find row.reference = some left ∧
        (domainIndex (e.financial d)).find row.reference = some right ∧ same left right d.keys = true := by
      rcases List.mem_append.mp hrow with hmem | hmem
      · have hfind : (domainIndex (e.application d)).find row.reference = some row :=
          find_indexBy_of_nodup hleft hmem
        cases hother : (domainIndex (e.financial d)).find row.reference with
        | none =>
          rw [hfind, hother] at hsame
          exact absurd rfl hsame
        | some right =>
          rw [hfind, hother] at hsame
          exact ⟨row, right, hfind, rfl, by simpa [differs] using hsame⟩
      · have hfind : (domainIndex (e.financial d)).find row.reference = some row :=
          find_indexBy_of_nodup hright hmem
        cases hother : (domainIndex (e.application d)).find row.reference with
        | none =>
          rw [hfind, hother] at hsame
          exact absurd rfl hsame
        | some left =>
          rw [hfind, hother] at hsame
          exact ⟨left, row, rfl, hfind, by simpa [differs] using hsame⟩
    obtain ⟨left, right, hl, hr, hkeys⟩ := hsome
    obtain ⟨hleftmem, hleftkey⟩ := mem_of_find_indexBy hl
    obtain ⟨hrightmem, hrightkey⟩ := mem_of_find_indexBy hr
    refine ⟨left, right, ?_, ?_, hkeys⟩
    · rw [← hleftkey]
      exact rowsAt_singleton_of_nodup hleft hleftmem
    · rw [← hrightkey]
      exact rowsAt_singleton_of_nodup hright hrightmem

end OneToOne

theorem reconciles_iff (e : ReconciliationEvidence V) (now : Timestamp) (asOf : Option Moment) :
    Reconciles e now asOf ↔ ∀ t, resolve asOf now = .ok t →
      Decided e t ∧ ((∀ s, ¬Shown e t s) → SingleRows e) := by
  cases hresolve : resolve asOf now with
  | error err =>
    have herror (e : ReconciliationEvidence V) : reconcileFinancialBoundary now asOf e = .error err := by
      unfold reconcileFinancialBoundary
      exact bind_of_error hresolve
    refine iff_of_true ⟨fun e' _ => by rw [herror e, herror e'], fun r hr => ?_⟩ fun t ht => ?_
    · rw [herror e] at hr
      cases hr
    · cases ht
  | ok t =>
    simp only [Except.ok.injEq, forall_eq']
    constructor
    · rintro ⟨hpermutation, hready⟩
      refine ⟨(permutation_iff hresolve).mp hpermutation, fun hclean => ?_⟩
      obtain ⟨r, hr, hempty⟩ := (ready_iff hresolve).mpr fun s hs => hclean s hs.shown
      exact (oneToOne_iff hclean).mp (hready r hr hempty)
    · rintro ⟨hdecided, hsingle⟩
      refine ⟨(permutation_iff hresolve).mpr hdecided, fun r hr hempty => ?_⟩
      have hnone := (ready_iff hresolve).mp ⟨r, hr, hempty⟩
      have hcertain : ¬Certain e t .raised := fun h => hnone _ h.actual
      have hclean : ∀ s, ¬Shown e t s := by
        rintro (_ | ⟨v, x⟩) hshown
        · exact hcertain (hdecided.raised hshown)
        · exact hnone _ (hdecided.found hcertain v x hshown).actual
      exact (oneToOne_iff hclean).mpr (hsingle hclean)

-- Two application rows credit one deposit differently, and the last one matches the ledger.
def creditedTwice : ReconciliationEvidence String where
  application
    | .deposits => [⟨"dep-1", [("state", "CREDITED"), ("credited_amount", "250"), ("asset", "USDT")]⟩,
        ⟨"dep-1", [("state", "CREDITED"), ("credited_amount", "100"), ("asset", "USDT")]⟩]
    | _ => []
  financial
    | .deposits => [⟨"dep-1", [("state", "CREDITED"), ("credited_amount", "100"), ("asset", "USDT")]⟩]
    | _ => []

theorem second_credit_unseen : ¬∀ (e : ReconciliationEvidence String) (now : Timestamp) (asOf : Option Moment),
    Reconciles e now asOf := by
  intro h
  have hready : reconcileFinancialBoundary 0 none creditedTwice = .ok (report 0 []) := rfl
  obtain ⟨left, -, hleft, -⟩ := (h creditedTwice 0 none).ready _ hready rfl .deposits (by decide)
    ⟨"dep-1", [("state", "CREDITED"), ("credited_amount", "250"), ("asset", "USDT")]⟩ (by decide)
  have hlength : (rowsAt (·.reference) (creditedTwice.application .deposits) "dep-1").length = 2 := rfl
  rw [hleft] at hlength
  cases hlength

end FinancialReconciliation

end Beyvra
