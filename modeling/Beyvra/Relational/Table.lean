import Mathlib.Algebra.BigOperators.Group.List.Basic
import Mathlib.Algebra.Order.BigOperators.Group.List
import Mathlib.Tactic

namespace Relational

structure Table (K R : Type) where
  rows : List (K × R)
  nodup : (rows.map Prod.fst).Nodup
  deriving DecidableEq

namespace Table

variable {K R : Type}

def empty : Table K R := ⟨[], by simp⟩

instance : Inhabited (Table K R) := ⟨empty⟩

def sum {M : Type} [AddMonoid M] (t : Table K R) (g : K → R → M) : M :=
  (t.rows.map fun p => g p.1 p.2).sum

def mapRows (t : Table K R) (f : K → R → R) : Table K R where
  rows := t.rows.map fun p => (p.1, f p.1 p.2)
  nodup := by simpa [Function.comp_def] using t.nodup

def values (t : Table K R) : List R := t.rows.map Prod.snd

variable [DecidableEq K]

def lookupRows (k : K) : List (K × R) → Option R
  | [] => none
  | p :: ps => if p.1 = k then some p.2 else lookupRows k ps

def find (t : Table K R) (k : K) : Option R := lookupRows k t.rows

def putRows (k : K) (r : R) : List (K × R) → List (K × R)
  | [] => [(k, r)]
  | p :: ps => if p.1 = k then (k, r) :: ps else p :: putRows k r ps

theorem mem_keys_putRows {k k' : K} {r : R} {ps : List (K × R)} :
    k' ∈ (putRows k r ps).map Prod.fst ↔ k' = k ∨ k' ∈ ps.map Prod.fst := by
  induction ps with
  | nil => simp [putRows]
  | cons p ps ih =>
    by_cases hp : p.1 = k
    · simp only [putRows, hp, if_true, List.map_cons, List.mem_cons]
      tauto
    · simp only [putRows, hp, if_false, List.map_cons, List.mem_cons, ih]
      tauto

theorem nodup_putRows {k : K} {r : R} {ps : List (K × R)} (h : (ps.map Prod.fst).Nodup) :
    ((putRows k r ps).map Prod.fst).Nodup := by
  induction ps with
  | nil => simp [putRows]
  | cons p ps ih =>
    obtain ⟨hp, hps⟩ := List.nodup_cons.mp h
    by_cases hk : p.1 = k
    · simpa only [putRows, hk, if_true, List.map_cons] using h
    · rw [putRows, if_neg hk, List.map_cons, List.nodup_cons, mem_keys_putRows]
      exact ⟨fun hmem => hmem.elim hk hp, ih hps⟩

def put (t : Table K R) (k : K) (r : R) : Table K R := ⟨putRows k r t.rows, nodup_putRows t.nodup⟩

theorem lookupRows_putRows (k k' : K) (r : R) (ps : List (K × R)) :
    lookupRows k' (putRows k r ps) = if k' = k then some r else lookupRows k' ps := by
  induction ps with
  | nil => simp [putRows, lookupRows, eq_comm]
  | cons p ps ih =>
    by_cases hp : p.1 = k
    · by_cases hk : k' = k
      · simp [putRows, lookupRows, hp, hk]
      · simp [putRows, lookupRows, hp, hk, Ne.symm hk]
    · by_cases hk : k' = k
      · subst hk
        simp [putRows, lookupRows, hp, ih]
      · simp [putRows, lookupRows, hp, hk, ih]

@[simp] theorem find_empty (k : K) : (empty : Table K R).find k = none := rfl

theorem find_put (t : Table K R) (k k' : K) (r : R) :
    (t.put k r).find k' = if k' = k then some r else t.find k' :=
  lookupRows_putRows k k' r t.rows

@[simp] theorem find_put_self (t : Table K R) (k : K) (r : R) : (t.put k r).find k = some r := by
  simp [find_put]

theorem find_put_of_ne (t : Table K R) {k k' : K} (r : R) (h : k' ≠ k) :
    (t.put k r).find k' = t.find k' := by
  simp [find_put, h]

theorem find_put_cases {t : Table K R} {k k' : K} {r x : R} (h : (t.put k r).find k' = some x) :
    k' = k ∧ x = r ∨ k' ≠ k ∧ t.find k' = some x := by
  rw [find_put] at h
  by_cases hk : k' = k
  · rw [if_pos hk] at h
    exact .inl ⟨hk, (Option.some.inj h).symm⟩
  · rw [if_neg hk] at h
    exact .inr ⟨hk, h⟩

theorem find_put_none {t : Table K R} {k k' : K} {r : R} (h : (t.put k r).find k' = none) :
    k' ≠ k ∧ t.find k' = none := by
  rw [find_put] at h
  by_cases hk : k' = k
  · simp [hk] at h
  · exact ⟨hk, by rwa [if_neg hk] at h⟩

theorem put_put (t : Table K R) (k : K) (r r' : R) : (t.put k r).put k r' = t.put k r' := by
  have hrows (ps : List (K × R)) : putRows k r' (putRows k r ps) = putRows k r' ps := by
    induction ps with
    | nil => simp [putRows]
    | cons p ps ih =>
      by_cases hp : p.1 = k
      · simp [putRows, hp]
      · simp [putRows, hp, ih]
  simp only [put, hrows]

theorem put_self (t : Table K R) {k : K} {r : R} (h : t.find k = some r) : t.put k r = t := by
  have hrows (ps : List (K × R)) (hr : lookupRows k ps = some r) : putRows k r ps = ps := by
    induction ps with
    | nil => simp [lookupRows] at hr
    | cons p ps ih =>
      by_cases hp : p.1 = k
      · have hr' : p.2 = r := by simpa [lookupRows, hp] using hr
        simp [putRows, ← hp, ← hr']
      · simp [putRows, hp, ih (by simpa [lookupRows, hp] using hr)]
  cases t
  simp only [put, hrows _ h]

theorem rows_put_of_none {t : Table K R} {k : K} (h : t.find k = none) (r : R) :
    (t.put k r).rows = t.rows ++ [(k, r)] := by
  have hrows (rows : List (K × R)) (h : lookupRows k rows = none) : putRows k r rows = rows ++ [(k, r)] := by
    induction rows with
    | nil => rfl
    | cons p rows ih =>
      by_cases hp : p.1 = k
      · rw [lookupRows, if_pos hp] at h
        cases h
      · rw [lookupRows, if_neg hp] at h
        rw [putRows, if_neg hp, ih h, List.cons_append]
  exact hrows t.rows h

theorem lookupRows_eq_some {k : K} {r : R} {ps : List (K × R)} (h : (ps.map Prod.fst).Nodup) :
    lookupRows k ps = some r ↔ (k, r) ∈ ps := by
  induction ps with
  | nil => simp [lookupRows]
  | cons p ps ih =>
    obtain ⟨hp, hps⟩ := List.nodup_cons.mp h
    by_cases hk : p.1 = k
    · subst hk
      have hnot : (p.1, r) ∉ ps := fun hmem => hp (List.mem_map.mpr ⟨_, hmem, rfl⟩)
      constructor
      · intro hr
        have heq : p.2 = r := by simpa [lookupRows] using hr
        simp [← heq]
      · intro hr
        rcases List.mem_cons.mp hr with heq | hmem
        · have hr' : p.2 = r := (congrArg Prod.snd heq).symm
          simp [lookupRows, hr']
        · exact absurd hmem hnot
    · have hne : (k, r) ≠ p := fun heq => hk (heq ▸ rfl)
      simp only [lookupRows, hk, if_false, ih hps, List.mem_cons, hne, false_or]

theorem mem_rows_iff {t : Table K R} {k : K} {r : R} : (k, r) ∈ t.rows ↔ t.find k = some r :=
  (lookupRows_eq_some t.nodup).symm

theorem mem_values_iff {t : Table K R} {r : R} : r ∈ t.values ↔ ∃ k, t.find k = some r := by
  simp only [values, List.mem_map, Prod.exists, exists_eq_right, mem_rows_iff]

omit [DecidableEq K] in
theorem eq_of_mem_rows {t : Table K R} {x y : K × R} (hx : x ∈ t.rows) (hy : y ∈ t.rows)
    (hkey : x.1 = y.1) : x = y :=
  List.inj_on_of_nodup_map t.nodup hx hy hkey

-- Two tables that agree on the rows `visible` have the same rows under any stronger filter.
theorem mem_filter_rows_congr {t t' : Table K R} {visible : R → Bool}
    (h : ∀ k, (t.find k).filter visible = (t'.find k).filter visible) {p : K × R → Bool}
    (hp : ∀ x, p x → visible x.2) (x : K × R) : x ∈ t.rows.filter p ↔ x ∈ t'.rows.filter p := by
  have hfind (t : Table K R) (hx : p x) : x ∈ t.rows ↔ (t.find x.1).filter visible = some x.2 := by
    rw [Option.filter_eq_some_iff, ← mem_rows_iff]
    exact ⟨fun hmem => ⟨hmem, hp x hx⟩, And.left⟩
  simp only [List.mem_filter]
  constructor
  · rintro ⟨hmem, hx⟩
    exact ⟨(hfind t' hx).mpr (h x.1 ▸ (hfind t hx).mp hmem), hx⟩
  · rintro ⟨hmem, hx⟩
    exact ⟨(hfind t hx).mpr (h x.1 ▸ (hfind t' hx).mp hmem), hx⟩

theorem find_mapRows (t : Table K R) (f : K → R → R) (k : K) :
    (t.mapRows f).find k = (t.find k).map (f k) := by
  have hrows (ps : List (K × R)) :
      lookupRows k (ps.map fun p => (p.1, f p.1 p.2)) = (lookupRows k ps).map (f k) := by
    induction ps with
    | nil => rfl
    | cons p ps ih =>
      by_cases hp : p.1 = k
      · subst hp
        simp [lookupRows]
      · simp [lookupRows, hp, ih]
  exact hrows t.rows

theorem mapRows_put (t : Table K R) (f : K → R → R) (k : K) (r : R) :
    (t.put k r).mapRows f = (t.mapRows f).put k (f k r) := by
  have hrows (ps : List (K × R)) : (putRows k r ps).map (fun p => (p.1, f p.1 p.2)) =
      putRows k (f k r) (ps.map fun p => (p.1, f p.1 p.2)) := by
    induction ps with
    | nil => rfl
    | cons p ps ih =>
      by_cases hp : p.1 = k
      · simp [putRows, hp]
      · simp [putRows, hp, ih]
  simp only [mapRows, put, hrows]

omit [DecidableEq K] in
theorem mapRows_mapRows (t : Table K R) (f g : K → R → R) :
    (t.mapRows f).mapRows g = t.mapRows fun k r => g k (f k r) := by
  simp only [mapRows, List.map_map, Function.comp_def]

section Sums

variable {M : Type}

omit [DecidableEq K] in
@[simp] theorem sum_empty [AddMonoid M] (g : K → R → M) : (empty : Table K R).sum g = 0 := rfl

omit [DecidableEq K] in
theorem sum_mapRows [AddMonoid M] (t : Table K R) (f : K → R → R) (g : K → R → M) :
    (t.mapRows f).sum g = t.sum fun k r => g k (f k r) := by
  simp only [sum, mapRows, List.map_map, Function.comp_def]

theorem sum_congr [AddMonoid M] {t : Table K R} {g g' : K → R → M}
    (h : ∀ k r, t.find k = some r → g k r = g' k r) : t.sum g = t.sum g' := by
  unfold sum
  congr 1
  exact List.map_congr_left fun p hp => h p.1 p.2 (mem_rows_iff.mp hp)

theorem sum_eq_zero [AddMonoid M] {t : Table K R} {g : K → R → M}
    (h : ∀ k r, t.find k = some r → g k r = 0) : t.sum g = 0 := by
  unfold sum
  apply List.sum_eq_zero
  intro x hx
  obtain ⟨p, hp, rfl⟩ := List.mem_map.mp hx
  exact h p.1 p.2 (mem_rows_iff.mp hp)

def contribution [Zero M] (t : Table K R) (g : K → R → M) (k : K) : M := ((t.find k).map (g k)).getD 0

theorem contribution_none [Zero M] {t : Table K R} {g : K → R → M} {k : K} (h : t.find k = none) :
    t.contribution g k = 0 := by
  simp [contribution, h]

theorem contribution_some [Zero M] {t : Table K R} {g : K → R → M} {k : K} {r : R}
    (h : t.find k = some r) : t.contribution g k = g k r := by
  simp [contribution, h]

theorem sum_put [AddCommGroup M] (t : Table K R) (k : K) (r : R) (g : K → R → M) :
    (t.put k r).sum g = t.sum g - t.contribution g k + g k r := by
  have hrows (ps : List (K × R)) :
      ((putRows k r ps).map fun p => g p.1 p.2).sum =
        (ps.map fun p => g p.1 p.2).sum - ((lookupRows k ps).map (g k)).getD 0 + g k r := by
    induction ps with
    | nil => simp [putRows, lookupRows]
    | cons p ps ih =>
      by_cases hp : p.1 = k
      · subst hp
        simp only [putRows, lookupRows, if_true, List.map_cons, List.sum_cons, Option.map_some,
          Option.getD_some]
        abel
      · simp only [putRows, lookupRows, hp, if_false, List.map_cons, List.sum_cons, ih]
        abel
  exact hrows t.rows

theorem sum_put_of_some [AddCommGroup M] {t : Table K R} {k : K} {old : R} (h : t.find k = some old)
    (r : R) (g : K → R → M) : (t.put k r).sum g = t.sum g - g k old + g k r := by
  rw [sum_put, contribution_some h]

theorem sum_put_of_none [AddCommGroup M] {t : Table K R} {k : K} (h : t.find k = none)
    (r : R) (g : K → R → M) : (t.put k r).sum g = t.sum g + g k r := by
  rw [sum_put, contribution_none h, sub_zero]

variable [AddCommGroup M] [PartialOrder M] [IsOrderedAddMonoid M]

theorem sum_nonneg {t : Table K R} {g : K → R → M} (h : ∀ k r, t.find k = some r → 0 ≤ g k r) :
    0 ≤ t.sum g := by
  unfold sum
  apply List.sum_nonneg
  intro x hx
  obtain ⟨p, hp, rfl⟩ := List.mem_map.mp hx
  exact h p.1 p.2 (mem_rows_iff.mp hp)

theorem sum_le_sum {t : Table K R} {g g' : K → R → M}
    (h : ∀ k r, t.find k = some r → g k r ≤ g' k r) : t.sum g ≤ t.sum g' := by
  unfold sum
  apply List.sum_le_sum
  intro p hp
  exact h p.1 p.2 (mem_rows_iff.mp hp)

theorem le_sum {t : Table K R} {g : K → R → M} (h : ∀ k r, t.find k = some r → 0 ≤ g k r)
    {k : K} {r : R} (hk : t.find k = some r) : g k r ≤ t.sum g := by
  unfold sum
  apply List.single_le_sum
  · intro x hx
    obtain ⟨p, hp, rfl⟩ := List.mem_map.mp hx
    exact h p.1 p.2 (mem_rows_iff.mp hp)
  · exact List.mem_map.mpr ⟨(k, r), mem_rows_iff.mpr hk, rfl⟩

end Sums

end Table

end Relational

namespace Relational

namespace Table

variable {K R : Type} [DecidableEq K]

def erase (t : Table K R) (k : K) : Table K R where
  rows := t.rows.filter fun p => p.1 ≠ k
  nodup := t.nodup.sublist (List.filter_sublist.map Prod.fst)

theorem mem_erase_rows {t : Table K R} {k : K} {p : K × R} : p ∈ (t.erase k).rows ↔ p ∈ t.rows ∧ p.1 ≠ k := by
  simp [erase]

@[simp] theorem find_erase_self (t : Table K R) (k : K) : (t.erase k).find k = none := by
  cases h : (t.erase k).find k with
  | none => rfl
  | some r => exact absurd rfl (mem_erase_rows.mp (mem_rows_iff.mpr h)).2

theorem find_erase_of_ne (t : Table K R) {k k' : K} (h : k' ≠ k) : (t.erase k).find k' = t.find k' := by
  cases hfound : t.find k' with
  | none =>
    cases herased : (t.erase k).find k' with
    | none => rfl
    | some r =>
      have hmem := (mem_erase_rows.mp (mem_rows_iff.mpr herased)).1
      rw [mem_rows_iff, hfound] at hmem
      cases hmem
  | some r => exact mem_rows_iff.mp (mem_erase_rows.mpr ⟨mem_rows_iff.mpr hfound, h⟩)

theorem find_erase_eq_some {t : Table K R} {k k' : K} {r : R} :
    (t.erase k).find k' = some r ↔ k' ≠ k ∧ t.find k' = some r := by
  rw [← mem_rows_iff, mem_erase_rows, mem_rows_iff]
  exact and_comm

end Table

end Relational
