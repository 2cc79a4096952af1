import Mathlib.Algebra.BigOperators.Group.Finset.Basic
import Mathlib.Algebra.BigOperators.Group.Finset.Piecewise
import Mathlib.Data.List.Sort

namespace Relational

variable {R : Type} (before : R → R → Prop) [DecidableRel before]

def latest (rows : List R) : Option R := (rows.insertionSort before).head?

variable {before} {rows : List R} {x y : R}

theorem mem_of_latest (h : latest before rows = some x) : x ∈ rows :=
  (List.mem_insertionSort before).mp (List.mem_of_mem_head? h)

theorem latest_eq_none : latest before rows = none ↔ rows = [] := by
  unfold latest
  rw [List.head?_eq_none_iff, ← List.length_eq_zero_iff, List.length_insertionSort,
    List.length_eq_zero_iff]

theorem exists_latest (h : x ∈ rows) : ∃ y, latest before rows = some y := by
  cases hlatest : latest before rows with
  | none =>
    rw [latest_eq_none.mp hlatest] at h
    cases h
  | some y => exact ⟨y, rfl⟩

variable [Std.Total before] [IsTrans R before]

theorem latest_before (h : latest before rows = some x) (hy : y ∈ rows) : y = x ∨ before x y := by
  have hsorted := List.pairwise_insertionSort before rows
  have hmem := (List.mem_insertionSort before).mpr hy
  unfold latest at h
  cases hrows : rows.insertionSort before with
  | nil =>
    rw [hrows] at hmem
    cases hmem
  | cons z zs =>
    rw [hrows] at h hsorted hmem
    obtain rfl := Option.some.inj h
    rcases List.mem_cons.mp hmem with heq | htail
    · exact .inl heq
    · exact .inr (List.rel_of_pairwise_cons hsorted htail)

-- A row that no other row comes before is the latest one.
theorem latest_of_unpreceded (hx : x ∈ rows) (h : ∀ y ∈ rows, before y x → y = x) :
    latest before rows = some x := by
  obtain ⟨y, hy⟩ : ∃ y, latest before rows = some y := exists_latest hx
  rcases latest_before hy hx with heq | hbefore
  · rw [hy, heq]
  · rw [hy, h y (mem_of_latest hy) hbefore]

theorem latest_append_newest (h : ∀ y ∈ rows, ¬before y x) :
    latest before (rows ++ [x]) = some x := by
  refine latest_of_unpreceded (List.mem_append_right _ (List.mem_singleton_self x)) ?_
  intro y hy hbefore
  rcases List.mem_append.mp hy with hold | hnew
  · exact absurd hbefore (h y hold)
  · exact List.mem_singleton.mp hnew

-- The same rows in any order, no two of which come before each other.
theorem latest_congr {rows' : List R} (h : ∀ x, x ∈ rows ↔ x ∈ rows')
    (hantisymm : ∀ x ∈ rows, ∀ y ∈ rows, before x y → before y x → x = y) :
    latest before rows = latest before rows' := by
  cases hlatest : latest before rows' with
  | none =>
    rw [latest_eq_none, List.eq_nil_iff_forall_not_mem] at *
    exact fun x hx => hlatest x ((h x).mp hx)
  | some x =>
    have hx := (h x).mpr (mem_of_latest hlatest)
    refine latest_of_unpreceded hx fun y hy hbefore => ?_
    rcases latest_before hlatest ((h y).mp hy) with heq | hxy
    · exact heq
    · exact hantisymm y hy x hx hbefore hxy

section Descending

variable {K : Type} [LinearOrder K]

def descending (key : R → K) (x y : R) : Prop := key y ≤ key x

variable {key : R → K}

instance : DecidableRel (descending key) := fun x y => inferInstanceAs (Decidable (key y ≤ key x))

instance : Std.Total (descending key) := ⟨fun x y => le_total (key y) (key x)⟩

instance : IsTrans R (descending key) := ⟨fun _ _ _ hxy hyz => le_trans hyz hxy⟩

theorem latest_descending_congr {rows' : List R} (h : ∀ x, x ∈ rows ↔ x ∈ rows')
    (hkey : ∀ x ∈ rows, ∀ y ∈ rows, key x = key y → x = y) :
    latest (descending key) rows = latest (descending key) rows' :=
  latest_congr h fun x hx y hy hyx hxy => hkey x hx y hy (le_antisymm hxy hyx)

end Descending

end Relational

namespace Relational

variable {R K M : Type} [DecidableEq K] [AddCommMonoid M]

def keys (key : R → K) (rows : List R) : Finset K := (rows.map key).toFinset

def ofKey (key : R → K) (rows : List R) (k : K) : List R := rows.filter fun row => key row = k

section Latest

variable (key : R → K) (value : R → M) (before : R → R → Prop) [DecidableRel before]

def latestValue (rows : List R) (k : K) : M := (latest before (ofKey key rows k)).elim 0 value

def latestSum (rows : List R) : M := ∑ k ∈ keys key rows, latestValue key value before rows k

variable [DecidableEq R]

-- The rows of a key but for the latest
def superseded (rows : List R) (k : K) : List R :=
  (latest before (ofKey key rows k)).elim [] fun row => (ofKey key rows k).erase row

def supersededSum (rows : List R) : M := ∑ k ∈ keys key rows, ((superseded key before rows k).map value).sum

end Latest

variable {key : R → K} {value : R → M} {rows : List R}

theorem latest_cons_of_not_before {before : R → R → Prop} [DecidableRel before] {x y : R}
    (hlatest : latest before rows = some x) (h : ¬before y x) : latest before (y :: rows) = some x := by
  unfold latest at hlatest ⊢
  obtain ⟨later, hsorted⟩ := List.head?_eq_some_iff.mp hlatest
  rw [List.insertionSort_cons, hsorted, List.orderedInsert_of_not_le before later h]
  rfl

theorem sum_ofKey_of_subset {s : Finset K} (h : keys key rows ⊆ s) :
    ∑ k ∈ s, ((ofKey key rows k).map value).sum = (rows.map value).sum := by
  induction rows with
  | nil => simp [ofKey]
  | cons row rows ih =>
    simp only [keys, List.map_cons, List.toFinset_cons, Finset.insert_subset_iff] at h
    have hterm (k : K) : ((ofKey key (row :: rows) k).map value).sum =
        (if key row = k then value row else 0) + ((ofKey key rows k).map value).sum := by
      by_cases hrow : key row = k <;> simp [ofKey, hrow]
    rw [Finset.sum_congr rfl fun k _ => hterm k, Finset.sum_add_distrib, Finset.sum_ite_eq, if_pos h.1, ih h.2,
      List.map_cons, List.sum_cons]

variable {before : R → R → Prop} [DecidableRel before]

theorem latestSum_cons {x y : R} (hx : latest before (ofKey key rows (key y)) = some x) (h : ¬before y x) :
    latestSum key value before (y :: rows) = latestSum key value before rows := by
  have hmem : key y ∈ (rows.map key).toFinset := by
    obtain ⟨hrow, hkey⟩ := List.mem_filter.mp (mem_of_latest hx)
    exact List.mem_toFinset.mpr (List.mem_map.mpr ⟨x, hrow, of_decide_eq_true hkey⟩)
  have hkeys : keys key (y :: rows) = keys key rows := by
    rw [keys, List.map_cons, List.toFinset_cons, Finset.insert_eq_of_mem hmem, keys]
  rw [latestSum, hkeys, latestSum]
  refine Finset.sum_congr rfl fun k _ => ?_
  by_cases hk : key y = k
  · subst hk
    have hgroup : ofKey key (y :: rows) (key y) = y :: ofKey key rows (key y) := by simp [ofKey]
    rw [latestValue, hgroup, latest_cons_of_not_before hx h, latestValue, hx]
  · have hgroup : ofKey key (y :: rows) k = ofKey key rows k := by simp [ofKey, hk]
    rw [latestValue, hgroup, latestValue]

variable [DecidableEq R]

theorem sum_ofKey (k : K) : ((ofKey key rows k).map value).sum =
    latestValue key value before rows k + ((superseded key before rows k).map value).sum := by
  unfold latestValue superseded
  cases hlatest : latest before (ofKey key rows k) with
  | none => simp [latest_eq_none.mp hlatest]
  | some row =>
    have hperm := (List.perm_cons_erase (mem_of_latest hlatest)).map value
    rw [hperm.sum_eq, List.map_cons, List.sum_cons]
    rfl

theorem sum_eq_latestSum_add : (rows.map value).sum =
    latestSum key value before rows + supersededSum key value before rows := by
  rw [← sum_ofKey_of_subset (Finset.Subset.refl (keys key rows)), latestSum, supersededSum,
    ← Finset.sum_add_distrib]
  exact Finset.sum_congr rfl fun k _ => sum_ofKey k

end Relational
