import Mathlib.Algebra.Order.BigOperators.Group.List
import Mathlib.Algebra.Order.Group.MinMax

namespace Numeric

variable {R K : Type} [AddCommGroup K] [LinearOrder K]

-- Each row in turn gives what it holds, as far as it is still needed.
def fill (capacity : R → K) : List R → K → List (R × K) × K
  | [], needed => ([], needed)
  | row :: rows, needed =>
    if needed ≤ 0 then ([], needed)
    else
      let given := min (capacity row) needed
      let rest := fill capacity rows (needed - given)
      ((row, given) :: rest.1, rest.2)

-- The same where what is still needed is only kept in some form
def fillKept (keep : K → K) (capacity : R → K) : List R → K → List (R × K) × K
  | [], needed => ([], needed)
  | row :: rows, needed =>
    if needed ≤ 0 then ([], needed)
    else
      let given := min (capacity row) needed
      let rest := fillKept keep capacity rows (keep (needed - given))
      ((row, given) :: rest.1, rest.2)

-- Nothing that is still needed on the way is changed when it is kept.
def Kept (keep : K → K) (capacity : R → K) : List R → K → Prop
  | [], _ => True
  | row :: rows, needed => 0 < needed → keep (needed - min (capacity row) needed) = needed - min (capacity row) needed ∧
      Kept keep capacity rows (needed - min (capacity row) needed)

variable {keep : K → K} {capacity : R → K} {rows : List R} {row : R} {needed : K}

theorem fillKept_of_nonpos (h : needed ≤ 0) : fillKept keep capacity rows needed = ([], needed) := by
  cases rows with
  | nil => rfl
  | cons row rows => rw [fillKept, if_pos h]

theorem fillKept_cons (h : 0 < needed) : fillKept keep capacity (row :: rows) needed =
    ((row, min (capacity row) needed) :: (fillKept keep capacity rows (keep (needed - min (capacity row) needed))).1,
      (fillKept keep capacity rows (keep (needed - min (capacity row) needed))).2) := by
  rw [fillKept, if_neg (not_le.mpr h)]

theorem initial_fillKept (keep : K → K) (capacity : R → K) (rows : List R) (needed : K) :
    (fillKept keep capacity rows needed).1.map (·.1) <+: rows := by
  induction rows generalizing needed with
  | nil => exact List.prefix_rfl
  | cons row rows ih =>
    rcases le_or_gt needed 0 with h | h
    · rw [fillKept_of_nonpos h]
      exact List.nil_prefix
    · rw [fillKept_cons h]
      exact List.cons_prefix_cons.mpr ⟨rfl, ih _⟩

theorem fillKept_le (keep : K → K) (rows : List R) (needed : K) :
    ∀ e ∈ (fillKept keep capacity rows needed).1, e.2 ≤ capacity e.1 := by
  induction rows generalizing needed with
  | nil => simp [fillKept]
  | cons row rows ih =>
    rcases le_or_gt needed 0 with h | h
    · simp [fillKept_of_nonpos h]
    · rw [fillKept_cons h]
      exact List.forall_mem_cons.mpr ⟨min_le_left _ _, ih _⟩

-- Every row that is followed by another one gives all that it holds.
theorem fillKept_full (hkeep : keep 0 = 0) (rows : List R) (needed : K) :
    ∀ e ∈ (fillKept keep capacity rows needed).1.dropLast, e.2 = capacity e.1 := by
  induction rows generalizing needed with
  | nil => simp [fillKept]
  | cons row rows ih =>
    rcases le_or_gt needed 0 with h | h
    · simp [fillKept_of_nonpos h]
    · rw [fillKept_cons h]
      rcases le_total (capacity row) needed with hle | hle
      · cases hrest : (fillKept keep capacity rows (keep (needed - min (capacity row) needed))).1 with
        | nil => simp
        | cons e es =>
          rw [List.dropLast_cons_cons]
          refine List.forall_mem_cons.mpr ⟨min_eq_left hle, ?_⟩
          rw [← hrest]
          exact ih _
      · rw [min_eq_right hle, sub_self, hkeep, fillKept_of_nonpos le_rfl]
        simp

theorem fillKept_eq_fill (h : Kept keep capacity rows needed) :
    fillKept keep capacity rows needed = fill capacity rows needed := by
  induction rows generalizing needed with
  | nil => rfl
  | cons row rows ih =>
    rcases le_or_gt needed 0 with hle | hpos
    · rw [fillKept_of_nonpos hle, fill, if_pos hle]
    · obtain ⟨hkeep, hrest⟩ := h hpos
      rw [fillKept_cons hpos, fill, if_neg (not_le.mpr hpos), hkeep, ih hrest]

theorem fill_eq_fillKept (capacity : R → K) (rows : List R) (needed : K) :
    fill capacity rows needed = fillKept id capacity rows needed := by
  refine (fillKept_eq_fill ?_).symm
  induction rows generalizing needed with
  | nil => trivial
  | cons row rows ih => exact fun _ => ⟨rfl, ih _⟩

theorem fill_of_nonpos (h : needed ≤ 0) : fill capacity rows needed = ([], needed) := by
  rw [fill_eq_fillKept, fillKept_of_nonpos h]

theorem fill_cons (h : 0 < needed) : fill capacity (row :: rows) needed =
    ((row, min (capacity row) needed) :: (fill capacity rows (needed - min (capacity row) needed)).1,
      (fill capacity rows (needed - min (capacity row) needed)).2) := by
  rw [fill, if_neg (not_le.mpr h)]

theorem initial_fill (capacity : R → K) (rows : List R) (needed : K) :
    (fill capacity rows needed).1.map (·.1) <+: rows := by
  rw [fill_eq_fillKept]
  exact initial_fillKept id capacity rows needed

theorem fill_le (rows : List R) (needed : K) : ∀ e ∈ (fill capacity rows needed).1, e.2 ≤ capacity e.1 := by
  rw [fill_eq_fillKept]
  exact fillKept_le id rows needed

theorem fill_pos (rows : List R) (needed : K) (hrows : ∀ row ∈ rows, 0 < capacity row) :
    ∀ e ∈ (fill capacity rows needed).1, 0 < e.2 := by
  induction rows generalizing needed with
  | nil => simp [fill]
  | cons row rows ih =>
    rcases le_or_gt needed 0 with h | h
    · simp [fill_of_nonpos h]
    · obtain ⟨hrow, hrest⟩ := List.forall_mem_cons.mp hrows
      rw [fill_cons h]
      exact List.forall_mem_cons.mpr ⟨lt_min hrow h, ih _ hrest⟩

-- Nothing is lost on the way.
theorem fill_sum (capacity : R → K) (rows : List R) (needed : K) :
    ((fill capacity rows needed).1.map (·.2)).sum + (fill capacity rows needed).2 = needed := by
  induction rows generalizing needed with
  | nil => simp [fill]
  | cons row rows ih =>
    rcases le_or_gt needed 0 with h | h
    · simp [fill_of_nonpos h]
    · rw [fill_cons h, List.map_cons, List.sum_cons, add_assoc, ih, add_sub_cancel]

variable [IsOrderedAddMonoid K]

theorem fillKept_nonneg (hkeep : ∀ x, 0 ≤ x → 0 ≤ keep x) (h : 0 ≤ needed) :
    0 ≤ (fillKept keep capacity rows needed).2 := by
  induction rows generalizing needed with
  | nil => exact h
  | cons row rows ih =>
    rcases h.eq_or_lt with rfl | hpos
    · rw [fillKept_of_nonpos le_rfl]
    · rw [fillKept_cons hpos]
      exact ih (hkeep _ (sub_nonneg.mpr (min_le_right _ _)))

theorem fill_nonneg (h : 0 ≤ needed) : 0 ≤ (fill capacity rows needed).2 := by
  rw [fill_eq_fillKept]
  exact fillKept_nonneg (fun _ => id) h

theorem fill_rest (hrows : ∀ row ∈ rows, 0 ≤ capacity row) (h : 0 ≤ needed) :
    (fill capacity rows needed).2 = max 0 (needed - (rows.map capacity).sum) := by
  induction rows generalizing needed with
  | nil => simp [fill, h]
  | cons row rows ih =>
    obtain ⟨hrow, hrest⟩ := List.forall_mem_cons.mp hrows
    have hsum : 0 ≤ (rows.map capacity).sum := List.sum_nonneg (List.forall_mem_map.mpr hrest)
    rw [List.map_cons, List.sum_cons]
    rcases h.eq_or_lt with rfl | hpos
    · rw [fill_of_nonpos le_rfl, max_eq_left (sub_nonpos.mpr (add_nonneg hrow hsum))]
    · rw [fill_cons hpos, ih hrest (sub_nonneg.mpr (min_le_right _ _))]
      rcases le_total (capacity row) needed with hle | hle
      · rw [min_eq_left hle, sub_sub]
      · rw [min_eq_right hle, sub_self, zero_sub, max_eq_left (neg_nonpos.mpr hsum),
          max_eq_left (sub_nonpos.mpr (hle.trans (le_add_of_nonneg_right hsum)))]

end Numeric
