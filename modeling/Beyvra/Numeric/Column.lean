import Beyvra.Numeric.Decimal

namespace Numeric

-- To the nearest integer, a tie away from zero
def halfUp (x : ℚ) : Int := if x < 0 then -⌊-x + 1 / 2⌋ else ⌊x + 1 / 2⌋

-- NUMERIC(digits, decimals) of the database
structure Column where
  digits : Nat
  decimals : Nat

variable {x y : ℚ}

theorem halfUp_of_nonneg (h : 0 ≤ x) : halfUp x = ⌊x + 1 / 2⌋ := if_neg (not_lt.mpr h)

theorem halfUp_of_neg (h : x < 0) : halfUp x = -⌊-x + 1 / 2⌋ := if_pos h

@[simp] theorem halfUp_intCast (n : Int) : halfUp n = n := by
  have hhalf (m : Int) : ⌊(m : ℚ) + 1 / 2⌋ = m := by
    rw [Int.floor_intCast_add, show ⌊(1 / 2 : ℚ)⌋ = 0 by norm_num, add_zero]
  rcases lt_or_ge (n : ℚ) 0 with h | h
  · rw [halfUp_of_neg h, ← Int.cast_neg, hhalf, neg_neg]
  · rw [halfUp_of_nonneg h, hhalf]

theorem halfUp_neg (x : ℚ) : halfUp (-x) = -halfUp x := by
  rcases lt_trichotomy x 0 with h | rfl | h
  · rw [halfUp_of_nonneg (neg_nonneg.mpr h.le), halfUp_of_neg h, neg_neg]
  · rw [neg_zero, ← Int.cast_zero, halfUp_intCast, neg_zero]
  · rw [halfUp_of_neg (neg_lt_zero.mpr h), halfUp_of_nonneg h.le, neg_neg]

-- A tie goes up above zero and down below it.
theorem le_halfUp_iff {n : Int} : n ≤ halfUp x ↔ if 0 < n then (n : ℚ) - 1 / 2 ≤ x else (n : ℚ) - 1 / 2 < x := by
  rcases lt_or_ge x 0 with h | h
  · have hbelow : n ≤ halfUp x ↔ (n : ℚ) - 1 / 2 < x := by
      rw [halfUp_of_neg h, le_neg, ← Int.lt_add_one_iff, Int.floor_lt]
      push_cast
      constructor <;> intro hlt <;> linarith
    rw [hbelow]
    split_ifs with hn
    · have hone : (1 : ℚ) ≤ n := by exact_mod_cast hn
      constructor <;> intro hlt <;> linarith
    · exact Iff.rfl
  · have habove : n ≤ halfUp x ↔ (n : ℚ) - 1 / 2 ≤ x := by
      rw [halfUp_of_nonneg h, Int.le_floor]
      constructor <;> intro hle <;> linarith
    rw [habove]
    split_ifs with hn
    · exact Iff.rfl
    · have hzero : (n : ℚ) ≤ 0 := by exact_mod_cast not_lt.mp hn
      constructor <;> intro hlt <;> linarith

theorem halfUp_le_iff {n : Int} : halfUp x ≤ n ↔ if n < 0 then x ≤ (n : ℚ) + 1 / 2 else x < (n : ℚ) + 1 / 2 := by
  rw [← neg_le_neg_iff, ← halfUp_neg, le_halfUp_iff]
  push_cast
  simp only [Left.neg_pos_iff]
  split_ifs <;> constructor <;> intro h <;> linarith

theorem halfUp_error (x : ℚ) : |(halfUp x : ℚ) - x| ≤ 1 / 2 := by
  have hlow := le_halfUp_iff.mp (le_refl (halfUp x))
  have hhigh := halfUp_le_iff.mp (le_refl (halfUp x))
  rw [abs_le]
  split_ifs at hlow hhigh <;> constructor <;> linarith

theorem halfUp_mono (h : x ≤ y) : halfUp x ≤ halfUp y := by
  have hreach := le_halfUp_iff.mp (le_refl (halfUp x))
  rw [le_halfUp_iff]
  split_ifs at hreach ⊢ <;> linarith

theorem roundTo_halfUp_mono {unit : ℚ} (hunit : 0 < unit) (h : x ≤ y) :
    roundTo halfUp unit x ≤ roundTo halfUp unit y :=
  mul_le_mul_of_nonneg_right (Int.cast_le.mpr (halfUp_mono (div_le_div_of_nonneg_right h hunit.le))) hunit.le

section RoundTo

variable {unit y : ℚ} (hunit : 0 < unit)
include hunit

theorem le_roundTo_halfUp_iff : y ≤ roundTo halfUp unit x ↔
    if 0 < ⌈y / unit⌉ then (⌈y / unit⌉ - 1 / 2) * unit ≤ x else (⌈y / unit⌉ - 1 / 2) * unit < x := by
  have hceil : y ≤ roundTo halfUp unit x ↔ ⌈y / unit⌉ ≤ halfUp (x / unit) := by
    rw [roundTo, ← div_le_iff₀ hunit, Int.ceil_le]
  rw [hceil, le_halfUp_iff, le_div_iff₀ hunit, lt_div_iff₀ hunit]

theorem roundTo_halfUp_le_iff : roundTo halfUp unit x ≤ y ↔
    if ⌊y / unit⌋ < 0 then x ≤ (⌊y / unit⌋ + 1 / 2) * unit else x < (⌊y / unit⌋ + 1 / 2) * unit := by
  have hfloor : roundTo halfUp unit x ≤ y ↔ halfUp (x / unit) ≤ ⌊y / unit⌋ := by
    rw [roundTo, ← le_div_iff₀ hunit, Int.le_floor]
  rw [hfloor, halfUp_le_iff, div_le_iff₀ hunit, div_lt_iff₀ hunit]

-- Adding to a multiple what another number gained by rounding gives the multiple back, unless that
-- number lay half way.
theorem roundTo_halfUp_add_gain_iff (hx : 0 ≤ x) (hpos : 0 < y) (hy : IsMultiple unit y) :
    roundTo halfUp unit (y + (roundTo halfUp unit x - x)) = y ↔ ¬IsMultiple unit (x - unit / 2) := by
  obtain ⟨m, rfl⟩ := hy
  have hm : (1 : ℚ) ≤ m := by
    have hm : 0 < m := by exact_mod_cast (mul_pos_iff_of_pos_right hunit).mp hpos
    exact_mod_cast hm
  have hhalf : x / unit + 1 / 2 = x / unit - 1 / 2 + 1 := by ring
  have hround : roundTo halfUp unit x = ((⌊x / unit - 1 / 2⌋ + 1 : Int) : ℚ) * unit := by
    rw [roundTo, halfUp_of_nonneg (div_nonneg hx hunit.le), hhalf, Int.floor_add_one]
  have hscaled : (m * unit + (roundTo halfUp unit x - x)) / unit = m + (⌊x / unit - 1 / 2⌋ + 1 - x / unit) := by
    rw [hround]
    push_cast
    field_simp
  have hnonneg : 0 ≤ (m : ℚ) + (⌊x / unit - 1 / 2⌋ + 1 - x / unit) := by
    have := Int.lt_floor_add_one (x / unit - 1 / 2)
    linarith
  have hsum : (m : ℚ) + (⌊x / unit - 1 / 2⌋ + 1 - x / unit) + 1 / 2 =
      ((m + (⌊x / unit - 1 / 2⌋ + 1) : Int) : ℚ) + -(x / unit - 1 / 2) := by
    push_cast
    ring
  have hgained : roundTo halfUp unit (m * unit + (roundTo halfUp unit x - x)) = m * unit ↔
      ⌈x / unit - 1 / 2⌉ = ⌊x / unit - 1 / 2⌋ + 1 := by
    rw [roundTo, hscaled, halfUp_of_nonneg hnonneg, hsum, Int.floor_intCast_add, Int.floor_neg,
      mul_left_inj' hunit.ne', Int.cast_inj]
    omega
  rw [hgained, Int.ceil_eq_floor_add_one_iff_notMem, not_iff_not]
  constructor
  · rintro ⟨n, hn⟩
    exact ⟨n, by rw [hn]; field_simp⟩
  · rintro ⟨n, hn⟩
    refine ⟨n, ?_⟩
    rw [eq_sub_iff_add_eq, eq_div_iff hunit.ne', add_mul, ← hn]
    ring

end RoundTo

namespace Column

variable {c : Column}

def unit (c : Column) : ℚ := 10 ^ (-c.decimals : Int)

def bound (c : Column) : ℚ := 10 ^ (c.digits - c.decimals : Int)

structure Holds (c : Column) (x : ℚ) : Prop where
  multiple : IsMultiple c.unit x
  below : |x| < c.bound

-- Decimals that the column lacks are rounded away; a value that is too large is refused.
def store (c : Column) (x : ℚ) : Option ℚ :=
  let r := roundTo halfUp c.unit x
  if c.bound ≤ |r| then none else some r

theorem unit_pos : 0 < c.unit := zpow_pos (by norm_num) _

theorem store_of_holds (h : c.Holds x) : c.store x = some x := by
  have hsame : roundTo halfUp c.unit x = x := roundTo_of_isMultiple unit_pos.ne' halfUp_intCast h.multiple
  rw [store, hsame]
  exact if_neg (not_le.mpr h.below)

theorem holds_of_store (h : c.store x = some y) : c.Holds y := by
  rw [store] at h
  split_ifs at h with hbound
  rw [← Option.some.inj h]
  exact ⟨roundTo_isMultiple, not_le.mp hbound⟩

theorem Holds.sub (hx : c.Holds x) (hy : c.Holds y) (h0 : 0 ≤ y) (hle : y ≤ x) : c.Holds (x - y) := by
  refine ⟨hx.multiple.sub hy.multiple, ?_⟩
  rw [abs_of_nonneg (sub_nonneg.mpr hle)]
  exact (sub_le_self x h0).trans_lt ((le_abs_self x).trans_lt hx.below)

-- Amounts of a column are summed without rounding while they need no more than the 28 digits.
theorem sum_exact {terms : List ℚ} (hdecimals : c.decimals ≤ 28) (hterms : ∀ x ∈ terms, 0 ≤ x ∧ IsMultiple c.unit x)
    (hsum : terms.sum < 10 ^ (28 - c.decimals : Int)) : terms.foldlM defaultContext.add 0 = some terms.sum := by
  have hlow : defaultContext.emin - defaultContext.prec + 1 ≤ -(c.decimals : Int) := by
    have : defaultContext.emin - defaultContext.prec + 1 = -1000026 := by decide
    omega
  have hhigh : -(c.decimals : Int) + defaultContext.prec ≤ defaultContext.emax + 1 := by
    have : (defaultContext.prec : Int) = 28 ∧ defaultContext.emax = 999999 := by decide
    omega
  have hfold := Context.foldlM_add_of_isMultiple hlow hhigh hterms le_rfl ⟨0, by simp⟩
    (by rw [zero_add, show -(c.decimals : Int) + defaultContext.prec = 28 - c.decimals from neg_add_eq_sub _ _]; exact hsum)
  rwa [zero_add] at hfold

theorem Holds.min (hx : c.Holds x) (hy : c.Holds y) : c.Holds (min x y) := by
  rcases min_choice x y with h | h <;> rw [h] <;> assumption

end Column

end Numeric
