import Mathlib.Algebra.Order.BigOperators.Group.List
import Beyvra.Numeric.Rounding

namespace Numeric

structure FiniteDecimal where
  negative : Bool := false
  coefficient : Nat
  exponent : Int
  deriving DecidableEq, Repr

def FiniteDecimal.value (d : FiniteDecimal) : ℚ := (if d.negative then -1 else 1) * d.coefficient * 10 ^ d.exponent

-- How many digits a result has, and the range of the exponent of its first digit
structure Context where
  prec : Nat
  emin : Int
  emax : Int

def defaultContext : Context where
  prec := 28
  emin := -999999
  emax := 999999

namespace Context

def round (c : Context) (x : ℚ) : ℚ := nearest 10 c.prec (c.emin - c.prec + 1) x

-- Nothing where the result overflows, which is trapped
def finalize (c : Context) (x : ℚ) : Option ℚ :=
  let r := nearest 10 c.prec (c.emin - c.prec + 1) x
  if 10 ^ (c.emax + 1) ≤ |r| then none else some r

def add (c : Context) (x y : ℚ) : Option ℚ := c.finalize (x + y)

def sub (c : Context) (x y : ℚ) : Option ℚ := c.finalize (x - y)

def mul (c : Context) (x y : ℚ) : Option ℚ := c.finalize (x * y)

-- Nothing where the divisor is zero
def div (c : Context) (x y : ℚ) : Option ℚ := if y = 0 then none else c.finalize (x / y)

-- Nothing where the divisor is zero or the whole quotient has more digits than the context
def rem (c : Context) (x y : ℚ) : Option ℚ :=
  if y = 0 ∨ (10 : Int) ^ c.prec ≤ |towardZero (x / y)| then none else c.finalize (x - towardZero (x / y) * y)

-- Nothing where the coefficient has more digits than the context, an invalid operation
def quantize (c : Context) (mode : ℚ → Int) (exponent : Int) (x : ℚ) : Option ℚ :=
  let r := roundTo mode (10 ^ exponent) x
  if 10 ^ (c.prec + exponent) ≤ |r| then none else some r

variable {c : Context} {x y : ℚ} {e : Int}

theorem round_of_finalize {r : ℚ} (h : c.finalize x = some r) : c.round x = r := by
  unfold finalize at h
  dsimp only at h
  split_ifs at h
  exact Option.some.inj h

theorem finalize_of_round (h : |c.round x| < 10 ^ (c.emax + 1)) : c.finalize x = some (c.round x) := if_neg (not_le.mpr h)

theorem finalize_of_isMultiple (he : c.emin - c.prec + 1 ≤ e) (hmax : e + c.prec ≤ c.emax + 1)
    (hmultiple : IsMultiple (10 ^ e) x) (hx : |x| < 10 ^ (e + c.prec)) : c.finalize x = some x := by
  have hsame : nearest 10 c.prec (c.emin - c.prec + 1) x = x :=
    nearest_of_isMultiple (by omega) he (by exact_mod_cast hmultiple) (by exact_mod_cast hx)
  have hpow : (10 : ℚ) ^ (e + c.prec) ≤ 10 ^ (c.emax + 1) := zpow_le_zpow_right₀ (by norm_num) hmax
  rw [finalize, hsame]
  exact if_neg (not_le.mpr (hx.trans_le hpow))

theorem eq_nearest_of_finalize {r : ℚ} (h : c.finalize x = some r) : r = nearest 10 c.prec (c.emin - c.prec + 1) x :=
  (round_of_finalize h).symm

-- What lies between two numbers of the digits that there are is rounded to a number between them.
theorem finalize_between {lo hi r : ℚ} (he : c.emin - c.prec + 1 ≤ e) (hp : 0 < e + c.prec)
    (hlo : IsMultiple (10 ^ e) lo) (hhi : IsMultiple (10 ^ e) hi) (hx : |x| < 10 ^ (e + c.prec))
    (hle : lo ≤ x) (hge : x ≤ hi) (h : c.finalize x = some r) : lo ≤ r ∧ r ≤ hi := by
  have hlast : lastExponent 10 c.prec (c.emin - c.prec + 1) x ≤ e :=
    lastExponent_le_of_lt (by norm_num) (by exact_mod_cast hx) he (by omega)
  have hlo' := IsMultiple.zpow (b := 10) (by norm_num) hlast (by exact_mod_cast hlo)
  have hhi' := IsMultiple.zpow (b := 10) (by norm_num) hlast (by exact_mod_cast hhi)
  rw [eq_nearest_of_finalize h]
  exact ⟨le_roundTo_halfEven (zpow_pos (by norm_num) _) hlo' hle, roundTo_halfEven_le (zpow_pos (by norm_num) _) hhi' hge⟩

theorem finalize_error {r : ℚ} (h : c.finalize x = some r) :
    |r - x| ≤ |x| * 10 ^ (1 - (c.prec : Int)) + 10 ^ (c.emin - c.prec + 1) := by
  have hscale : (0 : ℚ) ≤ |x| * 10 ^ (1 - (c.prec : Int)) := mul_nonneg (abs_nonneg x) (zpow_pos (by norm_num) _).le
  have hleast : (0 : ℚ) < 10 ^ (c.emin - c.prec + 1) := zpow_pos (by norm_num) _
  rw [eq_nearest_of_finalize h]
  have herror : |nearest 10 c.prec (c.emin - c.prec + 1) x - x| ≤
      ((10 : Nat) : ℚ) ^ lastExponent 10 c.prec (c.emin - c.prec + 1) x / 2 := nearest_error (by norm_num)
  by_cases hzero : x = 0
  · have hsame : nearest 10 c.prec (c.emin - c.prec + 1) x = x :=
      roundTo_of_isMultiple (zpow_pos (by norm_num) _).ne' halfEven_intCast ⟨0, by simp [hzero]⟩
    rw [hsame, sub_self, abs_zero]
    positivity
  · have hlog : ((10 : Nat) : ℚ) ^ Int.log 10 |x| ≤ |x| := Int.zpow_log_le_self (by norm_num) (abs_pos.mpr hzero)
    rcases le_total (Int.log 10 |x| - c.prec + 1) (c.emin - c.prec + 1) with hlow | hhigh
    · rw [lastExponent, max_eq_right hlow] at herror
      push_cast at herror
      linarith
    · have hexponent : Int.log 10 |x| - c.prec + 1 = Int.log 10 |x| + (1 - c.prec) := by omega
      rw [lastExponent, max_eq_left hhigh, hexponent, zpow_add₀ (by norm_num)] at herror
      have hscaled := mul_le_mul_of_nonneg_right hlog (zpow_pos (by norm_num : (0 : ℚ) < 10) (1 - (c.prec : Int))).le
      push_cast at herror hscaled
      linarith

theorem round_neg (x : ℚ) : c.round (-x) = -c.round x := nearest_neg _ _ _ x

theorem round_nonneg (h : 0 ≤ x) : 0 ≤ c.round x := nearest_nonneg (by norm_num) h

theorem round_of_isMultiple (he : c.emin - c.prec + 1 ≤ e) (hmultiple : IsMultiple (10 ^ e) x)
    (hx : |x| < 10 ^ (e + c.prec)) : c.round x = x :=
  nearest_of_isMultiple (by omega) he (by exact_mod_cast hmultiple) (by exact_mod_cast hx)

theorem round_isMultiple : IsMultiple (10 ^ (c.emin - c.prec + 1)) (c.round x) := by
  have hlast : IsMultiple (((10 : Nat) : ℚ) ^ lastExponent 10 c.prec (c.emin - c.prec + 1) x) (c.round x) :=
    roundTo_isMultiple
  exact_mod_cast IsMultiple.zpow (b := 10) (by norm_num) (le_max_right ..) hlast

-- A number of the digits that there are is not passed by rounding.
theorem le_round (hp : 0 < c.prec) (he : c.emin - c.prec + 1 ≤ e) (hmultiple : IsMultiple (10 ^ e) y) (hy : 0 < y)
    (hlt : y < 10 ^ (e + c.prec)) (h : y ≤ x) : y ≤ c.round x := by
  have hmono : c.round y ≤ c.round x := nearest_mono (by norm_num) hp hy h
  rwa [round_of_isMultiple he hmultiple (by rwa [abs_of_pos hy])] at hmono

theorem round_le (he : c.emin - c.prec + 1 ≤ e) (hp : 0 < e + c.prec) (hmultiple : IsMultiple (10 ^ e) y)
    (hlt : y < 10 ^ (e + c.prec)) (hx : 0 ≤ x) (h : x ≤ y) : c.round x ≤ y :=
  nearest_le (by norm_num) he (by exact_mod_cast hmultiple) (by exact_mod_cast hlt) hp hx h

theorem eq_zero_of_round (he : c.emin - c.prec + 1 ≤ e) (hp : 0 < c.prec) (hmultiple : IsMultiple (10 ^ e) x)
    (hround : c.round x = 0) : x = 0 := by
  have hpos : (0 : ℚ) < 10 ^ e := zpow_pos (by norm_num) e
  obtain ⟨n, hn⟩ := hmultiple
  have hreach (k : Int) (hk : 0 < k) (hzero : nearest 10 c.prec (c.emin - c.prec + 1) (k * 10 ^ e) = 0) : False := by
    have hone : (1 : ℚ) ≤ k := by exact_mod_cast hk
    have hle : ((10 : Nat) : ℚ) ^ e ≤ k * 10 ^ e := by
      push_cast
      exact le_mul_of_one_le_left hpos.le hone
    have hlow := zpow_le_nearest (by norm_num) he hp hle
    rw [hzero] at hlow
    push_cast at hlow
    exact absurd hlow (not_le.mpr hpos)
  rcases lt_trichotomy n 0 with hneg | rfl | hpositive
  · refine (hreach (-n) (by omega) ?_).elim
    rw [hn, round] at hround
    push_cast
    rw [neg_mul, nearest_neg, hround, neg_zero]
  · simpa using hn
  · rw [hn] at hround
    exact (hreach n hpositive hround).elim

theorem eq_zero_of_finalize (he : c.emin - c.prec + 1 ≤ e) (hp : 0 < c.prec) (hmultiple : IsMultiple (10 ^ e) x)
    (h : c.finalize x = some 0) : x = 0 :=
  eq_zero_of_round he hp hmultiple (round_of_finalize h)

-- A remainder that is rounded to zero is zero, where both numbers have digits that there are.
theorem isMultiple_of_rem (he : c.emin - c.prec + 1 ≤ e) (hp : 0 < c.prec) (hx : IsMultiple (10 ^ e) x)
    (hy : IsMultiple (10 ^ e) y) (h : c.rem x y = some 0) : IsMultiple y x := by
  unfold rem at h
  split_ifs at h
  obtain ⟨m, hm⟩ := hy
  have hmultiple : IsMultiple (10 ^ e) (towardZero (x / y) * y) :=
    ⟨towardZero (x / y) * m, by rw [hm]; push_cast; ring⟩
  exact ⟨towardZero (x / y), sub_eq_zero.mp (eq_zero_of_finalize he hp (hx.sub hmultiple) h)⟩

-- Terms that are not negative and multiples of one power of ten are added without rounding while they have room.
theorem foldlM_add_of_isMultiple (he : c.emin - c.prec + 1 ≤ e) (hmax : e + c.prec ≤ c.emax + 1) {total : ℚ}
    {terms : List ℚ} (hterms : ∀ x ∈ terms, 0 ≤ x ∧ IsMultiple (10 ^ e) x) (h0 : 0 ≤ total)
    (htotal : IsMultiple (10 ^ e) total) (hsum : total + terms.sum < 10 ^ (e + c.prec)) :
    terms.foldlM c.add total = some (total + terms.sum) := by
  induction terms generalizing total with
  | nil => simp
  | cons x terms ih =>
    obtain ⟨hx, n, hn⟩ := hterms x List.mem_cons_self
    have hrest : ∀ y ∈ terms, 0 ≤ y ∧ IsMultiple (10 ^ e) y := fun y hy => hterms y (List.mem_cons_of_mem _ hy)
    have htail : 0 ≤ terms.sum := List.sum_nonneg fun y hy => (hrest y hy).1
    rw [List.sum_cons, ← add_assoc] at hsum
    have hmultiple : IsMultiple (10 ^ e) (total + x) := htotal.add ⟨n, hn⟩
    have hnonneg : 0 ≤ total + x := add_nonneg h0 hx
    have hstep : c.add total x = some (total + x) :=
      finalize_of_isMultiple he hmax hmultiple (by rw [abs_of_nonneg hnonneg]; linarith)
    rw [List.foldlM_cons, hstep, Option.bind_eq_bind, Option.bind_some, ih hrest hnonneg hmultiple hsum, List.sum_cons,
      add_assoc]

end Context

end Numeric
