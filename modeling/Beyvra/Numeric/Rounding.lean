import Mathlib.Algebra.Order.Floor.Ring
import Mathlib.Data.Int.Log
import Mathlib.Data.Rat.Floor
import Mathlib.Tactic.FieldSimp
import Mathlib.Tactic.Linarith
import Mathlib.Tactic.Ring

namespace Numeric

def halfEven (x : ℚ) : Int :=
  if x - ⌊x⌋ < 1 / 2 then ⌊x⌋
  else if 1 / 2 < x - ⌊x⌋ then ⌊x⌋ + 1
  else ⌊x⌋ + ⌊x⌋ % 2

def towardZero (x : ℚ) : Int := if x < 0 then ⌈x⌉ else ⌊x⌋

-- To the multiples of a unit
def roundTo (mode : ℚ → Int) (unit x : ℚ) : ℚ := mode (x / unit) * unit

def IsMultiple (unit x : ℚ) : Prop := ∃ n : Int, x = n * unit

-- The exponent of the last of p digits of x in base b, which is not below a least one
def lastExponent (b p : Nat) (least : Int) (x : ℚ) : Int := max (Int.log b |x| - p + 1) least

def nearest (b p : Nat) (least : Int) (x : ℚ) : ℚ := roundTo halfEven ((b : ℚ) ^ lastExponent b p least x) x

def binary64 (x : ℚ) : ℚ := nearest 2 53 (-1074) x

variable {b p : Nat} {e least : Int} {mode : ℚ → Int} {unit x y : ℚ} {n : Int}

@[simp] theorem halfEven_intCast (n : Int) : halfEven n = n := by simp [halfEven]

theorem floor_le_halfEven (x : ℚ) : ⌊x⌋ ≤ halfEven x := by
  unfold halfEven
  split_ifs <;> omega

theorem halfEven_le (x : ℚ) : halfEven x ≤ ⌊x⌋ + 1 := by
  unfold halfEven
  split_ifs <;> omega

theorem le_halfEven (h : (n : ℚ) ≤ x) : n ≤ halfEven x := (Int.le_floor.mpr h).trans (floor_le_halfEven x)

-- A tie below an even number goes up.
theorem le_halfEven_of_even (heven : Even n) (h : (n : ℚ) - 1 / 2 ≤ x) : n ≤ halfEven x := by
  by_cases hle : (n : ℚ) ≤ x
  · exact le_halfEven hle
  · have hfloor : ⌊x⌋ = n - 1 := by
      rw [Int.floor_eq_iff]
      push_cast
      constructor <;> linarith
    have hodd : (n - 1) % 2 = 1 := by
      obtain ⟨k, rfl⟩ := heven
      omega
    have hhalf : ¬x - ⌊x⌋ < 1 / 2 := by
      rw [hfloor]
      push_cast
      linarith
    rw [halfEven, if_neg hhalf, hfloor, hodd]
    split_ifs <;> omega

theorem halfEven_error (x : ℚ) : |(halfEven x : ℚ) - x| ≤ 1 / 2 := by
  have hlow := Int.floor_le x
  have hhigh := Int.lt_floor_add_one x
  unfold halfEven
  split_ifs with hbelow habove
  · rw [abs_le]
    constructor <;> linarith
  · rw [abs_le]
    push_cast
    constructor <;> linarith
  · have hhalf : x - ⌊x⌋ = 1 / 2 := le_antisymm (not_lt.mp habove) (not_lt.mp hbelow)
    rcases Int.emod_two_eq_zero_or_one ⌊x⌋ with hmod | hmod
    · rw [hmod, abs_le]
      push_cast
      constructor <;> linarith
    · rw [hmod, abs_le]
      push_cast
      constructor <;> linarith

theorem halfEven_mono (h : x ≤ y) : halfEven x ≤ halfEven y := by
  rcases lt_or_eq_of_le (Int.floor_le_floor h) with hlt | heq
  · exact (halfEven_le x).trans ((Int.add_one_le_of_lt hlt).trans (floor_le_halfEven y))
  · unfold halfEven
    rw [← heq]
    have hsub : x - ⌊x⌋ ≤ y - ⌊x⌋ := sub_le_sub_right h _
    split_ifs <;> first | omega | linarith

theorem halfEven_neg (x : ℚ) : halfEven (-x) = -halfEven x := by
  rcases (Int.floor_le x).eq_or_lt with hwhole | hlt
  · rw [← hwhole, ← Int.cast_neg, halfEven_intCast, halfEven_intCast]
  · have hfloor : ⌊-x⌋ = -⌊x⌋ - 1 := by
      have hnext := Int.lt_floor_add_one x
      rw [Int.floor_eq_iff]
      push_cast
      constructor <;> linarith
    unfold halfEven
    rw [hfloor]
    push_cast
    split_ifs <;> first | omega | linarith

theorem roundTo_error (hunit : 0 < unit) (hmode : ∀ x, |(mode x : ℚ) - x| ≤ 1 / 2) :
    |roundTo mode unit x - x| ≤ unit / 2 := by
  have hscaled : roundTo mode unit x - x = (mode (x / unit) - x / unit) * unit := by
    rw [roundTo, sub_mul, div_mul_cancel₀ x hunit.ne']
  rw [hscaled, abs_mul, abs_of_pos hunit]
  calc |(mode (x / unit) : ℚ) - x / unit| * unit ≤ 1 / 2 * unit := by
        exact mul_le_mul_of_nonneg_right (hmode _) hunit.le
    _ = unit / 2 := by ring

theorem roundTo_of_isMultiple (hunit : unit ≠ 0) (hmode : ∀ n : Int, mode n = n) (h : IsMultiple unit x) :
    roundTo mode unit x = x := by
  obtain ⟨n, rfl⟩ := h
  rw [roundTo, mul_div_cancel_right₀ _ hunit, hmode]

theorem roundTo_isMultiple : IsMultiple unit (roundTo mode unit x) := ⟨_, rfl⟩

theorem le_roundTo_halfEven (hunit : 0 < unit) (hy : IsMultiple unit y) (h : y ≤ x) :
    y ≤ roundTo halfEven unit x := by
  obtain ⟨n, rfl⟩ := hy
  have hn : (n : ℚ) ≤ x / unit := (le_div_iff₀ hunit).mpr h
  have hcast : (n : ℚ) ≤ halfEven (x / unit) := by exact_mod_cast le_halfEven hn
  exact mul_le_mul_of_nonneg_right hcast hunit.le

theorem roundTo_halfEven_le (hunit : 0 < unit) (hy : IsMultiple unit y) (h : x ≤ y) :
    roundTo halfEven unit x ≤ y := by
  obtain ⟨n, rfl⟩ := hy
  have hmono := halfEven_mono ((div_le_iff₀ hunit).mpr h)
  rw [halfEven_intCast] at hmono
  have hcast : (halfEven (x / unit) : ℚ) ≤ n := by exact_mod_cast hmono
  exact mul_le_mul_of_nonneg_right hcast hunit.le

theorem IsMultiple.add (hx : IsMultiple unit x) (hy : IsMultiple unit y) : IsMultiple unit (x + y) := by
  obtain ⟨m, rfl⟩ := hx
  obtain ⟨n, rfl⟩ := hy
  exact ⟨m + n, by push_cast; ring⟩

theorem IsMultiple.sub (hx : IsMultiple unit x) (hy : IsMultiple unit y) : IsMultiple unit (x - y) := by
  obtain ⟨m, rfl⟩ := hx
  obtain ⟨n, rfl⟩ := hy
  exact ⟨m - n, by push_cast; ring⟩

theorem IsMultiple.sum {xs : List ℚ} (h : ∀ x ∈ xs, IsMultiple unit x) : IsMultiple unit xs.sum := by
  induction xs with
  | nil => exact ⟨0, by simp⟩
  | cons x xs ih =>
    obtain ⟨hx, hrest⟩ := List.forall_mem_cons.mp h
    rw [List.sum_cons]
    exact hx.add (ih hrest)

theorem IsMultiple.zpow (hb : b ≠ 0) {d : Int} (hle : d ≤ e) (h : IsMultiple ((b : ℚ) ^ e) x) :
    IsMultiple ((b : ℚ) ^ d) x := by
  obtain ⟨n, rfl⟩ := h
  have hcast : (b : ℚ) ≠ 0 := Nat.cast_ne_zero.mpr hb
  obtain ⟨k, hk⟩ := Int.le.dest hle
  refine ⟨n * (b : Int) ^ k, ?_⟩
  rw [← hk, zpow_add₀ hcast, zpow_natCast]
  push_cast
  ring

-- A factor without a common divisor with the base does not hide digits.
theorem IsMultiple.of_mul {k : Nat} (hb : b ≠ 0) {d : Int} (hcoprime : Nat.Coprime b k)
    (hx : IsMultiple ((b : ℚ) ^ d) x) (h : IsMultiple ((b : ℚ) ^ e) (k * x)) : IsMultiple ((b : ℚ) ^ e) x := by
  rcases le_total e d with hle | hle
  · exact hx.zpow hb hle
  · have hcast : (b : ℚ) ≠ 0 := Nat.cast_ne_zero.mpr hb
    obtain ⟨j, hj⟩ := Int.le.dest hle
    obtain ⟨m, rfl⟩ := hx
    obtain ⟨n, hn⟩ := h
    have hpow : (b : ℚ) ^ e = (b : ℚ) ^ d * (b : ℚ) ^ j := by rw [← hj, zpow_add₀ hcast, zpow_natCast]
    have hscaled : k * m = n * (b : Int) ^ j := by
      have hcancel : ((k * m : Int) : ℚ) * (b : ℚ) ^ d = ((n * (b : Int) ^ j : Int) : ℚ) * (b : ℚ) ^ d := by
        push_cast
        calc (k : ℚ) * m * (b : ℚ) ^ d = k * (m * (b : ℚ) ^ d) := by ring
          _ = n * ((b : ℚ) ^ d * (b : ℚ) ^ j) := by rw [hn, hpow]
          _ = n * (b : ℚ) ^ j * (b : ℚ) ^ d := by ring
      exact_mod_cast mul_right_cancel₀ (zpow_ne_zero d hcast) hcancel
    have hdvd : (b : Int) ^ j ∣ k * m := hscaled ▸ Dvd.intro_left n rfl
    obtain ⟨q, hq⟩ := Int.dvd_of_dvd_mul_right_of_gcd_one hdvd (by exact_mod_cast hcoprime.pow_left j)
    refine ⟨q, ?_⟩
    rw [hq, hpow]
    push_cast
    ring

theorem nearest_neg (b p : Nat) (least : Int) (x : ℚ) : nearest b p least (-x) = -nearest b p least x := by
  unfold nearest roundTo lastExponent
  rw [abs_neg, neg_div, halfEven_neg, Int.cast_neg, neg_mul]

section Nearest

variable (hb : 1 < b)

include hb

theorem unit_pos : (0 : ℚ) < (b : ℚ) ^ e := zpow_pos (Nat.cast_pos.mpr (by omega)) e

theorem lastExponent_le (hleast : least ≤ e) (hne : x ≠ 0) (hx : |x| < (b : ℚ) ^ (e + p)) :
    lastExponent b p least x ≤ e := by
  have hlog := (Int.lt_zpow_iff_log_lt hb (abs_pos.mpr hne)).mp hx
  exact max_le (by omega) hleast

-- A number of at most p digits is not rounded.
theorem nearest_of_isMultiple (hleast : least ≤ e) (hmultiple : IsMultiple ((b : ℚ) ^ e) x)
    (hx : |x| < (b : ℚ) ^ (e + p)) : nearest b p least x = x := by
  refine roundTo_of_isMultiple (unit_pos hb).ne' halfEven_intCast ?_
  by_cases hzero : x = 0
  · exact ⟨0, by simp [hzero]⟩
  · exact hmultiple.zpow (by omega) (lastExponent_le hb hleast hzero hx)

theorem nearest_error : |nearest b p least x - x| ≤ (b : ℚ) ^ lastExponent b p least x / 2 :=
  roundTo_error (unit_pos hb) halfEven_error

theorem lastExponent_le_of_lt (hx : |x| < (b : ℚ) ^ (e + p)) (hleast : least ≤ e) (he : (1 : Int) ≤ e + p) :
    lastExponent b p least x ≤ e := by
  by_cases hne : x = 0
  · refine max_le ?_ hleast
    rw [hne, abs_zero, Int.log_zero_right]
    omega
  · exact lastExponent_le hb hleast hne hx

theorem nearest_nonneg (hx : 0 ≤ x) : 0 ≤ nearest b p least x :=
  le_roundTo_halfEven (unit_pos hb) ⟨0, by simp⟩ hx

-- A number of at most p digits is an upper bound of what rounds to it.
theorem nearest_le (hleast : least ≤ e) (hmultiple : IsMultiple ((b : ℚ) ^ e) y) (hy : y < (b : ℚ) ^ (e + p))
    (hp : 0 < e + p) (hx : 0 ≤ x) (h : x ≤ y) : nearest b p least x ≤ y := by
  have hlast : lastExponent b p least x ≤ e :=
    lastExponent_le_of_lt hb (by rw [abs_of_nonneg hx]; exact h.trans_lt hy) hleast (by omega)
  exact roundTo_halfEven_le (unit_pos hb) (hmultiple.zpow (by omega) hlast) h

theorem abs_nearest_le (hleast : least ≤ e) (hmultiple : IsMultiple ((b : ℚ) ^ e) y) (hy : y < (b : ℚ) ^ (e + p))
    (hp : 0 < e + p) (h : |x| ≤ y) : |nearest b p least x| ≤ y := by
  rcases le_total 0 x with hx | hx
  · rw [abs_of_nonneg hx] at h
    rw [abs_of_nonneg (nearest_nonneg hb hx)]
    exact nearest_le hb hleast hmultiple hy hp hx h
  · have hneg : 0 ≤ -x := neg_nonneg.mpr hx
    rw [abs_of_nonpos hx] at h
    rw [← abs_neg, ← nearest_neg, abs_of_nonneg (nearest_nonneg hb hneg)]
    exact nearest_le hb hleast hmultiple hy hp hneg h

theorem zpow_le_nearest (hleast : least ≤ e) (hp : 0 < p) (h : (b : ℚ) ^ e ≤ x) : (b : ℚ) ^ e ≤ nearest b p least x := by
  have hx : 0 < x := (unit_pos hb).trans_le h
  have hlog : e ≤ Int.log b x := (Int.zpow_le_iff_le_log hb hx).mp h
  have hlast : lastExponent b p least x ≤ Int.log b x := by
    rw [lastExponent, abs_of_pos hx]
    omega
  calc (b : ℚ) ^ e ≤ (b : ℚ) ^ Int.log b x := zpow_le_zpow_right₀ (Nat.one_le_cast.mpr (by omega)) hlog
    _ ≤ nearest b p least x := by
        have hone : IsMultiple ((b : ℚ) ^ Int.log b x) ((b : ℚ) ^ Int.log b x) := ⟨1, by simp⟩
        exact le_roundTo_halfEven (unit_pos hb) (hone.zpow (by omega) hlast) (Int.zpow_log_le_self hb hx)

-- In an even base a number reaches a power of the base from half a unit below it on.
theorem nearest_lt_iff (heven : Even b) (hp : 0 < p) (hleast : least ≤ e) (he : (1 : Int) ≤ e + p) (hx : 0 ≤ x) :
    nearest b p least x < (b : ℚ) ^ (e + p) ↔ x < (b : ℚ) ^ (e + p) - (b : ℚ) ^ e / 2 := by
  have hpos : (0 : ℚ) < (b : ℚ) ^ e := unit_pos hb
  have hcast : (1 : ℚ) ≤ b := Nat.one_le_cast.mpr (by omega)
  constructor
  · contrapose!
    intro h
    rcases le_or_gt ((b : ℚ) ^ (e + p)) x with hreach | hbelow
    · exact zpow_le_nearest hb (by omega) hp hreach
    · have htwo : (2 : ℚ) ≤ b := by exact_mod_cast hb
      have hdigit : (b : ℚ) ^ (e + p) = b * (b : ℚ) ^ (e + p - 1) := by
        rw [← zpow_one_add₀ (by positivity)]
        congr 1
        omega
      have hunit : (b : ℚ) ^ e ≤ (b : ℚ) ^ (e + p - 1) := zpow_le_zpow_right₀ hcast (by omega)
      have hlow : (b : ℚ) ^ (e + p - 1) ≤ x := by nlinarith
      have hlast : lastExponent b p least x = e := by
        have hxpos : 0 < x := (unit_pos hb).trans_le hlow
        have hle : e + p - 1 ≤ Int.log b x := (Int.zpow_le_iff_le_log hb hxpos).mp hlow
        have hlt : Int.log b x < e + p := (Int.lt_zpow_iff_log_lt hb hxpos).mp hbelow
        rw [lastExponent, abs_of_pos hxpos]
        omega
      have hsplit : (b : ℚ) ^ (e + p) = ((b ^ p : Nat) : Int) * (b : ℚ) ^ e := by
        rw [zpow_add₀ (by positivity), zpow_natCast, mul_comm]
        push_cast
        rfl
      have hscaled : ((b ^ p : Nat) : Int) - (1 : ℚ) / 2 ≤ x / (b : ℚ) ^ e := by
        rw [le_div_iff₀ hpos, sub_mul, ← hsplit]
        linarith
      have hround := le_halfEven_of_even (by exact_mod_cast heven.pow_of_ne_zero hp.ne') hscaled
      rw [nearest, hlast, roundTo, hsplit]
      exact mul_le_mul_of_nonneg_right (by exact_mod_cast hround) hpos.le
  · intro h
    have hlast : lastExponent b p least x ≤ e :=
      lastExponent_le_of_lt hb (by rw [abs_of_nonneg hx]; linarith) hleast he
    have hunit : (b : ℚ) ^ lastExponent b p least x ≤ (b : ℚ) ^ e := zpow_le_zpow_right₀ hcast hlast
    have herror := abs_le.mp (@nearest_error b p least x hb)
    linarith [herror.2]

theorem nearest_le_mul (hx : 0 < x) (hleast : least ≤ Int.log b x - p + 1) :
    nearest b p least x ≤ x * (1 + (b : ℚ) ^ (1 - (p : Int)) / 2) := by
  have herror := abs_le.mp (@nearest_error b p least x hb)
  have hlast : lastExponent b p least x = Int.log b x + (1 - p) := by
    rw [lastExponent, abs_of_pos hx]
    omega
  rw [hlast, zpow_add₀ (Nat.cast_ne_zero.mpr (by omega))] at herror
  have hlog : (b : ℚ) ^ Int.log b x ≤ x := Int.zpow_log_le_self hb hx
  have hscaled := mul_le_mul_of_nonneg_right hlog (unit_pos hb : (0 : ℚ) < (b : ℚ) ^ (1 - (p : Int))).le
  linarith [herror.2]

-- Up to the next power of the base x keeps its digits, and from there on y has fewer.
theorem nearest_mono (hp : 0 < p) (hx : 0 < x) (h : x ≤ y) : nearest b p least x ≤ nearest b p least y := by
  have hy : 0 < y := hx.trans_le h
  have hlogs : Int.log b x ≤ Int.log b y := Int.log_mono_right hx h
  have hlastx : lastExponent b p least x = max (Int.log b x - p + 1) least := by rw [lastExponent, abs_of_pos hx]
  have hlasty : lastExponent b p least y = max (Int.log b y - p + 1) least := by rw [lastExponent, abs_of_pos hy]
  rcases eq_or_ne (lastExponent b p least x) (lastExponent b p least y) with heq | hne
  · have hpos : (0 : ℚ) < (b : ℚ) ^ lastExponent b p least y := unit_pos hb
    have hmono : halfEven (x / (b : ℚ) ^ lastExponent b p least y) ≤ halfEven (y / (b : ℚ) ^ lastExponent b p least y) :=
      halfEven_mono (div_le_div_of_nonneg_right h hpos.le)
    rw [nearest, nearest, heq]
    exact mul_le_mul_of_nonneg_right (Int.cast_le.mpr hmono) hpos.le
  · have hpower : x ≤ (b : ℚ) ^ Int.log b y :=
      (Int.lt_zpow_succ_log_self hb x).le.trans (zpow_le_zpow_right₀ (Nat.one_le_cast.mpr (by omega)) (by omega))
    have hdigits : IsMultiple ((b : ℚ) ^ Int.log b y) ((b : ℚ) ^ Int.log b y) := ⟨1, by simp⟩
    calc nearest b p least x ≤ (b : ℚ) ^ Int.log b y :=
          roundTo_halfEven_le (unit_pos hb) (hdigits.zpow (by omega) (by omega)) hpower
      _ ≤ nearest b p least y := zpow_le_nearest hb (by omega) hp (Int.zpow_log_le_self hb hy)

-- Rounding up may give the next power of the base, which has digits to spare.
theorem nearest_nearest (hp : 0 < p) : nearest b p least (nearest b p least x) = nearest b p least x := by
  have hnonneg : ∀ {x : ℚ}, 0 ≤ x → nearest b p least (nearest b p least x) = nearest b p least x := by
    intro x hx
    rcases hx.eq_or_lt with rfl | hx
    · exact nearest_of_isMultiple hb le_rfl ⟨0, by simp [nearest, roundTo, halfEven]⟩
        (by simpa [nearest, roundTo, halfEven] using unit_pos hb)
    · have hlast : lastExponent b p least x = max (Int.log b x - p + 1) least := by rw [lastExponent, abs_of_pos hx]
      have hmultiple : IsMultiple ((b : ℚ) ^ lastExponent b p least x) (nearest b p least x) := roundTo_isMultiple
      have hpower : IsMultiple ((b : ℚ) ^ (lastExponent b p least x + p)) ((b : ℚ) ^ (lastExponent b p least x + p)) :=
        ⟨1, by simp⟩
      have hbelow : x ≤ (b : ℚ) ^ (lastExponent b p least x + p) :=
        (Int.lt_zpow_succ_log_self hb x).le.trans (zpow_le_zpow_right₀ (Nat.one_le_cast.mpr (by omega)) (by omega))
      have hle : nearest b p least x ≤ (b : ℚ) ^ (lastExponent b p least x + p) :=
        roundTo_halfEven_le (unit_pos hb) (hpower.zpow (by omega) (by omega)) hbelow
      have habs := abs_of_nonneg (nearest_nonneg hb hx.le : 0 ≤ nearest b p least x)
      rcases hle.eq_or_lt with heq | hlt
      · refine nearest_of_isMultiple hb (e := lastExponent b p least x + p) (by omega) (heq ▸ hpower) ?_
        rw [habs, heq]
        exact zpow_lt_zpow_right₀ (Nat.one_lt_cast.mpr hb) (by omega)
      · exact nearest_of_isMultiple hb (by omega) hmultiple (by rwa [habs])
  rcases le_total 0 x with hx | hx
  · exact hnonneg hx
  · have hneg := hnonneg (neg_nonneg.mpr hx)
    rw [nearest_neg, nearest_neg] at hneg
    exact neg_inj.mp hneg

-- Dividing by the base moves the digits and rounds only at the least exponent.
theorem nearest_div (hx : nearest b p least x = x) (hleast : least < lastExponent b p least x) :
    nearest b p least (x / b) = x / b := by
  have hbase : (b : ℚ) ≠ 0 := Nat.cast_ne_zero.mpr (by omega)
  have hshift : (b : ℚ) ^ lastExponent b p least x = (b : ℚ) ^ (lastExponent b p least x - 1) * b := by
    rw [zpow_sub_one₀ hbase, inv_mul_cancel_right₀ hbase]
  have hmultiple : IsMultiple ((b : ℚ) ^ lastExponent b p least x) (nearest b p least x) := roundTo_isMultiple
  rw [hx] at hmultiple
  obtain ⟨n, hn⟩ := hmultiple
  refine nearest_of_isMultiple hb (e := lastExponent b p least x - 1) (by omega) ⟨n, ?_⟩ ?_
  · rw [hshift, ← mul_assoc] at hn
    rw [div_eq_iff hbase]
    exact hn
  · have hlog := Int.lt_zpow_succ_log_self hb |x|
    have hlast : lastExponent b p least x = Int.log b |x| - p + 1 := by
      have hmax : lastExponent b p least x = max (Int.log b |x| - p + 1) least := rfl
      omega
    have hexponent : lastExponent b p least x - 1 + p + 1 = Int.log b |x| + 1 := by omega
    rw [abs_div, Nat.abs_cast, div_lt_iff₀ (Nat.cast_pos.mpr (by omega)), ← zpow_add_one₀ hbase, hexponent]
    exact hlog

-- The whole part survives where half a unit does not reach the next integer.
theorem towardZero_nearest (hx : 0 ≤ x) (hwhole : lastExponent b p least x ≤ 0)
    (hroom : x + (b : ℚ) ^ lastExponent b p least x / 2 < ⌊x⌋ + 1) :
    towardZero (nearest b p least x) = ⌊x⌋ := by
  have hone : IsMultiple ((b : ℚ) ^ lastExponent b p least x) (⌊x⌋ : ℚ) :=
    IsMultiple.zpow (by omega) hwhole ⟨⌊x⌋, by simp⟩
  have hlow : (⌊x⌋ : ℚ) ≤ nearest b p least x := le_roundTo_halfEven (unit_pos hb) hone (Int.floor_le x)
  have hhigh : nearest b p least x < ⌊x⌋ + 1 := by
    have herror := abs_le.mp (@nearest_error b p least x hb)
    linarith [herror.2]
  have hnonneg : (0 : ℚ) ≤ nearest b p least x := le_trans (by exact_mod_cast Int.floor_nonneg.mpr hx) hlow
  rw [towardZero, if_neg (not_lt.mpr hnonneg)]
  exact Int.floor_eq_iff.mpr ⟨hlow, hhigh⟩

end Nearest

-- The floats that have 53 digits, without an end to their range
structure Binary64 where
  value : ℚ
  rounded : binary64 value = value

namespace Binary64

def round (x : ℚ) : Binary64 := ⟨binary64 x, nearest_nearest (by norm_num) (by norm_num)⟩

instance : Zero Binary64 := ⟨⟨0, by simp [binary64, nearest, roundTo, halfEven]⟩⟩

instance : Sub Binary64 := ⟨fun x y => round (x.value - y.value)⟩

theorem value_injective : Function.Injective value := fun x y h => by
  cases x
  cases y
  cases h
  rfl

instance : LinearOrder Binary64 := LinearOrder.lift' value value_injective

theorem monotone_value : Monotone value := fun _ _ h => h

theorem lt_of_sub_pos {x y : Binary64} (h : 0 < x - y) : y < x := by
  by_contra hle
  have hnonneg : 0 ≤ y.value - x.value := sub_nonneg.mpr (not_lt.mp hle)
  have hround := @nearest_nonneg 2 53 (-1074) _ (by norm_num) hnonneg
  rw [← neg_sub, nearest_neg, Left.nonneg_neg_iff] at hround
  exact absurd h (not_lt.mpr (show (x - y).value ≤ (0 : Binary64).value from hround))

end Binary64

end Numeric
