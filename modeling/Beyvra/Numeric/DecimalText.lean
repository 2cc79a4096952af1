import Mathlib.Data.List.TakeWhile
import Beyvra.Numeric.Decimal

namespace Numeric

-- What a decimal text can stand for
inductive Decimal where
  | finite (d : FiniteDecimal)
  | infinity (negative : Bool)
  | nan (signaling : Bool)
  deriving DecidableEq, Repr

-- `d <= 0`; nothing for a NaN, with which an ordering is an invalid operation
def Decimal.leZero : Decimal → Option Bool
  | .finite d => some (d.value ≤ 0)
  | .infinity negative => some negative
  | .nan _ => none

-- The exponents that a decimal can have where a size has 64 bits
def FiniteDecimal.InRange (d : FiniteDecimal) : Prop :=
  -1999999999999999997 ≤ d.exponent ∧ d.exponent + (Nat.toDigits 10 d.coefficient).length ≤ 1000000000000000000

instance (d : FiniteDecimal) : Decidable d.InRange := inferInstanceAs (Decidable (_ ∧ _))

def splitSign : List Char → Bool × List Char
  | '-' :: rest => (true, rest)
  | '+' :: rest => (false, rest)
  | text => (false, text)

def special (negative : Bool) (text : List Char) : Option Decimal :=
  let word := text.map Char.toLower
  if word = ['i', 'n', 'f'] ∨ word = ['i', 'n', 'f', 'i', 'n', 'i', 't', 'y'] then some (.infinity negative)
  else if ['n', 'a', 'n'] <+: word ∧ (word.drop 3).all Char.isDigit then some (.nan false)
  else if ['s', 'n', 'a', 'n'] <+: word ∧ (word.drop 4).all Char.isDigit then some (.nan true)
  else none

def exponentPart : List Char → Option Int
  | [] => some 0
  | e :: rest =>
    let (negative, digits) := splitSign rest
    if (e = 'e' ∨ e = 'E') ∧ digits ≠ [] ∧ digits.all Char.isDigit then
      some ((if negative then -1 else 1) * Nat.ofDigitChars 10 digits 0)
    else none

def fractionPart : List Char → List Char × List Char
  | '.' :: rest => (rest.takeWhile Char.isDigit, rest.dropWhile Char.isDigit)
  | rest => ([], rest)

def numeral (negative : Bool) (text : List Char) : Option FiniteDecimal :=
  let whole := text.takeWhile Char.isDigit
  let (fraction, rest) := fractionPart (text.dropWhile Char.isDigit)
  if whole ++ fraction = [] then none
  else
    (exponentPart rest).bind fun exponent =>
      let d : FiniteDecimal := ⟨negative, Nat.ofDigitChars 10 (whole ++ fraction) 0, exponent - fraction.length⟩
      if d.InRange then some d else none

def Decimal.parse (text : List Char) : Option Decimal :=
  let (negative, body) := splitSign text
  (special negative body).or ((numeral negative body).map .finite)

def fractionDigits (k r : Nat) : List Char := List.replicate (k - (Nat.toDigits 10 r).length) '0' ++ Nat.toDigits 10 r

-- m over ten to the k, with k digits after the point
def fixedText (negative : Bool) (m k : Nat) : List Char :=
  (if negative then ['-'] else []) ++ Nat.toDigits 10 (m / 10 ^ k) ++
    if k = 0 then [] else '.' :: fractionDigits k (m % 10 ^ k)

namespace FiniteDecimal

def decimals (d : FiniteDecimal) : Nat := (-d.exponent).toNat

def shifted (d : FiniteDecimal) : Nat := d.coefficient * 10 ^ d.exponent.toNat

-- The same value with an exponent that is not positive
def normal (d : FiniteDecimal) : FiniteDecimal := ⟨d.negative, d.shifted, -(d.decimals : Int)⟩

-- `format(d, "f")`
def format (d : FiniteDecimal) : List Char := fixedText d.negative d.shifted d.decimals

end FiniteDecimal

variable {m k r : Nat} {negative : Bool} {d : FiniteDecimal}

theorem isDigit_toDigits (n : Nat) : ∀ c ∈ Nat.toDigits 10 n, c.isDigit = true :=
  fun _ => Nat.isDigit_of_mem_toDigits (by decide) (by decide)

theorem length_fractionDigits (hr : r < 10 ^ k) (hk : 0 < k) : (fractionDigits k r).length = k := by
  have hle : (Nat.toDigits 10 r).length ≤ k := (Nat.length_toDigits_le_iff (by decide) hk).mpr hr
  rw [fractionDigits, List.length_append, List.length_replicate]
  omega

theorem isDigit_fractionDigits : ∀ c ∈ fractionDigits k r, c.isDigit = true := by
  intro c hc
  rcases List.mem_append.mp hc with hzero | hdigit
  · rw [List.eq_of_mem_replicate hzero]
    rfl
  · exact isDigit_toDigits r c hdigit

theorem ofDigitChars_fixed (hr : r < 10 ^ k) (hk : 0 < k) (q : Nat) :
    Nat.ofDigitChars 10 (Nat.toDigits 10 q ++ fractionDigits k r) 0 = q * 10 ^ k + r := by
  rw [Nat.ofDigitChars_append, Nat.ofDigitChars_ten_toDigits, Nat.ofDigitChars_eq_ofDigitChars_zero,
    length_fractionDigits hr hk, fractionDigits, Nat.ofDigitChars_append, Nat.ofDigitChars_replicate_zero, Nat.mul_zero,
    Nat.ofDigitChars_ten_toDigits, Nat.mul_comm]

theorem splitSign_of_isDigit {c : Char} {rest : List Char} (h : c.isDigit = true) :
    splitSign (c :: rest) = (false, c :: rest) := by
  unfold splitSign
  split
  · next heq =>
    obtain ⟨rfl, -⟩ := List.cons.inj heq
    cases h
  · next heq =>
    obtain ⟨rfl, -⟩ := List.cons.inj heq
    cases h
  · rfl

theorem toLower_of_isDigit {c : Char} (h : c.isDigit = true) : c.toLower = c := by
  have hrange := Char.isDigit_iff_toNat.mp h
  unfold Char.toLower
  rw [dif_neg]
  rintro ⟨hlow, -⟩
  have hupper : 65 ≤ c.toNat := hlow
  have hnine : c.toNat ≤ 57 := hrange.2
  omega

theorem special_of_isDigit {c : Char} {rest : List Char} (h : c.isDigit = true) : special negative (c :: rest) = none := by
  have hi : c ≠ 'i' := by
    rintro rfl
    cases h
  have hn : c ≠ 'n' := by
    rintro rfl
    cases h
  have hs : c ≠ 's' := by
    rintro rfl
    cases h
  simp [special, toLower_of_isDigit h, hi, Ne.symm hn, Ne.symm hs]

theorem numeral_fixed (hrange : FiniteDecimal.InRange ⟨negative, m, -(k : Int)⟩) :
    numeral negative (Nat.toDigits 10 (m / 10 ^ k) ++ if k = 0 then [] else '.' :: fractionDigits k (m % 10 ^ k)) =
      some ⟨negative, m, -(k : Int)⟩ := by
  have hwhole := isDigit_toDigits (m / 10 ^ k)
  by_cases hk : k = 0
  · subst hk
    rw [numeral, if_pos rfl, List.append_nil, List.takeWhile_eq_self_iff.mpr hwhole,
      List.dropWhile_eq_nil_iff.mpr hwhole]
    simp only [fractionPart, List.append_nil, Nat.toDigits_ne_nil, if_false, exponentPart, Option.bind_some,
      Nat.ofDigitChars_ten_toDigits, pow_zero, Nat.div_one, List.length_nil]
    exact if_pos hrange
  · have hpos : 0 < k := Nat.pos_of_ne_zero hk
    have hr : m % 10 ^ k < 10 ^ k := Nat.mod_lt _ (by positivity)
    have hfraction := isDigit_fractionDigits (k := k) (r := m % 10 ^ k)
    have hpoint : ('.' :: fractionDigits k (m % 10 ^ k)).takeWhile Char.isDigit = [] := List.takeWhile_cons_of_neg (by decide)
    have hpoint' : ('.' :: fractionDigits k (m % 10 ^ k)).dropWhile Char.isDigit = '.' :: fractionDigits k (m % 10 ^ k) :=
      List.dropWhile_cons_of_neg (by decide)
    rw [numeral, if_neg hk, List.takeWhile_append_of_pos hwhole, List.dropWhile_append_of_pos hwhole, hpoint, hpoint',
      List.append_nil]
    simp only [fractionPart, List.takeWhile_eq_self_iff.mpr hfraction, List.dropWhile_eq_nil_iff.mpr hfraction,
      List.append_eq_nil_iff, Nat.toDigits_ne_nil, false_and, if_false, exponentPart, Option.bind_some,
      ofDigitChars_fixed hr hpos, Nat.div_add_mod', length_fractionDigits hr hpos, zero_sub]
    exact if_pos hrange

theorem parse_fixedText (hrange : FiniteDecimal.InRange ⟨negative, m, -(k : Int)⟩) :
    Decimal.parse (fixedText negative m k) = some (.finite ⟨negative, m, -(k : Int)⟩) := by
  have hnumeral := numeral_fixed hrange
  cases hdigits : Nat.toDigits 10 (m / 10 ^ k) with
  | nil => exact absurd hdigits Nat.toDigits_ne_nil
  | cons c rest =>
    have hc : c.isDigit = true := isDigit_toDigits (m / 10 ^ k) c (hdigits ▸ List.mem_cons_self)
    rw [hdigits, List.cons_append] at hnumeral
    have hsign : splitSign (fixedText negative m k) = (negative, c :: (rest ++
        if k = 0 then [] else '.' :: fractionDigits k (m % 10 ^ k))) := by
      rw [fixedText, hdigits]
      cases negative
      · exact splitSign_of_isDigit hc
      · rfl
    rw [Decimal.parse, hsign]
    dsimp only
    rw [special_of_isDigit hc, hnumeral]
    rfl

theorem special_ne_finite {text : List Char} : special negative text ≠ some (.finite d) := by
  unfold special
  dsimp only
  split_ifs <;> simp

theorem inRange_of_parse {text : List Char} (h : Decimal.parse text = some (.finite d)) : d.InRange := by
  rw [Decimal.parse] at h
  rcases Option.or_eq_some_iff.mp h with hspecial | ⟨-, hnumeral⟩
  · exact absurd hspecial special_ne_finite
  · obtain ⟨d', hd', heq⟩ := Option.map_eq_some_iff.mp hnumeral
    obtain rfl := Decimal.finite.inj heq
    unfold numeral at hd'
    dsimp only at hd'
    split_ifs at hd'
    obtain ⟨exponent, -, hd'⟩ := Option.bind_eq_some_iff.mp hd'
    split_ifs at hd' with hrange
    exact Option.some.inj hd' ▸ hrange

namespace FiniteDecimal

variable {e : FiniteDecimal}

theorem normal_value : d.normal.value = d.value := by
  have hten : (10 : ℚ) ≠ 0 := by norm_num
  have hsplit : d.exponent = (d.exponent.toNat : Int) + -(d.decimals : Int) := by
    unfold decimals
    omega
  have hpow : (10 : ℚ) ^ d.exponent = 10 ^ d.exponent.toNat * 10 ^ (-(d.decimals : Int)) := by
    conv_lhs => rw [hsplit]
    rw [zpow_add₀ hten, zpow_natCast]
  rw [value, value, hpow]
  simp only [normal, shifted, Nat.cast_mul, Nat.cast_pow, Nat.cast_ofNat, mul_assoc]
  rfl

theorem normal_inRange (h : d.InRange) : d.normal.InRange := by
  obtain ⟨hlow, hhigh⟩ := h
  have hpos : 0 < (Nat.toDigits 10 d.coefficient).length := Nat.length_toDigits_pos
  have hlength : (Nat.toDigits 10 d.shifted).length ≤ (Nat.toDigits 10 d.coefficient).length + d.exponent.toNat := by
    refine (Nat.length_toDigits_le_iff (by decide) (by omega)).mpr ?_
    rw [shifted, pow_add]
    have hlt := (Nat.length_toDigits_le_iff (by decide : 1 < 10) hpos).mp le_rfl
    exact Nat.mul_lt_mul_of_pos_right hlt (by positivity)
  have hdecimals : (d.decimals : Int) = max (-d.exponent) 0 := Int.toNat_eq_max _
  constructor
  · show -1999999999999999997 ≤ -(d.decimals : Int)
    omega
  · show -(d.decimals : Int) + (Nat.toDigits 10 d.shifted).length ≤ 1000000000000000000
    omega

theorem normal_decimals : d.normal.decimals = d.decimals := by
  show (- -(d.decimals : Int)).toNat = d.decimals
  rw [neg_neg, Int.toNat_natCast]

theorem normal_format : d.normal.format = d.format := by
  have hshifted : d.normal.shifted = d.shifted := by simp [normal, shifted]
  rw [format, hshifted, normal_decimals]
  rfl

theorem parse_format (h : d.InRange) : Decimal.parse d.format = some (.finite d.normal) :=
  parse_fixedText (normal_inRange h)

theorem normal_eq_iff : d.normal = e.normal ↔ d.value = e.value ∧ d.decimals = e.decimals ∧ d.negative = e.negative := by
  constructor
  · intro h
    have hdecimals : -(d.decimals : Int) = -(e.decimals : Int) := congrArg exponent h
    have hnegative : d.negative = e.negative := (FiniteDecimal.mk.inj h).1
    exact ⟨by rw [← normal_value, h, normal_value], by omega, hnegative⟩
  · rintro ⟨hvalue, hdecimals, hnegative⟩
    rw [← normal_value, ← @normal_value e] at hvalue
    have hpow : (10 : ℚ) ^ (-(e.decimals : Int)) ≠ 0 := zpow_ne_zero _ (by norm_num)
    have hsign : (if e.negative then -1 else 1 : ℚ) ≠ 0 := by split_ifs <;> norm_num
    have hshifted : d.shifted = e.shifted := by
      simp only [value, normal, hdecimals, hnegative] at hvalue
      have hcast := mul_left_cancel₀ hsign (mul_right_cancel₀ hpow hvalue)
      exact_mod_cast hcast
    rw [normal, normal, hshifted, hdecimals, hnegative]

-- Two texts agree when the values, the number of decimals and the signs do.
theorem format_eq_iff (hd : d.InRange) (he : e.InRange) :
    d.format = e.format ↔ d.value = e.value ∧ d.decimals = e.decimals ∧ d.negative = e.negative := by
  rw [← normal_eq_iff]
  constructor
  · intro h
    have hparse := parse_format hd
    rw [h, parse_format he] at hparse
    exact (Decimal.finite.inj (Option.some.inj hparse)).symm
  · intro h
    rw [← normal_format, h, normal_format]

end FiniteDecimal

end Numeric
