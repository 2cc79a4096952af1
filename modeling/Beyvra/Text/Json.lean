import Mathlib.Data.List.TakeWhile
import Mathlib.Data.Nat.Digits.Defs
import Beyvra.Text.Hex
import Beyvra.Text.Utf16

namespace Text

section Write

def hexUnit (u : CodeUnit) : List Char :=
  [(u.val / 4096).digitChar, (u.val / 256 % 16).digitChar, (u.val / 16 % 16).digitChar, (u.val % 16).digitChar]

-- The units that have an escape of their own, with its letter
def letterOf (u : CodeUnit) : Option Char :=
  if u.val = 34 then some '"' else if u.val = 92 then some '\\' else if u.val = 8 then some 'b'
  else if u.val = 12 then some 'f' else if u.val = 10 then some 'n' else if u.val = 13 then some 'r'
  else if u.val = 9 then some 't' else none

def escapeUnit (u : CodeUnit) : List Char :=
  match letterOf u with
  | some letter => ['\\', letter]
  | none => if 32 ≤ u.val ∧ u.val < 127 then [Char.ofNat u.val] else '\\' :: 'u' :: hexUnit u

def escape (word : List CodeUnit) : List Char := word.flatMap escapeUnit

end Write

section Read

def unitOf (n : Nat) : CodeUnit := ⟨n % 0x10000, Nat.mod_lt n (by decide)⟩

def fourHex (a b c d : Char) : Option CodeUnit := do
  let a ← hexValue a
  let b ← hexValue b
  let c ← hexValue c
  let d ← hexValue d
  some (unitOf (a * 4096 + b * 256 + c * 16 + d))

def unitOfLetter : Char → Option CodeUnit
  | '"' => some (unitOf 34)
  | '\\' => some (unitOf 92)
  | '/' => some (unitOf 47)
  | 'b' => some (unitOf 8)
  | 'f' => some (unitOf 12)
  | 'n' => some (unitOf 10)
  | 'r' => some (unitOf 13)
  | 't' => some (unitOf 9)
  | _ => none

def pointOf (c : Char) : CodePoint := ⟨c.toNat % 0x110000, Nat.mod_lt c.toNat (by decide)⟩

-- What stands after the opening quote of a string, with the text after the closing one
def unescape : List Char → Option (List CodeUnit × List Char)
  | [] => none
  | '"' :: rest => some ([], rest)
  | '\\' :: 'u' :: a :: b :: c :: d :: rest => do
    let u ← fourHex a b c d
    let (word, after) ← unescape rest
    some (u :: word, after)
  | '\\' :: letter :: rest => do
    let u ← unitOfLetter letter
    let (word, after) ← unescape rest
    some (u :: word, after)
  | c :: rest =>
    if c.toNat < 32 ∨ c = '\\' then none
    else do
      let (word, after) ← unescape rest
      some (unitsOf (pointOf c) ++ word, after)

end Read

variable {u : CodeUnit} {word : List CodeUnit} {rest : List Char}

theorem toNat_ofNat {n : Nat} (h : n < 0xd800) : (Char.ofNat n).toNat = n := by
  rw [Char.ofNat, dif_pos (Or.inl h)]
  rfl

theorem hexValue_digitChar {n : Nat} (h : n < 16) : hexValue n.digitChar = some n := by
  have hall : ∀ n ∈ List.range 16, hexValue n.digitChar = some n := by decide
  exact hall n (List.mem_range.mpr h)

theorem fourHex_hexUnit (u : CodeUnit) : ∃ a b c d, hexUnit u = [a, b, c, d] ∧ fourHex a b c d = some u := by
  have hlt := u.isLt
  refine ⟨_, _, _, _, rfl, ?_⟩
  rw [fourHex, hexValue_digitChar (by omega), hexValue_digitChar (by omega), hexValue_digitChar (by omega),
    hexValue_digitChar (by omega)]
  have hsum : u.val / 4096 * 4096 + u.val / 256 % 16 * 256 + u.val / 16 % 16 * 16 + u.val % 16 = u.val := by omega
  have hunit : unitOf u.val = u := Fin.ext (Nat.mod_eq_of_lt hlt)
  exact congrArg some ((congrArg unitOf hsum).trans hunit)

theorem unescape_hex {a b c d : Char} (h : fourHex a b c d = some u) : unescape ('\\' :: 'u' :: a :: b :: c :: d :: rest) =
    (unescape rest).map fun p => (u :: p.1, p.2) := by
  rw [unescape, h]
  cases unescape rest <;> rfl

theorem unescape_letter {letter : Char} (hletter : letter ≠ 'u') (h : unitOfLetter letter = some u) :
    unescape ('\\' :: letter :: rest) = (unescape rest).map fun p => (u :: p.1, p.2) := by
  rw [unescape, h]
  · cases unescape rest <;> rfl
  · rintro a b c d rest' heq
    exact absurd heq hletter

theorem unescape_bare {c : Char} (hquote : c ≠ '"') (hslash : c ≠ '\\') (hcontrol : ¬c.toNat < 32) :
    unescape (c :: rest) = (unescape rest).map fun p => (unitsOf (pointOf c) ++ p.1, p.2) := by
  rw [unescape]
  · rw [if_neg (not_or.mpr ⟨hcontrol, hslash⟩)]
    cases unescape rest <;> rfl
  · exact hquote
  · rintro a b c d rest' heq
    exact absurd heq hslash
  · rintro letter rest' heq
    exact absurd heq hslash

theorem unitOfLetter_letterOf {letter : Char} (h : letterOf u = some letter) : letter ≠ 'u' ∧ unitOfLetter letter = some u := by
  unfold letterOf at h
  split_ifs at h with h34 h92 h8 h12 h10 h13 h9
  all_goals
    obtain rfl := Option.some.inj h
    refine ⟨by decide, congrArg some (Fin.ext ?_)⟩
  · exact h34.symm
  · exact h92.symm
  · exact h8.symm
  · exact h12.symm
  · exact h10.symm
  · exact h13.symm
  · exact h9.symm

theorem unescape_escapeUnit (u : CodeUnit) (rest : List Char) :
    unescape (escapeUnit u ++ rest) = (unescape rest).map fun p => (u :: p.1, p.2) := by
  unfold escapeUnit
  split
  next letter hletter =>
    obtain ⟨hne, hunit⟩ := unitOfLetter_letterOf hletter
    exact unescape_letter hne hunit
  next hnone =>
    split_ifs with hprintable
    · have hval : (Char.ofNat u.val).toNat = u.val := toNat_ofNat (by omega)
      have hother : u.val ≠ 34 ∧ u.val ≠ 92 := by
        unfold letterOf at hnone
        constructor <;> rintro heq <;> simp [heq] at hnone
      have hpoint : (pointOf (Char.ofNat u.val)).val = u.val := by
        change (Char.ofNat u.val).toNat % 0x110000 = u.val
        rw [hval, Nat.mod_eq_of_lt (by omega)]
      have hunits : unitsOf (pointOf (Char.ofNat u.val)) = [u] := by
        have hsmall : (pointOf (Char.ofNat u.val)).val < 0x10000 := by omega
        rw [unitsOf, dif_pos hsmall]
        exact congrArg (fun x => [x]) (Fin.ext hpoint)
      rw [List.singleton_append, unescape_bare, hunits]
      · rfl
      · rintro heq
        exact hother.1 (hval.symm.trans (congrArg Char.toNat heq))
      · rintro heq
        exact hother.2 (hval.symm.trans (congrArg Char.toNat heq))
      · omega
    · obtain ⟨a, b, c, d, hhex, hfour⟩ := fourHex_hexUnit u
      rw [hhex]
      exact unescape_hex hfour

-- A string that is written is read back, and nothing after it is touched.
theorem unescape_escape (word : List CodeUnit) (rest : List Char) : unescape (escape word ++ '"' :: rest) = some (word, rest) := by
  induction word with
  | nil => rfl
  | cons u word ih =>
    rw [escape, List.flatMap_cons, List.append_assoc, unescape_escapeUnit]
    exact congrArg _ ih

theorem ascii_escapeUnit (u : CodeUnit) : ∀ c ∈ escapeUnit u, 32 ≤ c.toNat ∧ c.toNat < 127 := by
  intro c hc
  unfold escapeUnit at hc
  split at hc
  next letter hletter =>
    unfold letterOf at hletter
    rcases List.mem_pair.mp hc with rfl | rfl
    · decide
    · split_ifs at hletter <;> cases hletter <;> decide
  next =>
    split_ifs at hc with hprintable
    · rw [List.mem_singleton.mp hc, toNat_ofNat (by omega)]
      exact hprintable
    · have hlt := u.isLt
      have hdigit (n : Nat) (hn : n < 16) : 32 ≤ n.digitChar.toNat ∧ n.digitChar.toNat < 127 := by
        have hall : ∀ n ∈ List.range 16, 32 ≤ n.digitChar.toNat ∧ n.digitChar.toNat < 127 := by decide
        exact hall n (List.mem_range.mpr hn)
      simp only [hexUnit, List.mem_cons, List.not_mem_nil, or_false] at hc
      rcases hc with rfl | rfl | rfl | rfl | rfl | rfl
      · decide
      · decide
      all_goals exact hdigit _ (by omega)

section Scan

def spaces : List Char := [' ', '\t', '\n', '\r']

def skip (text : List Char) : List Char := text.dropWhile fun c => c ∈ spaces

-- After a value the text is over, or goes on with one of these.
def terminators : List Char := [',', ']', '}']

def Terminated (rest : List Char) : Prop := ∀ c ∈ rest.head?, c ∈ terminators

def Starts (text : List Char) : Prop := ∃ c rest, text = c :: rest ∧ c ∉ spaces ∧ c ∉ terminators

def spanDigits (text : List Char) : List Char × List Char := (text.takeWhile Char.isDigit, text.dropWhile Char.isDigit)

def scanSign : List Char → List Char × List Char
  | '-' :: rest => (['-'], rest)
  | text => ([], text)

def scanWhole : List Char → Option (List Char × List Char)
  | [] => none
  | c :: rest =>
    if c = '0' then some ([c], rest)
    else if c.isDigit then some (c :: (spanDigits rest).1, (spanDigits rest).2)
    else none

-- A point without a digit after it, like an exponent without one, is left to the rest.
def scanFraction : List Char → List Char × List Char
  | '.' :: rest => if (spanDigits rest).1 = [] then ([], '.' :: rest) else ('.' :: (spanDigits rest).1, (spanDigits rest).2)
  | text => ([], text)

def exponentSign : List Char → List Char × List Char
  | c :: rest => if c ∈ ['+', '-'] then ([c], rest) else ([], c :: rest)
  | [] => ([], [])

def scanExponent : List Char → List Char × List Char
  | [] => ([], [])
  | c :: rest =>
    if c ∈ ['e', 'E'] ∧ (spanDigits (exponentSign rest).2).1 ≠ [] then
      (c :: (exponentSign rest).1 ++ (spanDigits (exponentSign rest).2).1, (spanDigits (exponentSign rest).2).2)
    else ([], c :: rest)

structure Number where
  whole : List Char
  part : List Char

def Number.text (n : Number) : List Char := n.whole ++ n.part

def scanNumber (text : List Char) : Option (Number × List Char) := do
  let (minus, text) := scanSign text
  let (digits, text) ← scanWhole text
  let (fraction, text) := scanFraction text
  let (exponent, text) := scanExponent text
  some (⟨minus ++ digits, fraction ++ exponent⟩, text)

variable {s text rest : List Char} {n : Number}

theorem terminated_cases (h : Terminated rest) :
    rest = [] ∨ (∃ t, rest = ',' :: t) ∨ (∃ t, rest = ']' :: t) ∨ ∃ t, rest = '}' :: t := by
  cases rest with
  | nil => exact Or.inl rfl
  | cons c t =>
    have hc := h c rfl
    simp only [terminators, List.mem_cons, List.not_mem_nil, or_false] at hc
    rcases hc with rfl | rfl | rfl
    · exact Or.inr (Or.inl ⟨t, rfl⟩)
    · exact Or.inr (Or.inr (Or.inl ⟨t, rfl⟩))
    · exact Or.inr (Or.inr (Or.inr ⟨t, rfl⟩))

theorem spanDigits_append (h : Terminated rest) (s : List Char) :
    spanDigits (s ++ rest) = ((spanDigits s).1, (spanDigits s).2 ++ rest) := by
  induction s with
  | nil => obtain rfl | ⟨t, rfl⟩ | ⟨t, rfl⟩ | ⟨t, rfl⟩ := terminated_cases h <;> rfl
  | cons c s ih =>
    obtain ⟨hfst, hsnd⟩ := Prod.mk.inj ih
    by_cases hc : c.isDigit = true
    · simp only [spanDigits, List.cons_append, List.takeWhile_cons_of_pos hc, List.dropWhile_cons_of_pos hc]
      exact Prod.ext (congrArg (c :: ·) hfst) hsnd
    · simp only [spanDigits, List.cons_append, List.takeWhile_cons_of_neg hc, List.dropWhile_cons_of_neg hc]

theorem scanSign_append (h : Terminated rest) (s : List Char) :
    scanSign (s ++ rest) = ((scanSign s).1, (scanSign s).2 ++ rest) := by
  cases s with
  | nil => obtain rfl | ⟨t, rfl⟩ | ⟨t, rfl⟩ | ⟨t, rfl⟩ := terminated_cases h <;> rfl
  | cons c s =>
    by_cases hc : c = '-'
    · subst hc
      rfl
    · have hplain : ∀ t, scanSign (c :: t) = ([], c :: t) := fun t => scanSign.eq_2 _ (by
        rintro t' heq
        exact hc (List.cons.inj heq).1)
      rw [List.cons_append, hplain, hplain]
      rfl

theorem scanWhole_append (h : Terminated rest) (s : List Char) :
    scanWhole (s ++ rest) = (scanWhole s).map fun p => (p.1, p.2 ++ rest) := by
  cases s with
  | nil => obtain rfl | ⟨t, rfl⟩ | ⟨t, rfl⟩ | ⟨t, rfl⟩ := terminated_cases h <;> rfl
  | cons c s =>
    rw [List.cons_append, scanWhole, scanWhole, spanDigits_append h]
    split_ifs <;> rfl

theorem scanFraction_append (h : Terminated rest) (s : List Char) :
    scanFraction (s ++ rest) = ((scanFraction s).1, (scanFraction s).2 ++ rest) := by
  cases s with
  | nil => obtain rfl | ⟨t, rfl⟩ | ⟨t, rfl⟩ | ⟨t, rfl⟩ := terminated_cases h <;> rfl
  | cons c s =>
    by_cases hc : c = '.'
    · subst hc
      rw [List.cons_append, scanFraction, scanFraction, spanDigits_append h]
      split_ifs <;> rfl
    · have hplain : ∀ t, scanFraction (c :: t) = ([], c :: t) := fun t => scanFraction.eq_2 _ (by
        rintro t' heq
        exact hc (List.cons.inj heq).1)
      rw [List.cons_append, hplain, hplain]
      rfl

theorem exponentSign_append (h : Terminated rest) (s : List Char) :
    exponentSign (s ++ rest) = ((exponentSign s).1, (exponentSign s).2 ++ rest) := by
  cases s with
  | nil => obtain rfl | ⟨t, rfl⟩ | ⟨t, rfl⟩ | ⟨t, rfl⟩ := terminated_cases h <;> rfl
  | cons c s =>
    rw [List.cons_append, exponentSign, exponentSign]
    split_ifs <;> rfl

theorem scanExponent_append (h : Terminated rest) (s : List Char) :
    scanExponent (s ++ rest) = ((scanExponent s).1, (scanExponent s).2 ++ rest) := by
  cases s with
  | nil => obtain rfl | ⟨t, rfl⟩ | ⟨t, rfl⟩ | ⟨t, rfl⟩ := terminated_cases h <;> rfl
  | cons c s =>
    simp only [List.cons_append, scanExponent, exponentSign_append h, spanDigits_append h]
    split_ifs <;> rfl

theorem scanNumber_append (h : Terminated rest) (s : List Char) :
    scanNumber (s ++ rest) = (scanNumber s).map fun p => (p.1, p.2 ++ rest) := by
  simp only [scanNumber, scanSign_append h, scanWhole_append h]
  cases scanWhole (scanSign s).2 with
  | none => rfl
  | some p =>
    simp only [Option.map_some, Option.bind_eq_bind, Option.bind_some, scanFraction_append h, scanExponent_append h]

theorem spanDigits_join (s : List Char) : (spanDigits s).1 ++ (spanDigits s).2 = s := List.takeWhile_append_dropWhile

theorem scanSign_join (s : List Char) : (scanSign s).1 ++ (scanSign s).2 = s := by
  unfold scanSign
  split <;> rfl

theorem scanWhole_join {p : List Char × List Char} (h : scanWhole s = some p) : p.1 ++ p.2 = s := by
  cases s with
  | nil => cases h
  | cons c s =>
    rw [scanWhole] at h
    split_ifs at h
    · exact Option.some.inj h ▸ rfl
    · rw [← Option.some.inj h]
      exact congrArg (c :: ·) (spanDigits_join s)

theorem scanFraction_join (s : List Char) : (scanFraction s).1 ++ (scanFraction s).2 = s := by
  unfold scanFraction
  split
  next rest =>
    split_ifs
    · rfl
    · exact congrArg ('.' :: ·) (spanDigits_join rest)
  next => rfl

theorem exponentSign_join (s : List Char) : (exponentSign s).1 ++ (exponentSign s).2 = s := by
  cases s with
  | nil => rfl
  | cons c s =>
    rw [exponentSign]
    split_ifs <;> rfl

theorem scanExponent_join (s : List Char) : (scanExponent s).1 ++ (scanExponent s).2 = s := by
  cases s with
  | nil => rfl
  | cons c s =>
    rw [scanExponent]
    split_ifs
    · have hdigits := spanDigits_join (exponentSign s).2
      simp only [List.cons_append, List.append_assoc, hdigits, exponentSign_join]
    · rfl

theorem scanNumber_eq_some (h : scanNumber s = some (n, rest)) :
    ∃ digits after, scanWhole (scanSign s).2 = some (digits, after) ∧ n.whole = (scanSign s).1 ++ digits ∧
      n.part = (scanFraction after).1 ++ (scanExponent (scanFraction after).2).1 ∧
      rest = (scanExponent (scanFraction after).2).2 := by
  simp only [scanNumber, Option.bind_eq_bind, Option.bind_eq_some_iff] at h
  obtain ⟨⟨digits, after⟩, hwhole, hrest⟩ := h
  obtain ⟨rfl, rfl⟩ := Prod.mk.inj (Option.some.inj hrest)
  exact ⟨digits, after, hwhole, rfl, rfl, rfl⟩

theorem scanNumber_join (h : scanNumber s = some (n, rest)) : n.text ++ rest = s := by
  obtain ⟨digits, after, hwhole, hn, hpart, rfl⟩ := scanNumber_eq_some h
  have hsplit : digits ++ after = (scanSign s).2 := scanWhole_join hwhole
  calc n.text ++ (scanExponent (scanFraction after).2).2
      = (scanSign s).1 ++ (digits ++ ((scanFraction after).1 ++ ((scanExponent (scanFraction after).2).1 ++
          (scanExponent (scanFraction after).2).2))) := by simp only [Number.text, hn, hpart, List.append_assoc]
    _ = s := by rw [scanExponent_join, scanFraction_join, hsplit, scanSign_join]

theorem not_special_of_isDigit {c : Char} (h : c.isDigit = true) : c ∉ spaces ∧ c ∉ terminators := by
  have hspaces : ∀ x ∈ spaces, x.isDigit = false := List.all_iff_forall_prop.mp (by decide)
  have hterminators : ∀ x ∈ terminators, x.isDigit = false := List.all_iff_forall_prop.mp (by decide)
  constructor
  · intro hmem
    rw [hspaces c hmem] at h
    exact absurd h (by decide)
  · intro hmem
    rw [hterminators c hmem] at h
    exact absurd h (by decide)

theorem scanWhole_starts {p : List Char × List Char} (h : scanWhole s = some p) :
    ∃ c t, s = c :: t ∧ c.isDigit = true := by
  cases s with
  | nil => cases h
  | cons c s =>
    rw [scanWhole] at h
    split_ifs at h with hzero hdigit
    · exact ⟨c, s, rfl, by rw [hzero]; decide⟩
    · exact ⟨c, s, rfl, hdigit⟩

theorem starts_of_scanNumber (h : scanNumber s = some (n, rest)) : Starts s := by
  obtain ⟨digits, after, hwhole, -⟩ := scanNumber_eq_some h
  obtain ⟨c, t, hct, hdigit⟩ := scanWhole_starts hwhole
  unfold scanSign at hct
  split at hct
  next rest => exact ⟨'-', rest, rfl, by decide, by decide⟩
  next =>
    obtain ⟨hspace, hterm⟩ := not_special_of_isDigit hdigit
    exact ⟨c, t, hct, hspace, hterm⟩

end Scan

section Int

def intText (n : Int) : List Char :=
  if n < 0 then '-' :: Nat.toDigits 10 n.natAbs else Nat.toDigits 10 n.natAbs

def intOf (text : List Char) : Int :=
  match text with
  | '-' :: digits => -(Nat.ofDigitChars 10 digits 0 : ℕ)
  | digits => (Nat.ofDigitChars 10 digits 0 : ℕ)

variable {m : ℕ}

theorem isDigit_toDigits (m : ℕ) : ∀ c ∈ Nat.toDigits 10 m, c.isDigit = true :=
  fun _ => Nat.isDigit_of_mem_toDigits (by decide) (by decide)

theorem spanDigits_eq_self {s : List Char} (h : ∀ c ∈ s, c.isDigit = true) : spanDigits s = (s, []) :=
  Prod.ext (List.takeWhile_eq_self_iff.mpr h) (List.dropWhile_eq_nil_iff.mpr h)

theorem toDigits_leading (h : 0 < m) : ∃ c t, Nat.toDigits 10 m = c :: t ∧ c ≠ '0' := by
  induction m using Nat.strong_induction_on with
  | _ m ih =>
    by_cases hsmall : m < 10
    · have hall : ∀ m ∈ List.range 10, 0 < m → m.digitChar ≠ '0' := by decide
      exact ⟨m.digitChar, [], Nat.toDigits_of_lt_base hsmall, hall m (List.mem_range.mpr hsmall) h⟩
    · obtain ⟨c, t, hct, hne⟩ := ih (m / 10) (by omega) (by omega)
      refine ⟨c, t ++ [(m % 10).digitChar], ?_, hne⟩
      rw [Nat.toDigits_of_base_le (by decide) (by omega), hct]
      rfl

theorem scanWhole_toDigits (m : ℕ) : scanWhole (Nat.toDigits 10 m) = some (Nat.toDigits 10 m, []) := by
  rcases Nat.eq_zero_or_pos m with rfl | hpos
  · rfl
  · obtain ⟨c, t, hct, hne⟩ := toDigits_leading hpos
    have hdigits : ∀ x ∈ c :: t, x.isDigit = true := hct ▸ isDigit_toDigits m
    obtain ⟨hc, ht⟩ := List.forall_mem_cons.mp hdigits
    rw [hct, scanWhole, if_neg hne, if_pos hc, spanDigits_eq_self ht]

theorem toDigits_plain (m : ℕ) : ∀ t, Nat.toDigits 10 m ≠ '-' :: t := by
  intro t heq
  have hdigit := isDigit_toDigits m '-' (heq ▸ List.mem_cons_self)
  exact absurd hdigit (by decide)

theorem scanNumber_intText (n : Int) : scanNumber (intText n) = some (⟨intText n, []⟩, []) := by
  unfold intText
  split_ifs
  · simp only [scanNumber, scanSign, scanWhole_toDigits]
    rfl
  · simp only [scanNumber, scanSign.eq_2 _ (toDigits_plain _), scanWhole_toDigits]
    rfl

theorem intOf_intText (n : Int) : intOf (intText n) = n := by
  unfold intText
  split_ifs with hneg
  · rw [intOf, Nat.ofDigitChars_ten_toDigits]
    omega
  · rw [intOf.eq_2 _ (toDigits_plain _), Nat.ofDigitChars_ten_toDigits]
    omega

end Int

section Members

variable {α : Type}

-- The members of an array or of an object, up to the bracket that closes it
def readMembers (member : List Char → Option (α × List Char)) (close : Char) : ℕ → List Char → Option (List α × List Char)
  | 0, _ => none
  | n + 1, text => do
    let (a, rest) ← member text
    match skip rest with
    | [] => none
    | c :: rest =>
      if c = close then some ([a], rest)
      else if c = ',' then do
        let (items, rest) ← readMembers member close n (skip rest)
        some (a :: items, rest)
      else none

def readGroup (member : List Char → Option (α × List Char)) (close : Char) (text : List Char) : Option (List α × List Char) :=
  match skip text with
  | [] => none
  | c :: rest => if c = close then some ([], rest) else readMembers member close text.length (c :: rest)

def writeGroup (close : Char) : List (List Char) → List Char
  | [] => [close]
  | [part] => part ++ [close]
  | part :: next :: parts => part ++ ',' :: writeGroup close (next :: parts)

variable {member : List Char → Option (α × List Char)} {write : α → List Char} {close c : Char} {text rest : List Char}

theorem skip_starts (h : Starts text) : skip text = text := by
  obtain ⟨c, t, rfl, hspace, -⟩ := h
  exact List.dropWhile_cons_of_neg (by simpa using hspace)

theorem Starts.append (h : Starts text) (rest : List Char) : Starts (text ++ rest) := by
  obtain ⟨c, t, rfl, hspecial⟩ := h
  exact ⟨c, t ++ rest, rfl, hspecial⟩

-- A member that is read back whatever ends it
def ReadsBack (member : List Char → Option (α × List Char)) (write : α → List Char) (a : α) : Prop :=
  Starts (write a) ∧ ∀ rest, Terminated rest → member (write a ++ rest) = some (a, rest)

theorem terminated_cons (h : c ∈ terminators) : Terminated (c :: rest) := by
  rintro x ⟨rfl⟩
  exact h

theorem skip_terminator (h : c ∈ terminators) : skip (c :: rest) = c :: rest := by
  have hall : ∀ x ∈ terminators, x ∉ spaces := List.all_iff_forall_prop.mp (by decide)
  exact List.dropWhile_cons_of_neg (by simpa using hall c h)

theorem starts_writeGroup {a : α} {items : List α} (h : Starts (write a)) :
    Starts (writeGroup close ((a :: items).map write) ++ rest) := by
  cases items with
  | nil => exact (h.append _).append _
  | cons b items => exact (h.append _).append _

theorem readMembers_write (hclose : close ∈ [']', '}']) {a : α} {items : List α}
    (h : ∀ x ∈ a :: items, ReadsBack member write x) {n : ℕ} (hn : items.length < n) :
    readMembers member close n (writeGroup close ((a :: items).map write) ++ rest) = some (a :: items, rest) := by
  have hterm : close ∈ terminators := List.mem_cons_of_mem _ hclose
  induction items generalizing a n with
  | nil =>
    obtain ⟨n, rfl⟩ := Nat.exists_eq_add_of_lt hn
    have hread := (h a List.mem_cons_self).2 (close :: rest) (terminated_cons hterm)
    have htext : writeGroup close ([a].map write) ++ rest = write a ++ close :: rest := List.append_assoc _ _ _
    rw [htext, readMembers, hread]
    simp only [Option.bind_eq_bind, Option.bind_some, skip_terminator hterm, if_true]
  | cons b items ih =>
    obtain ⟨n, rfl⟩ := Nat.exists_eq_add_of_lt hn
    have htext : writeGroup close ((a :: b :: items).map write) ++ rest =
        write a ++ ',' :: (writeGroup close ((b :: items).map write) ++ rest) := List.append_assoc _ _ _
    have hread := (h a List.mem_cons_self).2 (',' :: (writeGroup close ((b :: items).map write) ++ rest))
      (terminated_cons (by decide))
    have hitems := List.forall_mem_cons.mp h
    have hrest := ih hitems.2 (Nat.lt_of_succ_lt_succ hn)
    have hstart : Starts (writeGroup close ((b :: items).map write) ++ rest) :=
      starts_writeGroup (hitems.2 b List.mem_cons_self).1
    have hcomma : ',' ≠ close := by
      rintro rfl
      exact absurd hclose (by decide)
    rw [htext, readMembers, hread]
    simp only [Option.bind_eq_bind, Option.bind_some, skip_terminator (show ',' ∈ terminators by decide), if_neg hcomma,
      if_true, skip_starts hstart, hrest]

theorem length_lt_writeGroup (write : α → List Char) (close : Char) (a : α) (items : List α) :
    items.length < (writeGroup close ((a :: items).map write)).length := by
  induction items generalizing a with
  | nil => simp [writeGroup]
  | cons b items ih =>
    have hrest := ih b
    simp only [List.map_cons] at hrest
    simp only [List.map_cons, writeGroup, List.length_append, List.length_cons]
    omega

theorem readGroup_write (hclose : close ∈ [']', '}']) {items : List α} (h : ∀ x ∈ items, ReadsBack member write x)
    (rest : List Char) : readGroup member close (writeGroup close (items.map write) ++ rest) = some (items, rest) := by
  have hterm : close ∈ terminators := List.mem_cons_of_mem _ hclose
  cases items with
  | nil =>
    have hskip : skip (close :: rest) = close :: rest := skip_terminator hterm
    change readGroup member close (close :: rest) = _
    rw [readGroup, hskip]
    exact if_pos rfl
  | cons a items =>
    have hstart : Starts (writeGroup close ((a :: items).map write) ++ rest) := starts_writeGroup (h a List.mem_cons_self).1
    have hlength : items.length < (writeGroup close ((a :: items).map write) ++ rest).length := by
      have hlt := length_lt_writeGroup write close a items
      rw [List.length_append]
      omega
    have hread : readMembers member close (writeGroup close ((a :: items).map write) ++ rest).length
        (writeGroup close ((a :: items).map write) ++ rest) = some (a :: items, rest) := readMembers_write hclose h hlength
    have hskip := skip_starts hstart
    obtain ⟨c, t, htext, -, hc⟩ := hstart
    have hne : c ≠ close := fun heq => hc (heq ▸ hterm)
    rw [readGroup, hskip]
    rw [htext] at hread ⊢
    exact (if_neg hne).trans hread

end Members

end Text
