import Beyvra.Foundation.Decimals
import Beyvra.Text.Hex

namespace Beyvra

open Numeric Text

-- What `int` reads a character as: the separators 28 to 31 stay what they are, unlike in str.strip.
def integerChar (c : Char) : Char :=
  if 127 ≤ c.toNat ∧ c.toNat ∈ pythonSpaces then ' ' else asciiDigit c

def trimSpaces (text : List Char) : List Char := ((text.dropWhile asciiSpace).reverse.dropWhile asciiSpace).reverse

def maxStrDigits : Nat := 4300

def digitsValue (digits : List Char) : Option Nat :=
  let groups := digits.splitOn '_'
  if (groups.all fun group => group ≠ [] ∧ group.all Char.isDigit) ∧ groups.flatten.length ≤ maxStrDigits then
    some (Nat.ofDigitChars 10 groups.flatten 0)
  else none

-- `int(text)`; nothing where it raises ValueError
def integerOf (text : List Char) : Option Int :=
  let (negative, digits) := splitSign (trimSpaces (text.map integerChar))
  (digitsValue digits).map fun n => if negative then -(n : Int) else n

theorem toString_injective {m n : Nat} (h : toString m = toString n) : m = n := by
  have hdigits : Nat.toDigits 10 m = Nat.toDigits 10 n := by
    rw [← Nat.toList_repr, ← Nat.toList_repr]
    exact congrArg String.toList h
  rw [← Nat.ofDigitChars_ten_toDigits (n := m), hdigits, Nat.ofDigitChars_ten_toDigits]

theorem integerOf_nil : integerOf [] = none := rfl

example : integerOf " -1_0 ".toList = some (-10) := by decide

def asciiByte (c : Char) : Option UInt8 := if c.toNat < 128 then some (UInt8.ofNat c.toNat) else none

-- `text.encode("ascii")`; nothing where it raises UnicodeEncodeError
def encodeAscii (text : List Char) : Option (List UInt8) := text.mapM asciiByte

theorem encodeAscii_isSome {text : List Char} : (encodeAscii text).isSome ↔ ∀ c ∈ text, c.toNat < 128 := by
  induction text with
  | nil => simp [encodeAscii]
  | cons c rest ih =>
    have hcons : encodeAscii (c :: rest) = (asciiByte c).bind fun b => (encodeAscii rest).bind fun bs => some (b :: bs) :=
      List.mapM_cons
    rw [hcons, List.forall_mem_cons, ← ih]
    by_cases hc : c.toNat < 128
    · cases encodeAscii rest <;> simp [asciiByte, hc]
    · simp [asciiByte, hc]

end Beyvra
