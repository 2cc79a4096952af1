import Beyvra.Foundation.Records
import Beyvra.Numeric.DecimalText

namespace Beyvra

open Numeric

-- The zeros of the runs of ten decimal digits
def digitZeros : List Nat :=
  [0x30, 0x660, 0x6f0, 0x7c0, 0x966, 0x9e6, 0xa66, 0xae6, 0xb66, 0xbe6, 0xc66, 0xce6, 0xd66, 0xde6, 0xe50, 0xed0,
    0xf20, 0x1040, 0x1090, 0x17e0, 0x1810, 0x1946, 0x19d0, 0x1a80, 0x1a90, 0x1b50, 0x1bb0, 0x1c40, 0x1c50, 0xa620,
    0xa8d0, 0xa900, 0xa9d0, 0xa9f0, 0xaa50, 0xabf0, 0xff10, 0x104a0, 0x10d30, 0x11066, 0x110f0, 0x11136, 0x111d0,
    0x112f0, 0x11450, 0x114d0, 0x11650, 0x116c0, 0x11730, 0x118e0, 0x11950, 0x11c50, 0x11d50, 0x11da0, 0x16a60,
    0x16ac0, 0x16b50, 0x1d7ce, 0x1d7d8, 0x1d7e2, 0x1d7ec, 0x1d7f6, 0x1e140, 0x1e2f0, 0x1e950, 0x1fbf0]

def asciiDigit (c : Char) : Char :=
  ((digitZeros.find? fun z => z ≤ c.toNat ∧ c.toNat < z + 10).map fun z => (c.toNat - z).digitChar).getD c

-- `Decimal(text)`: the spaces around it and all underscores are dropped and every decimal digit is read.
def decimalOf (text : String) : Option Decimal :=
  Decimal.parse (((strip text.toList).filter (· ≠ '_')).map asciiDigit)

-- The characters of a decimal in fixed notation
def Plain (c : Char) : Prop := c.isDigit = true ∨ c = '-' ∨ c = '.'

variable {c : Char} {text : List Char}

theorem exists_digitChar (h : c.isDigit = true) : ∃ n < 10, c = n.digitChar := by
  obtain ⟨hlow, hhigh⟩ := Char.isDigit_iff_toNat.mp h
  have hlow' : 48 ≤ c.toNat := hlow
  have hhigh' : c.toNat ≤ 57 := hhigh
  refine ⟨c.toNat - 48, by omega, ?_⟩
  have hc : c = Char.ofNat c.toNat := c.ofNat_toNat.symm
  have hall : ∀ n ∈ List.range 10, Char.ofNat (n + 48) = n.digitChar := by decide
  rw [← hall (c.toNat - 48) (List.mem_range.mpr (by omega)), Nat.sub_add_cancel hlow', ← hc]

theorem plain_kept (h : Plain c) : asciiDigit c = c ∧ c ≠ '_' ∧ c.toNat ∉ pythonSpaces := by
  rcases h with hdigit | rfl | rfl
  · obtain ⟨n, hn, rfl⟩ := exists_digitChar hdigit
    have hall : ∀ n ∈ List.range 10,
        asciiDigit n.digitChar = n.digitChar ∧ n.digitChar ≠ '_' ∧ n.digitChar.toNat ∉ pythonSpaces := by decide +kernel
    exact hall n (List.mem_range.mpr hn)
  · decide +kernel
  · decide +kernel

theorem strip_eq_self (h : ∀ c ∈ text, c.toNat ∉ pythonSpaces) : strip text = text := by
  have hdrop (text : List Char) (h : ∀ c ∈ text, c.toNat ∉ pythonSpaces) :
      (text.dropWhile fun c => c.toNat ∈ pythonSpaces) = text := by
    cases text with
    | nil => rfl
    | cons c rest => exact List.dropWhile_cons_of_neg (by simpa using h c List.mem_cons_self)
  rw [strip, hdrop text h, hdrop text.reverse fun c hc => h c (List.mem_reverse.mp hc), List.reverse_reverse]

theorem decimalOf_plain (h : ∀ c ∈ text, Plain c) : decimalOf (String.ofList text) = Decimal.parse text := by
  have hstrip : strip text = text := strip_eq_self fun c hc => (plain_kept (h c hc)).2.2
  have hfilter : text.filter (· ≠ '_') = text :=
    List.filter_eq_self.mpr fun c hc => decide_eq_true (plain_kept (h c hc)).2.1
  have hmap : text.map asciiDigit = text := by
    conv_rhs => rw [← List.map_id text]
    exact List.map_congr_left fun c hc => (plain_kept (h c hc)).1
  rw [decimalOf, String.toList_ofList, hstrip, hfilter, hmap]

theorem plain_fixedText (negative : Bool) (m k : Nat) : ∀ c ∈ fixedText negative m k, Plain c := by
  intro c hc
  rw [fixedText, List.mem_append, List.mem_append] at hc
  rcases hc with (hsign | hwhole) | hfraction
  · cases negative
    · cases hsign
    · exact .inr (.inl (List.mem_singleton.mp hsign))
  · exact .inl (isDigit_toDigits _ c hwhole)
  · split_ifs at hfraction
    · cases hfraction
    · rcases List.mem_cons.mp hfraction with rfl | hdigit
      · exact .inr (.inr rfl)
      · exact .inl (isDigit_fractionDigits c hdigit)

theorem decimalOf_format {d : FiniteDecimal} (h : d.InRange) :
    decimalOf (String.ofList d.format) = some (.finite d.normal) :=
  (decimalOf_plain (plain_fixedText _ _ _)).trans (FiniteDecimal.parse_format h)

end Beyvra
