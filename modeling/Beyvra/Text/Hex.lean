import Mathlib.Data.Bool.AllAny
import Mathlib.Data.List.Basic

namespace Text

def asciiSpaces : List Char := [' ', '\t', '\n', '\x0b', '\x0c', '\r']

def asciiSpace (c : Char) : Bool := c ∈ asciiSpaces

def hexValue (c : Char) : Option Nat := (List.range 16).find? fun n => n.digitChar = c.toLower

-- `bytes.fromhex`: spaces stand between two bytes, not between the digits of one.
def fromHex : List Char → Option (List UInt8)
  | [] => some []
  | c :: rest =>
    if asciiSpace c then fromHex rest
    else
      match rest with
      | [] => none
      | d :: rest =>
        (hexValue c).bind fun high => (hexValue d).bind fun low =>
          (fromHex rest).map fun bytes => UInt8.ofNat (16 * high + low) :: bytes

def hexText (bytes : List UInt8) : List Char :=
  bytes.flatMap fun b => [(b.toNat / 16).digitChar, (b.toNat % 16).digitChar]

section Hex

variable {c : Char} {n : Nat} {text : List Char} {bytes : List UInt8}

theorem hexValue_eq_some (h : hexValue c = some n) : n < 16 ∧ c.toLower = n.digitChar := by
  have hmem := List.mem_of_find?_eq_some h
  have htext := List.find?_some h
  exact ⟨List.mem_range.mp hmem, (of_decide_eq_true htext).symm⟩

theorem hexValue_not_space (h : hexValue c = some n) : asciiSpace c = false := by
  have hnone : ∀ c ∈ asciiSpaces, hexValue c = none := List.all_iff_forall_prop.mp (by decide)
  refine decide_eq_false fun hmem => ?_
  rw [hnone c hmem] at h
  exact nomatch h

theorem hexText_of_fromHex (h : fromHex text = some bytes) :
    (text.filter fun c => !asciiSpace c).map Char.toLower = hexText bytes := by
  induction text using fromHex.induct generalizing bytes with
  | case1 =>
    obtain rfl : bytes = [] := by simpa [fromHex] using h.symm
    rfl
  | case2 c rest hspace ih =>
    rw [fromHex.eq_def] at h
    simp only [hspace, if_true] at h
    rw [List.filter_cons_of_neg (by simp [hspace])]
    exact ih h
  | case3 c hspace => simp [fromHex, hspace] at h
  | case4 c hspace d rest ih =>
    rw [fromHex, if_neg hspace] at h
    simp only [Option.bind_eq_some_iff, Option.map_eq_some_iff] at h
    obtain ⟨high, hhigh, low, hlow, tail, htail, rfl⟩ := h
    obtain ⟨hhigh16, hc⟩ := hexValue_eq_some hhigh
    obtain ⟨hlow16, hd⟩ := hexValue_eq_some hlow
    have hbyte : (UInt8.ofNat (16 * high + low)).toNat = 16 * high + low := by
      rw [UInt8.toNat_ofNat']
      omega
    have hdiv : (16 * high + low) / 16 = high := by omega
    have hmod : (16 * high + low) % 16 = low := by omega
    have hcons : hexText (UInt8.ofNat (16 * high + low) :: tail) =
        high.digitChar :: low.digitChar :: hexText tail := by
      rw [hexText, List.flatMap_cons, hbyte, hdiv, hmod]
      rfl
    rw [List.filter_cons_of_pos (by simp [hspace]), List.filter_cons_of_pos (by simp [hexValue_not_space hlow]),
      List.map_cons, List.map_cons, ih htail, hc, hd, hcons]

end Hex

end Text
