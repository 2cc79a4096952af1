import Mathlib.Tactic.IntervalCases

namespace IsoDate

-- The proleptic Gregorian calendar, with day 1 for 0001-01-01

def isLeap (year : Nat) : Bool := year % 4 = 0 ∧ (year % 100 ≠ 0 ∨ year % 400 = 0)

def daysBeforeYear (year : Nat) : Nat := (year - 1) * 365 + (year - 1) / 4 + (year - 1) / 400 - (year - 1) / 100

def daysBeforeMonth (leap : Bool) (month : Nat) : Nat :=
  [0, 0, 31, 59, 90, 120, 151, 181, 212, 243, 273, 304, 334].getD month 0 + if 2 < month ∧ leap then 1 else 0

def ordinalOf (date : Nat × Nat × Nat) : Nat :=
  daysBeforeYear date.1 + daysBeforeMonth (isLeap date.1) date.2.1 + date.2.2

-- Month and day of a day of the year, counted from 0
def monthDay (leap : Bool) (r : Nat) : Nat × Nat :=
  let month := (r + 50) / 32
  let month := if r < daysBeforeMonth leap month then month - 1 else month
  (month, r - daysBeforeMonth leap month + 1)

def dateOf (ordinal : Nat) : Nat × Nat × Nat :=
  let n := ordinal - 1
  let r := n % 146097
  let r' := r % 36524
  let r'' := r' % 1461
  let year := n / 146097 * 400 + 1 + r / 36524 * 100 + r' / 1461 * 4 + r'' / 365
  if r'' / 365 = 4 ∨ r / 36524 = 4 then (year - 1, 12, 31)
  else (year, monthDay (r'' / 365 = 3 ∧ (r' / 1461 ≠ 24 ∨ r / 36524 = 3)) (r'' % 365))

def digit (n : Nat) : Char := Char.ofNat (48 + n % 10)

def twoDigits (n : Nat) : List Char := [digit (n / 10), digit n]

def fourDigits (n : Nat) : List Char := twoDigits (n / 100) ++ twoDigits n

-- `date.isoformat()`
def isoformat (ordinal : Nat) : String :=
  let (year, month, day) := dateOf ordinal
  String.ofList (fourDigits year ++ '-' :: twoDigits month ++ '-' :: twoDigits day)

def maxOrdinal : Nat := 3652059

theorem monthDay_spec : ∀ leap : Bool, ∀ r < 365, daysBeforeMonth leap (monthDay leap r).1 + (monthDay leap r).2 = r + 1 ∧
    (monthDay leap r).1 < 13 ∧ (monthDay leap r).2 < 32 := by decide +kernel

theorem digit_injective {a b : Nat} (h : digit a = digit b) : a % 10 = b % 10 := by
  have hall : ∀ a < 10, ∀ b < 10, Char.ofNat (48 + a) = Char.ofNat (48 + b) → a = b := by decide
  exact hall _ (Nat.mod_lt _ (by decide)) _ (Nat.mod_lt _ (by decide)) h

theorem twoDigits_injective {a b : Nat} (ha : a < 100) (hb : b < 100) (h : twoDigits a = twoDigits b) : a = b := by
  obtain ⟨htens, hrest⟩ := List.cons.inj h
  have hten := digit_injective htens
  have hone := digit_injective (List.cons.inj hrest).1
  omega

theorem fourDigits_injective {a b : Nat} (ha : a < 10000) (hb : b < 10000) (h : fourDigits a = fourDigits b) : a = b := by
  obtain ⟨hhigh, hlow⟩ := List.append_inj h rfl
  obtain ⟨hthousands, hrest⟩ := List.cons.inj hhigh
  have h1000 := digit_injective hthousands
  have h100 := digit_injective (List.cons.inj hrest).1
  obtain ⟨htens, hlast⟩ := List.cons.inj hlow
  have h10 := digit_injective htens
  have h1 := digit_injective (List.cons.inj hlast).1
  omega

section Cycles

variable {a b c e : Nat}

theorem isLeap_iff (hb : b < 4) (hc : c < 25) (he : e < 4) :
    isLeap (a * 400 + 1 + b * 100 + c * 4 + e) = decide (e = 3 ∧ (c ≠ 24 ∨ b = 3)) := by
  unfold isLeap
  rw [decide_eq_decide]
  omega

theorem daysBeforeYear_eq (hb : b < 4) (hc : c < 25) (he : e < 4) :
    daysBeforeYear (a * 400 + 1 + b * 100 + c * 4 + e) = a * 146097 + b * 36524 + c * 1461 + e * 365 := by
  unfold daysBeforeYear
  omega

end Cycles

theorem ordinalOf_dateOf {n : Nat} (hn : 1 ≤ n) : ordinalOf (dateOf n) = n := by
  obtain ⟨m, rfl⟩ : ∃ m, n = m + 1 := ⟨n - 1, by omega⟩
  unfold dateOf
  simp only [Nat.add_sub_cancel]
  generalize ha : m / 146097 = a
  generalize hr : m % 146097 = r
  generalize hb : r / 36524 = b
  generalize hr' : r % 36524 = r'
  generalize hc : r' / 1461 = c
  generalize hr'' : r' % 1461 = r''
  generalize he : r'' / 365 = e
  split_ifs with hlast
  · have hyear : a * 400 + 1 + b * 100 + c * 4 + e - 1 =
        if b = 4 then a * 400 + 1 + 3 * 100 + 24 * 4 + 3 else a * 400 + 1 + b * 100 + c * 4 + 3 := by
      split_ifs <;> omega
    rw [hyear, ordinalOf]
    split_ifs with hcycle
    · rw [daysBeforeYear_eq (by decide) (by decide) (by decide), isLeap_iff (by decide) (by decide) (by decide)]
      show a * 146097 + 3 * 36524 + 24 * 1461 + 3 * 365 + 335 + 31 = m + 1
      omega
    · have hleap : c ≠ 24 ∨ b = 3 := by omega
      rw [daysBeforeYear_eq (by omega) (by omega) (by decide), isLeap_iff (by omega) (by omega) (by decide)]
      simp [daysBeforeMonth, hleap]
      omega
  · obtain ⟨he4, hb4⟩ := not_or.mp hlast
    rw [ordinalOf, daysBeforeYear_eq (by omega) (by omega) (by omega), isLeap_iff (by omega) (by omega) (by omega)]
    have hday := (monthDay_spec (decide (e = 3 ∧ (c ≠ 24 ∨ b = 3))) (r'' % 365) (Nat.mod_lt _ (by decide))).1
    dsimp only
    omega

theorem dateOf_bounds {n : Nat} (h : n ≤ maxOrdinal) : (dateOf n).1 < 10000 ∧ (dateOf n).2.1 < 100 ∧ (dateOf n).2.2 < 100 := by
  unfold maxOrdinal at h
  unfold dateOf
  dsimp only
  split_ifs with hlast
  · dsimp only
    omega
  · have hday := monthDay_spec (decide (((n - 1) % 146097 % 36524 % 1461) / 365 = 3 ∧
      ((n - 1) % 146097 % 36524 / 1461 ≠ 24 ∨ (n - 1) % 146097 / 36524 = 3))) ((n - 1) % 146097 % 36524 % 1461 % 365)
      (Nat.mod_lt _ (by decide))
    dsimp only
    omega

theorem isoformat_injective {m n : Nat} (hm : 1 ≤ m ∧ m ≤ maxOrdinal) (hn : 1 ≤ n ∧ n ≤ maxOrdinal)
    (h : isoformat m = isoformat n) : m = n := by
  have htext : fourDigits (dateOf m).1 ++ '-' :: twoDigits (dateOf m).2.1 ++ '-' :: twoDigits (dateOf m).2.2 =
      fourDigits (dateOf n).1 ++ '-' :: twoDigits (dateOf n).2.1 ++ '-' :: twoDigits (dateOf n).2.2 :=
    String.ofList_injective h
  obtain ⟨hfront, hback⟩ := List.append_inj htext rfl
  obtain ⟨hyear, hmiddle⟩ := List.append_inj hfront rfl
  have hmonth := (List.cons.inj hmiddle).2
  have hday := (List.cons.inj hback).2
  obtain ⟨hy, hmo, hd⟩ := dateOf_bounds hm.2
  obtain ⟨hy', hmo', hd'⟩ := dateOf_bounds hn.2
  have hdate : dateOf m = dateOf n := Prod.ext (fourDigits_injective hy hy' hyear)
    (Prod.ext (twoDigits_injective hmo hmo' hmonth) (twoDigits_injective hd hd' hday))
  rw [← ordinalOf_dateOf hm.1, hdate, ordinalOf_dateOf hn.1]

end IsoDate
