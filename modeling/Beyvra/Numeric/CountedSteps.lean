import Mathlib.Data.List.NodupEquivFin
import Mathlib.Order.Bounds.Basic
import Mathlib.Order.Lattice.Nat

namespace Numeric

-- How many of the numbers above `start` and up to `stop` are counted
def countBetween (p : Nat → Bool) (start stop : Nat) : Nat := (List.range' (start + 1) (stop - start)).countP p

-- One number after the other, until `n` have been counted; nothing where the numbers end before that
def advance (p : Nat → Bool) : (left start n : Nat) → Option Nat
  | _, start, 0 => some start
  | 0, _, _ + 1 => none
  | left + 1, start, n + 1 => advance p left (start + 1) (if p (start + 1) then n else n + 1)

variable {p q r : Nat → Bool} {left start middle stop n k : Nat}

theorem countBetween_self (p : Nat → Bool) (start : Nat) : countBetween p start start = 0 := by simp [countBetween]

theorem countBetween_succ (p : Nat → Bool) (h : start ≤ stop) :
    countBetween p start (stop + 1) = countBetween p start stop + (p (stop + 1)).toNat := by
  have hsub : stop + 1 - start = (stop - start) + 1 := by omega
  have hlast : start + 1 + (stop - start) = stop + 1 := by omega
  rw [countBetween, hsub, List.range'_1_concat, List.countP_append, List.countP_singleton, hlast, countBetween]
  cases p (stop + 1) <;> rfl

theorem countBetween_add (p : Nat → Bool) (h : start ≤ middle) (h' : middle ≤ stop) :
    countBetween p start middle + countBetween p middle stop = countBetween p start stop := by
  induction stop, h' using Nat.le_induction with
  | base => rw [countBetween_self, Nat.add_zero]
  | succ stop hle ih => rw [countBetween_succ p hle, countBetween_succ p (h.trans hle), ← Nat.add_assoc, ih]

theorem countBetween_first (p : Nat → Bool) (h : start < stop) :
    countBetween p start stop = (p (start + 1)).toNat + countBetween p (start + 1) stop := by
  rw [← countBetween_add p (Nat.le_succ start) h, countBetween_succ p le_rfl, countBetween_self, Nat.zero_add]

-- The count takes every value on its way.
theorem exists_countBetween (h : start ≤ stop) (hn : n ≤ countBetween p start stop) :
    ∃ d, start ≤ d ∧ d ≤ stop ∧ countBetween p start d = n := by
  induction stop, h using Nat.le_induction with
  | base =>
    rw [countBetween_self] at hn
    exact ⟨start, le_rfl, le_rfl, by rw [countBetween_self]; omega⟩
  | succ stop hle ih =>
    rcases Nat.lt_or_ge (countBetween p start stop) n with hlt | hge
    · refine ⟨stop + 1, by omega, le_rfl, ?_⟩
      have hone : (p (stop + 1)).toNat ≤ 1 := Bool.toNat_le _
      rw [countBetween_succ p hle] at hn ⊢
      omega
    · obtain ⟨d, hstart, hstop, hcount⟩ := ih hge
      exact ⟨d, hstart, by omega, hcount⟩

theorem countBetween_period (hperiod : ∀ n, p (n + k) = p n) (start : Nat) :
    countBetween p start (start + k) = countBetween p 0 k := by
  induction start with
  | zero => rw [Nat.zero_add]
  | succ start ih =>
    have hfirst : countBetween p start (start + k + 1) =
        (p (start + 1)).toNat + countBetween p (start + 1) (start + k + 1) := countBetween_first p (by omega)
    have hlast : countBetween p start (start + k + 1) =
        countBetween p start (start + k) + (p (start + k + 1)).toNat := countBetween_succ p (by omega)
    have hsame : p (start + k + 1) = p (start + 1) := by
      rw [Nat.add_right_comm]
      exact hperiod (start + 1)
    rw [hsame] at hlast
    rw [Nat.add_right_comm]
    omega

theorem countBetween_periods (hperiod : ∀ n, p (n + k) = p n) (start m : Nat) :
    countBetween p start (start + k * m) = countBetween p 0 k * m := by
  induction m with
  | zero => rw [Nat.mul_zero, Nat.mul_zero, Nat.add_zero, countBetween_self]
  | succ m ih =>
    rw [← countBetween_add p (Nat.le_add_right start (k * m)) (by rw [Nat.mul_succ]; omega), ih, Nat.mul_succ,
      ← Nat.add_assoc, countBetween_period hperiod, Nat.mul_succ]

theorem countBetween_le_add (h : ∀ x, p x = true → q x = true ∨ r x = true) (start stop : Nat) :
    countBetween p start stop ≤ countBetween q start stop + countBetween r start stop := by
  unfold countBetween
  induction List.range' (start + 1) (stop - start) with
  | nil => simp
  | cons x l ih =>
    have hx := h x
    simp only [List.countP_cons]
    cases hp : p x <;> cases hq : q x <;> cases hr : r x <;> simp_all <;> omega

-- Distinct values of which each is in a list are no more than it has.
theorem countBetween_le_length {α : Type} [DecidableEq α] {f : Nat → α} {l : List α}
    (hf : ∀ x, start < x → x ≤ stop → ∀ y, start < y → y ≤ stop → f x = f y → x = y) :
    countBetween (fun x => f x ∈ l) start stop ≤ l.length := by
  rw [countBetween, List.countP_eq_length_filter, ← List.length_map (f := f)]
  have hrange : ∀ x ∈ (List.range' (start + 1) (stop - start)).filter (f · ∈ l), start < x ∧ x ≤ stop ∧ f x ∈ l := by
    intro x hx
    obtain ⟨hmem, hl⟩ := List.mem_filter.mp hx
    obtain ⟨hlow, hhigh⟩ := List.mem_range'_1.mp hmem
    exact ⟨by omega, by omega, of_decide_eq_true hl⟩
  refine (List.Nodup.subperm (List.Nodup.map_on ?_ ((List.nodup_range').filter _)) ?_).length_le
  · intro x hx y hy heq
    obtain ⟨hlow, hhigh, -⟩ := hrange x hx
    obtain ⟨hlow', hhigh', -⟩ := hrange y hy
    exact hf x hlow hhigh y hlow' hhigh' heq
  · intro a ha
    obtain ⟨x, hx, rfl⟩ := List.mem_map.mp ha
    exact (hrange x hx).2.2

def reached (p : Nat → Bool) (left start n : Nat) : Set Nat :=
  {d | start ≤ d ∧ d ≤ start + left ∧ countBetween p start d = n}

theorem reached_succ (p : Nat → Bool) (left start n : Nat) : reached p (left + 1) start (n + 1) =
    reached p left (start + 1) (if p (start + 1) then n else n + 1) := by
  ext d
  show (start ≤ d ∧ d ≤ start + (left + 1) ∧ countBetween p start d = n + 1) ↔
    start + 1 ≤ d ∧ d ≤ start + 1 + left ∧ countBetween p (start + 1) d = _
  rcases Nat.lt_or_ge start d with hlt | hge
  · rw [countBetween_first p hlt]
    cases p (start + 1) <;> simp <;> omega
  · have hzero : countBetween p start d = 0 := by
      rw [countBetween, Nat.sub_eq_zero_of_le hge]
      rfl
    rw [hzero]
    omega

theorem advance_eq_some : ∀ {left start n d : Nat}, advance p left start n = some d ↔ IsLeast (reached p left start n) d
  | left, start, 0, d => by
    have hleast : IsLeast (reached p left start 0) start :=
      ⟨⟨le_rfl, by omega, countBetween_self p start⟩, fun _ h => h.1⟩
    rw [advance, Option.some.injEq]
    exact ⟨fun h => h ▸ hleast, fun h => hleast.unique h⟩
  | 0, start, n + 1, d => by
    rw [advance]
    refine iff_of_false nofun fun ⟨⟨hlow, hhigh, hcount⟩, _⟩ => ?_
    obtain rfl : d = start := by omega
    rw [countBetween_self] at hcount
    cases hcount
  | left + 1, start, n + 1, d => by
    rw [advance, reached_succ]
    exact advance_eq_some

theorem advance_eq_none : advance p left start n = none ↔ reached p left start n = ∅ := by
  cases h : advance p left start n with
  | some d =>
    have hleast := advance_eq_some.mp h
    simp [(Set.nonempty_of_mem hleast.1).ne_empty]
  | none =>
    refine iff_of_true rfl (Set.not_nonempty_iff_eq_empty.mp fun hne => ?_)
    have hleast : IsLeast (reached p left start n) (sInf (reached p left start n)) :=
      ⟨Nat.sInf_mem hne, fun _ h => Nat.sInf_le h⟩
    rw [advance_eq_some.mpr hleast] at h
    cases h

end Numeric
