import Mathlib.Order.Lattice

namespace Numeric

variable {T : Type} [LinearOrder T]

-- An interval that has its start and not its stop; without a stop it has no end.
structure HalfOpen (T : Type) [LinearOrder T] where
  start : T
  stop : Option T
  ordered : ∀ e ∈ stop, start < e

namespace HalfOpen

def Contains (i : HalfOpen T) (t : T) : Prop := i.start ≤ t ∧ ∀ e ∈ i.stop, t < e

instance (i : HalfOpen T) (t : T) : Decidable (i.Contains t) := inferInstanceAs (Decidable (_ ∧ _))

def Meets (i j : HalfOpen T) : Prop := ∃ t, i.Contains t ∧ j.Contains t

variable {i j : HalfOpen T} {t bound : T}

-- Two intervals that meet do so at the later one of their starts.
theorem meets_iff_later : i.Meets j ↔ i.Contains (max i.start j.start) ∧ j.Contains (max i.start j.start) := by
  constructor
  · rintro ⟨t, ⟨hi, histop⟩, hj, hjstop⟩
    have hmax : max i.start j.start ≤ t := max_le hi hj
    exact ⟨⟨le_max_left _ _, fun e he => hmax.trans_lt (histop e he)⟩,
      le_max_right _ _, fun e he => hmax.trans_lt (hjstop e he)⟩
  · exact fun h => ⟨_, h⟩

-- The comparison of the bounds decides whether two intervals meet.
theorem meets_iff_bounds : i.Meets j ↔ (∀ e ∈ i.stop, j.start < e) ∧ ∀ e ∈ j.stop, i.start < e := by
  rw [meets_iff_later]
  constructor
  · rintro ⟨⟨-, histop⟩, -, hjstop⟩
    exact ⟨fun e he => (le_max_right _ _).trans_lt (histop e he), fun e he => (le_max_left _ _).trans_lt (hjstop e he)⟩
  · rintro ⟨hi, hj⟩
    exact ⟨⟨le_max_left _ _, fun e he => max_lt (i.ordered e he) (hi e he)⟩,
      le_max_right _ _, fun e he => max_lt (hj e he) (j.ordered e he)⟩

theorem meets_iff_before (hi : i.start < bound) (hj : j.start < bound) :
    i.Meets j ↔ ∃ t < bound, i.Contains t ∧ j.Contains t := by
  constructor
  · exact fun h => ⟨_, max_lt hi hj, meets_iff_later.mp h⟩
  · rintro ⟨t, -, h⟩
    exact ⟨t, h⟩

end HalfOpen

end Numeric
