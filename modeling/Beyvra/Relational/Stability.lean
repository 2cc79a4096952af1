import Beyvra.Relational.Transaction

namespace Relational

variable {S Op : Type} {step : S → Op → S} {P Q : S → Op → Prop} {R : S → S → Prop} {inv : S → Prop} {s : S} {ops : List Op}

theorem related_foldl (hrefl : ∀ s, R s s) (htrans : ∀ s t u, R s t → R t u → R s u)
    (h : Throughout step (fun s op => R s (step s op)) ops s) : R s (ops.foldl step s) := by
  induction ops generalizing s with
  | nil => exact hrefl s
  | cons op ops ih => exact htrans _ _ _ h.1 (ih h.2)

-- A preorder holds between any two states of a run exactly when it holds across each step.
theorem related_iff_throughout (hrefl : ∀ s, R s s) (htrans : ∀ s t u, R s t → R t u → R s u) :
    (∀ before mid after, ops = before ++ (mid ++ after) → R (before.foldl step s) ((before ++ mid).foldl step s)) ↔
      Throughout step (fun s op => R s (step s op)) ops s := by
  constructor
  · intro h
    refine throughout_iff.mpr fun before op after heq => ?_
    simpa [List.foldl_append] using h before [op] after heq
  · rintro h before mid after rfl
    rw [List.foldl_append]
    exact related_foldl hrefl htrans (throughout_append.mp (throughout_append.mp h).2).1

-- Two conditions that agree where an invariant holds, which the first of them keeps
theorem throughout_congr (hinv : ∀ s op, inv s → P s op → inv (step s op)) (hiff : ∀ s op, inv s → (P s op ↔ Q s op))
    (h0 : inv s) : Throughout step P ops s ↔ Throughout step Q ops s := by
  induction ops generalizing s with
  | nil => exact Iff.rfl
  | cons op ops ih =>
    constructor
    · rintro ⟨hop, hrest⟩
      exact ⟨(hiff s op h0).mp hop, (ih (hinv s op h0 hop)).mp hrest⟩
    · rintro ⟨hop, hrest⟩
      have hop' := (hiff s op h0).mpr hop
      exact ⟨hop', (ih (hinv s op h0 hop')).mpr hrest⟩

section Occurrences

variable {p : S → Op → Bool}

-- How many operations of the run meet the condition, each on the state it runs in.
def occurrences (step : S → Op → S) (p : S → Op → Bool) : List Op → S → Nat
  | [], _ => 0
  | op :: ops, s => (p s op).toNat + occurrences step p ops (step s op)

-- A measure that these operations raise, and that no operation lowers, counts them.
theorem occurrences_add_le {inv : S → Prop} {m : S → Nat} (hinv : ∀ s op, inv s → inv (step s op))
    (hstep : ∀ s op, inv s → (p s op).toNat + m s ≤ m (step s op)) {ops : List Op} (h : inv s) :
    occurrences step p ops s + m s ≤ m (ops.foldl step s) := by
  induction ops generalizing s with
  | nil => exact le_of_eq (Nat.zero_add _)
  | cons op ops ih =>
    have hhead := hstep s op h
    have htail := ih (hinv s op h)
    rw [occurrences, List.foldl_cons]
    omega

end Occurrences

end Relational
