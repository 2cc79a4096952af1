import Beyvra.Relational.Transaction

namespace Relational

variable {S S' Op Out : Type}

def outputs (answer : S → Op → Out × S) : List Op → S → List Out
  | [], _ => []
  | op :: ops, s => (answer s op).1 :: outputs answer ops (answer s op).2

-- Two runs of the same operations: where P holds they answer alike and stay related, elsewhere they differ.
theorem outputs_eq_iff_throughout {answer : S → Op → Out × S} {answer' : S' → Op → Out × S'}
    (related : S → S' → Prop) {allowed P : S → Op → Prop}
    (halike : ∀ s t op, related s t → allowed s op → P s op →
      (answer s op).1 = (answer' t op).1 ∧ related (answer s op).2 (answer' t op).2)
    (hdiffer : ∀ s t op, related s t → allowed s op → (answer s op).1 = (answer' t op).1 → P s op)
    {ops : List Op} {s : S} {t : S'} (hrelated : related s t)
    (hallowed : Throughout (fun s op => (answer s op).2) allowed ops s) :
    outputs answer ops s = outputs answer' ops t ↔ Throughout (fun s op => (answer s op).2) P ops s := by
  induction ops generalizing s t with
  | nil => exact iff_of_true rfl trivial
  | cons op ops ih =>
    obtain ⟨hop, hrest⟩ := hallowed
    constructor
    · intro heq
      obtain ⟨hanswer, htail⟩ := List.cons.inj heq
      have hP := hdiffer s t op hrelated hop hanswer
      exact ⟨hP, (ih (halike s t op hrelated hop hP).2 hrest).mp htail⟩
    · rintro ⟨hP, hrestP⟩
      obtain ⟨hanswer, hnext⟩ := halike s t op hrelated hop hP
      exact congrArg₂ List.cons hanswer ((ih hnext hrest).mpr hrestP)

end Relational
