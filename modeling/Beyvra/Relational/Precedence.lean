import Mathlib.Data.List.Sort
import Mathlib.Order.Basic

namespace Relational

variable {α : Type}

section Sorted

variable [LinearOrder α] {l : List α} {p : α → Bool} {a b : α} {n k : Nat}

theorem mem_takeWhile_iff (h : l.Pairwise (· < ·)) :
    b ∈ l.takeWhile p ↔ b ∈ l ∧ ∀ a ∈ l, a ≤ b → p a = true := by
  induction l with
  | nil => simp
  | cons x l ih =>
    obtain ⟨hx, hl⟩ := List.pairwise_cons.mp h
    by_cases hp : p x = true
    · rw [List.takeWhile_cons_of_pos hp, List.mem_cons, List.mem_cons, ih hl, List.forall_mem_cons]
      constructor
      · rintro (rfl | ⟨hb, hall⟩)
        · exact ⟨.inl rfl, fun _ => hp, fun a ha hle => absurd (hx a ha) hle.not_gt⟩
        · exact ⟨.inr hb, fun _ => hp, hall⟩
      · rintro ⟨hb | hb, -, hall⟩
        · exact .inl hb
        · exact .inr ⟨hb, hall⟩
    · rw [List.takeWhile_cons_of_neg hp]
      constructor
      · intro hb
        cases hb
      · rintro ⟨hb, hall⟩
        have hle : x ≤ b := by
          rcases List.mem_cons.mp hb with rfl | hb
          · exact le_rfl
          · exact (hx b hb).le
        exact absurd (hall x List.mem_cons_self hle) hp

theorem mem_take_of_le (h : l.Pairwise (· < ·)) (hb : b ∈ l.take n) (ha : a ∈ l) (hab : a ≤ b) :
    a ∈ l.take n := by
  induction l generalizing n with
  | nil => cases ha
  | cons x l ih =>
    obtain ⟨hx, hl⟩ := List.pairwise_cons.mp h
    cases n with
    | zero => cases hb
    | succ n =>
      rw [List.take_succ_cons, List.mem_cons] at hb ⊢
      rcases List.mem_cons.mp ha with rfl | hrest
      · exact .inl rfl
      · rcases hb with rfl | hb
        · exact absurd (hx a hrest) hab.not_gt
        · exact .inr (ih hl hb hrest)

theorem mem_take_iff_lt (h : l.Pairwise (· < ·)) (hb : l[k]? = some b) :
    a ∈ l.take k ↔ a ∈ l ∧ a < b := by
  obtain ⟨hk, hget⟩ := List.getElem?_eq_some_iff.mp hb
  have hsplit : l = l.take k ++ b :: l.drop (k + 1) := by
    rw [← hget, List.getElem_cons_drop, List.take_append_drop]
  rw [hsplit] at h
  obtain ⟨-, hright, hcross⟩ := List.pairwise_append.mp h
  constructor
  · intro ha
    exact ⟨List.mem_of_mem_take ha, hcross a ha b List.mem_cons_self⟩
  · rintro ⟨ha, hlt⟩
    rw [hsplit] at ha
    rcases List.mem_append.mp ha with ha | ha
    · exact ha
    · rcases List.mem_cons.mp ha with rfl | ha
      · exact absurd hlt (lt_irrefl _)
      · exact absurd ((List.pairwise_cons.mp hright).1 a ha) hlt.not_gt

end Sorted

-- Every element comes after all those that have to precede it.
def InOrder (precedes : α → α → Prop) (l : List α) : Prop :=
  ∀ k b, l[k]? = some b → ∀ a, precedes a b → a ∈ l.take k

variable {precedes precedes' : α → α → Prop} {l m : List α}

theorem inOrder_nil : InOrder precedes [] := by
  intro k b hb
  simp at hb

theorem inOrder_congr (h : ∀ b ∈ l, ∀ a, precedes a b ↔ precedes' a b) :
    InOrder precedes l ↔ InOrder precedes' l := by
  refine forall_congr' fun k => forall_congr' fun b => forall_congr' fun hb => forall_congr' fun a => ?_
  rw [h b (List.mem_of_getElem? hb) a]

theorem inOrder_append : InOrder precedes (l ++ m) ↔ InOrder precedes l ∧
    ∀ k b, m[k]? = some b → ∀ a, precedes a b → a ∈ l ∨ a ∈ m.take k := by
  constructor
  · refine fun h => ⟨fun k b hb a hab => ?_, fun k b hb a hab => ?_⟩
    · have hk := (List.getElem?_eq_some_iff.mp hb).1
      have hmem := h k b ((List.getElem?_append_left hk).trans hb) a hab
      rwa [List.take_append_of_le_length hk.le] at hmem
    · have hget : (l ++ m)[l.length + k]? = some b := by
        rw [List.getElem?_append_right (Nat.le_add_right _ _), Nat.add_sub_cancel_left, hb]
      have hmem := h (l.length + k) b hget a hab
      rwa [List.take_length_add_append, List.mem_append] at hmem
  · rintro ⟨hl, hm⟩ k b hb a hab
    rcases Nat.lt_or_ge k l.length with hk | hk
    · rw [List.getElem?_append_left hk] at hb
      rw [List.take_append_of_le_length hk.le]
      exact hl k b hb a hab
    · rw [List.getElem?_append_right hk] at hb
      obtain ⟨j, rfl⟩ := Nat.exists_eq_add_of_le hk
      rw [Nat.add_sub_cancel_left] at hb
      rw [List.take_length_add_append, List.mem_append]
      exact hm j b hb a hab

end Relational
