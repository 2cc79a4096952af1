import Mathlib.Algebra.Order.BigOperators.Group.List
import Mathlib.Data.List.Induction
import Mathlib.Order.Bounds.Basic

namespace Numeric

variable {R K : Type} [AddCommMonoid K]

section Sums

variable {p : R → Prop} [DecidablePred p] {f : R → K} {l : List R}

theorem sum_filter (p : R → Prop) [DecidablePred p] (f : R → K) (l : List R) :
    ((l.filter fun x => p x).map f).sum = (l.map fun x => if p x then f x else 0).sum := by
  induction l with
  | nil => rfl
  | cons x l ih => by_cases h : p x <;> simp [h, ih]

theorem sum_filter_add_filter_not (p : R → Prop) [DecidablePred p] (f : R → K) (l : List R) :
    ((l.filter fun x => p x).map f).sum + ((l.filter fun x => ¬p x).map f).sum = (l.map f).sum := by
  rw [sum_filter, sum_filter, ← List.sum_map_add]
  refine congrArg List.sum (List.map_congr_left fun x _ => ?_)
  by_cases h : p x <;> simp [h]

-- What is closed towards the start of a list is a beginning of it.
theorem filter_append_filter_not (h : l.Pairwise fun x y => p y → p x) :
    (l.filter fun x => p x) ++ l.filter (fun x => ¬p x) = l := by
  induction l with
  | nil => rfl
  | cons x l ih =>
    obtain ⟨hx, hl⟩ := List.pairwise_cons.mp h
    by_cases hp : p x
    · simpa [hp] using ih hl
    · have hnone : ∀ y ∈ x :: l, ¬p y := List.forall_mem_cons.mpr ⟨hp, fun y hy hpy => hp (hx y hy hpy)⟩
      rw [List.filter_eq_nil_iff.mpr fun y hy => by simpa using hnone y hy,
        List.filter_eq_self.mpr fun y hy => by simpa using hnone y hy, List.nil_append]

end Sums

variable [LinearOrder K]

-- The sum of what came so far and the least value that it had
def running (start : K) (deltas : List K) : K × K :=
  deltas.foldl (fun s d => (s.1 + d, min s.2 (s.1 + d))) (start, start)

variable {start x : K} {deltas : List K}

theorem running_append_singleton (start : K) (deltas : List K) (d : K) : running start (deltas ++ [d]) =
    ((running start deltas).1 + d, min (running start deltas).2 ((running start deltas).1 + d)) := by
  rw [running, List.foldl_append]
  rfl

theorem running_fst (start : K) (deltas : List K) : (running start deltas).1 = start + deltas.sum := by
  induction deltas using List.reverseRecOn with
  | nil => simp [running]
  | append_singleton deltas d ih => rw [running_append_singleton, ih, List.sum_append, List.sum_singleton, add_assoc]

theorem running_le {before after : List K} : (running start (before ++ after)).2 ≤ start + before.sum := by
  induction after using List.reverseRecOn with
  | nil =>
    rw [List.append_nil]
    induction before using List.reverseRecOn with
    | nil => simp [running]
    | append_singleton before d ih =>
      rw [running_append_singleton, running_fst, List.sum_append, List.sum_singleton, ← add_assoc]
      exact min_le_right _ _
  | append_singleton after d ih =>
    rw [← List.append_assoc, running_append_singleton]
    exact (min_le_left _ _).trans ih

theorem exists_running (start : K) (deltas : List K) :
    ∃ before after, deltas = before ++ after ∧ (running start deltas).2 = start + before.sum := by
  induction deltas using List.reverseRecOn with
  | nil => exact ⟨[], [], rfl, by simp [running]⟩
  | append_singleton deltas d ih =>
    obtain ⟨before, after, rfl, hleast⟩ := ih
    rw [running_append_singleton]
    rcases min_choice (running start (before ++ after)).2 ((running start (before ++ after)).1 + d) with h | h
    · exact ⟨before, after ++ [d], by rw [List.append_assoc], h.trans hleast⟩
    · refine ⟨before ++ after ++ [d], [], by rw [List.append_nil], h.trans ?_⟩
      simp [running_fst, add_assoc]

end Numeric
