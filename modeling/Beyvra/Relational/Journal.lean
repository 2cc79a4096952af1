import Mathlib.Data.List.Basic

namespace Relational

-- The items taken in since the last snapshot, and the number and value it was taken at.
structure Journal (E P : Type) where
  base : Nat
  start : P
  items : List E

inductive Intake (E P : Type) where
  | item (e : E)
  | snapshot (base : Nat) (start : P)

namespace Journal

variable {E P ε : Type}

def take (j : Journal E P) : Intake E P → Journal E P
  | .item e => { j with items := j.items ++ [e] }
  | .snapshot base start => { base, start, items := [] }

def after (j : Journal E P) (intakes : List (Intake E P)) : Journal E P := intakes.foldl take j

variable (number : E → Nat) (apply : P → E → Except ε P)

structure Holds (j : Journal E P) (position : Nat) (value : P) : Prop where
  position : position = j.base + j.items.length
  numbered : j.items.map number = List.range' (j.base + 1) j.items.length
  folded : j.items.foldlM apply j.start = .ok value

variable {number apply} {j : Journal E P} {position : Nat} {value value' : P} {e : E}

theorem Holds.snapshot (j : Journal E P) (base : Nat) (start : P) :
    (j.take (.snapshot base start)).Holds number apply base start :=
  ⟨rfl, rfl, rfl⟩

theorem Holds.item (h : j.Holds number apply position value) (hnumber : number e = position + 1)
    (happly : apply value e = .ok value') :
    (j.take (.item e)).Holds number apply (position + 1) value' := by
  refine ⟨?_, ?_, ?_⟩
  · rw [h.position, take, List.length_append, List.length_singleton, Nat.add_assoc]
  · simp only [take, List.map_append, List.map_cons, List.map_nil, List.length_append,
      List.length_singleton, List.range'_concat, h.numbered, hnumber, h.position, Nat.one_mul]
    rw [Nat.add_right_comm]
  · simp only [take, List.foldlM_append, h.folded, List.foldlM_cons, List.foldlM_nil, bind,
      Except.bind, happly, pure, Except.pure]

end Journal

end Relational
