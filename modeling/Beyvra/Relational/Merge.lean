import Mathlib.Data.List.Induction
import Mathlib.Data.List.Nodup

namespace Relational

variable {K V W : Type} [DecidableEq K]

-- A key keeps its place and takes the later value.
def insertLast (entries : List (K × V)) (pair : K × V) : List (K × V) :=
  if pair.1 ∈ entries.map (·.1) then entries.map fun e => if e.1 = pair.1 then pair else e else entries ++ [pair]

def merged (pairs : List (K × V)) : List (K × V) := pairs.foldl insertLast []

variable {entries pairs : List (K × V)} {pair : K × V}

theorem mem_insertLast {e : K × V} (h : e ∈ insertLast entries pair) : e ∈ entries ∨ e = pair := by
  unfold insertLast at h
  split_ifs at h
  · obtain ⟨d, hd, rfl⟩ := List.mem_map.mp h
    split_ifs
    · exact .inr rfl
    · exact .inl hd
  · exact (List.mem_append.mp h).imp id List.mem_singleton.mp

theorem insertLast_map (f : V → W) : insertLast (entries.map fun e => (e.1, f e.2)) (pair.1, f pair.2) =
    (insertLast entries pair).map fun e => (e.1, f e.2) := by
  have hkeys : (entries.map fun e => (e.1, f e.2)).map (·.1) = entries.map (·.1) := by
    rw [List.map_map]
    rfl
  unfold insertLast
  rw [hkeys]
  split_ifs with hmem
  · rw [List.map_map, List.map_map]
    refine List.map_congr_left fun e _ => ?_
    simp only [Function.comp_apply]
    split_ifs <;> rfl
  · rw [List.map_append, List.map_singleton]

theorem mem_of_merged {e : K × V} (h : e ∈ merged pairs) : e ∈ pairs := by
  induction pairs using List.reverseRecOn with
  | nil => exact h
  | append_singleton pairs pair ih =>
    rw [merged, List.foldl_append] at h
    rcases mem_insertLast h with hold | rfl
    · exact List.mem_append_left _ (ih hold)
    · exact List.mem_append_right _ List.mem_cons_self

theorem merged_map (f : V → W) (pairs : List (K × V)) :
    merged (pairs.map fun e => (e.1, f e.2)) = (merged pairs).map fun e => (e.1, f e.2) := by
  induction pairs using List.reverseRecOn with
  | nil => rfl
  | append_singleton pairs pair ih =>
    unfold merged at ih ⊢
    rw [List.map_append, List.foldl_append, ih, List.foldl_append]
    exact insertLast_map f

end Relational
