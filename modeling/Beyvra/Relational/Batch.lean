import Mathlib.Data.List.Sort
import Beyvra.Relational.Table

namespace Relational.Table

variable {K R : Type}

-- The keys of the first rows that satisfy p, in the order of before.
def batch (t : Table K R) (p : K → R → Bool) (before : R → R → Prop) [DecidableRel before]
    (limit : Nat) : List K :=
  (((t.rows.filter fun x => p x.1 x.2).insertionSort fun a b => before a.2 b.2).map Prod.fst).take limit

variable {t : Table K R} {p : K → R → Bool} {before : R → R → Prop} [DecidableRel before]
  {limit : Nat} {k : K}

theorem mem_of_mem_batch (h : k ∈ t.batch p before limit) : ∃ r, (k, r) ∈ t.rows ∧ p k r = true := by
  obtain ⟨⟨k', r⟩, hmem, rfl⟩ := List.mem_map.mp (List.mem_of_mem_take h)
  exact ⟨r, List.mem_filter.mp ((List.mem_insertionSort _).mp hmem)⟩

theorem batch_nodup : (t.batch p before limit).Nodup := by
  have hperm := (List.perm_insertionSort (fun a b => before a.2 b.2)
    (t.rows.filter fun x => p x.1 x.2)).map Prod.fst
  have hfilter : ((t.rows.filter fun x => p x.1 x.2).map Prod.fst).Nodup :=
    t.nodup.sublist (List.filter_sublist.map _)
  exact (hperm.nodup_iff.mpr hfilter).sublist (List.take_sublist _ _)

theorem length_filter_le_one {t : Table K R} {p : K → R → Bool} {k : K}
    (h : ∀ k' r, p k' r = true → k' = k) : (t.rows.filter fun x => p x.1 x.2).length ≤ 1 := by
  have hnodup : ((t.rows.filter fun x => p x.1 x.2).map Prod.fst).Nodup :=
    t.nodup.sublist (List.filter_sublist.map _)
  have hsubset : (t.rows.filter fun x => p x.1 x.2).map Prod.fst ⊆ [k] := by
    intro k' hk'
    obtain ⟨x, hx, rfl⟩ := List.mem_map.mp hk'
    exact List.mem_singleton.mpr (h x.1 x.2 (List.mem_filter.mp hx).2)
  simpa using (List.subperm_of_subset hnodup hsubset).length_le

theorem mapRows_eq_self {t : Table K R} {f : K → R → R} (h : ∀ x ∈ t.rows, f x.1 x.2 = x.2) :
    t.mapRows f = t := by
  have hrows : (t.rows.map fun x => (x.1, f x.1 x.2)) = t.rows := by
    conv_rhs => rw [← List.map_id t.rows]
    refine List.map_congr_left fun x hx => ?_
    rw [h x hx]
    rfl
  cases t
  simp only [mapRows, hrows]

variable [DecidableEq K]

theorem find_of_mem_batch (h : k ∈ t.batch p before limit) : ∃ r, t.find k = some r ∧ p k r = true := by
  obtain ⟨r, hmem, hp⟩ := mem_of_mem_batch h
  exact ⟨r, mem_rows_iff.mp hmem, hp⟩

end Relational.Table
