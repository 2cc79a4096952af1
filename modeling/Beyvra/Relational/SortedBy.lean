import Mathlib.Data.List.Sort
import Beyvra.Relational.Transaction

namespace Relational

section Firsts

variable {D K : Type} [DecidableEq K] {key : D → K} {seen : List K} {ds : List D} {d : D}

theorem mem_of_firsts (h : d ∈ firsts key seen ds) : d ∈ ds ∧ key d ∉ seen := by
  induction ds generalizing seen with
  | nil => cases h
  | cons x ds ih =>
    rw [firsts] at h
    split_ifs at h with hseen
    · obtain ⟨hmem, hkey⟩ := ih h
      exact ⟨List.mem_cons_of_mem _ hmem, hkey⟩
    · rcases List.mem_cons.mp h with rfl | hlater
      · exact ⟨List.mem_cons_self, hseen⟩
      · obtain ⟨hmem, hkey⟩ := ih hlater
        exact ⟨List.mem_cons_of_mem _ hmem, fun hold => hkey (List.mem_cons_of_mem _ hold)⟩

theorem key_mem_firsts (key : D → K) (h : d ∈ ds) (hseen : key d ∉ seen) : key d ∈ (firsts key seen ds).map key := by
  induction ds generalizing seen with
  | nil => cases h
  | cons x ds ih =>
    rw [firsts]
    rcases List.mem_cons.mp h with rfl | hlater
    · rw [if_neg hseen]
      exact List.mem_cons_self
    · split_ifs with hx
      · exact ih hlater hseen
      · by_cases heq : key d = key x
        · rw [heq]
          exact List.mem_cons_self
        · refine List.mem_cons_of_mem _ (ih hlater fun hmem => ?_)
          rcases List.mem_cons.mp hmem with hnow | hold
          · exact heq hnow
          · exact hseen hold

theorem nodup_firsts (seen : List K) (ds : List D) : ((firsts key seen ds).map key).Nodup := by
  induction ds generalizing seen with
  | nil => exact List.nodup_nil
  | cons x ds ih =>
    rw [firsts]
    split_ifs with hx
    · exact ih seen
    · refine List.nodup_cons.mpr ⟨fun hmem => ?_, ih _⟩
      obtain ⟨d, hd, hkey⟩ := List.mem_map.mp hmem
      refine (mem_of_firsts hd).2 ?_
      rw [hkey]
      exact List.mem_cons_self

-- Of the same elements in any order, repeated at will, the same keys are kept.
theorem perm_firstOccurrences (key : D → K) {ds' : List D} (h : ∀ d, d ∈ ds' ↔ d ∈ ds) :
    ((firstOccurrences key ds').map key).Perm ((firstOccurrences key ds).map key) := by
  have hsubset (xs ys : List D) (hmem : ∀ d, d ∈ xs → d ∈ ys) (k : K)
      (hk : k ∈ (firstOccurrences key xs).map key) : k ∈ (firstOccurrences key ys).map key := by
    obtain ⟨d, hd, rfl⟩ := List.mem_map.mp hk
    exact key_mem_firsts key (hmem d (mem_of_firsts hd).1) List.not_mem_nil
  refine (List.perm_ext_iff_of_nodup (nodup_firsts [] ds') (nodup_firsts [] ds)).mpr fun k => ?_
  exact ⟨hsubset ds' ds (fun d => (h d).mp) k, hsubset ds ds' (fun d => (h d).mpr) k⟩

end Firsts

section SortedBy

variable {R K V : Type} [LinearOrder K]

def sortedBy (key : R → K) (rows : List R) : List R := rows.insertionSort fun x y => key x ≤ key y

variable {key : R → K} {rows rows' : List R} {x : R} {rest : List R}

theorem perm_sortedBy : (sortedBy key rows).Perm rows := List.perm_insertionSort _ _

theorem pairwise_sortedBy : ((sortedBy key rows).map key).Pairwise (· ≤ ·) :=
  have : Std.Total fun x y : R => key x ≤ key y := ⟨fun x y => le_total (key x) (key y)⟩
  have : IsTrans R fun x y => key x ≤ key y := ⟨fun _ _ _ => le_trans⟩
  List.pairwise_map.mpr (List.pairwise_insertionSort _ _)

theorem map_key_sortedBy (h : (rows.map key).Perm (rows'.map key)) :
    (sortedBy key rows).map key = (sortedBy key rows').map key :=
  ((perm_sortedBy.map key).trans (h.trans (perm_sortedBy.map key).symm)).eq_of_pairwise'
    pairwise_sortedBy pairwise_sortedBy

-- What is the same for rows with the same key comes out in the same order.
theorem map_sortedBy {f : R → V} (h : (rows.map key).Perm (rows'.map key))
    (hf : ∀ x ∈ rows, ∀ y ∈ rows', key x = key y → f x = f y) :
    (sortedBy key rows).map f = (sortedBy key rows').map f := by
  have hkeys := map_key_sortedBy h
  have hmem : ∀ x ∈ sortedBy key rows, x ∈ rows := fun x hx => perm_sortedBy.mem_iff.mp hx
  have hmem' : ∀ y ∈ sortedBy key rows', y ∈ rows' := fun y hy => perm_sortedBy.mem_iff.mp hy
  refine List.ext_getElem? fun i => ?_
  have hi := congrArg (·[i]?) hkeys
  simp only [List.getElem?_map] at hi ⊢
  cases hx : (sortedBy key rows)[i]? with
  | none => cases hy : (sortedBy key rows')[i]? <;> simp_all
  | some x =>
    cases hy : (sortedBy key rows')[i]? with
    | none => simp_all
    | some y =>
      rw [hx, hy] at hi
      have hkey : key x = key y := Option.some.inj hi
      exact congrArg some (hf x (hmem x (List.mem_of_getElem? hx)) y (hmem' y (List.mem_of_getElem? hy)) hkey)

theorem sortedBy_head (h : sortedBy key rows = x :: rest) : ∀ y ∈ rows, key x ≤ key y := by
  intro y hy
  have hsorted := @pairwise_sortedBy _ _ _ key rows
  rw [h] at hsorted
  rcases List.mem_cons.mp (h ▸ perm_sortedBy.mem_iff.mpr hy) with rfl | hlater
  · exact le_rfl
  · exact List.rel_of_pairwise_cons hsorted (List.mem_map_of_mem hlater)

theorem sortedBy_getLast (hne : sortedBy key rows ≠ []) : ∀ y ∈ rows, key y ≤ key ((sortedBy key rows).getLast hne) := by
  intro y hy
  have hmem : y ∈ sortedBy key rows := perm_sortedBy.mem_iff.mpr hy
  rw [← List.dropLast_append_getLast hne] at hmem
  rcases List.mem_append.mp hmem with hbefore | hlast
  · have hsorted := @pairwise_sortedBy _ _ _ key rows
    rw [← List.dropLast_append_getLast hne, List.map_append, List.pairwise_append] at hsorted
    exact hsorted.2.2 _ (List.mem_map_of_mem hbefore) _ (List.mem_map_of_mem (List.mem_singleton_self _))
  · rw [List.mem_singleton.mp hlast]

end SortedBy

section Adjacent

variable {R K L : Type} [AddCommGroup K] [LinearOrder K] [IsOrderedAddMonoid K] {key : R → K} {rows : List R} {width : K}

-- Two rows in order, near each other and of different labels
def ChangeWithin (key : R → K) (label : R → L) (width : K) (x y : R) : Prop :=
  label x ≠ label y ∧ key x ≤ key y ∧ key y - key x ≤ width

omit [IsOrderedAddMonoid K] in
theorem change_of_adjacent {label : R → L} {x y : R} (hsorted : (rows.map key).Pairwise (· ≤ ·))
    (hmem : (x, y) ∈ rows.zip rows.tail) (hlabel : label x ≠ label y) (hnear : key y - key x ≤ width) :
    x ∈ rows ∧ y ∈ rows ∧ ChangeWithin key label width x y := by
  induction rows with
  | nil => cases hmem
  | cons a rest ih =>
    cases rest with
    | nil => cases hmem
    | cons b rest =>
      rw [List.tail_cons, List.zip_cons_cons] at hmem
      rcases List.mem_cons.mp hmem with heq | hlater
      · obtain ⟨rfl, rfl⟩ := Prod.mk.inj heq
        have hle : key x ≤ key y := List.rel_of_pairwise_cons hsorted (List.mem_map_of_mem List.mem_cons_self)
        exact ⟨List.mem_cons_self, List.mem_cons_of_mem _ List.mem_cons_self, hlabel, hle, hnear⟩
      · obtain ⟨hx, hy, hchange⟩ := ih hsorted.of_cons hlater
        exact ⟨List.mem_cons_of_mem _ hx, List.mem_cons_of_mem _ hy, hchange⟩

-- A change anywhere within the width is seen between two neighbours.
theorem adjacent_of_change {label : R → L} {x y : R} (hsorted : (rows.map key).Pairwise (· ≤ ·)) (hx : x ∈ rows)
    (hy : y ∈ rows) (hchange : ChangeWithin key label width x y) :
    ∃ p ∈ rows.zip rows.tail, label p.1 ≠ label p.2 ∧ key p.2 - key p.1 ≤ width := by
  induction rows generalizing x y with
  | nil => cases hx
  | cons a rest ih =>
    have hfirst : ∀ z ∈ rest, key a ≤ key z := fun z hz => List.rel_of_pairwise_cons hsorted (List.mem_map_of_mem hz)
    have hfrom (z : R) (hz : z ∈ rest) (hlabel : label a ≠ label z) (hnear : key z - key a ≤ width) :
        ∃ p ∈ (a :: rest).zip rest, label p.1 ≠ label p.2 ∧ key p.2 - key p.1 ≤ width := by
      cases rest with
      | nil => cases hz
      | cons b rest =>
        rw [List.zip_cons_cons]
        have hafter : ∀ z ∈ rest, key b ≤ key z := fun z hz =>
          List.rel_of_pairwise_cons hsorted.of_cons (List.mem_map_of_mem hz)
        by_cases hsame : label a = label b
        · have hne : label b ≠ label z := hsame ▸ hlabel
          have hlater : z ∈ rest := (List.mem_cons.mp hz).resolve_left fun heq => hne (heq ▸ rfl)
          have hclose : key z - key b ≤ width := (sub_le_sub_left (hfirst b List.mem_cons_self) _).trans hnear
          obtain ⟨p, hp, hadjacent⟩ := ih hsorted.of_cons List.mem_cons_self hz ⟨hne, hafter z hlater, hclose⟩
          exact ⟨p, List.mem_cons_of_mem _ hp, hadjacent⟩
        · have hle : key b ≤ key z := by
            rcases List.mem_cons.mp hz with rfl | hlater
            · exact le_rfl
            · exact hafter z hlater
          exact ⟨(a, b), List.mem_cons_self, hsame, (sub_le_sub_right hle _).trans hnear⟩
    obtain ⟨hlabel, hle, hnear⟩ := hchange
    rw [List.tail_cons]
    rcases List.mem_cons.mp hx with rfl | hlater
    · rcases List.mem_cons.mp hy with rfl | hlater'
      · exact absurd rfl hlabel
      · exact hfrom y hlater' hlabel hnear
    · rcases List.mem_cons.mp hy with rfl | hlater'
      · have heq : key x = key y := le_antisymm hle (hfirst x hlater)
        exact hfrom x hlater (Ne.symm hlabel) (heq ▸ hnear)
      · obtain ⟨p, hp, hadjacent⟩ := ih hsorted.of_cons hlater hlater' ⟨hlabel, hle, hnear⟩
        cases rest with
        | nil => cases hlater
        | cons b rest => exact ⟨p, List.mem_cons_of_mem _ hp, hadjacent⟩

end Adjacent

end Relational
