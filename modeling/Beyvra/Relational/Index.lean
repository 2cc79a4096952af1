import Beyvra.Relational.Table

namespace Relational

variable {K R V M : Type} [DecidableEq K]

-- A dictionary filled row by row: each row updates the entry of its key.
def accumulate (key : R → K) (update : Option V → R → V) (rows : List R) : Table K V :=
  rows.foldl (fun t r => t.put (key r) (update (t.find (key r)) r)) Table.empty

def rowsAt (key : R → K) (rows : List R) (k : K) : List R := rows.filter (key · = k)

def indexBy (key : R → K) (rows : List R) : Table K R := accumulate key (fun _ r => r) rows

def groupBy (key : R → K) (rows : List R) : Table K (List R) :=
  accumulate key (fun group r => group.getD [] ++ [r]) rows

-- The sums of the rows of each key; nothing where an addition fails
def tallyM [Zero M] (add : M → M → Option M) (key : R → K) (amount : R → Option M) (rows : List R) : Option (Table K M) :=
  rows.foldlM (fun t r => ((amount r).bind (add ((t.find (key r)).getD 0))).map (t.put (key r))) Table.empty

section Find

variable {key : R → K} {rows : List R} {k : K}

theorem mem_rowsAt {r : R} : r ∈ rowsAt key rows k ↔ r ∈ rows ∧ key r = k := by
  simp [rowsAt]

theorem rowsAt_cons {r : R} : rowsAt key (r :: rows) k = if key r = k then r :: rowsAt key rows k else rowsAt key rows k := by
  by_cases h : key r = k <;> simp [rowsAt, h]

theorem rowsAt_perm {rows' : List R} (h : rows.Perm rows') : (rowsAt key rows k).Perm (rowsAt key rows' k) :=
  h.filter _

theorem find_accumulate (update : Option V → R → V) :
    (accumulate key update rows).find k = (rowsAt key rows k).foldl (fun o r => some (update o r)) none := by
  have hrows (t : Table K V) :
      (rows.foldl (fun t r => t.put (key r) (update (t.find (key r)) r)) t).find k =
        (rowsAt key rows k).foldl (fun o r => some (update o r)) (t.find k) := by
    unfold rowsAt
    induction rows generalizing t with
    | nil => rfl
    | cons r rows ih =>
      rw [List.foldl_cons, ih, Table.find_put]
      by_cases hk : key r = k
      · simp [hk]
      · simp [hk, Ne.symm hk]
  exact hrows Table.empty

theorem find_indexBy : (indexBy key rows).find k = (rowsAt key rows k).getLast? := by
  unfold indexBy
  rw [find_accumulate]
  induction rowsAt key rows k using List.reverseRecOn with
  | nil => rfl
  | append_singleton rows r _ => simp

theorem foldl_group (group rows : List R) :
    rows.foldl (fun o r => some (o.getD [] ++ [r])) (some group) = some (group ++ rows) := by
  induction rows generalizing group with
  | nil => simp
  | cons r rows ih => simp [ih]

theorem find_groupBy : (groupBy key rows).find k =
    if rowsAt key rows k = [] then none else some (rowsAt key rows k) := by
  unfold groupBy
  rw [find_accumulate]
  cases rowsAt key rows k with
  | nil => rfl
  | cons r rows => simp [foldl_group]

section Partial

variable [Zero M] {add : M → M → Option M} {amount : R → Option M} {t t' : Table K M}

def totalM (add : M → M → Option M) (amount : R → Option M) (rows : List R) (total : Option M) : Option (Option M) :=
  rows.foldlM (fun o r => ((amount r).bind (add (o.getD 0))).map some) total

theorem totalM_cons {r : R} {total : Option M} : totalM add amount (r :: rows) total =
    (((amount r).bind (add (total.getD 0))).map some).bind (totalM add amount rows) := by
  rw [totalM, List.foldlM_cons]
  rfl

theorem isSome_of_totalM {total : Option M} {o : Option M} (h : totalM add amount rows total = some o) (hne : rows ≠ []) :
    o.isSome := by
  induction rows generalizing total with
  | nil => exact absurd rfl hne
  | cons r rows ih =>
    rw [totalM_cons] at h
    obtain ⟨next, hnext, hrest⟩ := Option.bind_eq_some_iff.mp h
    obtain ⟨sum, -, rfl⟩ := Option.map_eq_some_iff.mp hnext
    cases rows with
    | nil => rw [← Option.some.inj hrest]; rfl
    | cons r' rows => exact ih hrest (List.cons_ne_nil _ _)

theorem find_of_foldlM (h : rows.foldlM (fun t r => ((amount r).bind (add ((t.find (key r)).getD 0))).map (t.put (key r))) t =
    some t') : totalM add amount (rowsAt key rows k) (t.find k) = some (t'.find k) := by
  induction rows generalizing t with
  | nil => rw [← Option.some.inj h]; rfl
  | cons r rows ih =>
    rw [List.foldlM_cons] at h
    obtain ⟨next, hnext, hrest⟩ := Option.bind_eq_some_iff.mp h
    obtain ⟨total, htotal, rfl⟩ := Option.map_eq_some_iff.mp hnext
    have htail := ih hrest
    rw [Table.find_put] at htail
    rw [rowsAt_cons]
    by_cases hk : key r = k
    · subst hk
      rw [if_pos rfl] at htail
      rw [if_pos rfl, totalM_cons, htotal]
      exact htail
    · rw [if_neg (Ne.symm hk)] at htail
      rwa [if_neg hk]

theorem foldlM_isSome (h : ∀ k, (totalM add amount (rowsAt key rows k) (t.find k)).isSome) :
    (rows.foldlM (fun t r => ((amount r).bind (add ((t.find (key r)).getD 0))).map (t.put (key r))) t).isSome := by
  induction rows generalizing t with
  | nil => rfl
  | cons r rows ih =>
    have hown := h (key r)
    rw [rowsAt_cons, if_pos rfl, totalM_cons] at hown
    cases htotal : (amount r).bind (add ((t.find (key r)).getD 0)) with
    | none =>
      rw [htotal] at hown
      cases hown
    | some total =>
      rw [htotal] at hown
      rw [List.foldlM_cons, htotal]
      refine ih fun k => ?_
      rw [Table.find_put]
      by_cases hk : k = key r
      · rw [if_pos hk, hk]
        exact hown
      · have hother := h k
        rw [rowsAt_cons, if_neg (Ne.symm hk)] at hother
        rw [if_neg hk]
        exact hother

theorem find_tallyM (h : tallyM add key amount rows = some t) :
    totalM add amount (rowsAt key rows k) none = some (t.find k) := find_of_foldlM h

theorem tallyM_isSome (h : ∀ k, (totalM add amount (rowsAt key rows k) none).isSome) : (tallyM add key amount rows).isSome :=
  foldlM_isSome h

end Partial

theorem mem_of_find_indexBy {r : R} (h : (indexBy key rows).find k = some r) : r ∈ rows ∧ key r = k := by
  rw [find_indexBy] at h
  exact mem_rowsAt.mp (List.mem_of_getLast? h)

theorem rowsAt_ne_nil : rowsAt key rows k ≠ [] ↔ ∃ r ∈ rows, key r = k := by
  rw [ne_eq, List.eq_nil_iff_forall_not_mem, not_forall_not]
  exact exists_congr fun _ => mem_rowsAt

theorem find_indexBy_isSome : ((indexBy key rows).find k).isSome ↔ ∃ r ∈ rows, key r = k := by
  rw [find_indexBy, List.getLast?_isSome, rowsAt_ne_nil]

theorem find_indexBy_of_nodup (h : (rows.map key).Nodup) {r : R} (hr : r ∈ rows) :
    (indexBy key rows).find (key r) = some r := by
  have hsome : ((indexBy key rows).find (key r)).isSome := find_indexBy_isSome.mpr ⟨r, hr, rfl⟩
  obtain ⟨last, hlast⟩ := Option.isSome_iff_exists.mp hsome
  obtain ⟨hmem, hkey⟩ := mem_of_find_indexBy hlast
  rw [hlast, List.inj_on_of_nodup_map h hmem hr hkey]

end Find

-- An entry that some order of the rows leaves at a key.
inductive Candidate (key : R → K) (rows : List R) (k : K) : Option R → Prop
  | absent (h : rowsAt key rows k = []) : Candidate key rows k none
  | row (r : R) (h : r ∈ rowsAt key rows k) : Candidate key rows k (some r)

def prefer (p : R → Prop) [DecidablePred p] (rows : List R) : List R :=
  rows.filter (¬p ·) ++ rows.filter (p ·)

section Order

variable {key : R → K} {rows rows' : List R} {k : K} {o : Option R}

theorem candidate_indexBy (key : R → K) (rows : List R) (k : K) :
    Candidate key rows k ((indexBy key rows).find k) := by
  rw [find_indexBy]
  cases hlast : (rowsAt key rows k).getLast? with
  | none => exact .absent (List.getLast?_eq_none_iff.mp hlast)
  | some r => exact .row r (List.mem_of_getLast? hlast)

theorem Candidate.perm (h : Candidate key rows k o) (hperm : rows.Perm rows') :
    Candidate key rows' k o := by
  have hgroup : (rowsAt key rows k).Perm (rowsAt key rows' k) := rowsAt_perm hperm
  cases h with
  | absent h => exact .absent (List.nil_perm.mp (h ▸ hgroup))
  | row r h => exact .row r (hgroup.mem_iff.mp h)

variable {p : R → Prop} [DecidablePred p]

theorem prefer_perm (p : R → Prop) [DecidablePred p] (rows : List R) : rows.Perm (prefer p rows) := by
  have hsplit := List.filter_append_perm (fun r => decide (p r)) rows
  have hswap : (rows.filter (p ·) ++ rows.filter (¬p ·)).Perm (rows.filter (¬p ·) ++ rows.filter (p ·)) :=
    List.perm_append_comm
  refine (hsplit.symm.trans ?_)
  simpa [prefer] using hswap

theorem find_prefer (h : ∃ r ∈ rows, key r = k ∧ p r) :
    ∃ r, (indexBy key (prefer p rows)).find k = some r ∧ p r := by
  obtain ⟨r, hr, hkey, hp⟩ := h
  have hlast : rowsAt key (rows.filter (p ·)) k ≠ [] :=
    rowsAt_ne_nil.mpr ⟨r, List.mem_filter.mpr ⟨hr, decide_eq_true hp⟩, hkey⟩
  have hfind : (indexBy key (prefer p rows)).find k = (rowsAt key (rows.filter (p ·)) k).getLast? := by
    rw [find_indexBy]
    unfold prefer
    rw [show rowsAt key (rows.filter (¬p ·) ++ rows.filter (p ·)) k =
      rowsAt key (rows.filter (¬p ·)) k ++ rowsAt key (rows.filter (p ·)) k from List.filter_append ..]
    exact List.getLast?_append_of_ne_nil _ hlast
  obtain ⟨last, hsome⟩ := Option.isSome_iff_exists.mp (List.getLast?_isSome.mpr hlast)
  have hmem := mem_rowsAt.mp (List.mem_of_getLast? hsome)
  exact ⟨last, hfind.trans hsome, by simpa using (List.mem_filter.mp hmem.1).2⟩

-- The preferred row is the entry of its key.
theorem Candidate.find_prefer [DecidableEq R] (h : Candidate key rows k o) :
    (indexBy key (prefer (some · = o) rows)).find k = o := by
  cases h with
  | absent h =>
    have hnone : rowsAt key (prefer (some · = (none : Option R)) rows) k = [] :=
      List.nil_perm.mp (h ▸ rowsAt_perm (prefer_perm _ rows))
    rw [find_indexBy, hnone]
    rfl
  | row r h =>
    obtain ⟨hmem, hkey⟩ := mem_rowsAt.mp h
    obtain ⟨last, hfind, hlast⟩ := Relational.find_prefer (p := (some · = some r)) ⟨r, hmem, hkey, rfl⟩
    rw [hfind, hlast]

end Order

end Relational
