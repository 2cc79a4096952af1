import Beyvra.Relational.Table

namespace Relational

variable {K V F C : Type} [DecidableEq K]

-- What stays of a list of entries in a dictionary: the last one of each key
def remaining : List (K × V) → List (K × V)
  | [] => []
  | p :: rest => if p.1 ∈ rest.map Prod.fst then remaining rest else p :: remaining rest

def Table.putAll (t : Table K V) (entries : List (K × V)) : Table K V := entries.foldl (fun t p => t.put p.1 p.2) t

-- The rows are the choices of a value for each field; the entries are conditions on the fields of their keys.
structure Conditions (K V F C : Type) where
  field : K → F
  domain : F → C → Prop
  holds : K × V → C → Prop

namespace Conditions

variable (s : Conditions K V F C)

def IsRow (row : F → C) : Prop := ∀ f, s.domain f (row f)

def Selects (entries : List (K × V)) (row : F → C) : Prop := ∀ p ∈ entries, s.holds p (row (s.field p.1))

-- Whatever a field can hold beside the conditions that remain on it meets the overwritten ones too,
-- or the remaining conditions select nothing.
def Harmless (entries : List (K × V)) : Prop :=
  (∃ f, ∀ c, s.domain f c → ∃ q ∈ remaining entries, s.field q.1 = f ∧ ¬s.holds q c) ∨
    ∀ p ∈ entries, ∀ c, s.domain (s.field p.1) c →
      (∀ q ∈ remaining entries, s.field q.1 = s.field p.1 → s.holds q c) → s.holds p c

end Conditions

section Remaining

variable {entries : List (K × V)} {k : K} {v : V}

theorem remaining_subset : remaining entries ⊆ entries := by
  induction entries with
  | nil => exact List.Subset.refl _
  | cons p rest ih =>
    rw [remaining]
    split_ifs
    · exact List.Subset.trans ih (List.subset_cons_self p rest)
    · exact List.cons_subset_cons p ih

theorem key_mem_remaining (h : k ∈ entries.map Prod.fst) : ∃ v, (k, v) ∈ remaining entries := by
  induction entries with
  | nil => exact absurd h List.not_mem_nil
  | cons p rest ih =>
    rw [remaining]
    split_ifs with hp
    · refine ih ?_
      rcases List.mem_cons.mp h with rfl | hrest
      · exact hp
      · exact hrest
    · rcases List.mem_cons.mp h with rfl | hrest
      · exact ⟨p.2, List.mem_cons_self⟩
      · obtain ⟨v, hv⟩ := ih hrest
        exact ⟨v, List.mem_cons_of_mem _ hv⟩

theorem find_putAll (t : Table K V) : (t.putAll entries).find k = some v ↔
    (k, v) ∈ remaining entries ∨ k ∉ entries.map Prod.fst ∧ t.find k = some v := by
  induction entries generalizing t with
  | nil => simp [Table.putAll, remaining]
  | cons p rest ih =>
    have hcons : t.putAll (p :: rest) = (t.put p.1 p.2).putAll rest := rfl
    rw [hcons, ih, remaining, List.map_cons, List.mem_cons, not_or, Table.find_put]
    by_cases hp : p.1 ∈ rest.map Prod.fst
    · have hne : k ∉ rest.map Prod.fst → k ≠ p.1 := fun hk heq => hk (heq ▸ hp)
      rw [if_pos hp]
      constructor
      · rintro (hmem | ⟨hk, hfind⟩)
        · exact .inl hmem
        · rw [if_neg (hne hk)] at hfind
          exact .inr ⟨⟨hne hk, hk⟩, hfind⟩
      · rintro (hmem | ⟨⟨hkp, hk⟩, hfind⟩)
        · exact .inl hmem
        · exact .inr ⟨hk, by rwa [if_neg hkp]⟩
    · rw [if_neg hp]
      by_cases hkp : k = p.1
      · subst hkp
        have hnone : (p.1, v) ∉ remaining rest := fun hmem =>
          hp (List.mem_map.mpr ⟨(p.1, v), remaining_subset hmem, rfl⟩)
        rw [if_pos rfl]
        constructor
        · rintro (hmem | ⟨-, hvalue⟩)
          · exact absurd hmem hnone
          · exact .inl (List.mem_cons.mpr (.inl (Prod.ext rfl (Option.some.inj hvalue).symm)))
        · rintro (hmem | ⟨⟨hne, -⟩, -⟩)
          · have heq := (List.mem_cons.mp hmem).resolve_right hnone
            exact .inr ⟨hp, congrArg some (congrArg Prod.snd heq).symm⟩
          · exact absurd rfl hne
      · have hne : (k, v) ≠ p := fun heq => hkp (congrArg Prod.fst heq)
        rw [if_neg hkp]
        simp only [hkp, not_false_eq_true, true_and, List.mem_cons, hne, false_or]

theorem find_putAll_empty : ((Table.empty : Table K V).putAll entries).find k = some v ↔ (k, v) ∈ remaining entries := by
  rw [find_putAll, Table.find_empty]
  simp

end Remaining

namespace Conditions

variable {s : Conditions K V F C} {entries : List (K × V)}

-- A dictionary of conditions is their conjunction exactly when no overwritten one is missed.
theorem conjunction_iff_harmless : (∀ row, s.IsRow row → (s.Selects (remaining entries) row ↔ s.Selects entries row)) ↔
    s.Harmless entries := by
  classical
  constructor
  · intro hall
    by_cases hempty : ∃ f, ∀ c, s.domain f c → ∃ q ∈ remaining entries, s.field q.1 = f ∧ ¬s.holds q c
    · exact .inl hempty
    · refine .inr fun p hp c hc hremaining => ?_
      push Not at hempty
      choose base hbase hmeets using hempty
      have hrow : s.IsRow (Function.update base (s.field p.1) c) := by
        intro f
        by_cases hf : f = s.field p.1
        · subst hf
          simpa using hc
        · simpa [hf] using hbase f
      have hselects : s.Selects (remaining entries) (Function.update base (s.field p.1) c) := by
        intro q hq
        by_cases hf : s.field q.1 = s.field p.1
        · rw [hf, Function.update_self]
          exact hremaining q hq hf
        · rw [Function.update_of_ne hf]
          exact hmeets _ q hq rfl
      have hp' := (hall _ hrow).mp hselects p hp
      rwa [Function.update_self] at hp'
  · intro hharmless row hrow
    refine ⟨fun hselects p hp => ?_, fun hselects p hp => hselects p (remaining_subset hp)⟩
    rcases hharmless with ⟨f, hnone⟩ | hmeets
    · obtain ⟨q, hq, rfl, hfails⟩ := hnone (row f) (hrow f)
      exact absurd (hselects q hq) hfails
    · exact hmeets p hp _ (hrow _) fun q hq hf => hf ▸ hselects q hq

-- Repeated keys with the same value overwrite nothing.
theorem harmless_of_consistent (h : ∀ p ∈ entries, ∀ q ∈ entries, p.1 = q.1 → p.2 = q.2) : s.Harmless entries := by
  refine .inr fun p hp c _ hmeets => ?_
  obtain ⟨v, hv⟩ := key_mem_remaining (List.mem_map_of_mem (f := Prod.fst) hp)
  have hvalue : p.2 = v := h p hp _ (remaining_subset hv) rfl
  have heq : p = (p.1, v) := Prod.ext rfl hvalue
  exact hmeets p (heq ▸ hv) rfl

end Conditions

end Relational
