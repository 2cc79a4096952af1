import Beyvra.Workspace.Watchlists

namespace Beyvra

open Relational

namespace Workspace

variable {env : WorkspaceEnv} {t t' : Table Uuid Watchlist} {id id' : Uuid} {row row' : Watchlist}

def WatchlistItems (row : Watchlist) : List Uuid := row.items.map (·.instrumentId)

def IsDefault (t : Table Uuid Watchlist) (id : Uuid) : Prop := ∃ row, t.find id = some row ∧ row.isDefault = true

def NamesDistinct (env : WorkspaceEnv) (t : Table Uuid Watchlist) : Prop :=
  ∀ id id' row row', t.find id = some row → t.find id' = some row' →
    env.lower row.name = env.lower row'.name → id = id'

structure Lawful (env : WorkspaceEnv) (t : Table Uuid Watchlist) : Prop where
  oneDefault : ∀ {id row}, t.find id = some row → ∃! d, IsDefault t d
  names : NamesDistinct env t
  items : ∀ {id row}, t.find id = some row → (WatchlistItems row).Nodup

theorem Lawful.empty (env : WorkspaceEnv) : Lawful env Table.empty where
  oneDefault := by simp
  names := by simp [NamesDistinct]
  items := by simp

inductive WatchlistChange (env : WorkspaceEnv) (t : Table Uuid Watchlist) : Table Uuid Watchlist → Prop where
  | created {id : Uuid} {row : Watchlist} (hfree : t.find id = none) (hname : nameTaken env t id row.name = false)
      (hitems : row.items = []) (hdefault : row.isDefault = t.rows.isEmpty) : WatchlistChange env t (t.put id row)
  | edited {id : Uuid} {row row' : Watchlist} (hfound : t.find id = some row) (hdefault : row'.isDefault = row.isDefault)
      (hversion : row'.version = row.version + 1) (hname : row'.name = row.name ∨ nameTaken env t id row'.name = false)
      (hitems : (WatchlistItems row).Nodup → (WatchlistItems row').Nodup) : WatchlistChange env t (t.put id row')
  | deleted {id : Uuid} {row : Watchlist} (now : Timestamp) (hfound : t.find id = some row) :
      WatchlistChange env t (if row.isDefault then promote now (t.erase id) else t.erase id)

theorem nameTaken_eq_false {name : String} :
    nameTaken env t id name = false ↔
      ∀ id' row', t.find id' = some row' → env.lower row'.name = env.lower name → id' = id := by
  simp only [nameTaken, List.any_eq_false, Bool.and_eq_true, decide_eq_true_eq, not_and, Prod.forall, Table.mem_rows_iff]
  constructor
  · intro h id' row' hfound hsame
    by_contra hne
    exact h id' row' hfound hne hsame
  · intro h id' row' hfound hne hsame
    exact hne (h id' row' hfound hsame)

theorem eq_none_of_isEmpty (h : t.rows.isEmpty = true) (id : Uuid) : t.find id = none := by
  cases hfound : t.find id with
  | none => rfl
  | some row =>
    have hmem := Table.mem_rows_iff.mpr hfound
    rw [List.isEmpty_iff.mp h] at hmem
    cases hmem

theorem NamesDistinct.put (h : NamesDistinct env t)
    (hfresh : ∀ id' row', t.find id' = some row' → env.lower row'.name = env.lower row.name → id' = id) :
    NamesDistinct env (t.put id row) := by
  intro x y xrow yrow hx hy hsame
  rcases Table.find_put_cases hx with ⟨rfl, rfl⟩ | ⟨-, hxold⟩
  · rcases Table.find_put_cases hy with ⟨rfl, -⟩ | ⟨-, hyold⟩
    · rfl
    · exact (hfresh y yrow hyold hsame.symm).symm
  · rcases Table.find_put_cases hy with ⟨rfl, rfl⟩ | ⟨-, hyold⟩
    · exact hfresh x xrow hxold hsame
    · exact h x y xrow yrow hxold hyold hsame

theorem Lawful.created (h : Lawful env t) (hfree : t.find id = none)
    (hname : nameTaken env t id row.name = false) (hitems : row.items = [])
    (hdefault : row.isDefault = t.rows.isEmpty) : Lawful env (t.put id row) where
  oneDefault := by
    intro x xrow hx
    cases hempty : t.rows.isEmpty with
    | true =>
      refine ⟨id, ⟨row, Table.find_put_self t id row, by rw [hdefault, hempty]⟩, ?_⟩
      rintro d ⟨drow, hd, -⟩
      rcases Table.find_put_cases hd with ⟨heq, -⟩ | ⟨-, hold⟩
      · exact heq
      · rw [eq_none_of_isEmpty hempty d] at hold
        cases hold
    | false =>
      obtain ⟨⟨y, yrow⟩, hy⟩ := List.isEmpty_eq_false_iff_exists_mem.mp hempty
      obtain ⟨d, ⟨drow, hd, hflag⟩, honly⟩ := h.oneDefault (Table.mem_rows_iff.mp hy)
      have hne : d ≠ id := by
        rintro rfl
        rw [hfree] at hd
        cases hd
      refine ⟨d, ⟨drow, by rw [Table.find_put_of_ne t row hne, hd], hflag⟩, ?_⟩
      rintro d' ⟨drow', hd', hflag'⟩
      rcases Table.find_put_cases hd' with ⟨-, rfl⟩ | ⟨-, hold⟩
      · rw [hdefault, hempty] at hflag'
        cases hflag'
      · exact honly d' ⟨drow', hold, hflag'⟩
  names := h.names.put (nameTaken_eq_false.mp hname)
  items := by
    intro x xrow hx
    rcases Table.find_put_cases hx with ⟨-, rfl⟩ | ⟨-, hx⟩
    · simp [WatchlistItems, hitems]
    · exact h.items hx

theorem isDefault_put (hfound : t.find id = some row) (hdefault : row'.isDefault = row.isDefault) (d : Uuid) :
    IsDefault (t.put id row') d ↔ IsDefault t d := by
  unfold IsDefault
  rw [Table.find_put]
  by_cases hd : d = id
  · subst hd
    simp [hfound, hdefault]
  · simp [hd]

theorem Lawful.edited (h : Lawful env t) (hfound : t.find id = some row) (hdefault : row'.isDefault = row.isDefault)
    (hname : row'.name = row.name ∨ nameTaken env t id row'.name = false)
    (hitems : (WatchlistItems row).Nodup → (WatchlistItems row').Nodup) : Lawful env (t.put id row') where
  oneDefault := by
    intro x xrow hx
    simp only [isDefault_put hfound hdefault]
    exact h.oneDefault hfound
  names := by
    rcases hname with hkept | hfree
    · refine h.names.put fun y yrow hy hsame => ?_
      rw [hkept] at hsame
      exact h.names y id yrow row hy hfound hsame
    · exact h.names.put (nameTaken_eq_false.mp hfree)
  items := by
    intro x xrow hx
    rcases Table.find_put_cases hx with ⟨-, rfl⟩ | ⟨-, hx⟩
    · exact hitems (h.items hfound)
    · exact h.items hx

theorem promote_cases (now : Timestamp) (t : Table Uuid Watchlist) :
    t.rows = [] ∧ promote now t = t ∨ ∃ d drow, t.find d = some drow ∧
      promote now t = t.put d { drow with isDefault := true, version := drow.version + 1, updatedAt := now } := by
  unfold promote
  cases hold : oldest t with
  | none => exact .inl ⟨latest_eq_none.mp hold, rfl⟩
  | some p => exact .inr ⟨p.1, p.2, Table.mem_rows_iff.mp (mem_of_latest hold), rfl⟩

theorem NamesDistinct.erase (h : NamesDistinct env t) (id : Uuid) : NamesDistinct env (t.erase id) :=
  fun x y xrow yrow hx hy =>
    h x y xrow yrow (Table.find_erase_eq_some.mp hx).2 (Table.find_erase_eq_some.mp hy).2

theorem Lawful.erased (h : Lawful env t) (hfound : t.find id = some row) (hflag : row.isDefault = false) :
    Lawful env (t.erase id) where
  oneDefault := by
    intro x xrow hx
    obtain ⟨d, ⟨drow, hd, hdefault⟩, honly⟩ := h.oneDefault hfound
    have hne : d ≠ id := by
      rintro rfl
      rw [hfound] at hd
      cases hd
      rw [hflag] at hdefault
      cases hdefault
    refine ⟨d, ⟨drow, Table.find_erase_eq_some.mpr ⟨hne, hd⟩, hdefault⟩, ?_⟩
    rintro d' ⟨drow', hd', hdefault'⟩
    exact honly d' ⟨drow', (Table.find_erase_eq_some.mp hd').2, hdefault'⟩
  names := h.names.erase id
  items := fun hx => h.items (Table.find_erase_eq_some.mp hx).2

-- The deleted watchlist was the only default, so the flag its heir gets is the only one again.
theorem Lawful.inherited (h : Lawful env t) (hfound : t.find id = some row) (hflag : row.isDefault = true)
    (now : Timestamp) : Lawful env (promote now (t.erase id)) := by
  have hnone : ∀ x xrow, (t.erase id).find x = some xrow → xrow.isDefault = false := by
    intro x xrow hx
    obtain ⟨hne, hx⟩ := Table.find_erase_eq_some.mp hx
    obtain ⟨d, -, honly⟩ := h.oneDefault hfound
    rw [← Bool.not_eq_true]
    intro hdefault
    have hsame : x = id := by
      rw [honly x ⟨xrow, hx, hdefault⟩, honly id ⟨row, hfound, hflag⟩]
    exact hne hsame
  rcases promote_cases now (t.erase id) with ⟨hempty, hkept⟩ | ⟨d, drow, hd, hput⟩
  · rw [hkept]
    have hgone := eq_none_of_isEmpty (List.isEmpty_iff.mpr hempty)
    exact ⟨by simp [hgone], by simp [NamesDistinct, hgone], by simp [hgone]⟩
  · rw [hput]
    refine ⟨?_, ?_, ?_⟩
    · intro x xrow hx
      refine ⟨d, ⟨_, Table.find_put_self _ _ _, rfl⟩, ?_⟩
      rintro d' ⟨drow', hd', hdefault'⟩
      rcases Table.find_put_cases hd' with ⟨heq, -⟩ | ⟨-, hold⟩
      · exact heq
      · rw [hnone d' drow' hold] at hdefault'
        cases hdefault'
    · refine (h.names.erase id).put fun y yrow hy hsame => ?_
      exact h.names.erase id y d yrow drow hy hd hsame
    · intro x xrow hx
      rcases Table.find_put_cases hx with ⟨-, rfl⟩ | ⟨-, hx⟩
      · have hitems := h.items (Table.find_erase_eq_some.mp hd).2
        exact hitems
      · exact h.items (Table.find_erase_eq_some.mp hx).2

theorem WatchlistChange.lawful (hchange : WatchlistChange env t t') (h : Lawful env t) : Lawful env t' := by
  cases hchange with
  | created hfree hname hitems hdefault => exact h.created hfree hname hitems hdefault
  | edited hfound hdefault hversion hname hitems => exact h.edited hfound hdefault hname hitems
  | @deleted id row now hfound =>
    cases hflag : row.isDefault with
    | true => simpa [hflag] using h.inherited hfound hflag now
    | false => simpa [hflag] using h.erased hfound hflag

-- Every watchlist that is there before and after, and differs, is one version further.
def Raised (t t' : Table Uuid Watchlist) : Prop :=
  ∀ id row row', t.find id = some row → t'.find id = some row' → row' ≠ row → row'.version = row.version + 1

theorem WatchlistChange.raised (hchange : WatchlistChange env t t') : Raised t t' := by
  intro x xrow xrow' hx hx' hne
  cases hchange with
  | @created id row hfree hname hitems hdefault =>
    rcases Table.find_put_cases hx' with ⟨rfl, -⟩ | ⟨-, hx'⟩
    · rw [hfree] at hx
      cases hx
    · exact absurd (Option.some.inj (hx'.symm.trans hx)) hne
  | @edited id row row' hfound hdefault hversion hname hitems =>
    rcases Table.find_put_cases hx' with ⟨rfl, rfl⟩ | ⟨-, hx'⟩
    · rw [Option.some.inj (hx.symm.trans hfound), hversion]
    · exact absurd (Option.some.inj (hx'.symm.trans hx)) hne
  | @deleted id row now hfound =>
    have herased : ∀ {y yrow yrow'}, t.find y = some yrow → (t.erase id).find y = some yrow' → yrow' = yrow := by
      intro y yrow yrow' hy hy'
      exact Option.some.inj ((Table.find_erase_eq_some.mp hy').2.symm.trans hy)
    cases hflag : row.isDefault with
    | false =>
      rw [hflag] at hx'
      exact absurd (herased hx hx') hne
    | true =>
      rw [hflag] at hx'
      rcases promote_cases now (t.erase id) with ⟨-, hkept⟩ | ⟨d, drow, hd, hput⟩
      · rw [if_pos rfl, hkept] at hx'
        exact absurd (herased hx hx') hne
      · rw [if_pos rfl, hput] at hx'
        rcases Table.find_put_cases hx' with ⟨rfl, rfl⟩ | ⟨-, hx'⟩
        · rw [herased hx hd]
        · exact absurd (herased hx hx') hne

end Workspace

end Beyvra
