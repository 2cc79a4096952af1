import Mathlib.Data.List.Chain
import Mathlib.Data.List.Basic

namespace Relational

variable {R K : Type} [DecidableEq K] (key : R → Option K) (revision : R → Nat)

-- The rows of one key in the order in which they were made
def revisionsOf (k : K) (rows : List R) : List R := rows.filter fun r => key r = some k

def Numbered (rows : List R) : Prop :=
  ∀ k, (revisionsOf key k rows).map revision = List.range' 1 (revisionsOf key k rows).length

-- No other row of the key has the number.
def Vacant (rows : List R) (x : R) : Prop := key x = none ∨ ∀ r ∈ rows, key r = key x → revision r ≠ revision x

instance (rows : List R) (x : R) : Decidable (Vacant key revision rows x) := inferInstanceAs (Decidable (_ ∨ _))

variable {key revision} {rows : List R} {x p : R} {k : K}

theorem mem_revisionsOf : x ∈ revisionsOf key k rows ↔ x ∈ rows ∧ key x = some k := by
  simp [revisionsOf]

theorem revisionsOf_append_self (h : key x = some k) :
    revisionsOf key k (rows ++ [x]) = revisionsOf key k rows ++ [x] := by
  simp [revisionsOf, h]

theorem revisionsOf_append_other (h : key x ≠ some k) : revisionsOf key k (rows ++ [x]) = revisionsOf key k rows := by
  simp [revisionsOf, h]

theorem Numbered.mem_iff (h : Numbered key revision rows) {n : Nat} :
    (∃ r ∈ rows, key r = some k ∧ revision r = n) ↔ 1 ≤ n ∧ n ≤ (revisionsOf key k rows).length := by
  have hmem : n ∈ (revisionsOf key k rows).map revision ↔ 1 ≤ n ∧ n ≤ (revisionsOf key k rows).length := by
    rw [h k, List.mem_range'_1]
    omega
  rw [← hmem, List.mem_map]
  simp only [mem_revisionsOf, and_assoc]

theorem numbered_nil : Numbered key revision [] := fun _ => rfl

theorem Numbered.append (h : Numbered key revision rows)
    (hx : ∀ k, key x = some k → revision x = (revisionsOf key k rows).length + 1) :
    Numbered key revision (rows ++ [x]) := by
  intro k
  by_cases hkey : key x = some k
  · rw [revisionsOf_append_self hkey, List.map_append, h k, List.length_append, List.length_singleton, List.range'_concat,
      List.map_singleton, hx k hkey, Nat.one_mul, Nat.add_comm]
  · rw [revisionsOf_append_other hkey]
    exact h k

-- A first revision finds room only where there is none yet.
theorem Numbered.first (h : Numbered key revision rows) (hkey : key x = some k) (hone : revision x = 1)
    (hvacant : Vacant key revision rows x) : revisionsOf key k rows = [] := by
  rcases hvacant with hnone | hvacant
  · rw [hnone] at hkey
    cases hkey
  · by_contra hne
    obtain ⟨r, hr, hrkey, hrone⟩ := h.mem_iff.mpr ⟨le_rfl, List.length_pos_iff.mpr hne⟩
    exact hvacant r hr (hrkey.trans hkey.symm) (hrone.trans hone.symm)

-- The revision after a row finds room only where that row is the last one.
theorem Numbered.next (h : Numbered key revision rows) (hp : p ∈ rows) (hpkey : key p = some k) (hkey : key x = some k)
    (hnext : revision x = revision p + 1) (hvacant : Vacant key revision rows x) :
    revision p = (revisionsOf key k rows).length ∧ (revisionsOf key k rows).getLast? = some p := by
  rcases hvacant with hnone | hvacant
  · rw [hnone] at hkey
    cases hkey
  · have hbounds := h.mem_iff.mp ⟨p, hp, hpkey, rfl⟩
    have hlast : revision p = (revisionsOf key k rows).length := by
      by_contra hne
      have hroom : 1 ≤ revision p + 1 ∧ revision p + 1 ≤ (revisionsOf key k rows).length := by omega
      obtain ⟨r, hr, hrkey, hrnext⟩ := h.mem_iff.mpr hroom
      exact hvacant r hr (hrkey.trans hkey.symm) (hrnext.trans hnext.symm)
    refine ⟨hlast, ?_⟩
    obtain ⟨i, hi⟩ := List.mem_iff_getElem?.mp (mem_revisionsOf.mpr ⟨hp, hpkey⟩)
    obtain ⟨hlt, -⟩ := List.getElem?_eq_some_iff.mp hi
    have hnumber : ((revisionsOf key k rows).map revision)[i]? = some (revision p) := by
      rw [List.getElem?_map, hi, Option.map_some]
    rw [h k, List.getElem?_range' hlt, Option.some.injEq] at hnumber
    rw [List.getLast?_eq_getElem?, ← hi]
    congr 1
    omega

-- What holds from each row of a key to the one made after it
def Linked (key : R → Option K) (link : R → R → Prop) (rows : List R) : Prop :=
  ∀ k, (revisionsOf key k rows).IsChain link

variable {link : R → R → Prop}

theorem linked_nil : Linked key link [] := fun _ => .nil

theorem Linked.append (h : Linked key link rows)
    (hx : ∀ k p, key x = some k → (revisionsOf key k rows).getLast? = some p → link p x) :
    Linked key link (rows ++ [x]) := by
  intro k
  by_cases hkey : key x = some k
  · rw [revisionsOf_append_self hkey]
    refine List.isChain_append.mpr ⟨h k, .singleton x, fun p hp y hy => ?_⟩
    obtain rfl : x = y := by simpa using hy
    exact hx k p hkey hp
  · rw [revisionsOf_append_other hkey]
    exact h k

-- A row in the place of one that looks the same
theorem map_set_of_same {V : Type} {f : R → V} {i : Nat} (h : rows[i]? = some p) (hf : f x = f p) :
    (rows.set i x).map f = rows.map f := by
  obtain ⟨hlt, rfl⟩ := List.getElem?_eq_some_iff.mp h
  have hbound : i < (rows.map f).length := by simpa using hlt
  have hsame : (rows.map f)[i] = f rows[i] := List.getElem_map f
  rw [List.map_set, hf, ← hsame, List.set_getElem_self]

section Places

variable (q : R → Bool)

-- The places of the rows that meet a condition
def placesOf (rows : List R) : List Nat := (rows.zipIdx.filter fun r => q r.1).map (·.2)

variable {q} {i : Nat}

theorem mem_placesOf : i ∈ placesOf q rows ↔ ∃ r, rows[i]? = some r ∧ q r = true := by
  simp only [placesOf, List.mem_map, List.mem_filter, List.mem_zipIdx_iff_getElem?, Prod.exists]
  constructor
  · rintro ⟨r, j, ⟨hr, hq⟩, rfl⟩
    exact ⟨r, hr, hq⟩
  · rintro ⟨r, hr, hq⟩
    exact ⟨r, i, ⟨hr, hq⟩, rfl⟩

theorem placesOf_append (rows : List R) (x : R) :
    placesOf q (rows ++ [x]) = placesOf q rows ++ if q x then [rows.length] else [] := by
  simp only [placesOf, List.zipIdx_append, List.filter_append, List.map_append, List.zipIdx_singleton, Nat.zero_add]
  split_ifs with hq <;> simp [hq]

theorem length_unplaced (rows : List R) :
    ((List.range rows.length).filter fun i => i ∉ placesOf q rows).length = rows.countP fun r => !q r := by
  induction rows using List.reverseRecOn with
  | nil => rfl
  | append_singleton rows x ih =>
    have hold : ((List.range rows.length).filter fun i => i ∉ placesOf q (rows ++ [x])) =
        (List.range rows.length).filter fun i => i ∉ placesOf q rows := by
      refine List.filter_congr fun i hi => ?_
      have hlt : i < rows.length := List.mem_range.mp hi
      simp only [mem_placesOf, List.getElem?_append_left hlt]
    have hnew : rows.length ∈ placesOf q (rows ++ [x]) ↔ q x = true := by
      simp [mem_placesOf]
    rw [List.length_append, List.length_singleton, List.range_succ, List.filter_append, List.length_append, hold, ih,
      List.countP_append]
    cases hq : q x <;> simp [hnew, hq]

end Places

end Relational
