import Mathlib.Data.List.Chain
import Mathlib.Data.Fin.Basic

namespace Text

abbrev CodePoint := Fin 0x110000

abbrev CodeUnit := Fin 0x10000

def unitsOf (c : CodePoint) : List CodeUnit :=
  if h : c.val < 0x10000 then [⟨c.val, h⟩]
  else [⟨0xd800 + (c.val - 0x10000) / 0x400, by omega⟩, ⟨0xdc00 + (c.val - 0x10000) % 0x400, by omega⟩]

def units (text : List CodePoint) : List CodeUnit := text.flatMap unitsOf

def High (u : CodeUnit) : Prop := 0xd800 ≤ u.val ∧ u.val < 0xdc00

def Low (u : CodeUnit) : Prop := 0xdc00 ≤ u.val ∧ u.val < 0xe000

instance (u : CodeUnit) : Decidable (High u) := inferInstanceAs (Decidable (_ ∧ _))

instance (u : CodeUnit) : Decidable (Low u) := inferInstanceAs (Decidable (_ ∧ _))

def single (u : CodeUnit) : CodePoint := ⟨u.val, by omega⟩

def joined (hi lo : CodeUnit) (h : High hi ∧ Low lo) : CodePoint :=
  ⟨0x10000 + (hi.val - 0xd800) * 0x400 + (lo.val - 0xdc00), by
    obtain ⟨⟨hhi, hhi'⟩, hlo, hlo'⟩ := h
    omega⟩

-- A high surrogate before a low one stands for one code point with it.
def ofUnits : List CodeUnit → List CodePoint
  | [] => []
  | [u] => [single u]
  | hi :: lo :: rest =>
    if h : High hi ∧ Low lo then joined hi lo h :: ofUnits rest else single hi :: ofUnits (lo :: rest)

variable {c : CodePoint} {u hi lo : CodeUnit} {text : List CodePoint} {word : List CodeUnit}

theorem unitsOf_single (u : CodeUnit) : unitsOf (single u) = [u] := by
  have hsmall : (single u).val < 0x10000 := u.isLt
  rw [unitsOf, dif_pos hsmall]
  rfl

theorem unitsOf_big (h : ¬c.val < 0x10000) (hhi : 0xd800 + (c.val - 0x10000) / 0x400 = hi.val)
    (hlo : 0xdc00 + (c.val - 0x10000) % 0x400 = lo.val) : unitsOf c = [hi, lo] := by
  rw [unitsOf, dif_neg h]
  exact congrArg₂ (fun a b => [a, b]) (Fin.ext hhi) (Fin.ext hlo)

theorem unitsOf_joined (h : High hi ∧ Low lo) : unitsOf (joined hi lo h) = [hi, lo] := by
  have hval : (joined hi lo h).val = 0x10000 + (hi.val - 0xd800) * 0x400 + (lo.val - 0xdc00) := rfl
  have hhigh := h.1
  have hlow := h.2
  unfold High at hhigh
  unfold Low at hlow
  exact unitsOf_big (by omega) (by omega) (by omega)

theorem units_ofUnits (word : List CodeUnit) : units (ofUnits word) = word := by
  induction word using ofUnits.induct with
  | case1 => rfl
  | case2 u => simp [units, ofUnits, unitsOf_single]
  | case3 hi lo rest h ih =>
    rw [ofUnits, dif_pos h, units, List.flatMap_cons, unitsOf_joined]
    exact congrArg ([hi, lo] ++ ·) ih
  | case4 hi lo rest h ih =>
    rw [ofUnits, dif_neg h, units, List.flatMap_cons, unitsOf_single]
    exact congrArg ([hi] ++ ·) ih

theorem ofUnits_cons (h : ¬High u) (word : List CodeUnit) : ofUnits (u :: word) = single u :: ofUnits word := by
  cases word with
  | nil => rfl
  | cons lo rest => exact dif_neg fun hpair => h hpair.1

-- Text without surrogates is read back as it was.
theorem ofUnits_units (h : ∀ c ∈ text, c.val < 0xd800) : ofUnits (units text) = text := by
  induction text with
  | nil => rfl
  | cons c rest ih =>
    obtain ⟨hc, hrest⟩ := List.forall_mem_cons.mp h
    have hunits : unitsOf c = [⟨c.val, by omega⟩] := dif_pos (by omega)
    have hlow : ¬High ⟨c.val, by omega⟩ := fun hhigh => absurd hhigh.1 (not_le.mpr hc)
    rw [units, List.flatMap_cons, hunits, List.singleton_append, ofUnits_cons hlow]
    exact congrArg (c :: ·) (ih hrest)

theorem small_of_ofUnits (h : ∀ c ∈ ofUnits (units text), c.val < 0xd800) : ∀ c ∈ text, c.val < 0xd800 := by
  have hunits : ∀ u ∈ units text, u.val < 0xd800 := by
    intro u hu
    rw [← units_ofUnits (units text)] at hu
    obtain ⟨c, hc, hmem⟩ := List.mem_flatMap.mp hu
    rw [unitsOf, dif_pos (by have := h c hc; omega), List.mem_singleton] at hmem
    rw [hmem]
    exact h c hc
  intro c hc
  have hmem : ∀ u ∈ unitsOf c, u.val < 0xd800 := fun u hu => hunits u (List.mem_flatMap.mpr ⟨c, hc, hu⟩)
  unfold unitsOf at hmem
  split_ifs at hmem with hsmall
  · exact hmem _ List.mem_cons_self
  · have hhigh := hmem _ List.mem_cons_self
    have hval : 0xd800 + (c.val - 0x10000) / 0x400 < 0xd800 := hhigh
    omega

def PairFree (text : List CodePoint) : Prop :=
  text.IsChain fun a b => ¬((0xd800 ≤ a.val ∧ a.val < 0xdc00) ∧ 0xdc00 ≤ b.val ∧ b.val < 0xe000)

theorem first_unit (c : CodePoint) : ∃ u word, unitsOf c = u :: word ∧
    (Low u ↔ 0xdc00 ≤ c.val ∧ c.val < 0xe000) := by
  unfold unitsOf
  split_ifs with hsmall
  · exact ⟨_, [], rfl, Iff.rfl⟩
  · refine ⟨_, [_], rfl, iff_of_false ?_ (by omega)⟩
    rintro ⟨hlow, -⟩
    have hval : 0xdc00 ≤ 0xd800 + (c.val - 0x10000) / 0x400 := hlow
    omega

theorem unitsOf_pair {c : CodePoint} (h : ¬c.val < 0x10000) :
    ∃ hi lo, ∃ hpair : High hi ∧ Low lo, unitsOf c = [hi, lo] ∧ joined hi lo hpair = c := by
  have hlt := c.isLt
  have hpair : High ⟨0xd800 + (c.val - 0x10000) / 0x400, by omega⟩ ∧ Low ⟨0xdc00 + (c.val - 0x10000) % 0x400, by omega⟩ := by
    unfold High Low
    dsimp only
    omega
  refine ⟨_, _, hpair, dif_neg h, Fin.ext ?_⟩
  change 0x10000 + (0xd800 + (c.val - 0x10000) / 0x400 - 0xd800) * 0x400 + (0xdc00 + (c.val - 0x10000) % 0x400 - 0xdc00) = c.val
  omega

-- A text is read back unless a high surrogate stands before a low one in it.
theorem ofUnits_units_iff (text : List CodePoint) : ofUnits (units text) = text ↔ PairFree text := by
  induction text with
  | nil => exact iff_of_true rfl .nil
  | cons c rest ih =>
    have hunits : units (c :: rest) = unitsOf c ++ units rest := List.flatMap_cons
    rw [PairFree, List.isChain_cons, ← PairFree, hunits]
    by_cases hsmall : c.val < 0x10000
    · have hone : unitsOf c = [⟨c.val, hsmall⟩] := dif_pos hsmall
      have hsingle : single ⟨c.val, hsmall⟩ = c := rfl
      rw [hone, List.singleton_append]
      by_cases hhigh : High ⟨c.val, hsmall⟩
      · cases rest with
        | nil => exact iff_of_true rfl ⟨fun b hb => absurd hb (by simp), .nil⟩
        | cons b rest =>
          obtain ⟨u, word, hfirst, hlow⟩ := first_unit b
          have htail : units (b :: rest) = u :: (word ++ units rest) := by
            rw [units, List.flatMap_cons, hfirst]
            rfl
          rw [htail] at ih ⊢
          by_cases hpair : Low u
          · refine iff_of_false (fun heq => ?_) fun hchain => hchain.1 b rfl ⟨hhigh, hlow.mp hpair⟩
            rw [ofUnits, dif_pos ⟨hhigh, hpair⟩] at heq
            have hval := congrArg Fin.val (List.cons.inj heq).1
            have hjoined : 0x10000 + (c.val - 0xd800) * 0x400 + (u.val - 0xdc00) = c.val := hval
            omega
          · have hfree : ∀ y ∈ (b :: rest).head?, ¬((0xd800 ≤ c.val ∧ c.val < 0xdc00) ∧ 0xdc00 ≤ y.val ∧ y.val < 0xe000) := by
              rintro y ⟨rfl⟩ ⟨-, hy⟩
              exact hpair (hlow.mpr hy)
            rw [ofUnits, dif_neg fun h => hpair h.2, hsingle, List.cons_inj_right, ih]
            exact (and_iff_right hfree).symm
      · have hfree : ∀ y ∈ rest.head?, ¬((0xd800 ≤ c.val ∧ c.val < 0xdc00) ∧ 0xdc00 ≤ y.val ∧ y.val < 0xe000) :=
          fun y _ h => hhigh h.1
        rw [ofUnits_cons hhigh, hsingle, List.cons_inj_right, ih]
        exact (and_iff_right hfree).symm
    · have hfree : ∀ y ∈ rest.head?, ¬((0xd800 ≤ c.val ∧ c.val < 0xdc00) ∧ 0xdc00 ≤ y.val ∧ y.val < 0xe000) := by
        rintro y - ⟨h, -⟩
        omega
      obtain ⟨hi, lo, hpair, htwo, hjoined⟩ := unitsOf_pair hsmall
      rw [htwo, List.cons_append, List.singleton_append, ofUnits, dif_pos hpair, hjoined, List.cons_inj_right, ih]
      exact (and_iff_right hfree).symm

end Text
