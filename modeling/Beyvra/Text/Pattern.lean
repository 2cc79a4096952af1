import Mathlib.Data.List.Basic
import Mathlib.Data.List.Infix

namespace Text

inductive Atom where
  | lit (c : Char)
  | many (allowed : Char → Bool)

-- The end of a pattern stands at the end of the text and also before a newline that ends it.
def accepts : List Atom → List Char → Bool
  | [], [] => true
  | [], [c] => c = '\n'
  | .lit c :: pattern, d :: text => c = d && accepts pattern text
  | .many allowed :: pattern, c :: text =>
    allowed c && (accepts (.many allowed :: pattern) text || accepts pattern text)
  | _, _ => false

inductive Spells : List Atom → List Char → Prop
  | nil : Spells [] []
  | lit (c : Char) {pattern : List Atom} {text : List Char} (h : Spells pattern text) :
    Spells (.lit c :: pattern) (c :: text)
  | last {allowed : Char → Bool} {c : Char} {pattern : List Atom} {text : List Char} (hc : allowed c)
    (h : Spells pattern text) : Spells (.many allowed :: pattern) (c :: text)
  | more {allowed : Char → Bool} {c : Char} {pattern : List Atom} {text : List Char} (hc : allowed c)
    (h : Spells (.many allowed :: pattern) text) : Spells (.many allowed :: pattern) (c :: text)

def literal (text : List Char) : List Atom := text.map .lit

def startsLiterally : List Char → List Atom → Bool
  | [], _ => true
  | c :: needle, .lit d :: pattern => c = d && startsLiterally needle pattern
  | _, _ => false

-- The occurrences of the needle are replaced from the left; the counter skips the one just replaced.
def replaceLiteral (needle : List Char) (allowed : Char → Bool) : Nat → List Atom → List Atom
  | _, [] => []
  | skip + 1, _ :: pattern => replaceLiteral needle allowed skip pattern
  | 0, atom :: pattern =>
    if startsLiterally needle (atom :: pattern) then
      .many allowed :: replaceLiteral needle allowed (needle.length - 1) pattern
    else atom :: replaceLiteral needle allowed 0 pattern

def lastSegment (separator : Char) (text : List Char) : List Char :=
  (text.reverse.takeWhile (· ≠ separator)).reverse

section Language

variable {pattern : List Atom} {text : List Char} {allowed : Char → Bool}

theorem accepts_of_spells (h : Spells pattern text) {tail : List Char} (htail : tail ∈ [[], ['\n']]) :
    accepts pattern (text ++ tail) = true := by
  induction h with
  | nil =>
    rcases List.mem_pair.mp htail with rfl | rfl <;> simp [accepts]
  | lit c _ ih => simp [accepts, ih]
  | last hc _ ih => simp [accepts, hc, ih]
  | more hc _ ih => simp [accepts, hc, ih]

theorem spells_of_accepts (h : accepts pattern text = true) :
    ∃ spelled, Spells pattern spelled ∧ (text = spelled ∨ text = spelled ++ ['\n']) := by
  induction text generalizing pattern with
  | nil =>
    cases pattern with
    | nil => exact ⟨[], .nil, .inl rfl⟩
    | cons atom pattern => cases atom <;> simp [accepts] at h
  | cons c text ih =>
    cases pattern with
    | nil =>
      cases text with
      | nil =>
        obtain rfl : c = '\n' := by simpa [accepts] using h
        exact ⟨[], .nil, .inr rfl⟩
      | cons d text => simp [accepts] at h
    | cons atom pattern =>
      cases atom with
      | lit d =>
        obtain ⟨rfl, hrest⟩ : d = c ∧ accepts pattern text = true := by simpa [accepts] using h
        obtain ⟨spelled, hspelled, htext⟩ := ih hrest
        exact ⟨d :: spelled, .lit d hspelled, htext.imp (congrArg (d :: ·)) (congrArg (d :: ·))⟩
      | many allowed =>
        obtain ⟨hc, hrest⟩ : allowed c = true ∧
            (accepts (.many allowed :: pattern) text = true ∨ accepts pattern text = true) := by
          simpa [accepts] using h
        rcases hrest with hmore | hlast
        · obtain ⟨spelled, hspelled, htext⟩ := ih hmore
          exact ⟨c :: spelled, .more hc hspelled, htext.imp (congrArg (c :: ·)) (congrArg (c :: ·))⟩
        · obtain ⟨spelled, hspelled, htext⟩ := ih hlast
          exact ⟨c :: spelled, .last hc hspelled, htext.imp (congrArg (c :: ·)) (congrArg (c :: ·))⟩

theorem accepts_iff : accepts pattern text = true ↔
    ∃ spelled, Spells pattern spelled ∧ (text = spelled ∨ text = spelled ++ ['\n']) := by
  refine ⟨spells_of_accepts, ?_⟩
  rintro ⟨spelled, hspelled, rfl | rfl⟩
  · have hempty : ([] : List Char) ∈ [[], ['\n']] := by simp
    simpa using accepts_of_spells hspelled hempty
  · exact accepts_of_spells hspelled (by simp)

theorem spells_many (h : Spells [.many allowed] text) : text ≠ [] ∧ ∀ c ∈ text, allowed c = true := by
  generalize hpattern : [Atom.many allowed] = pattern at h
  induction h with
  | nil => cases hpattern
  | lit c => cases hpattern
  | last hc h =>
    cases hpattern
    cases h
    simp [hc]
  | more hc _ ih =>
    cases hpattern
    simpa [hc] using (ih rfl).2

theorem spells_literal_append {needle : List Char} (h : Spells (literal needle ++ pattern) text) :
    ∃ rest, text = needle ++ rest ∧ Spells pattern rest := by
  induction needle generalizing text with
  | nil => exact ⟨text, rfl, h⟩
  | cons c needle ih =>
    cases h with
    | lit _ h =>
      obtain ⟨rest, rfl, hrest⟩ := ih h
      exact ⟨rest, rfl, hrest⟩

-- A literal that ends with one run of allowed characters fixes where that run begins.
theorem accepts_literal_many {needle : List Char} (h : accepts (literal needle ++ [.many allowed]) text) :
    ∃ name, text = needle ++ name ∧ ∀ c ∈ name, allowed c = true ∨ c = '\n' := by
  obtain ⟨spelled, hspelled, htext⟩ := accepts_iff.mp h
  obtain ⟨name, rfl, hname⟩ := spells_literal_append hspelled
  obtain ⟨-, hall⟩ := spells_many hname
  rcases htext with rfl | rfl
  · exact ⟨name, rfl, fun c hc => .inl (hall c hc)⟩
  · refine ⟨name ++ ['\n'], List.append_assoc .., fun c hc => ?_⟩
    rcases List.mem_append.mp hc with hc | hc
    · exact .inl (hall c hc)
    · exact .inr (List.mem_singleton.mp hc)

theorem lastSegment_append {separator : Char} {name : List Char} (hname : separator ∉ name) :
    lastSegment separator (text ++ separator :: name) = name := by
  have hall : ∀ c ∈ name.reverse, decide (c ≠ separator) = true := by
    intro c hc
    have hne : c ≠ separator := by
      rintro rfl
      exact hname (List.mem_reverse.mp hc)
    simpa using hne
  unfold lastSegment
  rw [List.reverse_append, List.reverse_cons, List.append_assoc, List.takeWhile_append_of_pos hall]
  simp

end Language

end Text
