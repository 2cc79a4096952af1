import Beyvra.FinancialBoundary.PayloadFixpoint
import Beyvra.Text.Json

namespace Beyvra

open Text

namespace PythonPayload

section Write

def charOf (c : CodePoint) : Char := Char.ofNat c.val

def PyFloat.text : PyFloat → List Char
  | .finite _ repr => repr.map charOf
  | .infinite false => ['I', 'n', 'f', 'i', 'n', 'i', 't', 'y']
  | .infinite true => ['-', 'I', 'n', 'f', 'i', 'n', 'i', 't', 'y']
  | .nan => ['N', 'a', 'N']

def quotedUnits (word : List CodeUnit) : List Char := '"' :: (escape word ++ ['"'])

mutual

-- The text that `json.dumps` gives without spaces
def Document.write : Document → List Char
  | .null => ['n', 'u', 'l', 'l']
  | .bool true => ['t', 'r', 'u', 'e']
  | .bool false => ['f', 'a', 'l', 's', 'e']
  | .int n => intText n
  | .float x => x.text
  | .str word => quotedUnits word
  | .arr items => '[' :: writeGroup ']' (writeItems items)
  | .obj fields => '{' :: writeGroup '}' (writeFields fields)

def writeItems : List Document → List (List Char)
  | [] => []
  | d :: rest => d.write :: writeItems rest

def writeFields : List (List CodeUnit × Document) → List (List Char)
  | [] => []
  | (word, d) :: rest => (quotedUnits word ++ ':' :: d.write) :: writeFields rest

end

end Write

section Read

-- The longest integer that Python converts from a text or to one
def maxStrDigits : ℕ := 4300

def literals : List (List Char × Document) :=
  [(['n', 'u', 'l', 'l'], .null), (['t', 'r', 'u', 'e'], .bool true), (['f', 'a', 'l', 's', 'e'], .bool false),
    (['N', 'a', 'N'], .float .nan), (['I', 'n', 'f', 'i', 'n', 'i', 't', 'y'], .float (.infinite false)),
    (['-', 'I', 'n', 'f', 'i', 'n', 'i', 't', 'y'], .float (.infinite true))]

def readLiteral (text : List Char) : Option (Document × List Char) :=
  literals.findSome? fun l => if l.1.isPrefixOf text then some (l.2, text.drop l.1.length) else none

variable (parse : List Char → PyFloat)

def readNumber (text : List Char) : Option (Document × List Char) := do
  let (n, rest) ← scanNumber text
  if n.part ≠ [] then some (.float (parse n.text), rest)
  else if maxStrDigits < n.whole.countP Char.isDigit then none
  else some (.int (intOf n.whole), rest)

def readLeaf : List Char → Option (Document × List Char)
  | '"' :: rest => (unescape rest).map fun p => (.str p.1, p.2)
  | text =>
    match readLiteral text with
    | some p => some p
    | none => readNumber parse text

def readField (value : List Char → Option (Document × List Char)) : List Char → Option ((List CodeUnit × Document) × List Char)
  | '"' :: rest => do
    let (word, rest) ← unescape rest
    match skip rest with
    | ':' :: rest => do
      let (d, rest) ← value (skip rest)
      some ((word, d), rest)
    | _ => none
  | _ => none

-- The bound is on how deep the value nests.
def readValue : ℕ → List Char → Option (Document × List Char)
  | depth + 1, '[' :: rest => (readGroup (readValue depth) ']' rest).map fun p => (.arr p.1, p.2)
  | depth + 1, '{' :: rest => (readGroup (readField (readValue depth)) '}' rest).map fun p => (.obj p.1, p.2)
  | _, text => readLeaf parse text

-- `json.loads`: nothing but spaces stands around the value.
def readText (limit : ℕ) (text : List Char) : Option Document := do
  let (d, rest) ← readValue parse limit (skip text)
  if skip rest = [] then some d else none

def PyFloat.Readable : PyFloat → Prop
  | .finite value repr => ∃ n, scanNumber (repr.map charOf) = some (n, []) ∧ n.part ≠ [] ∧
      parse (repr.map charOf) = .finite value repr
  | _ => True

mutual

-- What Python converts both ways: its integers are short enough and its floats have the text that `repr` gives.
def Document.Readable : Document → ℕ → Prop
  | .int n, _ => (intText n).countP Char.isDigit ≤ maxStrDigits
  | .float x, _ => x.Readable parse
  | .arr items, depth => 0 < depth ∧ ReadableItems items (depth - 1)
  | .obj fields, depth => 0 < depth ∧ ReadableFields fields (depth - 1)
  | _, _ => True

def ReadableItems : List Document → ℕ → Prop
  | [], _ => True
  | d :: rest, depth => d.Readable depth ∧ ReadableItems rest depth

def ReadableFields : List (List CodeUnit × Document) → ℕ → Prop
  | [], _ => True
  | (_, d) :: rest, depth => d.Readable depth ∧ ReadableFields rest depth

end

end Read

variable {parse : List Char → PyFloat} {depth : ℕ} {d : Document} {text rest : List Char} {n : Number}

theorem writeItems_eq_map (items : List Document) : writeItems items = items.map Document.write := by
  induction items with
  | nil => rfl
  | cons d items ih => rw [writeItems, ih, List.map_cons]

def writeField (f : List CodeUnit × Document) : List Char := quotedUnits f.1 ++ ':' :: f.2.write

theorem writeFields_eq_map (fields : List (List CodeUnit × Document)) : writeFields fields = fields.map writeField := by
  induction fields with
  | nil => rfl
  | cons f fields ih => rw [writeFields, ih, List.map_cons, writeField]

theorem readableItems_iff {items : List Document} : ReadableItems parse items depth ↔ ∀ d ∈ items, d.Readable parse depth := by
  induction items with
  | nil => simp [ReadableItems]
  | cons d items ih => simp [ReadableItems, ih]

theorem readableFields_iff {fields : List (List CodeUnit × Document)} :
    ReadableFields parse fields depth ↔ ∀ f ∈ fields, f.2.Readable parse depth := by
  induction fields with
  | nil => simp [ReadableFields]
  | cons f fields ih => simp [ReadableFields, ih]

theorem unescape_quotedUnits (word : List CodeUnit) (rest : List Char) :
    ∃ t, quotedUnits word ++ rest = '"' :: t ∧ unescape t = some (word, rest) := by
  refine ⟨escape word ++ '"' :: rest, ?_, unescape_escape word rest⟩
  rw [quotedUnits, List.cons_append, List.append_assoc]
  rfl

theorem readValue_leaf (hitems : ∀ t, text ≠ '[' :: t) (hfields : ∀ t, text ≠ '{' :: t) :
    readValue parse depth text = readLeaf parse text := by
  cases depth with
  | zero => rw [readValue.eq_3] <;> simp
  | succ depth =>
    rw [readValue.eq_3]
    · rintro n t - heq
      exact hitems t heq
    · rintro n t - heq
      exact hfields t heq

theorem number_head (h : scanNumber text = some (n, rest)) :
    (∃ c t, text = c :: t ∧ c.isDigit = true) ∨ ∃ c t, text = '-' :: c :: t ∧ c.isDigit = true := by
  obtain ⟨digits, after, hwhole, -⟩ := scanNumber_eq_some h
  obtain ⟨c, t, hct, hdigit⟩ := scanWhole_starts hwhole
  unfold scanSign at hct
  split at hct
  next => exact Or.inr ⟨c, t, congrArg ('-' :: ·) hct, hdigit⟩
  next => exact Or.inl ⟨c, t, hct, hdigit⟩

theorem ne_of_isDigit {c x : Char} (h : c.isDigit = true) (hx : x.isDigit = false) : c ≠ x := by
  rintro rfl
  exact absurd (h.symm.trans hx) (by decide)

theorem readLeaf_number (h : scanNumber text = some (n, rest)) : readLeaf parse text = readNumber parse text := by
  have hplain : ∀ c t, c.isDigit = true → readLiteral (c :: t) = none := by
    intro c t hc
    have hn := ne_of_isDigit hc (x := 'n') (by decide)
    have ht := ne_of_isDigit hc (x := 't') (by decide)
    have hf := ne_of_isDigit hc (x := 'f') (by decide)
    have hN := ne_of_isDigit hc (x := 'N') (by decide)
    have hI := ne_of_isDigit hc (x := 'I') (by decide)
    have hm := ne_of_isDigit hc (x := '-') (by decide)
    simp [readLiteral, literals, hn.symm, ht.symm, hf.symm, hN.symm, hI.symm, hm.symm]
  have hminus : ∀ c t, c.isDigit = true → readLiteral ('-' :: c :: t) = none := by
    intro c t hc
    have hI := ne_of_isDigit hc (x := 'I') (by decide)
    simp [readLiteral, literals, hI.symm]
  rcases number_head h with ⟨c, t, rfl, hc⟩ | ⟨c, t, rfl, hc⟩
  · have hquote := ne_of_isDigit hc (x := '"') (by decide)
    rw [readLeaf.eq_2 _ _ (by
      rintro t' heq
      exact hquote (List.cons.inj heq).1), hplain c t hc]
  · rw [readLeaf.eq_2 _ _ (by
      rintro t' heq
      exact absurd (List.cons.inj heq).1 (by decide)), hminus c t hc]

theorem number_not_opening (h : scanNumber text = some (n, rest)) :
    (∀ t, text ≠ '[' :: t) ∧ ∀ t, text ≠ '{' :: t := by
  rcases number_head h with ⟨c, t, rfl, hc⟩ | ⟨c, t, rfl, -⟩
  · refine ⟨fun t' heq => ?_, fun t' heq => ?_⟩
    · exact ne_of_isDigit hc (by decide) (List.cons.inj heq).1
    · exact ne_of_isDigit hc (by decide) (List.cons.inj heq).1
  · refine ⟨fun t' heq => ?_, fun t' heq => ?_⟩
    · exact absurd (List.cons.inj heq).1 (by decide)
    · exact absurd (List.cons.inj heq).1 (by decide)

theorem readsBack_number (hscan : scanNumber text = some (n, []))
    (hread : ∀ rest, scanNumber (text ++ rest) = some (n, rest) → readNumber parse (text ++ rest) = some (d, rest))
    (hwrite : d.write = text) : ReadsBack (readValue parse depth) Document.write d := by
  subst hwrite
  refine ⟨starts_of_scanNumber hscan, fun rest hrest => ?_⟩
  have hlonger : scanNumber (d.write ++ rest) = some (n, rest) := by
    rw [scanNumber_append hrest, hscan]
    rfl
  obtain ⟨hitems, hfields⟩ := number_not_opening hlonger
  rw [readValue_leaf hitems hfields, readLeaf_number hlonger]
  exact hread rest hlonger

theorem readsBack_int {m : Int} (h : (intText m).countP Char.isDigit ≤ maxStrDigits) :
    ReadsBack (readValue parse depth) Document.write (.int m) := by
  refine readsBack_number (scanNumber_intText m) (fun rest hlonger => ?_) rfl
  have hshort : ¬maxStrDigits < (intText m).countP Char.isDigit := not_lt.mpr h
  simp only [readNumber, hlonger, Option.bind_eq_bind, Option.bind_some, ne_eq, not_true_eq_false, if_false, hshort,
    intOf_intText]

theorem readsBack_literal {word : List Char} (hwrite : d.write = word) (hstart : Starts word)
    (hread : ∀ rest, readValue parse depth (word ++ rest) = some (d, rest)) :
    ReadsBack (readValue parse depth) Document.write d := by
  subst hwrite
  exact ⟨hstart, fun rest _ => hread rest⟩

theorem readsBack_float {x : PyFloat} (h : x.Readable parse) : ReadsBack (readValue parse depth) Document.write (.float x) := by
  cases x with
  | finite value repr =>
    obtain ⟨n, hscan, hpart, hparse⟩ := h
    refine readsBack_number hscan (fun rest hlonger => ?_) rfl
    have htext : n.text = repr.map charOf := by simpa using scanNumber_join hscan
    simp only [readNumber, hlonger, Option.bind_eq_bind, Option.bind_some, if_pos hpart, htext, hparse]
  | infinite negative =>
    cases negative with
    | false => exact readsBack_literal rfl ⟨_, _, rfl, by decide, by decide⟩ fun rest => by cases depth <;> rfl
    | true => exact readsBack_literal rfl ⟨_, _, rfl, by decide, by decide⟩ fun rest => by cases depth <;> rfl
  | nan => exact readsBack_literal rfl ⟨_, _, rfl, by decide, by decide⟩ fun rest => by cases depth <;> rfl

theorem readsBack_str (word : List CodeUnit) : ReadsBack (readValue parse depth) Document.write (.str word) := by
  refine ⟨⟨'"', _, rfl, by decide, by decide⟩, fun rest _ => ?_⟩
  obtain ⟨t, htext, hread⟩ := unescape_quotedUnits word rest
  rw [Document.write, htext, readValue_leaf (fun t' heq => absurd (List.cons.inj heq).1 (by decide))
    (fun t' heq => absurd (List.cons.inj heq).1 (by decide)), readLeaf, hread]
  rfl

theorem readsBack_leaf (hleaf : d.isLeaf = true) (h : d.Readable parse depth) :
    ReadsBack (readValue parse depth) Document.write d := by
  cases d with
  | null => exact readsBack_literal rfl ⟨_, _, rfl, by decide, by decide⟩ fun rest => by cases depth <;> rfl
  | bool b =>
    cases b with
    | false => exact readsBack_literal rfl ⟨_, _, rfl, by decide, by decide⟩ fun rest => by cases depth <;> rfl
    | true => exact readsBack_literal rfl ⟨_, _, rfl, by decide, by decide⟩ fun rest => by cases depth <;> rfl
  | int m => exact readsBack_int h
  | float x => exact readsBack_float h
  | str word => exact readsBack_str word
  | arr items => exact absurd hleaf (by simp [Document.isLeaf])
  | obj fields => exact absurd hleaf (by simp [Document.isLeaf])

-- A field is read back when its value is: its key ends at a quote that the escapes cannot contain.
theorem readsBack_field {value : List Char → Option (Document × List Char)} {f : List CodeUnit × Document}
    (h : ReadsBack value Document.write f.2) : ReadsBack (readField value) writeField f := by
  obtain ⟨hstart, hvalue⟩ := h
  refine ⟨⟨'"', _, rfl, by decide, by decide⟩, fun rest hrest => ?_⟩
  obtain ⟨t, htext, hread⟩ := unescape_quotedUnits f.1 (':' :: (f.2.write ++ rest))
  have hcolon : skip (':' :: (f.2.write ++ rest)) = ':' :: (f.2.write ++ rest) :=
    List.dropWhile_cons_of_neg (by decide)
  have hfield : writeField f ++ rest = '"' :: t := by
    rw [← htext, writeField, List.append_assoc]
    rfl
  rw [hfield, readField, hread]
  simp only [Option.bind_eq_bind, Option.bind_some, hcolon, skip_starts (hstart.append rest), hvalue rest hrest]

-- By induction on the document: each bracket takes one level of the depth.
theorem readsBack_write (d : Document) : ∀ depth, d.Readable parse depth →
    ReadsBack (readValue parse depth) Document.write d := by
  induction d using Document.byParts with
  | leaf d hleaf => exact fun depth h => readsBack_leaf hleaf h
  | arr items ih =>
    rintro depth ⟨hdepth, hitems⟩
    obtain ⟨depth, rfl⟩ := Nat.exists_eq_add_of_lt hdepth
    refine ⟨⟨'[', _, rfl, by decide, by decide⟩, fun rest _ => ?_⟩
    have hback := readGroup_write (show ']' ∈ [']', '}'] by decide) (fun x hx => ih x hx _ (readableItems_iff.mp hitems x hx)) rest
    rw [Document.write, writeItems_eq_map, List.cons_append]
    exact congrArg (Option.map _) hback
  | obj fields ih =>
    rintro depth ⟨hdepth, hfields⟩
    obtain ⟨depth, rfl⟩ := Nat.exists_eq_add_of_lt hdepth
    refine ⟨⟨'{', _, rfl, by decide, by decide⟩, fun rest _ => ?_⟩
    have hback := readGroup_write (show '}' ∈ [']', '}'] by decide)
      (fun f hf => readsBack_field (ih f hf _ (readableFields_iff.mp hfields f hf))) rest
    rw [Document.write, writeFields_eq_map, List.cons_append]
    exact congrArg (Option.map _) hback

theorem readText_write {limit : ℕ} (h : d.Readable parse limit) : readText parse limit d.write = some d := by
  obtain ⟨hstart, hread⟩ := readsBack_write d limit h
  have hback := hread [] fun c hc => absurd hc (by simp)
  rw [List.append_nil] at hback
  rw [readText, skip_starts hstart, hback]
  rfl

end PythonPayload

end Beyvra
