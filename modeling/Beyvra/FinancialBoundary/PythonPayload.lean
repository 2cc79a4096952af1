import Mathlib.Data.List.Sort
import Beyvra.FinancialBoundary.Canonical
import Beyvra.Relational.Merge
import Beyvra.Text.Utf16

namespace Beyvra

open Relational Text

namespace PythonPayload

abbrev Str := List CodePoint

def strOf (s : String) : Str := s.toList.map fun c => Fin.ofNat 0x110000 c.toNat

-- A float has the text that `repr` gives of it.
inductive PyFloat where
  | finite (value : ℚ) (repr : Str)
  | infinite (negative : Bool)
  | nan

-- An instance of a subclass of int, float or str, such as an enumeration of texts, may show another text than its own.
-- other stands for a key that json.dumps refuses.
inductive Key where
  | none
  | bool (b : Bool)
  | int (n : Int)
  | float (x : PyFloat)
  | str (s : Str)
  | intAs (shown : Str) (n : Int)
  | floatAs (shown : Str) (x : PyFloat)
  | strAs (shown : Str) (s : Str)
  | other (text : Str)

inductive PyValue where
  | none
  | bool (b : Bool)
  | int (n : Int)
  | float (x : PyFloat)
  | str (s : Str)
  | list (items : List PyValue)
  | tuple (items : List PyValue)
  | dict (entries : List (Key × PyValue))
  | other

-- A JSON text without spaces; its strings are given by the code units that they escape.
inductive Document where
  | null
  | bool (b : Bool)
  | int (n : Int)
  | float (x : PyFloat)
  | str (word : List CodeUnit)
  | arr (items : List Document)
  | obj (fields : List (List CodeUnit × Document))

-- `str(key)`
def Key.text : Key → Str
  | .none => strOf "None"
  | .bool b => strOf (if b then "True" else "False")
  | .int n => strOf (toString n)
  | .float (.finite _ repr) => repr
  | .float (.infinite negative) => strOf (if negative then "-inf" else "inf")
  | .float .nan => strOf "nan"
  | .str s => s
  | .intAs shown _ => shown
  | .floatAs shown _ => shown
  | .strAs shown _ => shown
  | .other text => text

-- The number or the text that an instance of a subclass is
def Key.base : Key → Key
  | .intAs _ n => .int n
  | .floatAs _ x => .float x
  | .strAs _ s => .str s
  | key => key

-- What the scan reads of the key is not what json.dumps writes of it.
def Key.disguised (key : Key) : Bool := key.text ≠ key.base.text

-- The text of a key in JSON
def Key.json (key : Key) : Str :=
  match key.base with
  | .none => strOf "null"
  | .bool b => strOf (if b then "true" else "false")
  | .float (.infinite negative) => strOf (if negative then "-Infinity" else "Infinity")
  | .float .nan => strOf "NaN"
  | base => base.text

def Key.isStr (key : Key) : Bool :=
  match key.base with
  | .str _ => true
  | _ => false

-- Where a key stands among the numbers: below, among or above the finite ones
def Key.rank (key : Key) : Option (Int × ℚ) :=
  match key.base with
  | .bool b => some (0, if b then 1 else 0)
  | .int n => some (0, n)
  | .float (.finite value _) => some (0, value)
  | .float (.infinite negative) => some (if negative then -1 else 1, 0)
  | _ => Option.none

def Key.isNumber (key : Key) : Bool :=
  match key.base with
  | .bool _ => true
  | .int _ => true
  | .float _ => true
  | _ => false

def Key.lt (a b : Key) : Bool :=
  match a.base, b.base with
  | .str s, .str t => s < t
  | a, b =>
    match a.rank, b.rank with
    | some x, some y => x.1 < y.1 || (x.1 = y.1 && x.2 < y.2)
    | _, _ => false

def Key.before (a b : Key) : Prop := b.lt a = false

instance (a b : Key) : Decidable (a.before b) := inferInstanceAs (Decidable (_ = _))

-- A dictionary whose keys are not all of one kind cannot be sorted.
def comparable (keys : List Key) : Bool := keys.length ≤ 1 || keys.all Key.isStr || keys.all Key.isNumber

-- Of the characters outside ASCII only the Kelvin sign has an ASCII lower case.
def lowerPoint (c : CodePoint) : CodePoint :=
  if 65 ≤ c.val ∧ c.val ≤ 90 then Fin.ofNat 0x110000 (c.val + 32) else if c.val = 0x212a then 107 else c

def denied (s : Str) : Bool := s.map lowerPoint ∈ deniedPayloadKeys.map strOf

section Layout

variable {V : Type}

def sortEntries (entries : List (Key × V)) : List (Key × V) := entries.insertionSort fun a b => a.1.before b.1

def layOut (entries : List (Key × V)) : List (List CodeUnit × V) :=
  (sortEntries entries).map fun e => (units e.1.json, e.2)

def readFields (fields : List (List CodeUnit × V)) : List (Str × V) := merged (fields.map fun f => (ofUnits f.1, f.2))

end Layout

mutual

-- The scan goes into dictionaries and lists.
def PyValue.inspect : PyValue → Bool
  | .dict entries => inspectEntries entries
  | .list items => inspectItems items
  | _ => true

def inspectEntries : List (Key × PyValue) → Bool
  | [] => true
  | (key, value) :: rest => !denied key.text && value.inspect && inspectEntries rest

def inspectItems : List PyValue → Bool
  | [] => true
  | value :: rest => value.inspect && inspectItems rest

end

mutual

def PyValue.encodable : PyValue → Bool
  | .dict entries => comparable (entries.map (·.1)) && encodableEntries entries
  | .list items => encodableItems items
  | .tuple items => encodableItems items
  | .other => false
  | _ => true

def encodableEntries : List (Key × PyValue) → Bool
  | [] => true
  | (.other _, _) :: _ => false
  | (_, value) :: rest => value.encodable && encodableEntries rest

def encodableItems : List PyValue → Bool
  | [] => true
  | value :: rest => value.encodable && encodableItems rest

end

mutual

-- `json.dumps` with sorted keys, of a value that it takes
def PyValue.document : PyValue → Document
  | .none => .null
  | .bool b => .bool b
  | .int n => .int n
  | .float x => .float x
  | .str s => .str (units s)
  | .list items => .arr (documentItems items)
  | .tuple items => .arr (documentItems items)
  | .dict entries => .obj (layOut (documentEntries entries))
  | .other => .null

def documentEntries : List (Key × PyValue) → List (Key × Document)
  | [] => []
  | (key, value) :: rest => (key, value.document) :: documentEntries rest

def documentItems : List PyValue → List Document
  | [] => []
  | value :: rest => value.document :: documentItems rest

end

mutual

def Document.loads : Document → PyValue
  | .null => .none
  | .bool b => .bool b
  | .int n => .int n
  | .float x => .float x
  | .str word => .str (ofUnits word)
  | .arr items => .list (loadsItems items)
  | .obj fields => .dict ((readFields (loadsFields fields)).map fun e => (.str e.1, e.2))

def loadsFields : List (List CodeUnit × Document) → List (List CodeUnit × PyValue)
  | [] => []
  | (word, value) :: rest => (word, value.loads) :: loadsFields rest

def loadsItems : List Document → List PyValue
  | [] => []
  | value :: rest => value.loads :: loadsItems rest

end

def PyValue.isDict : PyValue → Bool
  | .dict _ => true
  | _ => false

-- The digest is the text that the source takes the SHA-256 of.
def canonicalPayload (payload : PyValue) : Except EventError (PyValue × Document) := do
  require (payload.isDict = true) (.contract "payload must be an object")
  require (payload.inspect = true) (.contract "payload contains prohibited secret material")
  require (payload.encodable = true) (.contract "payload must be canonical JSON")
  pure (payload.document.loads, payload.document)

variable {payload q : PyValue} {h : Document}

theorem canonicalPayload_eq_ok : canonicalPayload payload = .ok (q, h) ↔ payload.isDict = true ∧
    payload.inspect = true ∧ payload.encodable = true ∧ payload.document.loads = q ∧ payload.document = h := by
  simp only [canonicalPayload, bind_eq_ok, require_eq_ok, pure_eq_ok, Prod.mk.injEq, exists_and_left, exists_const]

theorem documentEntries_eq_map (entries : List (Key × PyValue)) :
    documentEntries entries = entries.map fun e => (e.1, e.2.document) := by
  induction entries with
  | nil => rfl
  | cons e rest ih => simp only [documentEntries, ih, List.map_cons]

theorem documentItems_eq_map (items : List PyValue) : documentItems items = items.map PyValue.document := by
  induction items with
  | nil => rfl
  | cons value rest ih => simp only [documentItems, ih, List.map_cons]

theorem loadsFields_eq_map (fields : List (List CodeUnit × Document)) :
    loadsFields fields = fields.map fun f => (f.1, f.2.loads) := by
  induction fields with
  | nil => rfl
  | cons f rest ih => simp only [loadsFields, ih, List.map_cons]

theorem loadsItems_eq_map (items : List Document) : loadsItems items = items.map Document.loads := by
  induction items with
  | nil => rfl
  | cons value rest ih => simp only [loadsItems, ih, List.map_cons]

theorem inspectEntries_iff {entries : List (Key × PyValue)} :
    inspectEntries entries = true ↔ ∀ e ∈ entries, denied e.1.text = false ∧ e.2.inspect = true := by
  induction entries with
  | nil => simp [inspectEntries]
  | cons e rest ih => simp [inspectEntries, ih]

theorem inspectItems_iff {items : List PyValue} : inspectItems items = true ↔ ∀ v ∈ items, v.inspect = true := by
  induction items with
  | nil => simp [inspectItems]
  | cons value rest ih => simp [inspectItems, ih]

section Layout

variable {V W : Type}

theorem layOut_map (f : V → W) (entries : List (Key × V)) :
    layOut (entries.map fun e => (e.1, f e.2)) = (layOut entries).map fun e => (e.1, f e.2) := by
  have hsort : (sortEntries entries).map (fun e => (e.1, f e.2)) = sortEntries (entries.map fun e => (e.1, f e.2)) :=
    List.map_insertionSort _ _ _ _ fun _ _ _ _ => Iff.rfl
  rw [layOut, ← hsort, layOut, List.map_map, List.map_map]
  rfl

theorem mem_readFields {entries : List (Key × V)} {e : Str × V} (h : e ∈ readFields (layOut entries)) :
    ∃ d ∈ entries, e = (ofUnits (units d.1.json), d.2) := by
  obtain ⟨field, hfield, rfl⟩ := List.mem_map.mp (mem_of_merged h)
  obtain ⟨d, hd, rfl⟩ := List.mem_map.mp hfield
  exact ⟨d, List.mem_insertionSort _ |>.mp hd, rfl⟩

theorem readFields_map (f : V → W) (fields : List (List CodeUnit × V)) :
    readFields (fields.map fun e => (e.1, f e.2)) = (readFields fields).map fun e => (e.1, f e.2) := by
  rw [readFields, readFields, ← merged_map, List.map_map, List.map_map]
  rfl

end Layout

end PythonPayload

end Beyvra
