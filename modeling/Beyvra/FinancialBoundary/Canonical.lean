import Mathlib.Data.List.Sort
import Mathlib.Data.String.Basic
import Beyvra.Foundation.Records

namespace Beyvra

open Relational

-- A Python value as json.dumps sees it; other stands for one that it refuses.
inductive Json where
  | null
  | bool (b : Bool)
  | int (n : Int)
  | float (repr : String)
  | str (s : String)
  | arr (items : List Json)
  | obj (fields : List (String × Json))
  | other

inductive EventError where
  | contract (message : String)
  | replayConflict (message : String)
  | sequenceConflict (message : String)
  | valueError (message : String)
  | runtimeError (message : String)
  | integrityError (constraint : String)
  | dataError (field : String)
  | raised (message : String)
  deriving DecidableEq

def deniedPayloadKeys : List String :=
  ["password", "secret", "token", "private_key", "seed", "mnemonic", "authorization", "client_key",
    "bank_account_number", "raw_provider_response"]

-- Of the characters outside ASCII only the Kelvin sign has an ASCII lower case.
def lowerChar (c : Char) : Char := if c = Char.ofNat 0x212a then 'k' else c.toLower

def deniedKey (key : String) : Bool := key.map lowerChar ∈ deniedPayloadKeys

mutual

def Json.clean : Json → Bool
  | .obj fields => cleanFields fields
  | .arr items => cleanItems items
  | _ => true

def cleanFields : List (String × Json) → Bool
  | [] => true
  | (key, value) :: rest => !deniedKey key && value.clean && cleanFields rest

def cleanItems : List Json → Bool
  | [] => true
  | value :: rest => value.clean && cleanItems rest

end

mutual

def Json.sorted : Json → Json
  | .obj fields => .obj ((sortedFields fields).insertionSort fun a b => a.1 ≤ b.1)
  | .arr items => .arr (sortedItems items)
  | value => value

def sortedFields : List (String × Json) → List (String × Json)
  | [] => []
  | (key, value) :: rest => (key, value.sorted) :: sortedFields rest

def sortedItems : List Json → List Json
  | [] => []
  | value :: rest => value.sorted :: sortedItems rest

end

def hexDigits (width n : Nat) : String :=
  let digits := Nat.toDigits 16 n
  String.ofList (List.replicate (width - digits.length) '0' ++ digits)

def escapedUnit (n : Nat) : String := "\\u" ++ hexDigits 4 n

def escapedChar (c : Char) : String :=
  if c = '"' then "\\\"" else if c = '\\' then "\\\\" else if c = '\n' then "\\n"
  else if c = '\r' then "\\r" else if c = '\t' then "\\t" else if c.toNat = 8 then "\\b"
  else if c.toNat = 12 then "\\f"
  else if 32 ≤ c.toNat ∧ c.toNat < 127 then String.singleton c
  else if c.toNat < 65536 then escapedUnit c.toNat
  else
    let rest := c.toNat - 65536
    escapedUnit (55296 + rest / 1024) ++ escapedUnit (56320 + rest % 1024)

def quoted (s : String) : String := "\"" ++ String.join (s.toList.map escapedChar) ++ "\""

mutual

def Json.dumps : Json → Option String
  | .null => some "null"
  | .bool b => some (if b then "true" else "false")
  | .int n => some (toString n)
  | .float repr => some repr
  | .str s => some (quoted s)
  | .arr items => do
    let parts ← dumpsItems items
    some ("[" ++ ",".intercalate parts ++ "]")
  | .obj fields => do
    let parts ← dumpsFields fields
    some ("\x7b" ++ ",".intercalate parts ++ "\x7d")
  | .other => none

def dumpsItems : List Json → Option (List String)
  | [] => some []
  | value :: rest => do
    let part ← value.dumps
    let parts ← dumpsItems rest
    some (part :: parts)

def dumpsFields : List (String × Json) → Option (List String)
  | [] => some []
  | (key, value) :: rest => do
    let part ← value.dumps
    let parts ← dumpsFields rest
    some ((quoted key ++ ":" ++ part) :: parts)

end

def Json.isObject : Json → Bool
  | .obj _ => true
  | _ => false

-- The digest is the text that the source takes the SHA-256 of.
def canonicalPayload (payload : Json) : Except EventError (Json × String) := do
  require (payload.isObject) (.contract "payload must be an object")
  require (payload.clean) (.contract "payload contains prohibited secret material")
  let encoded ← demand payload.sorted.dumps (.contract "payload must be canonical JSON")
  pure (payload.sorted, encoded)

theorem canonicalPayload_eq_ok {payload : Json} {p : Json × String} :
    canonicalPayload payload = .ok p ↔
      payload.isObject = true ∧ payload.clean = true ∧ p.1 = payload.sorted ∧
        payload.sorted.dumps = some p.2 := by
  obtain ⟨json, encoded⟩ := p
  simp only [canonicalPayload, bind_eq_ok, require_eq_ok, demand_eq_ok, pure_eq_ok, Prod.mk.injEq]
  constructor
  · rintro ⟨_, hobject, _, hclean, text, hdumps, rfl, rfl⟩
    exact ⟨hobject, hclean, rfl, hdumps⟩
  · rintro ⟨hobject, hclean, rfl, hdumps⟩
    exact ⟨(), hobject, (), hclean, encoded, hdumps, rfl, rfl⟩

theorem sortedFields_eq_map (fields : List (String × Json)) :
    sortedFields fields = fields.map fun p => (p.1, p.2.sorted) := by
  induction fields with
  | nil => rfl
  | cons p rest ih =>
    obtain ⟨key, value⟩ := p
    simp only [sortedFields, ih, List.map_cons]

theorem sortedItems_eq_map (items : List Json) : sortedItems items = items.map Json.sorted := by
  induction items with
  | nil => rfl
  | cons value rest ih => simp only [sortedItems, ih, List.map_cons]

theorem cleanFields_iff {fields : List (String × Json)} :
    cleanFields fields = true ↔ ∀ p ∈ fields, deniedKey p.1 = false ∧ p.2.clean = true := by
  induction fields with
  | nil => simp [cleanFields]
  | cons p rest ih =>
    obtain ⟨key, value⟩ := p
    simp [cleanFields, ih]

theorem cleanItems_iff {items : List Json} : cleanItems items = true ↔ ∀ v ∈ items, v.clean = true := by
  induction items with
  | nil => simp [cleanItems]
  | cons value rest ih => simp [cleanItems, ih]

-- Sorting by key commutes with a map that keeps the keys.
theorem insertionSort_fields (f : Json → Json) (fields : List (String × Json)) :
    (fields.insertionSort fun a b => a.1 ≤ b.1).map (fun p => (p.1, f p.2)) =
      (fields.map fun p => (p.1, f p.2)).insertionSort fun a b => a.1 ≤ b.1 :=
  List.map_insertionSort _ _ _ _ fun _ _ _ _ => Iff.rfl

theorem insertionSort_insertionSort (fields : List (String × Json)) :
    (fields.insertionSort fun a b => a.1 ≤ b.1).insertionSort (fun a b => a.1 ≤ b.1) =
      fields.insertionSort fun a b => a.1 ≤ b.1 := by
  have htotal : Std.Total fun a b : String × Json => a.1 ≤ b.1 := ⟨fun a b => le_total a.1 b.1⟩
  have htrans : IsTrans (String × Json) fun a b => a.1 ≤ b.1 := ⟨fun _ _ _ => le_trans⟩
  exact (List.pairwise_insertionSort _ _).insertionSort_eq

mutual

theorem Json.sorted_sorted : (value : Json) → value.sorted.sorted = value.sorted
  | .obj fields => by
    have hfields := fields_sorted_sorted fields
    simp only [Json.sorted, sortedFields_eq_map, insertionSort_fields, List.map_map, Json.obj.injEq]
    rw [insertionSort_insertionSort]
    congr 1
    exact List.map_congr_left fun p hp => by simp [hfields p hp]
  | .arr items => by
    have hitems := items_sorted_sorted items
    simp only [Json.sorted, sortedItems_eq_map, List.map_map, Json.arr.injEq]
    exact List.map_congr_left hitems
  | .null => rfl
  | .bool _ => rfl
  | .int _ => rfl
  | .float _ => rfl
  | .str _ => rfl
  | .other => rfl

theorem fields_sorted_sorted : (fields : List (String × Json)) →
    ∀ p ∈ fields, p.2.sorted.sorted = p.2.sorted
  | [] => by simp
  | (_, value) :: rest => by
    have hvalue := value.sorted_sorted
    have hrest := fields_sorted_sorted rest
    simpa [hvalue] using hrest

theorem items_sorted_sorted : (items : List Json) → ∀ v ∈ items, v.sorted.sorted = v.sorted
  | [] => by simp
  | value :: rest => by
    have hvalue := value.sorted_sorted
    have hrest := items_sorted_sorted rest
    simpa [hvalue] using hrest

end

mutual

theorem Json.clean_sorted : (value : Json) → value.sorted.clean = value.clean
  | .obj fields => by
    have hfields := fields_clean_sorted fields
    rw [Bool.eq_iff_iff]
    simp only [Json.sorted, Json.clean, cleanFields_iff, List.mem_insertionSort, sortedFields_eq_map,
      List.forall_mem_map]
    exact forall₂_congr fun p hp => by rw [hfields p hp]
  | .arr items => by
    have hitems := items_clean_sorted items
    rw [Bool.eq_iff_iff]
    simp only [Json.sorted, Json.clean, cleanItems_iff, sortedItems_eq_map, List.forall_mem_map]
    exact forall₂_congr fun v hv => by rw [hitems v hv]
  | .null => rfl
  | .bool _ => rfl
  | .int _ => rfl
  | .float _ => rfl
  | .str _ => rfl
  | .other => rfl

theorem fields_clean_sorted : (fields : List (String × Json)) →
    ∀ p ∈ fields, p.2.sorted.clean = p.2.clean
  | [] => by simp
  | (_, value) :: rest => by
    have hvalue := value.clean_sorted
    have hrest := fields_clean_sorted rest
    simpa [hvalue] using hrest

theorem items_clean_sorted : (items : List Json) → ∀ v ∈ items, v.sorted.clean = v.clean
  | [] => by simp
  | value :: rest => by
    have hvalue := value.clean_sorted
    have hrest := items_clean_sorted rest
    simpa [hvalue] using hrest

end

theorem canonicalPayload_idempotent {payload canonical : Json} {digest : String}
    (h : canonicalPayload payload = .ok (canonical, digest)) :
    canonicalPayload canonical = .ok (canonical, digest) := by
  obtain ⟨hobject, hclean, rfl, hdumps⟩ := canonicalPayload_eq_ok.mp h
  refine canonicalPayload_eq_ok.mpr ⟨?_, ?_, payload.sorted_sorted.symm, ?_⟩
  · cases payload with
    | obj fields => rfl
    | _ => simp [Json.isObject] at hobject
  · rw [payload.clean_sorted, hclean]
  · rw [payload.sorted_sorted, hdumps]

end Beyvra
