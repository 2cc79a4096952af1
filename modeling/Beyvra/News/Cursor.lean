import Beyvra.FinancialBoundary.PayloadText
import Beyvra.Text.Base64

namespace Beyvra

open Text PythonPayload

namespace News

inductive CursorError where
  | invalid

def bytesOf (text : List Char) : List UInt8 := text.map fun c => UInt8.ofNat c.toNat

def cursorDocument (cursor : Str) : Document :=
  .obj [(units (strOf "v"), .int 1), (units (strOf "p"), .str (units cursor))]

def opaqueCursor (cursor : Str) : Option (List Char) :=
  if cursor = [] then none else some (Base64.strip (Base64.encode (bytesOf (cursorDocument cursor).write)))

structure Decoders where
  decodeBytes : List UInt8 → Option (List Char)
  parseFloat : List Char → PyFloat
  recursionLimit : ℕ

-- `json.loads` decodes bytes without a zero or a mark as UTF-8.
def Decoders.text (decoders : Decoders) (bytes : List UInt8) : Option (List Char) :=
  if bytes.all fun b => 0 < b.toNat ∧ b.toNat < 128 then some (bytes.map fun b => Char.ofNat b.toNat)
  else decoders.decodeBytes bytes

def valueAt (entries : List (Key × PyValue)) (name : String) : Option PyValue :=
  (entries.find? fun e => match e.1 with
    | .str s => s = strOf name
    | _ => false).map (·.2)

-- What `== 1` holds of
def isOne : PyValue → Bool
  | .int n => n = 1
  | .bool b => b
  | .float (.finite value _) => value = 1
  | _ => false

def cursorOf (entries : List (Key × PyValue)) : Option Str :=
  match valueAt entries "v", valueAt entries "p" with
  | some version, some (.str s) => if isOne version then some s else none
  | _, _ => none

def decodeCursor (decoders : Decoders) (text : List Char) : Except CursorError (Option Str) :=
  if text = [] then .ok none
  else
    match ((Base64.decode (Base64.pad text)).bind decoders.text).bind
      (readText decoders.parseFloat decoders.recursionLimit) with
    | none => .error .invalid
    | some d =>
      match d.loads with
      | .dict entries => .ok (cursorOf entries)
      | _ => .error .invalid

variable {decoders : Decoders} {cursor : Str}

theorem quoted_ascii (word : List CodeUnit) : ∀ c ∈ quotedUnits word, 0 < c.toNat ∧ c.toNat < 128 := by
  intro c hc
  rcases List.mem_cons.mp hc with rfl | hrest
  · decide
  · rcases List.mem_append.mp hrest with hescape | hquote
    · obtain ⟨u, -, hu⟩ := List.mem_flatMap.mp hescape
      have hbounds := ascii_escapeUnit u c hu
      omega
    · rw [List.mem_singleton.mp hquote]
      decide

theorem write_cursor (cursor : Str) : (cursorDocument cursor).write =
    ['{', '"', 'v', '"', ':', '1', ',', '"', 'p', '"', ':'] ++ (quotedUnits (units cursor) ++ ['}']) := by
  have hversion : quotedUnits (units (strOf "v")) ++ ':' :: intText 1 = ['"', 'v', '"', ':', '1'] := by decide
  have hkey : quotedUnits (units (strOf "p")) = ['"', 'p', '"'] := by decide
  rw [cursorDocument, Document.write, writeFields, writeFields, writeFields, Document.write, Document.write, hversion, hkey]
  simp [writeGroup]

theorem write_ascii (cursor : Str) : ∀ c ∈ (cursorDocument cursor).write, 0 < c.toNat ∧ c.toNat < 128 := by
  intro c hc
  rw [write_cursor] at hc
  rcases List.mem_append.mp hc with hhead | hrest
  · have hall : ['{', '"', 'v', '"', ':', '1', ',', '"', 'p', '"', ':'].all (fun c => 0 < c.toNat ∧ c.toNat < 128) = true := by
      decide
    exact of_decide_eq_true (List.all_eq_true.mp hall c hhead)
  · rcases List.mem_append.mp hrest with hquoted | hclose
    · exact quoted_ascii _ c hquoted
    · rw [List.mem_singleton.mp hclose]
      decide

theorem text_bytesOf {text : List Char} (h : ∀ c ∈ text, 0 < c.toNat ∧ c.toNat < 128) :
    decoders.text (bytesOf text) = some text := by
  have hbyte : ∀ c ∈ text, (UInt8.ofNat c.toNat).toNat = c.toNat := by
    intro c hc
    have hbounds := h c hc
    rw [UInt8.toNat_ofNat']
    omega
  have hplain : (bytesOf text).all (fun b => 0 < b.toNat ∧ b.toNat < 128) = true := by
    refine List.all_eq_true.mpr fun b hb => decide_eq_true ?_
    obtain ⟨c, hc, rfl⟩ := List.mem_map.mp hb
    rw [hbyte c hc]
    exact h c hc
  rw [Decoders.text, if_pos hplain, bytesOf, List.map_map]
  have hsame : text.map ((fun b : UInt8 => Char.ofNat b.toNat) ∘ fun c => UInt8.ofNat c.toNat) = text.map id :=
    List.map_congr_left fun c hc => (congrArg Char.ofNat (hbyte c hc)).trans (Char.ofNat_toNat c)
  rw [hsame, List.map_id]

theorem cursor_readable (decoders : Decoders) (limit : ℕ) (cursor : Str) :
    (cursorDocument cursor).Readable decoders.parseFloat (limit + 1) := by
  have hshort : (intText 1).countP Char.isDigit ≤ maxStrDigits := by decide
  exact ⟨Nat.succ_pos limit, hshort, trivial, trivial⟩

theorem cursorOf_loads (cursor : Str) : ∃ entries, (cursorDocument cursor).loads = .dict entries ∧
    cursorOf entries = some (ofUnits (units cursor)) :=
  ⟨[(.str (strOf "v"), .int 1), (.str (strOf "p"), .str (ofUnits (units cursor)))], rfl, rfl⟩

theorem decodeCursor_written (limit : ℕ) (hlimit : decoders.recursionLimit = limit + 1) (cursor : Str) :
    decodeCursor decoders (Base64.strip (Base64.encode (bytesOf (cursorDocument cursor).write))) =
      .ok (some (ofUnits (units cursor))) := by
  have hbytes := Base64.decode_encode (bytesOf (cursorDocument cursor).write)
  have hpad := Base64.pad_strip_encode (bytesOf (cursorDocument cursor).write)
  have hne : Base64.strip (Base64.encode (bytesOf (cursorDocument cursor).write)) ≠ [] := by
    intro hempty
    have hnil : Base64.encode (bytesOf (cursorDocument cursor).write) = [] := by
      rw [← hpad, hempty]
      rfl
    rw [hnil] at hbytes
    have hwrite : bytesOf (cursorDocument cursor).write = [] := (Option.some.inj hbytes).symm
    rw [write_cursor] at hwrite
    cases hwrite
  have htext : decoders.text (bytesOf (cursorDocument cursor).write) = some (cursorDocument cursor).write :=
    text_bytesOf (write_ascii cursor)
  have hread := readText_write (cursor_readable decoders limit cursor)
  obtain ⟨entries, hloads, hentries⟩ := cursorOf_loads cursor
  rw [decodeCursor, if_neg hne, hpad, hbytes, Option.bind_some, htext, Option.bind_some, hlimit, hread]
  simp only [hloads, hentries]

-- What a page answers with is read back as the provider's cursor, unless a pair of surrogates stands in that one by halves.
theorem cursor_round_trip (limit : ℕ) (hlimit : decoders.recursionLimit = limit + 1) (hcursor : cursor ≠ []) :
    ∃ text, opaqueCursor cursor = some text ∧ (∀ c ∈ text, Base64.Safe c) ∧
      (decodeCursor decoders text = .ok (some cursor) ↔ PairFree cursor) := by
  refine ⟨_, if_neg hcursor, Base64.safe_strip_encode _, ?_⟩
  rw [decodeCursor_written limit hlimit, ← ofUnits_units_iff]
  constructor
  · exact fun h => Option.some.inj (Except.ok.inj h)
  · exact fun h => by rw [h]

def plainDecoders : Decoders := ⟨fun _ => none, fun _ => .nan, 1000⟩

theorem cursor_round_trip_page : ∃ text, opaqueCursor (strOf "page-2") = some text ∧ (∀ c ∈ text, Base64.Safe c) ∧
    (decodeCursor plainDecoders text = .ok (some (strOf "page-2")) ↔ PairFree (strOf "page-2")) :=
  cursor_round_trip 999 rfl (by decide)

end News

end Beyvra
