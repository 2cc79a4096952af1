import Beyvra.FinancialBoundary.PythonPayload

namespace Beyvra

open Relational Text

namespace PythonPayload

mutual

def PyValue.keys : PyValue → List Str
  | .dict entries => keysEntries entries
  | .list items => keysItems items
  | .tuple items => keysItems items
  | _ => []

def keysEntries : List (Key × PyValue) → List Str
  | [] => []
  | (key, value) :: rest => (key.text :: value.keys) ++ keysEntries rest

def keysItems : List PyValue → List Str
  | [] => []
  | value :: rest => value.keys ++ keysItems rest

end

mutual

-- The keys that the result has, with whether the scan missed them: below a tuple, or under another text
def PyValue.kept (below : Bool) : PyValue → List (Bool × Str)
  | .dict entries => (readFields (layOut (keptEntries below entries))).flatMap fun e => (e.2.1, e.1) :: e.2.2
  | .list items => keptItems below items
  | .tuple items => keptItems true items
  | _ => []

def keptEntries (below : Bool) : List (Key × PyValue) → List (Key × Bool × List (Bool × Str))
  | [] => []
  | (key, value) :: rest => (key, below || key.disguised, value.kept below) :: keptEntries below rest

def keptItems (below : Bool) : List PyValue → List (Bool × Str)
  | [] => []
  | value :: rest => value.kept below ++ keptItems below rest

end

-- The keys that reach the result without having passed the scan
def PyValue.unscanned (payload : PyValue) : List Str := ((payload.kept false).filter (·.1)).map (·.2)

def NoDeniedKey (value : PyValue) : Prop := ∀ key ∈ value.keys, denied key = false

def PyValue.isLeaf : PyValue → Bool
  | .dict _ => false
  | .list _ => false
  | .tuple _ => false
  | _ => true

theorem PyValue.byParts {motive : PyValue → Prop} (leaf : ∀ value, value.isLeaf = true → motive value)
    (list : ∀ items, (∀ v ∈ items, motive v) → motive (.list items))
    (tuple : ∀ items, (∀ v ∈ items, motive v) → motive (.tuple items))
    (dict : ∀ entries : List (Key × PyValue), (∀ e ∈ entries, motive e.2) → motive (.dict entries))
    (value : PyValue) : motive value :=
  @PyValue.rec motive (fun items => ∀ v ∈ items, motive v) (fun entries => ∀ e ∈ entries, motive e.2)
    (fun e => motive e.2) (leaf _ rfl) (fun _ => leaf _ rfl) (fun _ => leaf _ rfl) (fun _ => leaf _ rfl)
    (fun _ => leaf _ rfl) list tuple dict (leaf _ rfl) (fun _ hv => nomatch hv)
    (fun _ _ hvalue hrest => List.forall_mem_cons.mpr ⟨hvalue, hrest⟩) (fun _ he => nomatch he)
    (fun _ _ hentry hrest => List.forall_mem_cons.mpr ⟨hentry, hrest⟩) (fun _ _ hvalue => hvalue) value

theorem keysEntries_eq (entries : List (Key × PyValue)) :
    keysEntries entries = entries.flatMap fun e => e.1.text :: e.2.keys := by
  induction entries with
  | nil => rfl
  | cons e rest ih => rw [keysEntries, ih, List.flatMap_cons]

theorem keysItems_eq (items : List PyValue) : keysItems items = items.flatMap PyValue.keys := by
  induction items with
  | nil => rfl
  | cons value rest ih => rw [keysItems, ih, List.flatMap_cons]

theorem keptEntries_eq (below : Bool) (entries : List (Key × PyValue)) :
    keptEntries below entries = entries.map fun e => (e.1, below || e.1.disguised, e.2.kept below) := by
  induction entries with
  | nil => rfl
  | cons e rest ih => rw [keptEntries, ih, List.map_cons]

theorem keptItems_eq (below : Bool) (items : List PyValue) : keptItems below items = items.flatMap (PyValue.kept below) := by
  induction items with
  | nil => rfl
  | cons value rest ih => rw [keptItems, ih, List.flatMap_cons]

theorem small_of_lowerPoint {c : CodePoint} (h : (lowerPoint c).val < 128) : c.val < 0xd800 := by
  unfold lowerPoint at h
  split_ifs at h <;> omega

-- The denied keys are ASCII, so that a denied key has no surrogates.
theorem small_of_denied {s : Str} (h : denied s = true) : ∀ c ∈ s, c.val < 0xd800 := by
  have hall : (deniedPayloadKeys.all fun key => key.toList.all fun c => c.toNat < 128) = true := by decide
  have hascii : ∀ key ∈ deniedPayloadKeys, ∀ c ∈ key.toList, c.toNat < 128 := by
    simpa only [List.all_eq_true, decide_eq_true_eq] using hall
  intro c hc
  obtain ⟨key, hkey, heq⟩ := List.mem_map.mp (of_decide_eq_true h)
  have hmem : lowerPoint c ∈ strOf key := heq ▸ List.mem_map_of_mem hc
  obtain ⟨d, hd, hlower⟩ := List.mem_map.mp hmem
  refine small_of_lowerPoint ?_
  rw [← hlower]
  exact (Nat.mod_le _ _).trans_lt (hascii key hkey d hd)

theorem denied_read (s : Str) : denied (ofUnits (units s)) = denied s := by
  cases hs : denied s with
  | true => rw [ofUnits_units (small_of_denied hs), hs]
  | false =>
    by_contra hread
    rw [Bool.not_eq_false] at hread
    rw [ofUnits_units (small_of_ofUnits (small_of_denied hread)), hs] at hread
    cases hread

theorem denied_base (key : Key) : denied key.json = denied key.base.text := by
  unfold Key.json
  cases key.base with
  | none => decide
  | bool b => cases b <;> decide
  | float x =>
    cases x with
    | finite value repr => rfl
    | infinite negative => cases negative <;> decide
    | nan => decide
  | _ => rfl

theorem denied_json {key : Key} (h : key.disguised = false) : denied (ofUnits (units key.json)) = denied key.text := by
  have hsame : key.text = key.base.text := not_not.mp (of_decide_eq_false h)
  rw [denied_read, denied_base, hsame]

theorem mem_kept_dict {below : Bool} {entries : List (Key × PyValue)} {k : Bool × Str}
    (h : k ∈ (PyValue.dict entries).kept below) :
    ∃ e ∈ entries, k = (below || e.1.disguised, ofUnits (units e.1.json)) ∨ k ∈ e.2.kept below := by
  rw [PyValue.kept, keptEntries_eq] at h
  obtain ⟨e, he, hk⟩ := List.mem_flatMap.mp h
  obtain ⟨d, hd, rfl⟩ := mem_readFields he
  obtain ⟨entry, hentry, rfl⟩ := List.mem_map.mp hd
  exact ⟨entry, hentry, List.mem_cons.mp hk⟩

theorem mem_kept_items {below : Bool} {items : List PyValue} {k : Bool × Str} (h : k ∈ keptItems below items) :
    ∃ v ∈ items, k ∈ v.kept below := by
  rw [keptItems_eq] at h
  exact List.mem_flatMap.mp h

theorem kept_leaf {below : Bool} {value : PyValue} (h : value.isLeaf = true) : value.kept below = [] := by
  cases value <;> first | rfl | cases h

theorem kept_below {value : PyValue} : ∀ k ∈ value.kept true, k.1 = true := by
  induction value using PyValue.byParts with
  | leaf value hleaf =>
    rw [kept_leaf hleaf]
    exact fun k hk => nomatch hk
  | list items ih =>
    intro k hk
    obtain ⟨v, hv, hmem⟩ := mem_kept_items hk
    exact ih v hv k hmem
  | tuple items ih =>
    intro k hk
    obtain ⟨v, hv, hmem⟩ := mem_kept_items hk
    exact ih v hv k hmem
  | dict entries ih =>
    intro k hk
    obtain ⟨e, he, rfl | hmem⟩ := mem_kept_dict hk
    · rfl
    · exact ih e he k hmem

-- The other keys have passed the scan.
theorem kept_scanned {value : PyValue} (h : value.inspect = true) :
    ∀ k ∈ value.kept false, k.1 = false → denied k.2 = false := by
  induction value using PyValue.byParts with
  | leaf value hleaf =>
    rw [kept_leaf hleaf]
    exact fun k hk => nomatch hk
  | list items ih =>
    intro k hk hfalse
    obtain ⟨v, hv, hmem⟩ := mem_kept_items hk
    exact ih v hv (inspectItems_iff.mp h v hv) k hmem hfalse
  | tuple items ih =>
    intro k hk hfalse
    obtain ⟨v, hv, hmem⟩ := mem_kept_items hk
    rw [kept_below k hmem] at hfalse
    cases hfalse
  | dict entries ih =>
    intro k hk hfalse
    obtain ⟨e, he, rfl | hmem⟩ := mem_kept_dict hk
    · exact (denied_json hfalse).trans (inspectEntries_iff.mp h e he).1
    · exact ih e he (inspectEntries_iff.mp h e he).2 k hmem hfalse

theorem keys_loads (below : Bool) (value : PyValue) : value.document.loads.keys = (value.kept below).map (·.2) := by
  induction value using PyValue.byParts generalizing below with
  | leaf value hleaf => cases value <;> first | rfl | cases hleaf
  | list items ih =>
    rw [PyValue.document, Document.loads, PyValue.keys, PyValue.kept, documentItems_eq_map, loadsItems_eq_map,
      keysItems_eq, keptItems_eq, List.map_map, List.flatMap_map, List.map_flatMap]
    exact List.flatMap_congr fun v hv => ih v hv below
  | tuple items ih =>
    rw [PyValue.document, Document.loads, PyValue.keys, PyValue.kept, documentItems_eq_map, loadsItems_eq_map,
      keysItems_eq, keptItems_eq, List.map_map, List.flatMap_map, List.map_flatMap]
    exact List.flatMap_congr fun v hv => ih v hv true
  | dict entries ih =>
    -- Each entry goes through the layout with its own key, which the result no longer has.
    let own : List (Key × Key × PyValue) := entries.map fun e => (e.1, e)
    have hread : readFields (loadsFields (layOut (documentEntries entries))) =
        (readFields (layOut own)).map fun e => (e.1, e.2.2.document.loads) := by
      have hdocuments : documentEntries entries = own.map fun e => (e.1, e.2.2.document) := by
        rw [documentEntries_eq_map, List.map_map]
        rfl
      rw [hdocuments, loadsFields_eq_map, layOut_map fun d : Key × PyValue => d.2.document, List.map_map]
      exact readFields_map (fun d : Key × PyValue => d.2.document.loads) _
    have hkept : readFields (layOut (keptEntries below entries)) =
        (readFields (layOut own)).map fun e => (e.1, below || e.2.1.disguised, e.2.2.kept below) := by
      have hentries : keptEntries below entries =
          own.map fun e => (e.1, below || e.2.1.disguised, e.2.2.kept below) := by
        rw [keptEntries_eq, List.map_map]
        rfl
      rw [hentries, layOut_map fun d : Key × PyValue => (below || d.1.disguised, d.2.kept below)]
      exact readFields_map (fun d : Key × PyValue => (below || d.1.disguised, d.2.kept below)) _
    rw [PyValue.document, Document.loads, PyValue.keys, hread, keysEntries_eq, PyValue.kept, hkept, List.map_map,
      List.flatMap_map, List.flatMap_map, List.map_flatMap]
    refine List.flatMap_congr fun e he => ?_
    obtain ⟨d, hd, rfl⟩ := mem_readFields he
    obtain ⟨entry, hentry, rfl⟩ := List.mem_map.mp hd
    exact congrArg (_ :: ·) (ih entry hentry below)

theorem noDeniedKey_iff {payload q : PyValue} {h : Document} (haccepted : canonicalPayload payload = .ok (q, h)) :
    NoDeniedKey q ↔ ∀ key ∈ payload.unscanned, denied key = false := by
  obtain ⟨-, hinspect, -, rfl, -⟩ := canonicalPayload_eq_ok.mp haccepted
  rw [NoDeniedKey, keys_loads false]
  constructor
  · intro hall key hkey
    obtain ⟨k, hk, rfl⟩ := List.mem_map.mp hkey
    exact hall k.2 (List.mem_map_of_mem (List.mem_of_mem_filter hk))
  · intro hall key hkey
    obtain ⟨k, hk, rfl⟩ := List.mem_map.mp hkey
    cases hbelow : k.1 with
    | false => exact kept_scanned hinspect k hk hbelow
    | true => exact hall k.2 (List.mem_map_of_mem (List.mem_filter.mpr ⟨hk, hbelow⟩))

theorem accepted_without_denied_keys (payload q : PyValue) (h : Document)
    (haccepted : canonicalPayload payload = .ok (q, h)) :
    NoDeniedKey q ↔ ∀ key ∈ payload.unscanned, denied key = false := noDeniedKey_iff haccepted

def passwordIn (wrap : List PyValue → PyValue) : PyValue :=
  .dict [(.str (strOf "a"), wrap [.dict [(.str (strOf "password"), .str (strOf "x"))]])]

def amountIn (wrap : List PyValue → PyValue) : PyValue :=
  .dict [(.str (strOf "a"), wrap [.dict [(.str (strOf "amount"), .str (strOf "x"))]])]

theorem amount_in_tuple : NoDeniedKey (amountIn .list) ↔ ∀ key ∈ (amountIn .tuple).unscanned, denied key = false :=
  accepted_without_denied_keys (amountIn .tuple) (amountIn .list) (amountIn .tuple).document rfl

-- A member of an enumeration of texts, with a secret name as its value
def secretField (shown : String) : PyValue := .dict [(.strAs (strOf shown) (strOf "password"), .int 1)]

-- In a list the key is found, and below a tuple it reaches the result; so does a key that shows another text.
theorem password_in_tuple : canonicalPayload (passwordIn .list) =
      .error (.contract "payload contains prohibited secret material") ∧
    canonicalPayload (passwordIn .tuple) = .ok (passwordIn .list, (passwordIn .tuple).document) ∧
    ¬NoDeniedKey (passwordIn .list) ∧
    canonicalPayload (secretField "Field.SECRET") =
      .ok (.dict [(.str (strOf "password"), .int 1)], (secretField "Field.SECRET").document) ∧
    ¬NoDeniedKey (.dict [(.str (strOf "password"), .int 1)]) := by
  refine ⟨rfl, rfl, fun h => ?_, rfl, fun h => ?_⟩
  · have hkey := h (strOf "password") (by decide)
    exact absurd hkey (by decide)
  · have hkey := h (strOf "password") (by decide)
    exact absurd hkey (by decide)

end PythonPayload

end Beyvra
