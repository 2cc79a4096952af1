import Mathlib.Data.List.DropRight
import Beyvra.Text.Hex
import Beyvra.Text.UrlSplit

namespace Text

-- How a browser resolves a text that begins with a slash against the URL of an http or https page

def browserText (input : List Char) : List Char :=
  (input.dropWhile c0ControlOrSpace).rdropWhile c0ControlOrSpace |>.filter (!unsafeUrlChar ·)

def isSlash (c : Char) : Bool := c ∈ ['/', '\\']

def pathEnd (c : Char) : Bool := c ∈ ['?', '#']

-- One name for the instance in the tests of segments
local instance lawfulText : LawfulBEq (List Char) := inferInstance

def singleDot (segment : List Char) : Bool := segment.map Char.toLower ∈ [".".toList, "%2e".toList]

def doubleDot (segment : List Char) : Bool :=
  segment.map Char.toLower ∈ ["..".toList, ".%2e".toList, "%2e.".toList, "%2e%2e".toList]

-- A dot segment at the end leaves an empty one behind.
def pushSegment (path : List (List Char)) (last : Bool) (segment : List Char) : List (List Char) :=
  if doubleDot segment then path.dropLast ++ if last then [[]] else []
  else if singleDot segment then path ++ if last then [[]] else []
  else path ++ [segment]

def removeDotSegments : List (List Char) → List (List Char) → List (List Char)
  | path, [] => path
  | path, [segment] => pushSegment path true segment
  | path, segment :: rest => removeDotSegments (pushSegment path false segment) rest

def resolvePath (text : List Char) : List (List Char) :=
  removeDotSegments [] ((text.takeWhile (!pathEnd ·)).splitOnP isSlash)

structure BrowserUrl (O : Type) where
  origin : O
  path : List (List Char)
  deriving DecidableEq

variable {O : Type}

-- `originOf` is the reading of an authority, which can fail.
def resolveRooted (originOf : List Char → Option O) (site : O) (input : List Char) : Option (BrowserUrl O) :=
  match browserText input with
  | a :: b :: rest =>
    if isSlash a = true then
      if isSlash b = true then
        let text := rest.dropWhile isSlash
        let authorityEnd := fun c => isSlash c || pathEnd c
        let path := text.dropWhile (!authorityEnd ·)
        (originOf (text.takeWhile (!authorityEnd ·))).map fun origin =>
          ⟨origin, resolvePath (if path.head?.any isSlash then path.tail else path)⟩
      else some ⟨site, resolvePath (b :: rest)⟩
    else none
  | [a] => if isSlash a = true then some ⟨site, resolvePath []⟩ else none
  | [] => none

def pathPlain (c : Char) : Bool := 33 ≤ c.toNat && c.toNat ≤ 126 && c ∉ ['"', '#', '<', '>', '?', '^', '`', '\x7b', '\x7d']

def percentEncode (c : Char) : List Char :=
  if pathPlain c then [c]
  else (String.utf8EncodeChar c).flatMap fun b => '%' :: ((hexText [b]).map Char.toUpper)

def segmentsText (path : List (List Char)) : List Char := path.flatMap ('/' :: ·)

-- The path of the URL as text
def BrowserUrl.pathText (url : BrowserUrl O) : List Char := (segmentsText url.path).flatMap percentEncode

def Within (base text : List Char) : Prop := text = base ∨ base ++ ['/'] <+: text

instance (base text : List Char) : Decidable (Within base text) := inferInstanceAs (Decidable (_ ∨ _))

section Encoding

variable {base text : List Char} {c : Char}

theorem percentEncode_of_not_plain (h : ¬pathPlain c = true) : (percentEncode c).head? = some '%' := by
  rw [percentEncode, if_neg h]
  cases hbytes : String.utf8EncodeChar c with
  | nil =>
    have hsize := c.utf8Size_pos
    rw [← String.length_utf8EncodeChar, hbytes] at hsize
    exact absurd hsize (lt_irrefl 0)
  | cons b bytes => rfl

theorem percentEncode_ne_nil (c : Char) : percentEncode c ≠ [] := by
  by_cases h : pathPlain c = true
  · simp [percentEncode, h]
  · intro hnil
    have hhead := percentEncode_of_not_plain h
    rw [hnil] at hhead
    exact nomatch hhead

-- Plain characters other than the percent sign stand for themselves in an encoded path.
theorem prefix_encoded_iff (hbase : ∀ c ∈ base, pathPlain c = true ∧ c ≠ '%') :
    base <+: text.flatMap percentEncode ↔ base <+: text := by
  induction base generalizing text with
  | nil => simp
  | cons c base ih =>
    obtain ⟨⟨hplain, hpercent⟩, hrest⟩ := List.forall_mem_cons.mp hbase
    cases text with
    | nil => simp
    | cons d text =>
      rw [List.flatMap_cons]
      by_cases hd : pathPlain d = true
      · rw [percentEncode, if_pos hd, List.singleton_append, List.cons_prefix_cons, List.cons_prefix_cons, ih hrest]
      · have hne : c ≠ d := fun heq => hd (heq ▸ hplain)
        obtain ⟨tail, htail⟩ := List.head?_eq_some_iff.mp (percentEncode_of_not_plain hd)
        rw [htail, List.cons_append, List.cons_prefix_cons, List.cons_prefix_cons]
        exact iff_of_false (fun h => hpercent h.1) fun h => hne h.1

theorem encoded_eq_iff (hbase : ∀ c ∈ base, pathPlain c = true ∧ c ≠ '%') : text.flatMap percentEncode = base ↔ text = base := by
  have hself (l : List Char) (hl : ∀ c ∈ l, pathPlain c = true ∧ c ≠ '%') : l.flatMap percentEncode = l := by
    induction l with
    | nil => rfl
    | cons c l ih =>
      obtain ⟨⟨hplain, -⟩, hrest⟩ := List.forall_mem_cons.mp hl
      rw [List.flatMap_cons, ih hrest, percentEncode, if_pos hplain]
      rfl
  constructor
  · intro heq
    have hprefix : base <+: text := (prefix_encoded_iff hbase).mp (by rw [heq])
    obtain ⟨tail, rfl⟩ := hprefix
    rw [List.flatMap_append, hself base hbase, List.append_right_eq_self, List.flatMap_eq_nil_iff] at heq
    cases tail with
    | nil => exact List.append_nil base
    | cons d tail => exact absurd (heq d List.mem_cons_self) (percentEncode_ne_nil d)
  · rintro rfl
    exact hself text hbase

theorem within_encoded_iff (hbase : ∀ c ∈ base, pathPlain c = true ∧ c ≠ '%') :
    Within base (text.flatMap percentEncode) ↔ Within base text := by
  refine or_congr (encoded_eq_iff hbase) (prefix_encoded_iff fun c hc => ?_)
  rcases List.mem_append.mp hc with hmem | hmem
  · exact hbase c hmem
  · obtain rfl := List.mem_singleton.mp hmem
    decide

end Encoding

section Rooted

variable {input rest : List Char}

-- A text that begins with a slash loses no slash at its ends.
theorem browserText_rooted (h : input.head? = some '/') :
    browserText input = cleanUrl (input.rdropWhile c0ControlOrSpace) ∧
      (input.rdropWhile c0ControlOrSpace).head? = some '/' := by
  obtain ⟨tail, rfl⟩ := List.head?_eq_some_iff.mp h
  have hstrip : ('/' :: tail).dropWhile c0ControlOrSpace = '/' :: tail := List.dropWhile_cons_of_neg (by decide)
  have hroot : (('/' :: tail).rdropWhile c0ControlOrSpace).head? = some '/' := by
    cases htrim : ('/' :: tail).rdropWhile c0ControlOrSpace with
    | nil =>
      have hall := List.rdropWhile_eq_nil_iff.mp htrim '/' List.mem_cons_self
      exact absurd hall (by decide)
    | cons c rest =>
      obtain ⟨suffix', hsuffix⟩ := List.rdropWhile_prefix c0ControlOrSpace (l := '/' :: tail)
      rw [htrim] at hsuffix
      exact congrArg some (List.cons.inj hsuffix).1
  exact ⟨by rw [browserText, hstrip, cleanUrl_rooted hroot], hroot⟩

theorem resolveRooted_single (originOf : List Char → Option O) (site : O) (htext : browserText input = '/' :: rest)
    (hrest : ¬rest.head?.any isSlash = true) :
    resolveRooted originOf site input = some ⟨site, resolvePath rest⟩ := by
  rw [resolveRooted, htext]
  cases rest with
  | nil => rfl
  | cons b rest =>
    have hb : ¬isSlash b = true := hrest
    have hslash : isSlash '/' = true := rfl
    dsimp only
    rw [if_pos hslash, if_neg hb]

-- Behind two slashes the origin is read from the text.
theorem resolveRooted_double (originOf : List Char → Option O) (site : O)
    (htext : browserText input = '/' :: '/' :: rest) :
    (resolveRooted originOf site input).map (·.origin) =
      originOf ((rest.dropWhile isSlash).takeWhile fun c => !(isSlash c || pathEnd c)) := by
  have hslash : isSlash '/' = true := rfl
  rw [resolveRooted, htext]
  dsimp only
  rw [if_pos hslash, if_pos hslash, Option.map_map]
  exact congrFun Option.map_id _

end Rooted

end Text
