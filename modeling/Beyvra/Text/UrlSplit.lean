import Mathlib.Data.List.Infix
import Mathlib.Data.List.TakeWhile
import Beyvra.Text.Pattern

namespace Text

-- `urllib.parse.urlsplit`; `normalize` stands for NFKC and `hostAllowed` for the check of a host in brackets.

structure SplitResult where
  scheme : List Char
  netloc : List Char
  path : List Char
  query : List Char
  fragment : List Char
  deriving DecidableEq

def c0ControlOrSpace (c : Char) : Bool := c.toNat ≤ 32

def unsafeUrlChar (c : Char) : Bool := c ∈ ['\t', '\r', '\n']

def schemeChar (c : Char) : Bool := c.isAlphanum || c ∈ ['+', '-', '.']

def netlocEnd (c : Char) : Bool := c ∈ ['/', '?', '#']

-- `text.partition(separator)` without the separator
def partitionAt (separator : Char) (text : List Char) : List Char × List Char :=
  (text.takeWhile (· ≠ separator), (text.dropWhile (· ≠ separator)).tail)

def splitScheme (url : List Char) : List Char × List Char :=
  let (head, rest) := partitionAt ':' url
  if ':' ∈ url ∧ (head.head?.any Char.isAlpha) ∧ head.all schemeChar then (head.map Char.toLower, rest) else ([], url)

def splitNetloc : List Char → List Char × List Char
  | '/' :: '/' :: rest => (rest.takeWhile (!netlocEnd ·), rest.dropWhile (!netlocEnd ·))
  | url => ([], url)

def cleanUrl (url : List Char) : List Char := (url.dropWhile c0ControlOrSpace).filter (!unsafeUrlChar ·)

def urlParts (url : List Char) : SplitResult :=
  let rest := (splitScheme url).2
  let tail := (splitNetloc rest).2
  { scheme := (splitScheme url).1
    netloc := (splitNetloc rest).1
    path := (partitionAt '?' (partitionAt '#' tail).1).1
    query := (partitionAt '?' (partitionAt '#' tail).1).2
    fragment := (partitionAt '#' tail).2 }

section Checks

variable (normalize : List Char → List Char) (hostAllowed : List Char → Bool)

def checkBracketedNetloc (netloc : List Char) : Bool :=
  let hostinfo := lastSegment '@' netloc
  if '[' ∈ hostinfo then
    let (before, bracketed) := partitionAt '[' hostinfo
    let (hostname, port) := partitionAt ']' bracketed
    before = [] && (port.head?.all (· = ':')) && hostAllowed hostname
  else hostAllowed (partitionAt ':' hostinfo).1

def checkBrackets (netloc : List Char) : Bool :=
  if '[' ∈ netloc then (']' ∈ netloc) && checkBracketedNetloc hostAllowed netloc else ']' ∉ netloc

def checkNetloc (netloc : List Char) : Bool :=
  let text := netloc.filter (· ∉ ['@', ':', '#', '?'])
  netloc.all (·.toNat < 128) || normalize text = text || (normalize text).all (· ∉ ['/', '?', '#', '@', ':'])

-- Nothing where it raises ValueError
def urlsplit (url : List Char) : Option SplitResult :=
  let parts := urlParts (cleanUrl url)
  if checkBrackets hostAllowed parts.netloc && checkNetloc normalize parts.netloc then some parts else none

end Checks

section Separators

variable {text : List Char} {x : Char}

theorem partitionAt_not_mem (h : x ∉ text) : partitionAt x text = (text, []) := by
  have hall : ∀ c ∈ text, decide (c ≠ x) = true := fun c hc => decide_eq_true fun heq => h (heq ▸ hc)
  rw [partitionAt, List.takeWhile_eq_self_iff.mpr hall, List.dropWhile_eq_nil_iff.mpr hall]
  rfl

theorem partitionAt_append (h : x ∉ text) (rest : List Char) : partitionAt x (text ++ x :: rest) = (text, rest) := by
  have hall : ∀ c ∈ text, decide (c ≠ x) = true := fun c hc => decide_eq_true fun heq => h (heq ▸ hc)
  rw [partitionAt, List.takeWhile_append_of_pos hall, List.dropWhile_append_of_pos hall]
  simp

theorem lastSegment_not_mem (h : x ∉ text) : lastSegment x text = text := by
  have hall : ∀ c ∈ text.reverse, decide (c ≠ x) = true := fun c hc =>
    decide_eq_true fun heq => h (heq ▸ List.mem_reverse.mp hc)
  rw [lastSegment, List.takeWhile_eq_self_iff.mpr hall, List.reverse_reverse]

end Separators

section Rooted

variable {normalize : List Char → List Char} {hostAllowed : List Char → Bool} {url rest : List Char}

theorem splitScheme_rooted : splitScheme ('/' :: url) = ([], '/' :: url) := by
  have hhead : (('/' :: url).takeWhile (· ≠ ':')).head? = some '/' := by
    rw [List.takeWhile_cons_of_pos (by decide)]
    rfl
  unfold splitScheme partitionAt
  dsimp only
  rw [if_neg]
  rintro ⟨-, hany, -⟩
  rw [hhead] at hany
  exact absurd hany (by decide)

theorem splitNetloc_single (h : rest.head? ≠ some '/') : splitNetloc ('/' :: rest) = ([], '/' :: rest) := by
  unfold splitNetloc
  split
  · rename_i heq
    obtain rfl := (List.cons.inj heq).2
    exact absurd rfl h
  · rfl

theorem takeWhile_takeWhile_ne (url : List Char) : (partitionAt '?' (partitionAt '#' url).1).1 =
    url.takeWhile fun c => c ≠ '?' ∧ c ≠ '#' := by
  simp only [partitionAt]
  rw [List.takeWhile_takeWhile]
  congr 1
  funext c
  simp

theorem cleanUrl_rooted (hroot : url.head? = some '/') : cleanUrl url = url.filter (!unsafeUrlChar ·) := by
  have hstrip : url.dropWhile c0ControlOrSpace = url := by
    cases url with
    | nil => rfl
    | cons c url =>
      obtain rfl : c = '/' := Option.some.inj hroot
      exact List.dropWhile_cons_of_neg (by decide)
  rw [cleanUrl, hstrip]

-- A text that begins with one slash is a path up to its query or fragment.
theorem urlsplit_rooted (normalize : List Char → List Char) (hostAllowed : List Char → Bool)
    (hclean : cleanUrl url = '/' :: rest) (hsingle : rest.head? ≠ some '/') :
    ∃ query fragment, urlsplit normalize hostAllowed url =
      some ⟨[], [], ('/' :: rest).takeWhile fun c => c ≠ '?' ∧ c ≠ '#', query, fragment⟩ := by
  refine ⟨(partitionAt '?' (partitionAt '#' ('/' :: rest)).1).2, (partitionAt '#' ('/' :: rest)).2, ?_⟩
  have hparts : urlParts ('/' :: rest) = ⟨[], [], ('/' :: rest).takeWhile fun c => c ≠ '?' ∧ c ≠ '#',
      (partitionAt '?' (partitionAt '#' ('/' :: rest)).1).2, (partitionAt '#' ('/' :: rest)).2⟩ := by
    rw [urlParts, splitScheme_rooted]
    dsimp only
    rw [splitNetloc_single hsingle, ← takeWhile_takeWhile_ne]
  rw [urlsplit, hclean, hparts]
  exact if_pos rfl

end Rooted

end Text
