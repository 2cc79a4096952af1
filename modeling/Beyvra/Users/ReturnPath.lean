import Beyvra.Text.BrowserUrl

namespace Beyvra

open Text

namespace KeycloakBff

def authAllowedReturnPaths : List (List Char) :=
  ["/platform".toList, "/platform/trades".toList, "/platform/profile".toList, "/platform/settings".toList]

def platform : List Char := "/platform".toList

def pathAllowed (path : List Char) : Bool :=
  authAllowedReturnPaths.any fun base => path = base ∨ base ++ ['/'] <+: path

def returnsElsewhere (candidate : List Char) (parsed : SplitResult) : Bool :=
  ¬['/'] <+: candidate ∨ ['/', '/'] <+: candidate ∨ '\\' ∈ candidate ∨ parsed.scheme ≠ [] ∨ parsed.netloc ≠ [] ∨
    parsed.fragment ≠ []

section ReturnPath

variable (normalize : List Char → List Char) (hostAllowed : List Char → Bool)

-- Nothing where urlsplit raises
def safeReturnPath (value : Option (List Char)) : Option (List Char) :=
  let candidate := match value with
    | none | some [] => platform
    | some text => text
  (urlsplit normalize hostAllowed candidate).map fun parsed =>
    if returnsElsewhere candidate parsed then platform
    else if pathAllowed parsed.path then candidate else platform

def Accepted (candidate : List Char) : Prop :=
  ∃ parsed, urlsplit normalize hostAllowed candidate = some parsed ∧ returnsElsewhere candidate parsed = false ∧
    pathAllowed parsed.path = true

-- The path without its dot segments
def normalPath (path : List Char) : List Char := segmentsText (removeDotSegments [] (path.tail.splitOnP isSlash))

-- Without the spaces and control characters at its end the candidate does not begin with two slashes, once tabs
-- and line ends are dropped, and its path passes the test above without dot segments too.
def Confined (candidate : List Char) : Prop :=
  ¬['/', '/'] <+: cleanUrl (candidate.rdropWhile c0ControlOrSpace) ∧
    ∃ parsed, urlsplit normalize hostAllowed (candidate.rdropWhile c0ControlOrSpace) = some parsed ∧
      pathAllowed (normalPath parsed.path) = true

def StaysInside (originOf : List Char → Option String) (path : List Char) : Prop :=
  ∀ site, ∃ url, resolveRooted originOf site path = some url ∧ url.origin = site ∧
    ∃ base ∈ authAllowedReturnPaths, Within base url.pathText

end ReturnPath

section Browser

variable {normalize : List Char → List Char} {hostAllowed : List Char → Bool} {originOf : List Char → Option String}
  {candidate path : List Char} {value : Option (List Char)}

theorem allowed_plain : ∀ base ∈ authAllowedReturnPaths, ∀ c ∈ base, pathPlain c = true ∧ c ≠ '%' := by
  intro base hbase
  refine List.all_iff_forall_prop.mp ?_
  revert base
  decide

theorem pathAllowed_encoded (text : List Char) : pathAllowed text = true ↔
    ∃ base ∈ authAllowedReturnPaths, Within base (text.flatMap percentEncode) := by
  rw [pathAllowed, List.any_eq_true]
  refine exists_congr fun base => and_congr_right fun hbase => ?_
  rw [decide_eq_true_eq, within_encoded_iff (allowed_plain base hbase)]
  rfl

theorem resolvePath_eq (rest : List Char) : segmentsText (resolvePath rest) =
    normalPath (('/' :: rest).takeWhile fun c => c ≠ '?' ∧ c ≠ '#') := by
  have hends : (rest.takeWhile fun c => c ≠ '?' ∧ c ≠ '#') = rest.takeWhile (!pathEnd ·) := by
    congr 1
    funext c
    simp [pathEnd]
  rw [List.takeWhile_cons_of_pos (by decide), hends]
  rfl

-- The browser stays on the site, whatever its origin is, exactly when the text is confined.
theorem staysInside_iff (hroot : candidate.head? = some '/') (hslash : '\\' ∉ candidate) :
    StaysInside originOf candidate ↔ Confined normalize hostAllowed candidate := by
  obtain ⟨htext, htrimmed⟩ := browserText_rooted hroot
  obtain ⟨rest, hrest⟩ : ∃ rest, cleanUrl (candidate.rdropWhile c0ControlOrSpace) = '/' :: rest := by
    obtain ⟨tail, htail⟩ := List.head?_eq_some_iff.mp htrimmed
    rw [cleanUrl_rooted htrimmed, htail]
    exact ⟨_, List.filter_cons_of_pos (by decide)⟩
  have hmem : '\\' ∉ rest := by
    intro hmem
    have hclean : '\\' ∈ cleanUrl (candidate.rdropWhile c0ControlOrSpace) := hrest ▸ List.mem_cons_of_mem _ hmem
    rw [cleanUrl_rooted htrimmed] at hclean
    exact hslash ((List.rdropWhile_prefix _ candidate).subset (List.mem_filter.mp hclean).1)
  rw [Confined, hrest]
  rw [hrest] at htext
  by_cases hsingle : rest.head? = some '/'
  · obtain ⟨tail, rfl⟩ := List.head?_eq_some_iff.mp hsingle
    refine iff_of_false (fun hstays => ?_) fun h => h.1 ⟨tail, rfl⟩
    obtain ⟨url, hurl, horigin, -⟩ := hstays ""
    obtain ⟨url', hurl', horigin', -⟩ := hstays "a"
    have hfirst := resolveRooted_double originOf "" htext
    have hsecond := resolveRooted_double originOf "a" htext
    rw [hurl] at hfirst
    rw [hurl'] at hsecond
    have hsame : url.origin = url'.origin := Option.some.inj (hfirst.trans hsecond.symm)
    rw [horigin, horigin'] at hsame
    exact absurd hsame (by decide)
  · have hplain : ¬rest.head?.any isSlash = true := by
      cases hhead : rest.head? with
      | none => exact nofun
      | some c =>
        have hc : c ∈ rest := List.mem_of_head? hhead
        simp only [Option.any_some, isSlash, List.mem_cons, List.not_mem_nil, or_false, decide_eq_true_eq, not_or]
        exact ⟨fun heq => hsingle (heq ▸ hhead), fun heq => hmem (heq ▸ hc)⟩
    have hdouble : ¬['/', '/'] <+: '/' :: rest := by
      rintro ⟨tail, htail⟩
      rw [← (List.cons.inj htail).2] at hsingle
      exact hsingle rfl
    obtain ⟨query, fragment, hparts⟩ := urlsplit_rooted normalize hostAllowed hrest hsingle
    have hresolve (site : String) := resolveRooted_single originOf site htext hplain
    have hallowed : (∃ parsed, urlsplit normalize hostAllowed (candidate.rdropWhile c0ControlOrSpace) = some parsed ∧
        pathAllowed (normalPath parsed.path) = true) ↔
          ∃ base ∈ authAllowedReturnPaths, Within base ((segmentsText (resolvePath rest)).flatMap percentEncode) := by
      rw [← pathAllowed_encoded, resolvePath_eq rest, hparts]
      simp
    rw [and_iff_right hdouble, hallowed]
    constructor
    · intro hstays
      obtain ⟨url, hurl, -, hwithin⟩ := hstays ""
      obtain rfl := Option.some.inj ((hresolve "").symm.trans hurl)
      exact hwithin
    · exact fun hwithin site => ⟨_, hresolve site, rfl, hwithin⟩

theorem accepted_rooted (h : Accepted normalize hostAllowed candidate) :
    candidate.head? = some '/' ∧ '\\' ∉ candidate ∧ safeReturnPath normalize hostAllowed (some candidate) = some candidate := by
  obtain ⟨parsed, hparsed, helsewhere, hallowed⟩ := h
  have hchecks := of_decide_eq_false helsewhere
  simp only [not_or, not_not] at hchecks
  obtain ⟨⟨tail, rfl⟩, -, hslash, -⟩ := hchecks
  refine ⟨rfl, hslash, ?_⟩
  have hreturn : safeReturnPath normalize hostAllowed (some (['/'] ++ tail)) =
      (urlsplit normalize hostAllowed (['/'] ++ tail)).map fun parsed =>
        if returnsElsewhere (['/'] ++ tail) parsed then platform
        else if pathAllowed parsed.path then ['/'] ++ tail else platform := rfl
  rw [hreturn, hparsed, Option.map_some, helsewhere, hallowed]
  rfl

theorem platform_confined : Confined normalize hostAllowed platform := by
  have hclean : cleanUrl (platform.rdropWhile c0ControlOrSpace) = '/' :: "platform".toList := by decide
  refine ⟨by rw [hclean]; decide, ?_⟩
  obtain ⟨query, fragment, hparts⟩ := urlsplit_rooted normalize hostAllowed hclean (by decide)
  have hallowed : pathAllowed (normalPath (('/' :: "platform".toList).takeWhile fun c => c ≠ '?' ∧ c ≠ '#')) = true := by
    decide
  exact ⟨_, hparts, hallowed⟩

-- What is returned is the platform page or an accepted candidate.
theorem safeReturnPath_cases (h : safeReturnPath normalize hostAllowed value = some path) :
    path = platform ∨ value = some path ∧ Accepted normalize hostAllowed path := by
  obtain ⟨parsed, hparsed, hpath⟩ := Option.map_eq_some_iff.mp h
  split_ifs at hpath with helsewhere hallowed
  · exact .inl hpath.symm
  · match value, hparsed, helsewhere, hpath with
    | none, _, _, hpath => exact .inl hpath.symm
    | some [], _, _, hpath => exact .inl hpath.symm
    | some (c :: text), hparsed, helsewhere, hpath =>
      subst hpath
      exact .inr ⟨rfl, parsed, hparsed, Bool.not_eq_true _ ▸ helsewhere, hallowed⟩
  · exact .inl hpath.symm

end Browser

theorem return_path_confined_iff (normalize : List Char → List Char) (hostAllowed : List Char → Bool)
    (originOf : List Char → Option String) (value : Option (List Char)) :
    (∀ path, safeReturnPath normalize hostAllowed value = some path → StaysInside originOf path) ↔
      ∀ candidate, value = some candidate → Accepted normalize hostAllowed candidate →
        Confined normalize hostAllowed candidate := by
  constructor
  · rintro hstays candidate rfl haccepted
    obtain ⟨hroot, hslash, hreturned⟩ := accepted_rooted haccepted
    exact (staysInside_iff hroot hslash).mp (hstays candidate hreturned)
  · intro hconfined path hpath
    rcases safeReturnPath_cases hpath with rfl | ⟨hvalue, haccepted⟩
    · have hplatform : Confined normalize hostAllowed platform := platform_confined
      exact (staysInside_iff rfl (by decide)).mpr hplatform
    · obtain ⟨hroot, hslash, -⟩ := accepted_rooted haccepted
      exact (staysInside_iff hroot hslash).mpr (hconfined path hvalue haccepted)

theorem dot_segments_escape : safeReturnPath id (fun _ => true) (some "/platform/../admin".toList) =
      some "/platform/../admin".toList ∧
    ¬StaysInside (fun _ => none) "/platform/../admin".toList := by
  refine ⟨by decide, fun h => ?_⟩
  obtain ⟨url, hurl, -, base, hbase, hwithin⟩ := h "https://beyvra.example"
  have hresolve : resolveRooted (fun _ => none) "https://beyvra.example" "/platform/../admin".toList =
      some ⟨"https://beyvra.example", ["admin".toList]⟩ := by decide +kernel
  obtain rfl := Option.some.inj (hresolve.symm.trans hurl)
  have houtside : ∀ base ∈ authAllowedReturnPaths, ¬Within base "/admin".toList := by decide
  exact houtside base hbase hwithin

end KeycloakBff

end Beyvra
