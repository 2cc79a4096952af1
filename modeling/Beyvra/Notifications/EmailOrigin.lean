import Beyvra.Foundation.Records
import Beyvra.Text.Netloc

namespace Beyvra

open Text

namespace EmailClient

def http : List Char := "http".toList

def https : List Char := "https".toList

def lowerLetters : List Char :=
  ['a', 'b', 'c', 'd', 'e', 'f', 'g', 'h', 'i', 'j', 'k', 'l', 'm', 'n', 'o', 'p', 'q', 'r', 's', 't', 'u', 'v', 'w', 'x',
    'y', 'z']

def lowerAlphanumeric (c : Char) : Bool := c ∈ lowerLetters ++ decimalDigits

-- `str.removesuffix(".")`
def removeDot (host : List Char) : List Char := if host.getLast? = some '.' then host.dropLast else host

-- `\[[0-9a-fA-F:.]+\](?::[0-9]+)?`
def bracketedNetloc (netloc : List Char) : Bool :=
  let (host, rest) := partitionAt ']' netloc.tail
  netloc.head? = some '[' && ']' ∈ netloc && host ≠ [] && host.all (fun c => (hexValue c).isSome || c ∈ [':', '.']) &&
    (rest = [] || rest.head? = some ':' && rest.tail ≠ [] && rest.tail.all Char.isDigit)

-- `[a-z0-9](?:[a-z0-9-]{0,61}[a-z0-9])?`
def hostLabel (label : List Char) : Bool :=
  label ≠ [] && label.length ≤ 63 && label.all (fun c => lowerAlphanumeric c || c = '-') &&
    label.head?.all lowerAlphanumeric && label.getLast?.all lowerAlphanumeric

def authorityOf (host : List Char) : Option (List Char) :=
  match ipAddress host with
  | some (.v4 address) => some address.text
  | some (.v6 address) => some ('[' :: address.compressed ++ [']'])
  | none => if host.length ≤ 253 ∧ (host.splitOn '.').all hostLabel then some host else none

def defaultPort (scheme : List Char) : Nat := if scheme = https then 443 else 80

def originText (scheme authority : List Char) (port : Option Nat) : List Char :=
  scheme ++ [':', '/', '/'] ++ (authority ++ portText (port.filter (· ≠ defaultPort scheme)))

-- The host in lower case and without one dot at its end
def canonicalHost (parsed : SplitResult) : List Char := removeDot ((parsed.hostname.getD []).map Char.toLower)

def refused (value : List Char) (parsed : SplitResult) : Prop :=
  parsed.scheme ∉ [http, https] ∨ canonicalHost parsed = [] ∨ parsed.username ≠ none ∨ parsed.password ≠ none ∨
    parsed.path ∉ [[], ['/']] ∨ parsed.query ≠ [] ∨ parsed.fragment ≠ [] ∨ '?' ∈ value ∨ '#' ∈ value

instance (value : List Char) (parsed : SplitResult) : Decidable (refused value parsed) :=
  inferInstanceAs (Decidable (_ ∨ _))

section Origin

variable (normalize : List Char → List Char)

-- Nothing where it raises ValueError
def canonicalEmailOrigin (value : List Char) : Option (List Char) :=
  if value = [] ∨ ¬value.all visible then none
  else
    (urlsplit normalize bracketedHost value).bind fun parsed =>
      parsed.port.bind fun port =>
        if refused value parsed then none
        else if ('[' ∈ parsed.netloc ∨ ']' ∈ parsed.netloc) ∧ ¬bracketedNetloc parsed.netloc then none
        else (authorityOf (canonicalHost parsed)).map fun authority => originText parsed.scheme authority port

-- Hosts agree up to letter case, one dot at the end and the notation of an IPv6 address.
def SameHost (parsed parsed' : SplitResult) : Prop :=
  canonicalHost parsed = canonicalHost parsed' ∨
    ∃ address, ipv6 (canonicalHost parsed) = some address ∧ ipv6 (canonicalHost parsed') = some address

def effectivePort (parsed : SplitResult) : Option Nat := parsed.port.map (·.getD (defaultPort parsed.scheme))

def SameOrigin (value value' : List Char) : Prop :=
  ∃ parsed parsed', urlsplit normalize bracketedHost value = some parsed ∧
    urlsplit normalize bracketedHost value' = some parsed' ∧ parsed.scheme = parsed'.scheme ∧ SameHost parsed parsed' ∧
      effectivePort parsed = effectivePort parsed'

structure EmailMiddlewareError where
  errorClass : String
  retryable : Bool
  deriving DecidableEq

-- An entry that is not a text is nothing.
inductive AllowedSetting where
  | text (origins : List Char)
  | entries (origins : List (Option (List Char)))
  | other

structure EmailSettings where
  environmentUrl : Option (List Char)
  url : List Char
  environmentOrigins : Option (List Char)
  origins : AllowedSetting

def AllowedSetting.list : AllowedSetting → Option (List (Option (List Char)))
  | .text origins =>
    let entries := (origins.splitOn ',').map strip
    some (if entries = [[]] then [] else entries.map some)
  | .entries origins => some origins
  | .other => none

def EmailSettings.allowed (settings : EmailSettings) : AllowedSetting :=
  (settings.environmentOrigins.map .text).getD settings.origins

def EmailSettings.destination (settings : EmailSettings) : List Char :=
  strip (settings.environmentUrl.getD settings.url)

def forbiddenHosts : List (List Char) :=
  ["api.codestra.co".toList, "api.codestra.agency".toList, "api.klyrow.com".toList, "mail.klyrow.com".toList]

def allowedOrigins (entries : List (Option (List Char))) : Option (List (List Char)) :=
  entries.mapM fun entry => entry.bind (canonicalEmailOrigin normalize)

def middlewareBaseUrl (settings : EmailSettings) : Except EmailMiddlewareError (List Char) :=
  if settings.destination = [] then .error ⟨"MIDDLEWARE_ENDPOINT_NOT_CONFIGURED", true⟩
  else
    match canonicalEmailOrigin normalize settings.destination with
    | none => .error ⟨"MIDDLEWARE_ENDPOINT_INVALID", false⟩
    | some origin =>
      let host := (urlsplit normalize bracketedHost origin).bind SplitResult.hostname
      if host ∈ forbiddenHosts.map some then
        if settings.environmentUrl = none ∧ host = some "api.codestra.co".toList then
          .error ⟨"MIDDLEWARE_ENDPOINT_NOT_CONFIGURED", true⟩
        else .error ⟨"DIRECT_INTEGRATION_BYPASS_BLOCKED", false⟩
      else
        match settings.allowed.list with
        | none => .error ⟨"MIDDLEWARE_ALLOWLIST_INVALID", false⟩
        | some [] => .error ⟨"MIDDLEWARE_ALLOWLIST_NOT_CONFIGURED", true⟩
        | some entries =>
          match allowedOrigins normalize entries with
          | none => .error ⟨"MIDDLEWARE_ALLOWLIST_INVALID", false⟩
          | some origins =>
            if origin ∉ origins then .error ⟨"DIRECT_INTEGRATION_BYPASS_BLOCKED", false⟩ else .ok origin

end Origin

section Hosts

variable {host authority scheme : List Char} {port : Option Nat} {c : Char}

def hostChars : List Char := '-' :: '.' :: (lowerLetters ++ decimalDigits)

def canonicalChars : List Char := ':' :: hostChars

theorem digit_mem (h : c.isDigit = true) : c ∈ decimalDigits := by
  have hbounds : 48 ≤ c.toNat ∧ c.toNat ≤ 57 := by
    rw [Char.isDigit, Bool.and_eq_true] at h
    exact ⟨of_decide_eq_true h.1, of_decide_eq_true h.2⟩
  have hdigits : ∀ n < 10, Char.ofNat (48 + n) ∈ decimalDigits := by decide
  have hc := hdigits (c.toNat - 48) (by omega)
  rwa [Nat.add_sub_cancel' hbounds.1, Char.ofNat_toNat] at hc

-- The hosts an authority of a canonical origin stands for
inductive CanonicalHost : List Char → List Char → Prop
  | name {host : List Char} (hread : authorityOf host = some host) (hchars : ∀ c ∈ host, c ∈ hostChars)
    (hne : host ≠ []) (hdot : host.getLast? ≠ some '.') : CanonicalHost host host
  | address {a : Ipv6Address} (hscope : a.scope = none) : CanonicalHost a.compressed ('[' :: a.compressed ++ [']'])

theorem label_chars {label : List Char} (h : hostLabel label = true) : label ≠ [] ∧ ∀ c ∈ label, c ∈ hostChars := by
  simp only [hostLabel, Bool.and_eq_true] at h
  obtain ⟨⟨⟨⟨hne, -⟩, hall⟩, -⟩, -⟩ := h
  refine ⟨of_decide_eq_true hne, fun c hc => ?_⟩
  have hletters : ∀ c ∈ lowerLetters ++ decimalDigits, c ∈ hostChars := List.all_iff_forall_prop.mp (by decide)
  rcases Bool.or_eq_true_iff.mp (List.all_eq_true.mp hall c hc) with hletter | hdash
  · exact hletters c (of_decide_eq_true hletter)
  · rw [of_decide_eq_true hdash]
    decide

theorem hostChars_not_colon {text : List Char} (h : ∀ c ∈ text, c ∈ hostChars) : ':' ∉ text :=
  fun hmem => absurd (h ':' hmem) (by decide)

-- The authority is read from a host in canonical form, and determines it.
theorem authorityOf_cases (h : authorityOf host = some authority) (hzone : ':' ∈ host → '%' ∉ host) :
    (authority = host ∧ CanonicalHost host authority) ∨
      ∃ a, ipv6 host = some a ∧ a.scope = none ∧ authority = '[' :: a.compressed ++ [']'] := by
  have hread := h
  rw [authorityOf] at h
  split at h
  · rename_i address haddress
    obtain rfl := Option.some.inj h
    have hv4 := ipAddress_v4_iff.mp haddress
    obtain ⟨hne, hdot⟩ := ipv4_getLast? hv4
    rw [ipv4_text hv4] at hread ⊢
    refine .inl ⟨rfl, .name hread (fun c hc => ?_) hne hdot⟩
    have hdigits : ∀ c ∈ decimalDigits, c ∈ hostChars := List.all_iff_forall_prop.mp (by decide)
    rcases ipv4_chars hv4 c hc with hdigit | rfl
    · exact hdigits c (digit_mem hdigit)
    · decide
  · rename_i address haddress
    obtain rfl := Option.some.inj h
    have hv6 := ipAddress_v6_iff.mp haddress
    exact .inr ⟨address, hv6, ipv6_scope hv6 (hzone (ipv6_colon hv6)), rfl⟩
  · split at h
    · rename_i hlabels
      obtain rfl := Option.some.inj h
      have hparts : ∀ label ∈ host.splitOn '.', label ≠ [] ∧ ∀ c ∈ label, c ∈ hostChars :=
        fun label hlabel => label_chars (List.all_eq_true.mp hlabels.2 label hlabel)
      obtain ⟨hne, hdot⟩ := getLast?_of_parts fun label hlabel => (hparts label hlabel).1
      refine .inl ⟨rfl, .name hread (fun c hc => ?_) hne hdot⟩
      have hjoin : ['.'].intercalate (host.splitOn '.') = host := List.intercalate_splitOn '.'
      rw [← hjoin] at hc
      rcases mem_intercalate hc with rfl | ⟨label, hlabel, hc⟩
      · decide
      · exact (hparts label hlabel).2 c hc
    · exact nomatch h

theorem CanonicalHost.authorityOf_eq (h : CanonicalHost host authority) : authorityOf host = some authority := by
  cases h with
  | name hread => exact hread
  | address hscope => rw [authorityOf, ipAddress_v6_iff.mpr (ipv6_compressed hscope)]

end Hosts

section Reading

variable {host authority scheme : List Char} {port : Option Nat} {c : Char} (normalize : List Char → List Char)

theorem CanonicalHost.chars (h : CanonicalHost host authority) :
    (∀ c ∈ host, c ∈ canonicalChars) ∧ host ≠ [] ∧ host.getLast? ≠ some '.' := by
  cases h with
  | name hread hchars hne hdot =>
    have hsub : ∀ c ∈ hostChars, c ∈ canonicalChars := List.all_iff_forall_prop.mp (by decide)
    exact ⟨fun c hc => hsub c (hchars c hc), hne, hdot⟩
  | address hscope =>
    have hchars := compressed_chars hscope
    have hsub : ∀ c ∈ lowerHexDigits, c ∈ canonicalChars := List.all_iff_forall_prop.mp (by decide)
    refine ⟨fun c hc => ?_, List.ne_nil_of_mem (ipv6_colon (ipv6_compressed hscope)), fun hdot => ?_⟩
    · rcases hchars c hc with rfl | hc
      · decide
      · exact hsub c hc
    · exact absurd (hchars '.' (List.mem_of_getLast? hdot)) (by decide)

theorem CanonicalHost.not_mem (h : CanonicalHost host authority)
    (hc : c ∉ canonicalChars) : c ∉ host := fun hmem => hc (h.chars.1 c hmem)

theorem CanonicalHost.lower (h : CanonicalHost host authority) : host.map Char.toLower = host := by
  have hlower : ∀ c ∈ canonicalChars, c.toLower = c := List.all_iff_forall_prop.mp (by decide)
  exact (List.map_congr_left fun c hc => hlower c (h.chars.1 c hc)).trans (List.map_id host)

-- A canonical authority stands in brackets exactly when its host is an address.
theorem CanonicalHost.netloc_cases (h : CanonicalHost host authority) (port : Option Nat) :
    (authority ++ portText port = host ++ portText port ∧ ':' ∉ host) ∨
      (authority ++ portText port = '[' :: (host ++ ']' :: portText port) ∧
        (∃ a : Ipv6Address, a.scope = none ∧ host = a.compressed)) := by
  cases h with
  | name hread hchars => exact .inl ⟨rfl, hostChars_not_colon hchars⟩
  | address hscope => exact .inr ⟨by simp, _, hscope, rfl⟩

theorem CanonicalHost.hostinfo_eq (h : CanonicalHost host authority) :
    hostinfo (authority ++ portText port) = (host, portDigits port) := by
  rcases h.netloc_cases port with ⟨hnetloc, hcolon⟩ | ⟨hnetloc, -⟩
  · rw [hnetloc, hostinfo_plain (h.not_mem (by decide)) (h.not_mem (by decide)) hcolon]
  · rw [hnetloc, hostinfo_bracketed (h.not_mem (by decide)) (h.not_mem (by decide))]

theorem bracketedHost_compressed {a : Ipv6Address} (hscope : a.scope = none) : bracketedHost a.compressed = true := by
  have hhead : a.compressed.head? ≠ some 'v' := fun hv =>
    absurd (compressed_chars hscope 'v' (List.mem_of_head? hv)) (by decide)
  rw [bracketedHost, if_neg hhead, ipAddress_v6_iff.mpr (ipv6_compressed hscope)]

theorem CanonicalHost.checkBrackets_eq (h : CanonicalHost host authority) :
    checkBrackets bracketedHost (authority ++ portText port) = true := by
  rcases h.netloc_cases port with ⟨hnetloc, -⟩ | ⟨hnetloc, a, hscope, rfl⟩
  · have hnot (c : Char) (hc : c ∉ canonicalChars) (hdigit : c.isDigit = false) : c ∉ host ++ portText port := by
      intro hmem
      refine (List.mem_append.mp hmem).elim (h.not_mem hc) (portText_not_mem ?_ hdigit)
      rintro rfl
      exact hc List.mem_cons_self
    rw [hnetloc]
    exact checkBrackets_plain bracketedHost (hnot '[' (by decide) rfl) (hnot ']' (by decide) rfl)
  · rw [hnetloc]
    exact checkBrackets_bracketed (h.not_mem (by decide)) (h.not_mem (by decide)) (bracketedHost_compressed hscope)

theorem CanonicalHost.bracketedNetloc_eq (h : CanonicalHost host authority)
    (hbracket : '[' ∈ authority ++ portText port ∨ ']' ∈ authority ++ portText port) :
    bracketedNetloc (authority ++ portText port) = true := by
  rcases h.netloc_cases port with ⟨hnetloc, -⟩ | ⟨hnetloc, a, hscope, rfl⟩
  · rw [hnetloc, List.mem_append, List.mem_append] at hbracket
    rcases hbracket with (hhost | hport) | hhost | hport
    · exact absurd hhost (h.not_mem (by decide))
    · exact absurd hport (portText_not_mem (by decide) rfl)
    · exact absurd hhost (h.not_mem (by decide))
    · exact absurd hport (portText_not_mem (by decide) rfl)
  · have hall : a.compressed.all (fun c => (hexValue c).isSome || c ∈ [':', '.']) = true := by
      have hdigits : ∀ c ∈ lowerHexDigits, (hexValue c).isSome = true := List.all_iff_forall_prop.mp (by decide)
      refine List.all_eq_true.mpr fun c hc => ?_
      rcases compressed_chars hscope c hc with rfl | hc
      · decide
      · rw [hdigits c hc, Bool.true_or]
    have hport : (portText port = [] || (portText port).head? = some ':' && (portText port).tail ≠ [] &&
        (portText port).tail.all Char.isDigit) = true := by
      cases port with
      | none => rfl
      | some p =>
        have hdigits : (Nat.toDigits 10 p).all Char.isDigit = true :=
          List.all_eq_true.mpr fun c hc => Nat.isDigit_of_mem_toDigits (by decide) (by decide) hc
        simp [portText, hdigits]
    have hne : a.compressed ≠ [] := h.chars.2.1
    have hclose : ']' ∉ a.compressed := h.not_mem (by decide)
    rw [hnetloc, bracketedNetloc, List.tail_cons, partitionAt_append hclose]
    dsimp only
    rw [hport, hall, decide_eq_true hne]
    simp

def netlocChars : List Char := '[' :: ']' :: canonicalChars

theorem CanonicalHost.netloc_chars (h : CanonicalHost host authority) : ∀ c ∈ authority ++ portText port, c ∈ netlocChars := by
  have hhost : ∀ c ∈ host, c ∈ netlocChars := fun c hc =>
    List.mem_cons_of_mem _ (List.mem_cons_of_mem _ (h.chars.1 c hc))
  have hport : ∀ c ∈ portText port, c ∈ netlocChars := by
    have hdigits : ∀ c ∈ decimalDigits, c ∈ netlocChars := List.all_iff_forall_prop.mp (by decide)
    intro c hc
    rcases portText_chars hc with rfl | hdigit
    · decide
    · exact hdigits c (digit_mem hdigit)
  intro c hc
  rcases h.netloc_cases port with ⟨hnetloc, -⟩ | ⟨hnetloc, -⟩
  · rw [hnetloc] at hc
    exact (List.mem_append.mp hc).elim (hhost c) (hport c)
  · rw [hnetloc, List.mem_cons, List.mem_append, List.mem_cons] at hc
    rcases hc with rfl | hc | rfl | hc
    · exact List.mem_cons_self
    · exact hhost c hc
    · decide
    · exact hport c hc

theorem originText_chars (h : CanonicalHost host authority) (hscheme : scheme ∈ [http, https]) (port : Option Nat) :
    ∀ c ∈ originText scheme authority port, visible c = true ∧ c ≠ '?' ∧ c ≠ '#' := by
  have hletters : ∀ scheme ∈ [http, https], ∀ c ∈ scheme ++ [':', '/', '/'], visible c = true ∧ c ≠ '?' ∧ c ≠ '#' := by
    intro scheme hscheme
    refine List.all_iff_forall_prop.mp ?_
    revert scheme
    decide
  have hnetloc : ∀ c ∈ netlocChars, visible c = true ∧ c ≠ '?' ∧ c ≠ '#' :=
    List.all_iff_forall_prop.mp (by decide)
  intro c hc
  rcases List.mem_append.mp hc with hc | hc
  · exact hletters scheme hscheme c hc
  · exact hnetloc c (h.netloc_chars c hc)

def originParts (scheme authority : List Char) (port : Option Nat) : SplitResult :=
  ⟨scheme, authority ++ portText (port.filter (· ≠ defaultPort scheme)), [], [], []⟩

theorem urlsplit_originText (h : CanonicalHost host authority) (hscheme : scheme ∈ [http, https]) (port : Option Nat) :
    urlsplit normalize bracketedHost (originText scheme authority port) = some (originParts scheme authority port) := by
  have hschemes : ∀ scheme ∈ [http, https], scheme.head?.any Char.isAlpha = true ∧ scheme.all schemeChar = true ∧
      scheme.map Char.toLower = scheme := by decide
  obtain ⟨halpha, hchars, hlower⟩ := hschemes scheme hscheme
  have hends : ∀ c ∈ netlocChars, netlocEnd c = false := List.all_iff_forall_prop.mp (by decide)
  exact urlsplit_authority normalize halpha hchars hlower (fun c hc => (originText_chars h hscheme port c hc).1)
    (fun c hc => hends c (h.netloc_chars c hc)) h.checkBrackets_eq

theorem canonicalHost_originParts (h : CanonicalHost host authority) (port : Option Nat) :
    canonicalHost (originParts scheme authority port) = host := by
  have hname : (originParts scheme authority port).hostname = some host :=
    hostname_lower (congrArg Prod.fst h.hostinfo_eq) h.chars.2.1 (h.not_mem (by decide)) h.lower
  rw [canonicalHost, hname, Option.getD_some, h.lower, removeDot, if_neg h.chars.2.2]

theorem port_originParts (h : CanonicalHost host authority) (hport : ∀ p ∈ port, p ≤ 65535) :
    (originParts scheme authority port).port = some (port.filter (· ≠ defaultPort scheme)) :=
  port_of_digits (congrArg Prod.snd h.hostinfo_eq) fun p hp => hport p (Option.filter_eq_some_iff.mp hp).1

theorem refused_originText (h : CanonicalHost host authority) (hscheme : scheme ∈ [http, https]) (port : Option Nat) :
    ¬refused (originText scheme authority port) (originParts scheme authority port) := by
  have huser : userinfo (originParts scheme authority port).netloc = none :=
    userinfo_eq_none.mpr fun hat => absurd (h.netloc_chars '@' hat) (by decide)
  have hmarks := originText_chars h hscheme port
  simp only [refused, not_or, not_not]
  refine ⟨hscheme, ?_, ?_, ?_, List.mem_cons_self, rfl, rfl, fun hmark => ?_, fun hmark => ?_⟩
  · rw [canonicalHost_originParts h]
    exact h.chars.2.1
  · rw [SplitResult.username, huser, Option.map_none]
  · rw [SplitResult.password, huser, Option.bind_none]
  · exact (hmarks '?' hmark).2.1 rfl
  · exact (hmarks '#' hmark).2.2 rfl

-- A canonical origin is accepted and stays as it is.
theorem canonicalEmailOrigin_originText (h : CanonicalHost host authority) (hscheme : scheme ∈ [http, https])
    (hport : ∀ p ∈ port, p ≤ 65535) :
    canonicalEmailOrigin normalize (originText scheme authority port) = some (originText scheme authority port) := by
  have hvisible : (originText scheme authority port).all visible = true :=
    List.all_eq_true.mpr fun c hc => (originText_chars h hscheme port c hc).1
  have hne : originText scheme authority port ≠ [] := by simp [originText]
  have hbrackets : ¬(('[' ∈ (originParts scheme authority port).netloc ∨ ']' ∈ (originParts scheme authority port).netloc) ∧
      ¬bracketedNetloc (originParts scheme authority port).netloc = true) :=
    fun hnot => hnot.2 (h.bracketedNetloc_eq hnot.1)
  have hfilter : (port.filter (· ≠ defaultPort scheme)).filter (· ≠ defaultPort scheme) =
      port.filter (· ≠ defaultPort scheme) := by
    cases port with
    | none => rfl
    | some p => by_cases hp : p = defaultPort scheme <;> simp [hp]
  rw [canonicalEmailOrigin, if_neg (by simp [hne, hvisible]), urlsplit_originText normalize h hscheme, Option.bind_some,
    port_originParts h hport, Option.bind_some, if_neg (refused_originText h hscheme port), if_neg hbrackets,
    canonicalHost_originParts h, h.authorityOf_eq, Option.map_some]
  exact congrArg (fun port => some (scheme ++ [':', '/', '/'] ++ (authority ++ portText port))) hfilter

end Reading

end EmailClient

end Beyvra
