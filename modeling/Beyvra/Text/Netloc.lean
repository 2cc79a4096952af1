import Beyvra.Text.IpAddress

namespace Text

-- What a result of `urlsplit` reads from its netloc

-- `_hostinfo`
def hostinfo (netloc : List Char) : List Char × List Char :=
  let hostinfo := lastSegment '@' netloc
  if '[' ∈ hostinfo then
    let (hostname, rest) := partitionAt ']' (partitionAt '[' hostinfo).2
    (hostname, (partitionAt ':' rest).2)
  else partitionAt ':' hostinfo

def userinfo (netloc : List Char) : Option (List Char) :=
  if '@' ∈ netloc then some (netloc.take (netloc.length - (lastSegment '@' netloc).length - 1)) else none

def SplitResult.username (parsed : SplitResult) : Option (List Char) :=
  (userinfo parsed.netloc).map fun info => (partitionAt ':' info).1

def SplitResult.password (parsed : SplitResult) : Option (List Char) :=
  (userinfo parsed.netloc).bind fun info => if ':' ∈ info then some (partitionAt ':' info).2 else none

-- The zone of an address keeps its case.
def SplitResult.hostname (parsed : SplitResult) : Option (List Char) :=
  let host := (hostinfo parsed.netloc).1
  if host = [] then none
  else
    let (name, zone) := partitionAt '%' host
    some (name.map Char.toLower ++ if '%' ∈ host then '%' :: zone else [])

-- Nothing where it raises ValueError; `int` reads at most 4300 digits.
def SplitResult.port (parsed : SplitResult) : Option (Option Nat) :=
  let digits := (hostinfo parsed.netloc).2
  if digits = [] then some none
  else if digits.all Char.isDigit ∧ digits.length ≤ 4300 ∧ Nat.ofDigitChars 10 digits 0 ≤ 65535 then
    some (some (Nat.ofDigitChars 10 digits 0))
  else none

-- `v[a-fA-F0-9]+\..+`
def ipvFuture (host : List Char) : Bool :=
  let (version, address) := partitionAt '.' host.tail
  host.head? = some 'v' && '.' ∈ host && version ≠ [] && version.all (fun c => (hexValue c).isSome) && address ≠ [] &&
    '\n' ∉ address

-- `_check_bracketed_host`
def bracketedHost (host : List Char) : Bool :=
  if host.head? = some 'v' then ipvFuture host
  else
    match ipAddress host with
    | some (.v6 _) => true
    | _ => false

def portDigits : Option Nat → List Char
  | none => []
  | some port => Nat.toDigits 10 port

def portText : Option Nat → List Char
  | none => []
  | some port => ':' :: Nat.toDigits 10 port

def visible (c : Char) : Bool := 32 < c.toNat && c.toNat < 127

section Port

variable {port : Option Nat} {c : Char}

theorem portText_chars (h : c ∈ portText port) : c = ':' ∨ c.isDigit = true := by
  cases port with
  | none => exact nomatch h
  | some port =>
    rcases List.mem_cons.mp h with rfl | hdigit
    · exact .inl rfl
    · exact .inr (Nat.isDigit_of_mem_toDigits (by decide) (by decide) hdigit)

theorem portText_not_mem (hcolon : c ≠ ':') (hdigit : c.isDigit = false) : c ∉ portText port := by
  intro hc
  rcases portText_chars hc with rfl | hc
  · exact hcolon rfl
  · rw [hdigit] at hc
    exact nomatch hc

theorem partitionAt_port : (partitionAt ':' (portText port)).2 = portDigits port := by
  cases port with
  | none => rfl
  | some port => rfl

theorem portDigits_read {p : Nat} (hp : p ≤ 65535) : (portDigits (some p)).all Char.isDigit = true ∧
    (portDigits (some p)).length ≤ 4300 ∧ Nat.ofDigitChars 10 (portDigits (some p)) 0 = p := by
  refine ⟨?_, ?_, Nat.ofDigitChars_ten_toDigits⟩
  · exact List.all_eq_true.mpr fun c hc => Nat.isDigit_of_mem_toDigits (by decide) (by decide) hc
  · have hlength : (Nat.toDigits 10 p).length ≤ 5 := (Nat.length_toDigits_le_iff (by decide) (by decide)).mpr (by omega)
    exact hlength.trans (by decide)

theorem port_of_digits {parsed : SplitResult} (hdigits : (hostinfo parsed.netloc).2 = portDigits port)
    (hport : ∀ p ∈ port, p ≤ 65535) : parsed.port = some port := by
  rw [SplitResult.port, hdigits]
  cases port with
  | none => rfl
  | some p =>
    obtain ⟨hall, hlength, hvalue⟩ := portDigits_read (hport p rfl)
    have hne : portDigits (some p) ≠ [] := Nat.toDigits_ne_nil
    rw [if_neg hne, hvalue, if_pos ⟨hall, hlength, hport p rfl⟩]

theorem port_le {parsed : SplitResult} (h : parsed.port = some port) : ∀ p ∈ port, p ≤ 65535 := by
  rw [SplitResult.port] at h
  split at h
  · obtain rfl := Option.some.inj h
    exact nofun
  split at h
  · rename_i hread
    obtain rfl := Option.some.inj h
    rintro p hp
    obtain rfl := Option.some.inj hp
    exact hread.2.2
  · exact nomatch h

end Port

section Hostname

variable {netloc : List Char} {parsed : SplitResult} {c d : Char}

-- Only a letter is written in another case.
theorem eq_of_toLower (hd : d.isAlpha = false) (h : c.toLower = d) : c = d := by
  delta Char.toLower at h
  split at h
  · rename_i hupper
    have hlow : 65 ≤ c.val.toNat := UInt32.le_iff_toNat_le.mp hupper.1
    have hhigh : c.val.toNat ≤ 90 := UInt32.le_iff_toNat_le.mp hupper.2
    have hval : d.val.toNat = (c.val.toNat + 32) % 2 ^ 32 := by
      rw [← h]
      exact UInt32.toNat_add c.val 32
    have hbounds : 97 ≤ d.val.toNat ∧ d.val.toNat ≤ 122 := by omega
    have hlower : d.isLower = true := by
      delta Char.isLower
      rw [Bool.and_eq_true]
      exact ⟨decide_eq_true (UInt32.le_iff_toNat_le.mpr hbounds.1), decide_eq_true (UInt32.le_iff_toNat_le.mpr hbounds.2)⟩
    delta Char.isAlpha at hd
    rw [hlower, Bool.or_true] at hd
    cases hd
  · exact h

theorem mem_hostinfo_of_hostname (hc : c.isAlpha = false) {host : List Char} (hhost : parsed.hostname = some host)
    (h : c ∈ host) : c ∈ (hostinfo parsed.netloc).1 := by
  rw [SplitResult.hostname] at hhost
  split at hhost
  · exact nomatch hhost
  obtain rfl := Option.some.inj hhost
  rcases List.mem_append.mp h with hname | hzone
  · obtain ⟨d, hd, hlower⟩ := List.mem_map.mp hname
    exact List.takeWhile_subset _ (eq_of_toLower hc hlower ▸ hd)
  · split at hzone
    · rename_i hpercent
      rcases List.mem_cons.mp hzone with rfl | hzone
      · exact hpercent
      · exact List.dropWhile_subset _ (List.mem_of_mem_tail hzone)
    · exact nomatch hzone

-- Without brackets a host has no colon.
theorem hostinfo_colon (hopen : '[' ∉ netloc) : ':' ∉ (hostinfo netloc).1 := by
  have hlast : '[' ∉ lastSegment '@' netloc := fun h =>
    hopen (List.mem_reverse.mp (List.takeWhile_subset _ (List.mem_reverse.mp h)))
  rw [hostinfo]
  dsimp only
  rw [if_neg hlast, partitionAt]
  intro hcolon
  have hne := List.mem_takeWhile_imp hcolon
  exact of_decide_eq_true hne rfl

theorem userinfo_eq_none : userinfo netloc = none ↔ '@' ∉ netloc := by
  rw [userinfo]
  split <;> simp [*]

end Hostname

section Reading

variable {host scheme netloc url : List Char} {port : Option Nat} {c : Char} {parsed : SplitResult}

theorem hostinfo_plain (hat : '@' ∉ host) (hopen : '[' ∉ host) (hcolon : ':' ∉ host) :
    hostinfo (host ++ portText port) = (host, portDigits port) := by
  have hat' : '@' ∉ host ++ portText port := fun h =>
    (List.mem_append.mp h).elim hat (portText_not_mem (by decide) (by decide))
  have hopen' : '[' ∉ host ++ portText port := fun h =>
    (List.mem_append.mp h).elim hopen (portText_not_mem (by decide) (by decide))
  rw [hostinfo, lastSegment_not_mem hat']
  dsimp only
  rw [if_neg hopen']
  cases port with
  | none => rw [portText, List.append_nil, partitionAt_not_mem hcolon, portDigits]
  | some p => rw [portText, partitionAt_append hcolon, portDigits]

theorem hostinfo_bracketed (hat : '@' ∉ host) (hclose : ']' ∉ host) :
    hostinfo ('[' :: (host ++ ']' :: portText port)) = (host, portDigits port) := by
  have hat' : '@' ∉ '[' :: (host ++ ']' :: portText port) := by
    simp only [List.mem_cons, List.mem_append, not_or]
    exact ⟨by decide, hat, by decide, portText_not_mem (by decide) (by decide)⟩
  have hopen : partitionAt '[' ('[' :: (host ++ ']' :: portText port)) = ([], host ++ ']' :: portText port) :=
    partitionAt_append List.not_mem_nil _
  rw [hostinfo, lastSegment_not_mem hat']
  dsimp only
  rw [if_pos List.mem_cons_self, hopen]
  dsimp only
  rw [partitionAt_append hclose, partitionAt_port]

theorem hostname_lower (hhost : (hostinfo parsed.netloc).1 = host) (hne : host ≠ []) (hzone : '%' ∉ host)
    (hlower : host.map Char.toLower = host) : parsed.hostname = some host := by
  rw [SplitResult.hostname, hhost]
  dsimp only
  rw [if_neg hne, partitionAt_not_mem hzone]
  dsimp only
  rw [if_neg hzone, hlower, List.append_nil]

theorem cleanUrl_visible (h : ∀ c ∈ url, visible c = true) : cleanUrl url = url := by
  have hvisible (c : Char) (hc : visible c = true) : ¬c0ControlOrSpace c = true ∧ ¬unsafeUrlChar c = true := by
    rw [visible, Bool.and_eq_true] at hc
    have hlow := of_decide_eq_true hc.1
    refine ⟨fun hspace => absurd (of_decide_eq_true hspace) (by omega), fun hunsafe => ?_⟩
    have hmem : c ∈ ['\t', '\r', '\n'] := of_decide_eq_true hunsafe
    simp only [List.mem_cons, List.not_mem_nil, or_false] at hmem
    rcases hmem with rfl | rfl | rfl <;> exact absurd hlow (by decide)
  have hstrip : url.dropWhile c0ControlOrSpace = url := by
    cases url with
    | nil => rfl
    | cons c rest => exact List.dropWhile_cons_of_neg (hvisible c (h c List.mem_cons_self)).1
  rw [cleanUrl, hstrip]
  exact List.filter_eq_self.mpr fun c hc => by simpa using (hvisible c (h c hc)).2

-- A scheme, two slashes and an authority are read back.
theorem urlsplit_authority (normalize : List Char → List Char) {hostAllowed : List Char → Bool}
    (hscheme : scheme.head?.any Char.isAlpha = true) (hchars : scheme.all schemeChar = true)
    (hlower : scheme.map Char.toLower = scheme) (hvisible : ∀ c ∈ scheme ++ [':', '/', '/'] ++ netloc, visible c = true)
    (hnetloc : ∀ c ∈ netloc, netlocEnd c = false) (hbrackets : checkBrackets hostAllowed netloc = true) :
    urlsplit normalize hostAllowed (scheme ++ [':', '/', '/'] ++ netloc) = some ⟨scheme, netloc, [], [], []⟩ := by
  have hcolon : ':' ∉ scheme := fun h => absurd (List.all_eq_true.mp hchars ':' h) (by decide)
  have hurl : scheme ++ [':', '/', '/'] ++ netloc = scheme ++ ':' :: '/' :: '/' :: netloc := by simp
  have hsplit : splitScheme (scheme ++ ':' :: '/' :: '/' :: netloc) = (scheme, '/' :: '/' :: netloc) := by
    rw [splitScheme, partitionAt_append hcolon]
    dsimp only
    rw [if_pos ⟨List.mem_append_right scheme List.mem_cons_self, hscheme, hchars⟩, hlower]
  have hall : ∀ c ∈ netloc, (!netlocEnd c) = true := fun c hc => by rw [hnetloc c hc]; rfl
  have hparts : splitNetloc ('/' :: '/' :: netloc) = (netloc, []) := by
    rw [splitNetloc, List.takeWhile_eq_self_iff.mpr hall, List.dropWhile_eq_nil_iff.mpr hall]
  have hascii : checkNetloc normalize netloc = true := by
    have hbound : netloc.all (·.toNat < 128) = true := by
      refine List.all_eq_true.mpr fun c hc => decide_eq_true ?_
      have hc' := hvisible c (List.mem_append_right _ hc)
      rw [visible, Bool.and_eq_true] at hc'
      have hhigh := of_decide_eq_true hc'.2
      omega
    rw [checkNetloc, hbound]
    rfl
  rw [urlsplit, cleanUrl_visible hvisible, hurl, urlParts, hsplit, hparts]
  dsimp only
  rw [hbrackets, hascii]
  rfl

theorem checkBrackets_plain (hostAllowed : List Char → Bool) (hopen : '[' ∉ netloc) (hclose : ']' ∉ netloc) :
    checkBrackets hostAllowed netloc = true := by
  rw [checkBrackets, if_neg hopen]
  exact decide_eq_true hclose

theorem checkBrackets_bracketed {hostAllowed : List Char → Bool} (hat : '@' ∉ host) (hclose : ']' ∉ host)
    (hallowed : hostAllowed host = true) :
    checkBrackets hostAllowed ('[' :: (host ++ ']' :: portText port)) = true := by
  have hat' : '@' ∉ '[' :: (host ++ ']' :: portText port) := by
    simp only [List.mem_cons, List.mem_append, not_or]
    exact ⟨by decide, hat, by decide, portText_not_mem (by decide) (by decide)⟩
  have hopen : partitionAt '[' ('[' :: (host ++ ']' :: portText port)) = ([], host ++ ']' :: portText port) :=
    partitionAt_append List.not_mem_nil _
  have hmem : ']' ∈ '[' :: (host ++ ']' :: portText port) := by simp
  have hport : (portText port).head?.all (· = ':') = true := by cases port <;> rfl
  rw [checkBrackets, if_pos List.mem_cons_self, decide_eq_true hmem, Bool.true_and, checkBracketedNetloc,
    lastSegment_not_mem hat']
  dsimp only
  rw [if_pos List.mem_cons_self, hopen]
  dsimp only
  rw [partitionAt_append hclose]
  dsimp only
  rw [hport, hallowed]
  rfl

end Reading

end Text
