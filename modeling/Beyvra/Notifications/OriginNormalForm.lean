import Beyvra.Notifications.EmailOrigin

namespace Beyvra

open Text

namespace EmailClient

variable {normalize : List Char → List Char} {value value' origin origin' authority authority' host host' : List Char}
  {scheme scheme' : List Char} {parsed parsed' : SplitResult} {port port' : Option Nat} {c : Char}

section Acceptance

theorem mem_canonicalHost (hc : c.isAlpha = false) (h : c ∈ canonicalHost parsed) : c ∈ (hostinfo parsed.netloc).1 := by
  have hlower : c ∈ (parsed.hostname.getD []).map Char.toLower := by
    rw [canonicalHost, removeDot] at h
    split at h
    · exact List.dropLast_subset _ h
    · exact h
  obtain ⟨d, hd, heq⟩ := List.mem_map.mp hlower
  obtain rfl := eq_of_toLower hc heq
  cases hname : parsed.hostname with
  | none =>
    rw [hname] at hd
    exact absurd hd List.not_mem_nil
  | some host =>
    rw [hname] at hd
    exact mem_hostinfo_of_hostname hc hname hd

theorem bracketedNetloc_zone {netloc : List Char} (h : bracketedNetloc netloc = true) (hat : '@' ∉ netloc) :
    '%' ∉ (hostinfo netloc).1 := by
  simp only [bracketedNetloc, Bool.and_eq_true] at h
  obtain ⟨⟨⟨⟨hhead, -⟩, -⟩, hall⟩, -⟩ := h
  obtain ⟨rest, rfl⟩ := List.head?_eq_some_iff.mp (of_decide_eq_true hhead)
  have hopen : partitionAt '[' ('[' :: rest) = ([], rest) := partitionAt_append List.not_mem_nil rest
  rw [hostinfo, lastSegment_not_mem hat]
  dsimp only
  rw [if_pos List.mem_cons_self, hopen]
  intro hzone
  exact absurd (List.all_eq_true.mp hall '%' hzone) (by decide)

structure Accepted (normalize : List Char → List Char) (value : List Char) (parsed : SplitResult) (port : Option Nat)
    (authority : List Char) : Prop where
  split : urlsplit normalize bracketedHost value = some parsed
  port_eq : parsed.port = some port
  scheme : parsed.scheme ∈ [http, https]
  authority_eq : authorityOf (canonicalHost parsed) = some authority
  zone : ':' ∈ canonicalHost parsed → '%' ∉ canonicalHost parsed

theorem accepted_of_canonical (h : canonicalEmailOrigin normalize value = some origin) :
    ∃ parsed port authority, Accepted normalize value parsed port authority ∧
      origin = originText parsed.scheme authority port := by
  rw [canonicalEmailOrigin] at h
  split at h
  · cases h
  obtain ⟨parsed, hparsed, h⟩ := Option.bind_eq_some_iff.mp h
  obtain ⟨port, hport, h⟩ := Option.bind_eq_some_iff.mp h
  split at h
  · cases h
  rename_i hrefused
  split at h
  · cases h
  rename_i hbrackets
  obtain ⟨authority, hauthority, horigin⟩ := Option.map_eq_some_iff.mp h
  simp only [refused, not_or, not_not] at hrefused
  obtain ⟨hscheme, -, huser, -⟩ := hrefused
  have hat : '@' ∉ parsed.netloc := userinfo_eq_none.mp (Option.map_eq_none_iff.mp huser)
  refine ⟨parsed, port, authority, ⟨hparsed, hport, hscheme, hauthority, fun hcolon hzone => ?_⟩, horigin.symm⟩
  by_cases hopen : '[' ∈ parsed.netloc
  · have hmatch : bracketedNetloc parsed.netloc = true := by
      by_contra hno
      exact hbrackets ⟨.inl hopen, hno⟩
    exact bracketedNetloc_zone hmatch hat (mem_canonicalHost rfl hzone)
  · exact hostinfo_colon hopen (mem_canonicalHost rfl hcolon)

theorem Accepted.canonicalHost (h : Accepted normalize value parsed port authority) : ∃ host, CanonicalHost host authority := by
  rcases authorityOf_cases h.authority_eq h.zone with ⟨-, hhost⟩ | ⟨a, -, hscope, rfl⟩
  · exact ⟨_, hhost⟩
  · exact ⟨_, .address hscope⟩

-- Equal authorities come from equal hosts.
theorem Accepted.authority_iff (h : Accepted normalize value parsed port authority)
    (h' : Accepted normalize value' parsed' port' authority') : authority = authority' ↔ SameHost parsed parsed' := by
  constructor
  · intro heq
    rcases authorityOf_cases h.authority_eq h.zone with ⟨hname, hhost⟩ | ⟨a, hread, hscope, hname⟩ <;>
      rcases authorityOf_cases h'.authority_eq h'.zone with ⟨hname', hhost'⟩ | ⟨a', hread', hscope', hname'⟩
    · exact .inl (hname.symm.trans (heq.trans hname'))
    · refine absurd ?_ (hhost.not_mem (by decide : '[' ∉ canonicalChars))
      rw [← hname, heq, hname']
      exact List.mem_cons_self
    · refine absurd ?_ (hhost'.not_mem (by decide : '[' ∉ canonicalChars))
      rw [← hname', ← heq, hname]
      exact List.mem_cons_self
    · have hcompressed : a.compressed = a'.compressed := by
        rw [hname, hname'] at heq
        exact List.append_cancel_right (List.cons.inj heq).2
      have hsame : some a = some a' := by
        rw [← ipv6_compressed hscope, hcompressed, ipv6_compressed hscope']
      obtain rfl := Option.some.inj hsame
      exact .inr ⟨a, hread, hread'⟩
  · have hauthority := h.authority_eq
    have hauthority' := h'.authority_eq
    rintro (heq | ⟨a, hread, hread'⟩)
    · rw [heq] at hauthority
      exact Option.some.inj (hauthority.symm.trans hauthority')
    · rw [authorityOf, ipAddress_v6_iff.mpr hread] at hauthority
      rw [authorityOf, ipAddress_v6_iff.mpr hread'] at hauthority'
      exact Option.some.inj (hauthority.symm.trans hauthority')

end Acceptance

section Equality

theorem portDigits_injective (h : portDigits port = portDigits port') : port = port' := by
  cases port with
  | none =>
    cases port' with
    | none => rfl
    | some p => exact absurd h.symm Nat.toDigits_ne_nil
  | some p =>
    cases port' with
    | none => exact absurd h Nat.toDigits_ne_nil
    | some p' =>
      have hdigits : Nat.toDigits 10 p = Nat.toDigits 10 p' := h
      rw [← Nat.ofDigitChars_ten_toDigits (n := p), hdigits, Nat.ofDigitChars_ten_toDigits]

theorem filter_port_iff (d : Nat) : port.filter (· ≠ d) = port'.filter (· ≠ d) ↔ port.getD d = port'.getD d := by
  have hfilter (port : Option Nat) : port.filter (· ≠ d) = if port.getD d = d then none else some (port.getD d) := by
    cases port with
    | none => simp
    | some p => by_cases hp : p = d <;> simp [hp]
  rw [hfilter, hfilter]
  generalize port.getD d = effective
  generalize port'.getD d = effective'
  by_cases h : effective = d <;> by_cases h' : effective' = d
  · simp [h, h']
  · rw [if_pos h, if_neg h']
    exact iff_of_false nofun fun heq => h' (heq.symm.trans h)
  · rw [if_neg h, if_pos h']
    exact iff_of_false nofun fun heq => h (heq.trans h')
  · rw [if_neg h, if_neg h', Option.some.injEq]

theorem originText_inj (h : CanonicalHost host authority) (h' : CanonicalHost host' authority')
    (hscheme : scheme ∈ [http, https]) (hscheme' : scheme' ∈ [http, https]) :
    originText scheme authority port = originText scheme' authority' port' ↔
      scheme = scheme' ∧ authority = authority' ∧ port.getD (defaultPort scheme) = port'.getD (defaultPort scheme') := by
  constructor
  · intro heq
    have hparts := urlsplit_originText id h hscheme port
    rw [heq, urlsplit_originText id h' hscheme' port'] at hparts
    have hsplit : originParts scheme' authority' port' = originParts scheme authority port := Option.some.inj hparts
    have hschemes : scheme' = scheme := congrArg SplitResult.scheme hsplit
    have hinfo := congrArg (fun parsed => hostinfo parsed.netloc) hsplit
    simp only [originParts, h.hostinfo_eq, h'.hostinfo_eq, Prod.mk.injEq] at hinfo
    obtain ⟨rfl, hport⟩ := hinfo
    subst hschemes
    have hauthority : some authority = some authority' := h.authorityOf_eq.symm.trans h'.authorityOf_eq
    exact ⟨rfl, Option.some.inj hauthority, ((filter_port_iff _).mp (portDigits_injective hport)).symm⟩
  · rintro ⟨rfl, rfl, hport⟩
    rw [originText, originText, (filter_port_iff _).mpr hport]

theorem canonical_eq_iff (h : canonicalEmailOrigin normalize value = some origin)
    (h' : canonicalEmailOrigin normalize value' = some origin') : origin = origin' ↔ SameOrigin normalize value value' := by
  obtain ⟨parsed, port, authority, haccepted, rfl⟩ := accepted_of_canonical h
  obtain ⟨parsed', port', authority', haccepted', rfl⟩ := accepted_of_canonical h'
  obtain ⟨host, hhost⟩ := haccepted.canonicalHost
  obtain ⟨host', hhost'⟩ := haccepted'.canonicalHost
  have hport : effectivePort parsed = some (port.getD (defaultPort parsed.scheme)) := by
    rw [effectivePort, haccepted.port_eq, Option.map_some]
  have hport' : effectivePort parsed' = some (port'.getD (defaultPort parsed'.scheme)) := by
    rw [effectivePort, haccepted'.port_eq, Option.map_some]
  rw [originText_inj hhost hhost' haccepted.scheme haccepted'.scheme, haccepted.authority_iff haccepted']
  constructor
  · rintro ⟨hscheme, hsame, heq⟩
    exact ⟨parsed, parsed', haccepted.split, haccepted'.split, hscheme, hsame, by rw [hport, hport', heq]⟩
  · rintro ⟨_, _, hsplit, hsplit', hscheme, hsame, heq⟩
    obtain rfl := Option.some.inj (haccepted.split.symm.trans hsplit)
    obtain rfl := Option.some.inj (haccepted'.split.symm.trans hsplit')
    rw [hport, hport'] at heq
    exact ⟨hscheme, hsame, Option.some.inj heq⟩

theorem canonical_idempotent (h : canonicalEmailOrigin normalize value = some origin) :
    canonicalEmailOrigin normalize origin = some origin := by
  obtain ⟨parsed, port, authority, haccepted, rfl⟩ := accepted_of_canonical h
  obtain ⟨host, hhost⟩ := haccepted.canonicalHost
  exact canonicalEmailOrigin_originText normalize hhost haccepted.scheme (port_le haccepted.port_eq)

-- An allowlist that is read holds the origins of its entries.
theorem allowedOrigins_read {entries : List (Option (List Char))} {origins : List (List Char)}
    (h : allowedOrigins normalize entries = some origins) :
    entries.map (·.bind (canonicalEmailOrigin normalize)) = origins.map some := by
  induction entries generalizing origins with
  | nil =>
    obtain rfl := Option.some.inj h
    rfl
  | cons entry entries ih =>
    rw [allowedOrigins, List.mapM_cons] at h
    obtain ⟨first, hfirst, h⟩ := Option.bind_eq_some_iff.mp h
    obtain ⟨rest, hrest, h⟩ := Option.bind_eq_some_iff.mp h
    obtain rfl := Option.some.inj h
    rw [List.map_cons, List.map_cons, hfirst, ih hrest]

theorem mem_allowedOrigins {entries : List (Option (List Char))} {origins : List (List Char)}
    (h : allowedOrigins normalize entries = some origins) :
    origin ∈ origins ↔ ∃ entry, some entry ∈ entries ∧ canonicalEmailOrigin normalize entry = some origin := by
  have hread : origin ∈ origins ↔ some origin ∈ entries.map (·.bind (canonicalEmailOrigin normalize)) := by
    rw [allowedOrigins_read h, List.mem_map_of_injective (Option.some_injective _)]
  rw [hread, List.mem_map]
  constructor
  · rintro ⟨entry, hentry, heq⟩
    obtain ⟨text, rfl, heq⟩ := Option.bind_eq_some_iff.mp heq
    exact ⟨text, hentry, heq⟩
  · rintro ⟨text, hentry, heq⟩
    exact ⟨some text, hentry, heq⟩

-- The origin is on the list exactly when an entry has the same origin.
theorem mem_allowedOrigins_iff {entries : List (Option (List Char))} {origins : List (List Char)}
    (h : canonicalEmailOrigin normalize value = some origin) (hentries : allowedOrigins normalize entries = some origins) :
    origin ∈ origins ↔ ∃ entry, some entry ∈ entries ∧ SameOrigin normalize value entry := by
  rw [mem_allowedOrigins hentries]
  refine exists_congr fun entry => and_congr_right fun hentry => ?_
  obtain ⟨origin', -, hread⟩ : ∃ origin' ∈ origins, canonicalEmailOrigin normalize entry = some origin' := by
    have hmem : canonicalEmailOrigin normalize entry ∈ origins.map some := by
      rw [← allowedOrigins_read hentries]
      exact List.mem_map.mpr ⟨some entry, hentry, rfl⟩
    obtain ⟨origin', hmem, heq⟩ := List.mem_map.mp hmem
    exact ⟨origin', hmem, heq.symm⟩
  rw [← canonical_eq_iff h hread, hread, Option.some.injEq, eq_comm]

-- The base URL is the canonical form of the destination, which has the origin of an entry and no forbidden host.
theorem middlewareBaseUrl_ok {settings : EmailSettings} (h : middlewareBaseUrl normalize settings = .ok origin) :
    canonicalEmailOrigin normalize settings.destination = some origin ∧
      canonicalEmailOrigin normalize origin = some origin ∧
      (urlsplit normalize bracketedHost origin).bind SplitResult.hostname ∉ forbiddenHosts.map some ∧
      ∃ entries entry, settings.allowed.list = some entries ∧ some entry ∈ entries ∧
        SameOrigin normalize settings.destination entry := by
  rw [middlewareBaseUrl] at h
  split at h
  · exact nomatch h
  cases hcanonical : canonicalEmailOrigin normalize settings.destination with
  | none =>
    rw [hcanonical] at h
    exact nomatch h
  | some canonical =>
    rw [hcanonical] at h
    dsimp only at h
    split at h
    · split at h <;> exact nomatch h
    rename_i hhost
    split at h
    · exact nomatch h
    · exact nomatch h
    rename_i entries _ hentries
    split at h
    · exact nomatch h
    rename_i origins horigins
    split at h
    · exact nomatch h
    rename_i hmem
    obtain rfl := Except.ok.inj h
    obtain ⟨entry, hentry, hsame⟩ := (mem_allowedOrigins_iff hcanonical horigins).mp (not_not.mp hmem)
    exact ⟨rfl, canonical_idempotent hcanonical, hhost, entries, entry, hentries, hentry, hsame⟩

-- The email origin is a canonical form of the scheme, the host and the effective port.
theorem canonicalEmailOrigin_normal_form (h : canonicalEmailOrigin normalize value = some origin) :
    canonicalEmailOrigin normalize origin = some origin ∧
      (∀ value' origin', canonicalEmailOrigin normalize value' = some origin' →
        (origin = origin' ↔ SameOrigin normalize value value')) ∧
      ∀ entries origins, allowedOrigins normalize entries = some origins →
        (origin ∈ origins ↔ ∃ entry, some entry ∈ entries ∧ SameOrigin normalize value entry) :=
  ⟨canonical_idempotent h, fun _ _ h' => canonical_eq_iff h h', fun _ _ hentries => mem_allowedOrigins_iff h hentries⟩

theorem canonicalEmailOrigin_normal_form_loopback :
    canonicalEmailOrigin id "https://[::1]".toList = some "https://[::1]".toList ∧
      (∀ value' origin', canonicalEmailOrigin id value' = some origin' →
        ("https://[::1]".toList = origin' ↔ SameOrigin id "HTTPS://[0:0:0:0:0:0:0:1]:0443/".toList value')) ∧
      ∀ entries origins, allowedOrigins id entries = some origins →
        ("https://[::1]".toList ∈ origins ↔
          ∃ entry, some entry ∈ entries ∧ SameOrigin id "HTTPS://[0:0:0:0:0:0:0:1]:0443/".toList entry) :=
  canonicalEmailOrigin_normal_form (by decide)

end Equality

end EmailClient

end Beyvra
