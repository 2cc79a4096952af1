import Beyvra.Relational.Table
import Beyvra.Users.KeycloakIdentity

namespace Beyvra

open Relational

namespace Keycloak

structure OidcSettings where
  identity : KeycloakSettings
  enabled : Bool
  -- What secrets.token_urlsafe gives, draw by draw
  token : Nat → String

structure TransactionData where
  nonce : String
  verifier : String
  nextPath : String
  deriving DecidableEq

-- A parameter that the query lacks is blank.
structure CallbackRequest where
  state : String
  error : String := ""
  code : String := ""
  deriving DecidableEq

inductive CallbackReply where
  | unavailable
  | invalidTransaction
  | cancelled
  | failed
  | serverError
  | signedIn (userId : Nat) (nextPath : String)
  deriving DecidableEq

inductive CallbackPhase where
  | arrived
  | found (data : TransactionData)
  | exchanging (data : TransactionData)
  | answered (reply : CallbackReply)
  deriving DecidableEq

structure Callback where
  request : CallbackRequest
  phase : CallbackPhase := .arrived
  -- the code exchange was reached
  proceeded : Bool := false
  deriving DecidableEq

structure OidcSystem where
  cache : Table String TransactionData := Table.empty
  draws : Nat := 0
  callbacks : Table Nat Callback := Table.empty
  identities : IdentityTables := {}

-- What the token endpoint, the check of its ID token and the session of the user come to
structure ExchangeOutcome where
  bind : Option BindCall
  sessionIssued : Bool

inductive OidcStep where
  | login (nextPath : String)
  | expire (state : String)
  | arrive (i : Nat) (request : CallbackRequest)
  | get (i : Nat)
  | delete (i : Nat)
  | exchange (i : Nat) (outcome : ExchangeOutcome)

def startAuthorization (settings : OidcSettings) (nextPath : String) (s : OidcSystem) : OidcSystem :=
  if settings.enabled then
    { s with
      cache := s.cache.put (settings.token s.draws)
        { nonce := settings.token (s.draws + 1), verifier := settings.token (s.draws + 2), nextPath }
      draws := s.draws + 3 }
  else s

def Callback.answer (callback : Callback) (reply : CallbackReply) : Callback :=
  { callback with phase := .answered reply }

def lookup (settings : OidcSettings) (cache : Table String TransactionData) (callback : Callback) : Callback :=
  let state := callback.request.state
  if !settings.enabled then callback.answer .unavailable
  else if 200 < state.length then callback.answer .invalidTransaction
  else match if state = "" then none else cache.find state with
    | none => callback.answer .invalidTransaction
    | some data => { callback with phase := .found data }

def CallbackRequest.carriesCode (request : CallbackRequest) : Bool := request.error = "" && request.code ≠ ""

def consumed (callback : Callback) (data : TransactionData) : Callback :=
  if callback.request.carriesCode then { callback with phase := .exchanging data, proceeded := true }
  else callback.answer .cancelled

def exchangeCode (settings : OidcSettings) (outcome : ExchangeOutcome) (data : TransactionData)
    (identities : IdentityTables) : CallbackReply × IdentityTables :=
  match outcome.bind with
  | none => (.failed, identities)
  | some call =>
    match bindUser settings.identity call identities with
    | .error (.permissionError _) => (.failed, identities)
    | .error .dataError => (.serverError, identities)
    | .ok (id, identities) =>
      if (identities.users[id]?).any (·.isActive) && outcome.sessionIssued then (.signedIn id data.nextPath, identities)
      else (.failed, identities)

def OidcSystem.save (s : OidcSystem) (i : Nat) (callback : Callback) : OidcSystem :=
  { s with callbacks := s.callbacks.put i callback }

def oidcStep (settings : OidcSettings) (s : OidcSystem) : OidcStep → OidcSystem
  | .login nextPath => startAuthorization settings nextPath s
  | .expire state => { s with cache := s.cache.erase state }
  | .arrive i request => if s.callbacks.find i = none then s.save i { request } else s
  | .get i =>
    match s.callbacks.find i with
    | some ⟨request, .arrived, proceeded⟩ => s.save i (lookup settings s.cache ⟨request, .arrived, proceeded⟩)
    | _ => s
  | .delete i =>
    match s.callbacks.find i with
    | some ⟨request, .found data, proceeded⟩ =>
      ({ s with cache := s.cache.erase request.state }).save i (consumed ⟨request, .found data, proceeded⟩ data)
    | _ => s
  | .exchange i outcome =>
    match s.callbacks.find i with
    | some ⟨request, .exchanging data, proceeded⟩ =>
      let (reply, identities) := exchangeCode settings outcome data s.identities
      ({ s with identities }).save i ⟨request, .answered reply, proceeded⟩
    | _ => s

variable {settings : OidcSettings} {s s' : OidcSystem} {i j : Nat} {c d c' : Callback} {data : TransactionData}

-- Between its cache get and its cache delete, or past both, with a code to exchange
def Callback.claims (callback : Callback) : Prop :=
  callback.request.carriesCode = true ∧ ((∃ data, callback.phase = .found data) ∨ callback.proceeded = true)

-- No callback that carries a code is between its get and its delete of the state.
def Alone (s : OidcSystem) (state : String) : Prop :=
  ∀ j d data, s.callbacks.find j = some d → d.phase = .found data → d.request.carriesCode = true → d.request.state ≠ state

inductive OidcChange (settings : OidcSettings) (s : OidcSystem) : OidcSystem → Prop where
  | nothing : OidcChange settings s s
  | started (nextPath : String) : OidcChange settings s (startAuthorization settings nextPath s)
  | expired (state : String) : OidcChange settings s { s with cache := s.cache.erase state }
  | arrived {i : Nat} (request : CallbackRequest) (hfree : s.callbacks.find i = none) :
      OidcChange settings s (s.save i { request })
  | found {i : Nat} {c : Callback} {data : TransactionData} (hcallback : s.callbacks.find i = some c)
      (hcache : s.cache.find c.request.state = some data) (halone : c.request.carriesCode = true → Alone s c.request.state) :
      OidcChange settings s (s.save i { c with phase := .found data })
  | deleted {i : Nat} {c : Callback} {data : TransactionData} (hcallback : s.callbacks.find i = some c)
      (hfound : c.phase = .found data) :
      OidcChange settings s (({ s with cache := s.cache.erase c.request.state }).save i (consumed c data))
  | answered {i : Nat} {c c' : Callback} (identities : IdentityTables) (hcallback : s.callbacks.find i = some c)
      (hrequest : c'.request = c.request) (hproceeded : c'.proceeded = c.proceeded)
      (hphase : ∀ data, c'.phase ≠ .found data) : OidcChange settings s (({ s with identities }).save i c')

-- A get that finds a transaction for a code finds it alone.
def Unraced (s : OidcSystem) : OidcStep → Prop
  | .get i => ∀ c, s.callbacks.find i = some c → c.phase = .arrived → c.request.carriesCode = true →
      s.cache.find c.request.state ≠ none → Alone s c.request.state
  | _ => True

theorem lookup_cases (settings : OidcSettings) (cache : Table String TransactionData) (c : Callback) :
    (∃ data, cache.find c.request.state = some data ∧ lookup settings cache c = { c with phase := .found data }) ∨
      ∃ reply, lookup settings cache c = c.answer reply := by
  simp only [lookup]
  split
  · exact .inr ⟨_, rfl⟩
  · split
    · exact .inr ⟨_, rfl⟩
    · split
      · exact .inr ⟨_, rfl⟩
      · rename_i data hfound
        split at hfound
        · cases hfound
        · exact .inl ⟨data, hfound, rfl⟩

theorem oidcStep_change {op : OidcStep} (h : Unraced s op) : OidcChange settings s (oidcStep settings s op) := by
  cases op with
  | login nextPath => exact .started nextPath
  | expire state => exact .expired state
  | arrive i request =>
    simp only [oidcStep]
    split
    · rename_i hfree
      exact .arrived request hfree
    · exact .nothing
  | get i =>
    cases hcallback : s.callbacks.find i with
    | none =>
      simp only [oidcStep, hcallback]
      exact .nothing
    | some c =>
      obtain ⟨request, phase, proceeded⟩ := c
      cases phase with
      | arrived =>
        simp only [oidcStep, hcallback]
        rcases lookup_cases settings s.cache ⟨request, .arrived, proceeded⟩ with ⟨data, hcache, heq⟩ | ⟨reply, heq⟩
        · rw [heq]
          refine .found hcallback hcache fun hcode => h _ hcallback rfl hcode ?_
          rw [hcache]
          exact Option.some_ne_none _
        · rw [heq]
          exact .answered s.identities hcallback rfl rfl fun _ hfound => by cases hfound
      | found data =>
        simp only [oidcStep, hcallback]
        exact .nothing
      | exchanging data =>
        simp only [oidcStep, hcallback]
        exact .nothing
      | answered reply =>
        simp only [oidcStep, hcallback]
        exact .nothing
  | delete i =>
    cases hcallback : s.callbacks.find i with
    | none =>
      simp only [oidcStep, hcallback]
      exact .nothing
    | some c =>
      obtain ⟨request, phase, proceeded⟩ := c
      cases phase with
      | found data =>
        simp only [oidcStep, hcallback]
        exact .deleted hcallback rfl
      | arrived =>
        simp only [oidcStep, hcallback]
        exact .nothing
      | exchanging data =>
        simp only [oidcStep, hcallback]
        exact .nothing
      | answered reply =>
        simp only [oidcStep, hcallback]
        exact .nothing
  | exchange i outcome =>
    cases hcallback : s.callbacks.find i with
    | none =>
      simp only [oidcStep, hcallback]
      exact .nothing
    | some c =>
      obtain ⟨request, phase, proceeded⟩ := c
      cases phase with
      | exchanging data =>
        simp only [oidcStep, hcallback]
        exact .answered _ hcallback rfl rfl fun _ hfound => by cases hfound
      | arrived =>
        simp only [oidcStep, hcallback]
        exact .nothing
      | found data =>
        simp only [oidcStep, hcallback]
        exact .nothing
      | answered reply =>
        simp only [oidcStep, hcallback]
        exact .nothing

def Drawn (settings : OidcSettings) (draws : Nat) (state : String) : Prop := ∃ n < draws, state = settings.token n

structure Spent (settings : OidcSettings) (cache : Table String TransactionData) (draws : Nat)
    (request : CallbackRequest) : Prop where
  code : request.carriesCode = true
  consumed : cache.find request.state = none
  drawn : Drawn settings draws request.state

structure SingleUse (settings : OidcSettings) (s : OidcSystem) : Prop where
  cached : ∀ state data, s.cache.find state = some data → Drawn settings s.draws state
  held : ∀ i c data, s.callbacks.find i = some c → c.phase = .found data → Drawn settings s.draws c.request.state
  spent : ∀ i c, s.callbacks.find i = some c → c.proceeded = true → Spent settings s.cache s.draws c.request
  sole : ∀ i j c d, s.callbacks.find i = some c → s.callbacks.find j = some d → c.claims → d.claims →
    c.request.state = d.request.state → i = j

theorem SingleUse.start (settings : OidcSettings) : SingleUse settings {} where
  cached := by simp
  held := by simp
  spent := by simp
  sole := by simp

theorem SingleUse.started (h : SingleUse settings s) (htoken : Function.Injective settings.token) (nextPath : String) :
    SingleUse settings (startAuthorization settings nextPath s) := by
  unfold startAuthorization
  split
  · have hlater : ∀ {state : String}, Drawn settings s.draws state → Drawn settings (s.draws + 3) state := by
      rintro state ⟨n, hn, rfl⟩
      exact ⟨n, by omega, rfl⟩
    refine ⟨?_, ?_, ?_, h.sole⟩
    · intro state data hstate
      rcases Table.find_put_cases hstate with ⟨rfl, -⟩ | ⟨-, hold⟩
      · exact ⟨s.draws, by simp, rfl⟩
      · exact hlater (h.cached state data hold)
    · intro i c data hc hphase
      exact hlater (h.held i c data hc hphase)
    · intro i c hc hproceeded
      obtain ⟨hcode, hnone, hdrawn⟩ := h.spent i c hc hproceeded
      refine ⟨hcode, ?_, hlater hdrawn⟩
      -- the fresh state is none that was drawn before
      obtain ⟨n, hn, heq⟩ := hdrawn
      rw [Table.find_put_of_ne, hnone]
      rw [heq]
      intro hsame
      have hdraw := htoken hsame
      omega
  · exact h

theorem SingleUse.expired (h : SingleUse settings s) (state : String) :
    SingleUse settings { s with cache := s.cache.erase state } where
  cached state' data hcached := h.cached state' data (Table.find_erase_eq_some.mp hcached).2
  held := h.held
  spent i c hc hproceeded := by
    obtain ⟨hcode, hnone, hdrawn⟩ := h.spent i c hc hproceeded
    refine ⟨hcode, ?_, hdrawn⟩
    by_cases hstate : c.request.state = state
    · rw [hstate]
      exact Table.find_erase_self _ _
    · rw [Table.find_erase_of_ne _ hstate, hnone]
  sole := h.sole

-- The rewritten callback keeps its state, and claims nothing it did not claim unless no other does.
theorem SingleUse.saved (h : SingleUse settings s) (hheld : ∀ data, c'.phase = .found data → Drawn settings s.draws c'.request.state)
    (hspent : c'.proceeded = true → Spent settings s.cache s.draws c'.request)
    (hsole : c'.claims → ∀ j d, j ≠ i → s.callbacks.find j = some d → d.claims → d.request.state ≠ c'.request.state) :
    SingleUse settings (s.save i c') where
  cached := h.cached
  held j d data hd hphase := by
    rcases Table.find_put_cases hd with ⟨-, rfl⟩ | ⟨-, hold⟩
    · exact hheld data hphase
    · exact h.held j d data hold hphase
  spent j d hd hproceeded := by
    rcases Table.find_put_cases hd with ⟨-, rfl⟩ | ⟨-, hold⟩
    · exact hspent hproceeded
    · exact h.spent j d hold hproceeded
  sole j k d e hd he hclaims hclaims' hsame := by
    rcases Table.find_put_cases hd with ⟨rfl, rfl⟩ | ⟨hj, hold⟩
    · rcases Table.find_put_cases he with ⟨rfl, -⟩ | ⟨hk, he⟩
      · rfl
      · exact absurd hsame.symm (hsole hclaims k e hk he hclaims')
    · rcases Table.find_put_cases he with ⟨rfl, rfl⟩ | ⟨hk, he⟩
      · exact absurd hsame (hsole hclaims' j d hj hold hclaims)
      · exact h.sole j k d e hold he hclaims hclaims' hsame

theorem SingleUse.others (h : SingleUse settings s) (hc : s.callbacks.find i = some c) (hclaims : c.claims) :
    ∀ j d, j ≠ i → s.callbacks.find j = some d → d.claims → d.request.state ≠ c.request.state :=
  fun j d hne hd hclaims' hsame => hne (h.sole j i d c hd hc hclaims' hclaims hsame)

theorem SingleUse.change (h : SingleUse settings s) (htoken : Function.Injective settings.token)
    (hchange : OidcChange settings s s') : SingleUse settings s' := by
  cases hchange with
  | nothing => exact h
  | started nextPath => exact h.started htoken nextPath
  | expired state => exact h.expired state
  | arrived request hfree =>
    refine h.saved nofun nofun ?_
    rintro ⟨-, ⟨data, hphase⟩ | hproceeded⟩
    · cases hphase
    · cases hproceeded
  | @found i c data hcallback hcache halone =>
    have hunspent : ∀ j d, s.callbacks.find j = some d → d.proceeded = true → d.request.state ≠ c.request.state := by
      intro j d hd hproceeded hsame
      rw [← hsame, (h.spent j d hd hproceeded).consumed] at hcache
      cases hcache
    refine h.saved (fun _ _ => h.cached _ data hcache) (fun hproceeded => h.spent i c hcallback hproceeded) ?_
    rintro ⟨hcode, -⟩ j d hne hd ⟨hcode', ⟨data', hphase⟩ | hproceeded⟩
    · exact halone hcode j d data' hd hphase hcode'
    · exact hunspent j d hd hproceeded
  | @deleted i c data hcallback hfound =>
    have herased := h.expired c.request.state
    have hdrawn := h.held i c data hcallback hfound
    unfold consumed
    split
    · rename_i hcode
      have hothers := h.others hcallback ⟨hcode, .inl ⟨data, hfound⟩⟩
      exact herased.saved nofun (fun _ => ⟨hcode, Table.find_erase_self _ _, hdrawn⟩) fun _ => hothers
    · rename_i hcode
      refine herased.saved nofun (fun hproceeded => herased.spent i c hcallback hproceeded) ?_
      rintro ⟨hcode', -⟩
      exact absurd hcode' hcode
  | @answered i c c' identities hcallback hrequest hproceeded hphase =>
    have hsame : SingleUse settings { s with identities } := ⟨h.cached, h.held, h.spent, h.sole⟩
    refine hsame.saved (fun data hfound => absurd hfound (hphase data)) ?_ ?_
    · rw [hproceeded, hrequest]
      exact h.spent i c hcallback
    · rw [hrequest]
      rintro ⟨hcode, ⟨data, hfound⟩ | hpast⟩
      · exact absurd hfound (hphase data)
      · rw [hrequest] at hcode
        rw [hproceeded] at hpast
        exact h.others hcallback ⟨hcode, .inr hpast⟩

def AtMostOnce (s : OidcSystem) : Prop :=
  ∀ i j c d, s.callbacks.find i = some c → s.callbacks.find j = some d → c.proceeded = true → d.proceeded = true →
    c.request.state = d.request.state → i = j

theorem SingleUse.atMostOnce (h : SingleUse settings s) : AtMostOnce s := by
  intro i j c d hc hd hci hdj hsame
  exact h.sole i j c d hc hd ⟨(h.spent i c hc hci).code, .inr hci⟩ ⟨(h.spent j d hd hdj).code, .inr hdj⟩ hsame

theorem transaction_single_use (htoken : Function.Injective settings.token) {steps : List OidcStep}
    (hunraced : Throughout (oidcStep settings) Unraced steps {}) :
    ∀ before after, steps = before ++ after → AtMostOnce (before.foldl (oidcStep settings) {}) := by
  rintro before after rfl
  have hreaches := (throughout_append.mp hunraced).1.reaches
  have hsingle := hreaches.invariant (P := SingleUse settings) (SingleUse.start settings)
    fun _ _ h hop => h.change htoken (oidcStep_change hop)
  exact hsingle.atMostOnce

def drawnSettings : OidcSettings where
  identity := ⟨"beyvra-web", false, "https://beyvra.com", id, id⟩
  enabled := true
  token n := String.ofList (List.replicate (n + 1) 'a')

theorem drawnSettings_injective : Function.Injective drawnSettings.token := by
  intro m n h
  have hlength := congrArg List.length (String.ofList_injective h)
  simpa using hlength

def codeFor (state : String) : CallbackRequest := { state, code := "c" }

def replayedCode : List OidcStep :=
  [.login "/platform", .arrive 0 (codeFor "a"), .get 0, .delete 0, .arrive 1 (codeFor "a"), .get 1]

theorem transaction_single_use_replayed : AtMostOnce (replayedCode.foldl (oidcStep drawnSettings) {}) := by
  have hunraced : Throughout (oidcStep drawnSettings) Unraced replayedCode {} := by
    refine ⟨trivial, trivial, ?_, trivial, trivial, ?_, trivial⟩
    · rintro c - - - - j d data hd hphase
      rcases Table.find_put_cases hd with ⟨-, rfl⟩ | ⟨-, hold⟩
      · cases hphase
      · cases hold
    · rintro c hc - - hcached
      have hsecond : some c = some { request := codeFor "a" } := hc.symm.trans (by decide +kernel)
      obtain rfl := Option.some.inj hsecond
      exact absurd (by decide +kernel) hcached
  exact transaction_single_use drawnSettings_injective hunraced replayedCode [] rfl

-- Both callbacks get the transaction before either deletes it.
theorem transaction_used_twice :
    ¬AtMostOnce ([.login "/platform", .arrive 0 (codeFor "a"), .arrive 1 (codeFor "a"), .get 0, .get 1, .delete 0,
      .delete 1].foldl (oidcStep drawnSettings) {}) := by
  intro h
  have hsame := h 0 1 ⟨codeFor "a", .exchanging ⟨"aa", "aaa", "/platform"⟩, true⟩
    ⟨codeFor "a", .exchanging ⟨"aa", "aaa", "/platform"⟩, true⟩ (by decide +kernel) (by decide +kernel) rfl rfl rfl
  cases hsame

end Keycloak

end Beyvra
