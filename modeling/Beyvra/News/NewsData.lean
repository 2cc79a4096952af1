import Beyvra.FinancialBoundary.Canonical
import Beyvra.Relational.Stability

namespace Beyvra

open Relational

namespace News

structure Circuit where
  failures : Nat := 0
  openedAt : Option ℚ := none
  halfOpenInflight : Bool := false
  deriving DecidableEq

inductive Raised where
  | unavailable | unauthorized | rateLimited | malformed
  | valueError | timeout | connectionError
  -- errors that _request does not name: of the HTTP library, of time.sleep and of the JSON decoder
  | otherRequestError | overflowError | recursionError
  deriving DecidableEq

inductive NewsEndpoint where
  | latest | crypto | market | sources | archive
  deriving DecidableEq

-- The value of a keyword argument
inductive Filter where
  | none
  | text (value : String)
  | integer (value : Int)
  deriving DecidableEq

-- A Python float, as float reads it
inductive Number where
  | nan | infinity | negativeInfinity
  | value (q : ℚ)
  deriving DecidableEq

-- int and float of a text, none where they raise ValueError
structure Parsers where
  int : String → Option Int
  float : String → Option Number

-- nested is JSON too deep for the decoder.
inductive Body where
  | invalid
  | nested
  | json (payload : Json)

structure ProviderResponse where
  contentLength : Nat
  statusCode : Nat
  retryAfter : Option String
  body : Body

inductive AttemptOutcome where
  | timeout | connectionError
  -- an error of the HTTP library that is a ValueError, and any other one
  | valueError | otherRequestError
  | response (r : ProviderResponse)

-- What a request reads of its clock: in _allow_request, before the loop, at the head of an attempt, after a
-- rate limit and in _record_failure
structure Clock where
  admission : ℚ
  started : ℚ
  attempt : Nat → ℚ
  limited : Nat → ℚ
  failure : ℚ

structure NewsRequest where
  endpoint : NewsEndpoint
  archiveEntitled : Bool
  supplied : List (String × Filter)
  outcome : Nat → AttemptOutcome
  clock : Clock

inductive NewsReply where
  | capabilityNotAvailable
  -- not sent: by the circuit, or for its parameters
  | refused
  | invalid
  | returned
  -- the error that is raised, after _record_failure or past it
  | failed (error : Raised)
  | escaped (error : Raised)
  deriving DecidableEq

def articleParams : List String := ["q", "language", "country", "category", "domain", "timeframe", "page", "size"]

def NewsEndpoint.allowed : NewsEndpoint → List String
  | .latest => articleParams
  | .crypto => "coin" :: articleParams
  | .market => "symbol" :: articleParams
  | .sources => ["language", "country", "category"]
  | .archive => "from_date" :: "to_date" :: articleParams

def overallDeadline : ℚ := 12

def maxAttempts : Nat := 3

def maxResponseBytes : Nat := 2000000

-- Whether a request goes on, with the circuit that its reservation leaves
def Circuit.allowRequest (s : Circuit) (now : ℚ) : Option Circuit :=
  match s.openedAt with
  | none => some s
  | some openedAt =>
    if now - openedAt < 30 ∨ s.halfOpenInflight = true then none else some { s with halfOpenInflight := true }

def Circuit.recordFailure (s : Circuit) (now : ℚ) : Circuit :=
  { failures := s.failures + 1, openedAt := if 3 ≤ s.failures + 1 then some now else s.openedAt, halfOpenInflight := false }

def Filter.given : Filter → Bool
  | .none => false
  | .text value => value ≠ ""
  | .integer _ => true

def Filter.int (parsers : Parsers) : Filter → Option Int
  | .none => .none
  | .text value => parsers.int value
  | .integer value => some value

-- Each parameter is one of the endpoint's, and a size one of 1 to 50.
def NewsRequest.supported (parsers : Parsers) (x : NewsRequest) : Bool :=
  (x.supplied.filter fun p => p.2.given).all fun p =>
    p.1 ∈ x.endpoint.allowed ∧ (p.1 = "size" → ∃ size ∈ p.2.int parsers, 1 ≤ size ∧ size ≤ 50)

def get : Json → String → Option Json
  | .obj fields, key => (fields.find? fun field => field.1 = key).map Prod.snd
  | _, _ => none

def textOf : Json → Option String
  | .str value => some value
  | _ => none

def isList : Json → Bool
  | .arr _ => true
  | _ => false

def validate (payload : Json) : Except Raised Unit :=
  match (get payload "status").bind textOf with
  | none => .error .malformed
  | some status =>
    if status = "error" then .error .unavailable
    else if status = "success" ∧ ((get payload "results").map isList).getD false = true then .ok ()
    else .error .malformed

-- min(float(...), 2.0)
def Number.capped : Number → Number
  | .infinity => .value 2
  | .value q => .value (min q 2)
  | n => n

-- The number of a Retry-After header
def retryAfter (parsers : Parsers) (r : ProviderResponse) : Option Number :=
  match r.retryAfter with
  | none => some (.value 0)
  | some text => if text = "" then some (.value 0) else (parsers.float text).map Number.capped

-- time.sleep counts nanoseconds in 64 bits.
def sleep (seconds : ℚ) : Except Raised Unit :=
  if 0 ≤ seconds then .ok ()
  else if seconds * 10 ^ 9 < -2 ^ 63 then .error .overflowError
  else .error .valueError

def rateLimited (parsers : Parsers) (x : NewsRequest) (attempt : Nat) (r : ProviderResponse) : Except Raised Unit :=
  match retryAfter parsers r with
  | none => .error .valueError
  | some number =>
    if attempt + 1 < maxAttempts then
      match number with
      | .value seconds =>
        if seconds ≠ 0 ∧ x.clock.limited attempt - x.clock.started + seconds < overallDeadline then sleep seconds
        else .error .rateLimited
      | .negativeInfinity => .error .overflowError
      | .nan | .infinity => .error .rateLimited
    else .error .rateLimited

def decode : Body → Except Raised Json
  | .invalid => .error .malformed
  | .nested => .error .recursionError
  | .json payload => .ok payload

inductive Attempted where
  | again | payload
  deriving DecidableEq

-- The try block of an attempt
def tryAttempt (parsers : Parsers) (x : NewsRequest) (attempt : Nat) : Except Raised Attempted :=
  match x.outcome attempt with
  | .timeout => .error .timeout
  | .connectionError => .error .connectionError
  | .valueError => .error .valueError
  | .otherRequestError => .error .otherRequestError
  | .response r =>
    if maxResponseBytes < r.contentLength then .error .malformed
    else if r.statusCode = 401 ∨ r.statusCode = 403 then .error .unauthorized
    else if r.statusCode = 429 then do
      rateLimited parsers x attempt r
      pure .again
    else if 500 ≤ r.statusCode ∧ r.statusCode < 600 then
      if attempt + 1 < maxAttempts then .ok .again else .error .unavailable
    else if 400 ≤ r.statusCode then .error .valueError
    else do
      let payload ← decode r.body
      validate payload
      pure .payload

-- The errors of the clause that records a failure and raises again
def Raised.caught : Raised → Bool
  | .unauthorized | .rateLimited | .malformed | .valueError => true
  | _ => false

-- The loop over the attempts that are left
def attempts (parsers : Parsers) (x : NewsRequest) (attempt : Nat) : Nat → NewsReply
  | 0 => .failed .unavailable
  | left + 1 =>
    if overallDeadline ≤ x.clock.attempt attempt - x.clock.started then .failed .unavailable
    else
      match tryAttempt parsers x attempt with
      | .ok .payload => .returned
      | .ok .again => attempts parsers x (attempt + 1) left
      | .error error =>
        if error = .timeout ∨ error = .connectionError then
          if maxAttempts ≤ attempt + 1 then .failed .unavailable else attempts parsers x (attempt + 1) left
        else if error.caught then .failed error
        else .escaped error

def request (parsers : Parsers) (s : Circuit) (x : NewsRequest) : Circuit × NewsReply :=
  if x.endpoint = .archive ∧ x.archiveEntitled = false then (s, .capabilityNotAvailable)
  else
    match s.allowRequest x.clock.admission with
    | none => (s, .refused)
    | some s =>
      if x.supported parsers then
        match attempts parsers x 0 maxAttempts with
        | .returned => ({}, .returned)
        | .failed error => (s.recordFailure x.clock.failure, .failed error)
        | reply => (s, reply)
      else (s, .invalid)

def circuitStep (parsers : Parsers) (s : Circuit) (x : NewsRequest) : Circuit := (request parsers s x).1

variable {parsers : Parsers} {x : NewsRequest} {s s' : Circuit} {attempt left : Nat}

-- A server error, a timeout, a connection error, an error payload or a malformed one
def ProviderFailure : NewsReply → Prop
  | .failed error | .escaped error => error = .unavailable ∨ error = .malformed
  | _ => False

def Counted (parsers : Parsers) (s : Circuit) (x : NewsRequest) : Prop :=
  ProviderFailure (request parsers s x).2 → (circuitStep parsers s x).failures = s.failures + 1

def Kept (parsers : Parsers) (s : Circuit) (x : NewsRequest) : Prop :=
  (circuitStep parsers s x).halfOpenInflight = false ∧ Counted parsers s x

structure Governed (parsers : Parsers) (ops : List NewsRequest) : Prop where
  free : ∀ before after, ops = before ++ after → (before.foldl (circuitStep parsers) {}).halfOpenInflight = false
  admits : ∀ before after, ops = before ++ after → ∀ openedAt,
    (before.foldl (circuitStep parsers) {}).openedAt = some openedAt → ∀ now, 30 ≤ now - openedAt →
      (before.foldl (circuitStep parsers) {}).allowRequest now ≠ none
  counted : ∀ before x after, ops = before ++ x :: after → Counted parsers (before.foldl (circuitStep parsers) {}) x
  opens : ∀ before x y z after, ops = before ++ x :: y :: z :: after →
    ProviderFailure (request parsers (before.foldl (circuitStep parsers) {}) x).2 →
    ProviderFailure (request parsers ((before ++ [x]).foldl (circuitStep parsers) {}) y).2 →
    ProviderFailure (request parsers ((before ++ [x, y]).foldl (circuitStep parsers) {}) z).2 →
      ((before ++ [x, y, z]).foldl (circuitStep parsers) {}).openedAt ≠ none

def Sized (r : ProviderResponse) : Prop := r.contentLength ≤ maxResponseBytes

def ServerError (r : ProviderResponse) : Prop := Sized r ∧ 500 ≤ r.statusCode ∧ r.statusCode < 600

def ErrorPayload (r : ProviderResponse) : Prop :=
  Sized r ∧ r.statusCode < 400 ∧ ∃ payload, r.body = .json payload ∧ (get payload "status").bind textOf = some "error"

def Limited (r : ProviderResponse) : Prop := Sized r ∧ r.statusCode = 429

def Waits (parsers : Parsers) (x : NewsRequest) (attempt : Nat) (r : ProviderResponse) (seconds : ℚ) : Prop :=
  attempt + 1 < maxAttempts ∧ retryAfter parsers r = some (.value seconds) ∧ seconds ≠ 0 ∧
    x.clock.limited attempt - x.clock.started + seconds < overallDeadline

-- An attempt after which another one may be made
def Retried (parsers : Parsers) (x : NewsRequest) (attempt : Nat) : Prop :=
  x.outcome attempt = .timeout ∨ x.outcome attempt = .connectionError ∨ ∃ r, x.outcome attempt = .response r ∧
    (ServerError r ∨ Limited r ∧ ∃ seconds, 0 ≤ seconds ∧ Waits parsers x attempt r seconds)

-- A server error on the last attempt, or an error payload
def Untallied (x : NewsRequest) (attempt : Nat) : Prop :=
  ∃ r, x.outcome attempt = .response r ∧ (ServerError r ∧ maxAttempts ≤ attempt + 1 ∨ ErrorPayload r)

-- An error that no clause names
def Broken (parsers : Parsers) (x : NewsRequest) (attempt : Nat) : Prop :=
  x.outcome attempt = .otherRequestError ∨ ∃ r, x.outcome attempt = .response r ∧
    (Sized r ∧ r.statusCode < 400 ∧ r.body = .nested ∨
      Limited r ∧ (attempt + 1 < maxAttempts ∧ retryAfter parsers r = some .negativeInfinity ∨
        ∃ seconds, seconds * 10 ^ 9 < -2 ^ 63 ∧ Waits parsers x attempt r seconds))

def InTime (x : NewsRequest) (attempt : Nat) : Prop := x.clock.attempt attempt - x.clock.started < overallDeadline

def Made (parsers : Parsers) (x : NewsRequest) (attempt : Nat) : Prop :=
  attempt < maxAttempts ∧ (∀ k ≤ attempt, InTime x k) ∧ ∀ k < attempt, Retried parsers x k

-- A request that reserves the half-open slot has supported parameters and meets no error that no clause names; one that
-- is sent at all ends neither by a server error on its last attempt nor by an error payload.
def Contained (parsers : Parsers) (s : Circuit) (x : NewsRequest) : Prop :=
  (x.endpoint = .archive → x.archiveEntitled = true) → s.allowRequest x.clock.admission ≠ none →
    (x.supported parsers = false → s.openedAt = none) ∧ (x.supported parsers = true → ∀ attempt, Made parsers x attempt →
      ¬Untallied x attempt ∧ (s.openedAt ≠ none → ¬Broken parsers x attempt))

inductive Tried (parsers : Parsers) (x : NewsRequest) (attempt : Nat) : Except Raised Attempted → Prop where
  | untallied (h : Untallied x attempt) : Tried parsers x attempt (.error .unavailable)
  | broken {error : Raised} (h : Broken parsers x attempt) (hretried : ¬Retried parsers x attempt)
      (hnone : ¬Untallied x attempt)
      (herror : error = .otherRequestError ∨ error = .overflowError ∨ error = .recursionError) :
      Tried parsers x attempt (.error error)
  | retried {result : Except Raised Attempted} (hretried : Retried parsers x attempt) (hnone : ¬Untallied x attempt)
      (hbroken : ¬Broken parsers x attempt)
      (hresult : result = .ok .again ∨ result = .error .timeout ∨ result = .error .connectionError) :
      Tried parsers x attempt result
  | settled {result : Except Raised Attempted} (hretried : ¬Retried parsers x attempt) (hnone : ¬Untallied x attempt)
      (hbroken : ¬Broken parsers x attempt)
      (hresult : result = .ok .payload ∨ ∃ error, error.caught = true ∧ result = .error error) :
      Tried parsers x attempt result

theorem validate_eq (payload : Json) : validate payload = if (get payload "status").bind textOf = some "error" then
    .error .unavailable else if (get payload "status").bind textOf = some "success" ∧
      ((get payload "results").map isList).getD false = true then .ok () else .error .malformed := by
  unfold validate
  cases (get payload "status").bind textOf <;> simp

theorem retried_response {r : ProviderResponse} (h : x.outcome attempt = .response r) : Retried parsers x attempt ↔
    ServerError r ∨ Limited r ∧ ∃ seconds, 0 ≤ seconds ∧ Waits parsers x attempt r seconds := by
  simp [Retried, h]

theorem untallied_response {r : ProviderResponse} (h : x.outcome attempt = .response r) :
    Untallied x attempt ↔ ServerError r ∧ maxAttempts ≤ attempt + 1 ∨ ErrorPayload r := by
  simp [Untallied, h]

theorem broken_response {r : ProviderResponse} (h : x.outcome attempt = .response r) : Broken parsers x attempt ↔
    Sized r ∧ r.statusCode < 400 ∧ r.body = .nested ∨
      Limited r ∧ (attempt + 1 < maxAttempts ∧ retryAfter parsers r = some .negativeInfinity ∨
        ∃ seconds, seconds * 10 ^ 9 < -2 ^ 63 ∧ Waits parsers x attempt r seconds) := by
  simp [Broken, h]

section Limited

variable {r : ProviderResponse} {seconds : ℚ} {number : Number}

theorem retried_limited (h : x.outcome attempt = .response r) (hlimited : Limited r) :
    Retried parsers x attempt ↔ ∃ seconds, 0 ≤ seconds ∧ Waits parsers x attempt r seconds := by
  have hserver : ¬ServerError r := fun hserver => by
    have := hlimited.2
    have := hserver.2.1
    omega
  simp only [retried_response h, hserver, hlimited, true_and, false_or]

theorem untallied_limited (h : x.outcome attempt = .response r) (hlimited : Limited r) : ¬Untallied x attempt := by
  have hstatus := hlimited.2
  rw [untallied_response h]
  rintro (⟨⟨-, hserver, -⟩, -⟩ | ⟨-, hok, -⟩) <;> omega

theorem broken_limited (h : x.outcome attempt = .response r) (hlimited : Limited r) : Broken parsers x attempt ↔
    (attempt + 1 < maxAttempts ∧ retryAfter parsers r = some .negativeInfinity ∨
      ∃ seconds, seconds * 10 ^ 9 < -2 ^ 63 ∧ Waits parsers x attempt r seconds) := by
  have hnested : ¬(Sized r ∧ r.statusCode < 400 ∧ r.body = .nested) := fun hnested => by
    have := hlimited.2
    have := hnested.2.1
    omega
  simp only [broken_response h, hnested, hlimited, true_and, false_or]

-- Without a wait a rate limit ends the request by an error that is counted.
theorem limited_settled (h : x.outcome attempt = .response r) (hlimited : Limited r)
    (hwaits : ∀ seconds, ¬Waits parsers x attempt r seconds)
    (hinfinite : ¬(attempt + 1 < maxAttempts ∧ retryAfter parsers r = some .negativeInfinity)) {error : Raised}
    (hcaught : error.caught = true) : Tried parsers x attempt (.error error) := by
  refine .settled ?_ (untallied_limited h hlimited) ?_ (.inr ⟨error, hcaught, rfl⟩)
  · rw [retried_limited h hlimited]
    rintro ⟨seconds, -, hseconds⟩
    exact hwaits seconds hseconds
  · rw [broken_limited h hlimited]
    rintro (hneg | ⟨seconds, -, hseconds⟩)
    · exact hinfinite hneg
    · exact hwaits seconds hseconds

theorem waits_unique (hnumber : retryAfter parsers r = some (.value seconds)) {seconds' : ℚ}
    (h : Waits parsers x attempt r seconds') : seconds' = seconds :=
  Number.value.inj (Option.some.inj (h.2.1.symm.trans hnumber))

theorem tried_sleep (h : x.outcome attempt = .response r) (hlimited : Limited r) (hwaits : Waits parsers x attempt r seconds) :
    Tried parsers x attempt (do sleep seconds; pure .again) := by
  have hnumber := hwaits.2.1
  have hfinite : ¬(attempt + 1 < maxAttempts ∧ retryAfter parsers r = some .negativeInfinity) := by
    rintro ⟨-, hinfinite⟩
    cases hnumber.symm.trans hinfinite
  unfold sleep
  split_ifs with hpositive hoverflow
  · refine .retried ((retried_limited h hlimited).mpr ⟨seconds, hpositive, hwaits⟩) (untallied_limited h hlimited) ?_ (.inl rfl)
    rw [broken_limited h hlimited]
    rintro (hinfinite | ⟨seconds', hoverflow, hwaits'⟩)
    · exact hfinite hinfinite
    · obtain rfl := waits_unique hnumber hwaits'
      linarith
  · refine .broken ((broken_limited h hlimited).mpr (.inr ⟨seconds, hoverflow, hwaits⟩)) ?_ (untallied_limited h hlimited)
      (.inr (.inl rfl))
    rw [retried_limited h hlimited]
    rintro ⟨seconds', hpositive', hwaits'⟩
    obtain rfl := waits_unique hnumber hwaits'
    exact hpositive hpositive'
  · refine .settled ?_ (untallied_limited h hlimited) ?_ (.inr ⟨.valueError, rfl, rfl⟩)
    · rw [retried_limited h hlimited]
      rintro ⟨seconds', hpositive', hwaits'⟩
      obtain rfl := waits_unique hnumber hwaits'
      exact hpositive hpositive'
    · rw [broken_limited h hlimited]
      rintro (hinfinite | ⟨seconds', hoverflow', hwaits'⟩)
      · exact hfinite hinfinite
      · obtain rfl := waits_unique hnumber hwaits'
        exact hoverflow hoverflow'

theorem tried_limited (h : x.outcome attempt = .response r) (hlimited : Limited r) :
    Tried parsers x attempt (do rateLimited parsers x attempt r; pure .again) := by
  unfold rateLimited
  cases hnumber : retryAfter parsers r with
  | none =>
    refine limited_settled h hlimited (fun seconds hwaits => ?_) (fun hneg => ?_) rfl
    · cases hnumber.symm.trans hwaits.2.1
    · cases hnumber.symm.trans hneg.2
  | some number =>
    by_cases hmore : attempt + 1 < maxAttempts
    · simp only [hmore, if_true]
      cases number with
      | value seconds =>
        dsimp only
        by_cases hwait : seconds ≠ 0 ∧ x.clock.limited attempt - x.clock.started + seconds < overallDeadline
        · rw [if_pos hwait]
          exact tried_sleep h hlimited ⟨hmore, hnumber, hwait⟩
        · rw [if_neg hwait]
          refine limited_settled h hlimited (fun seconds' hwaits => ?_) (fun hneg => ?_) rfl
          · obtain rfl := waits_unique hnumber hwaits
            exact hwait hwaits.2.2
          · cases hnumber.symm.trans hneg.2
      | negativeInfinity =>
        refine .broken ((broken_limited h hlimited).mpr (.inl ⟨hmore, hnumber⟩)) ?_ (untallied_limited h hlimited)
          (.inr (.inl rfl))
        rw [retried_limited h hlimited]
        rintro ⟨seconds, -, hwaits⟩
        cases hnumber.symm.trans hwaits.2.1
      | nan | infinity =>
        refine limited_settled h hlimited (fun seconds hwaits => ?_) (fun hneg => ?_) rfl
        · cases hnumber.symm.trans hwaits.2.1
        · cases hnumber.symm.trans hneg.2
    · simp only [hmore, if_false]
      exact limited_settled h hlimited (fun seconds hwaits => hmore hwaits.1) (fun hneg => hmore hneg.1) rfl

end Limited

theorem settled_response {r : ProviderResponse} {result : Except Raised Attempted} (h : x.outcome attempt = .response r)
    (hserver : ¬ServerError r) (hlimited : ¬Limited r) (hpayload : ¬ErrorPayload r)
    (hnested : ¬(Sized r ∧ r.statusCode < 400 ∧ r.body = .nested))
    (hresult : result = .ok .payload ∨ ∃ error, error.caught = true ∧ result = .error error) :
    Tried parsers x attempt result := by
  refine .settled ?_ ?_ ?_ hresult
  · rw [retried_response h]
    rintro (hserver' | ⟨hlimited', -⟩)
    · exact hserver hserver'
    · exact hlimited hlimited'
  · rw [untallied_response h]
    rintro (⟨hserver', -⟩ | hpayload')
    · exact hserver hserver'
    · exact hpayload hpayload'
  · rw [broken_response h]
    rintro (hnested' | ⟨hlimited', -⟩)
    · exact hnested hnested'
    · exact hlimited hlimited'

-- The body of an answer below 400
theorem tried_body {r : ProviderResponse} (h : x.outcome attempt = .response r) (hsized : Sized r) (hok : r.statusCode < 400) :
    Tried parsers x attempt (do
      let payload ← decode r.body
      validate payload
      pure .payload) := by
  have hserver : ¬ServerError r := fun hserver => by
    have := hserver.2.1
    omega
  have hlimited : ¬Limited r := fun hlimited => by
    have := hlimited.2
    omega
  cases hbody : r.body with
  | invalid =>
    refine settled_response h hserver hlimited (fun hpayload => ?_) (fun hnested => ?_) (.inr ⟨.malformed, rfl, rfl⟩)
    · obtain ⟨payload, hjson, -⟩ := hpayload.2.2
      cases hbody.symm.trans hjson
    · cases hbody.symm.trans hnested.2.2
  | nested =>
    have hpayload : ¬ErrorPayload r := by
      rintro ⟨-, -, payload, hjson, -⟩
      cases hbody.symm.trans hjson
    refine .broken ((broken_response h).mpr (.inl ⟨hsized, hok, hbody⟩)) ?_ ?_ (.inr (.inr rfl))
    · rw [retried_response h]
      exact fun hretried => hretried.elim hserver fun hretried => hlimited hretried.1
    · rw [untallied_response h]
      exact fun huntallied => huntallied.elim (fun hlast => hserver hlast.1) hpayload
  | json payload =>
    by_cases herror : (get payload "status").bind textOf = some "error"
    · have hresult : (do let payload ← decode (.json payload); validate payload; pure .payload) =
          (.error .unavailable : Except Raised Attempted) := by
        simp [decode, validate_eq, herror, bind, Except.bind]
      rw [hresult]
      exact .untallied ((untallied_response h).mpr (.inr ⟨hsized, hok, payload, hbody, herror⟩))
    · refine settled_response h hserver hlimited (fun hpayload => ?_) (fun hnested => ?_) ?_
      · obtain ⟨payload', hjson, herror'⟩ := hpayload.2.2
        cases hbody.symm.trans hjson
        exact herror herror'
      · cases hbody.symm.trans hnested.2.2
      · simp only [decode, validate_eq, herror, if_false, bind, Except.bind]
        split_ifs
        · exact .inl rfl
        · exact .inr ⟨.malformed, rfl, rfl⟩

theorem tried_response {r : ProviderResponse} (h : x.outcome attempt = .response r) :
    Tried parsers x attempt (tryAttempt parsers x attempt) := by
  simp only [tryAttempt, h]
  split_ifs with hlarge hauth hrate hserver hmore hclient
  · have hsized : ¬Sized r := Nat.not_le_of_lt hlarge
    exact settled_response h (fun hserver => hsized hserver.1) (fun hlimited => hsized hlimited.1)
      (fun hpayload => hsized hpayload.1) (fun hnested => hsized hnested.1) (.inr ⟨.malformed, rfl, rfl⟩)
  · refine settled_response h (fun hserver => ?_) (fun hlimited => ?_) (fun hpayload => ?_) (fun hnested => ?_)
      (.inr ⟨.unauthorized, rfl, rfl⟩)
    · have := hserver.2.1
      omega
    · have := hlimited.2
      omega
    · have := hpayload.2.1
      omega
    · have := hnested.2.1
      omega
  · exact tried_limited h ⟨Nat.le_of_not_lt hlarge, hrate⟩
  · have hsized : Sized r := Nat.le_of_not_lt hlarge
    refine .retried ((retried_response h).mpr (.inl ⟨hsized, hserver⟩)) ?_ ?_ (.inl rfl)
    · rw [untallied_response h]
      rintro (⟨-, hlast⟩ | hpayload)
      · omega
      · have := hpayload.2.1
        omega
    · rw [broken_response h]
      rintro (hnested | ⟨hlimited, -⟩)
      · have := hnested.2.1
        omega
      · exact hrate hlimited.2
  · have hlast : ServerError r ∧ maxAttempts ≤ attempt + 1 :=
      ⟨⟨Nat.le_of_not_lt hlarge, hserver⟩, Nat.le_of_not_lt hmore⟩
    exact .untallied ((untallied_response h).mpr (.inl hlast))
  · refine settled_response h (fun hserver' => hserver hserver'.2) (fun hlimited => hrate hlimited.2) (fun hpayload => ?_)
      (fun hnested => ?_) (.inr ⟨.valueError, rfl, rfl⟩)
    · have := hpayload.2.1
      omega
    · have := hnested.2.1
      omega
  · exact tried_body h (Nat.le_of_not_lt hlarge) (Nat.lt_of_not_le hclient)

theorem tryAttempt_tried (parsers : Parsers) (x : NewsRequest) (attempt : Nat) :
    Tried parsers x attempt (tryAttempt parsers x attempt) := by
  cases h : x.outcome attempt with
  | response r => exact tried_response h
  | timeout =>
    simp only [tryAttempt, h]
    refine .retried (.inl h) ?_ ?_ (.inr (.inl rfl)) <;> simp [Untallied, Broken, h]
  | connectionError =>
    simp only [tryAttempt, h]
    refine .retried (.inr (.inl h)) ?_ ?_ (.inr (.inr rfl)) <;> simp [Untallied, Broken, h]
  | valueError =>
    simp only [tryAttempt, h]
    refine .settled ?_ ?_ ?_ (.inr ⟨.valueError, rfl, rfl⟩) <;> simp [Retried, Untallied, Broken, h]
  | otherRequestError =>
    simp only [tryAttempt, h]
    refine .broken (.inl h) ?_ ?_ (.inl rfl) <;> simp [Retried, Untallied, h]

-- How a request ends that is sent
inductive Ended (parsers : Parsers) (x : NewsRequest) : NewsReply → Prop where
  | untallied {attempt : Nat} (hmade : Made parsers x attempt) (h : Untallied x attempt) : Ended parsers x (.escaped .unavailable)
  | broken {attempt : Nat} {error : Raised} (hmade : Made parsers x attempt) (h : Broken parsers x attempt)
      (hnone : ∀ k, Made parsers x k → ¬Untallied x k)
      (herror : error = .otherRequestError ∨ error = .overflowError ∨ error = .recursionError) :
      Ended parsers x (.escaped error)
  | settled {reply : NewsReply} (hnone : ∀ k, Made parsers x k → ¬Untallied x k ∧ ¬Broken parsers x k)
      (hreply : reply = .returned ∨ ∃ error, reply = .failed error) : Ended parsers x reply

-- An attempt in time after which the loop went on
structure Passed (parsers : Parsers) (x : NewsRequest) (attempt : Nat) : Prop where
  inTime : InTime x attempt
  retried : Retried parsers x attempt
  tallied : ¬Untallied x attempt
  whole : ¬Broken parsers x attempt

theorem attempts_ended (hbefore : ∀ k < attempt, Passed parsers x k) (hleft : attempt + left = maxAttempts) :
    Ended parsers x (attempts parsers x attempt left) := by
  induction left generalizing attempt with
  | zero =>
    refine .settled (fun k hmade => ?_) (.inr ⟨.unavailable, rfl⟩)
    have hk : k < attempt := by
      have := hmade.1
      omega
    exact ⟨(hbefore k hk).tallied, (hbefore k hk).whole⟩
  | succ left ih =>
    unfold attempts
    by_cases hdeadline : overallDeadline ≤ x.clock.attempt attempt - x.clock.started
    · rw [if_pos hdeadline]
      refine .settled (fun k hmade => ?_) (.inr ⟨.unavailable, rfl⟩)
      have hk : k < attempt := by
        by_contra hk
        exact absurd (hmade.2.1 attempt (Nat.le_of_not_lt hk)) (not_lt.mpr hdeadline)
      exact ⟨(hbefore k hk).tallied, (hbefore k hk).whole⟩
    · rw [if_neg hdeadline]
      have hin : InTime x attempt := not_le.mp hdeadline
      have hmade : Made parsers x attempt := by
        refine ⟨by omega, fun k hk => ?_, fun k hk => (hbefore k hk).retried⟩
        rcases Nat.lt_or_eq_of_le hk with hlt | rfl
        · exact (hbefore k hlt).inTime
        · exact hin
      have htried := tryAttempt_tried parsers x attempt
      generalize tryAttempt parsers x attempt = result at htried
      cases htried with
      | untallied h => exact .untallied hmade h
      | broken h hretried hnone herror =>
        have hmost : ∀ k, Made parsers x k → ¬Untallied x k := fun k hk => by
          rcases Nat.lt_trichotomy k attempt with hlt | rfl | hgt
          · exact (hbefore k hlt).tallied
          · exact hnone
          · exact absurd (hk.2.2 attempt hgt) hretried
        rcases herror with rfl | rfl | rfl
        · exact .broken hmade h hmost (.inl rfl)
        · exact .broken hmade h hmost (.inr (.inl rfl))
        · exact .broken hmade h hmost (.inr (.inr rfl))
      | retried hretried hnone hbroken hresult =>
        have hnext : ∀ k < attempt + 1, Passed parsers x k := fun k hk => by
          rcases Nat.lt_or_eq_of_le (Nat.le_of_lt_succ hk) with hlt | rfl
          · exact hbefore k hlt
          · exact ⟨hin, hretried, hnone, hbroken⟩
        have hrest := ih hnext (by omega)
        have hlast : maxAttempts ≤ attempt + 1 → Ended parsers x (.failed .unavailable) := fun hlast =>
          .settled (fun k hk => ⟨(hnext k (lt_of_lt_of_le hk.1 hlast)).tallied, (hnext k (lt_of_lt_of_le hk.1 hlast)).whole⟩)
            (.inr ⟨.unavailable, rfl⟩)
        rcases hresult with rfl | rfl | rfl
        · exact hrest
        · show Ended parsers x (if maxAttempts ≤ attempt + 1 then _ else _)
          split_ifs with h
          · exact hlast h
          · exact hrest
        · show Ended parsers x (if maxAttempts ≤ attempt + 1 then _ else _)
          split_ifs with h
          · exact hlast h
          · exact hrest
      | settled hretried hnone hbroken hresult =>
        have hmost : ∀ k, Made parsers x k → ¬Untallied x k ∧ ¬Broken parsers x k := fun k hk => by
          rcases Nat.lt_trichotomy k attempt with hlt | rfl | hgt
          · exact ⟨(hbefore k hlt).tallied, (hbefore k hlt).whole⟩
          · exact ⟨hnone, hbroken⟩
          · exact absurd (hk.2.2 attempt hgt) hretried
        rcases hresult with rfl | ⟨error, hcaught, rfl⟩
        · exact .settled hmost (.inl rfl)
        · refine .settled hmost (.inr ⟨error, ?_⟩)
          cases error <;> first | rfl | cases hcaught

theorem allowRequest_some {now : ℚ} (hfree : s.halfOpenInflight = false) (h : s.allowRequest now = some s') :
    s'.failures = s.failures ∧ (s'.halfOpenInflight = false ↔ s.openedAt = none) := by
  unfold Circuit.allowRequest at h
  cases hopened : s.openedAt with
  | none =>
    rw [hopened] at h
    obtain rfl := Option.some.inj h
    exact ⟨rfl, iff_of_true hfree rfl⟩
  | some openedAt =>
    simp only [hopened] at h
    split_ifs at h with hwait
    obtain rfl := Option.some.inj h
    exact ⟨rfl, iff_of_false (fun h => (by cases h)) (Option.some_ne_none _)⟩

def settle (s : Circuit) (now : ℚ) : NewsReply → Circuit
  | .returned => {}
  | .failed _ => s.recordFailure now
  | _ => s

theorem request_sent (hentitled : ¬(x.endpoint = .archive ∧ x.archiveEntitled = false))
    (hadmitted : s.allowRequest x.clock.admission = some s') (hsupported : x.supported parsers = true) :
    request parsers s x = (settle s' x.clock.failure (attempts parsers x 0 maxAttempts), attempts parsers x 0 maxAttempts) := by
  simp only [request, hentitled, if_false, hadmitted, hsupported, if_true]
  cases attempts parsers x 0 maxAttempts <;> rfl

-- A request that was sent leaves the slot free and its failure counted exactly where it meets the condition.
theorem ended_iff {reply : NewsReply} (hended : Ended parsers x reply) (hfailures : s'.failures = s.failures)
    (hslot : s'.halfOpenInflight = false ↔ s.openedAt = none) (now : ℚ) :
    ((settle s' now reply).halfOpenInflight = false ∧
      (ProviderFailure reply → (settle s' now reply).failures = s.failures + 1)) ↔
      ∀ attempt, Made parsers x attempt → ¬Untallied x attempt ∧ (s.openedAt ≠ none → ¬Broken parsers x attempt) := by
  cases hended with
  | @untallied attempt hmade h =>
    refine iff_of_false (fun hkept => ?_) fun hcontained => (hcontained attempt hmade).1 h
    have hcounted : s'.failures = s.failures + 1 := hkept.2 (.inl rfl)
    omega
  | @broken attempt error hmade h hnone herror =>
    have huncounted : ¬ProviderFailure (.escaped error) := by
      rcases herror with rfl | rfl | rfl <;> exact fun hfailure => hfailure.elim (fun h => (by cases h)) fun h => (by cases h)
    constructor
    · rintro ⟨hfree, -⟩ k hk
      exact ⟨hnone k hk, fun hopened => absurd (hslot.mp hfree) hopened⟩
    · intro hcontained
      refine ⟨hslot.mpr ?_, fun hfailure => absurd hfailure huncounted⟩
      by_contra hopened
      exact (hcontained attempt hmade).2 hopened h
  | settled hnone hreply =>
    refine iff_of_true ?_ fun k hk => ⟨(hnone k hk).1, fun _ => (hnone k hk).2⟩
    rcases hreply with rfl | ⟨error, rfl⟩
    · exact ⟨rfl, False.elim⟩
    · exact ⟨rfl, fun _ => congrArg (· + 1) hfailures⟩

-- A request leaves the slot free and its failure counted exactly where it meets the condition.
theorem step_iff (hfree : s.halfOpenInflight = false) :
    Kept parsers s x ↔ Contained parsers s x := by
  unfold Kept
  by_cases hentitled : x.endpoint = .archive ∧ x.archiveEntitled = false
  · have hrequest : request parsers s x = (s, .capabilityNotAvailable) := by rw [request, if_pos hentitled]
    refine iff_of_true ?_ fun hallowed => ?_
    · rw [Counted, circuitStep, hrequest]
      exact ⟨hfree, False.elim⟩
    · have hfalse := hallowed hentitled.1
      rw [hentitled.2] at hfalse
      cases hfalse
  · have hallowed : x.endpoint = .archive → x.archiveEntitled = true := fun harchive =>
      Bool.of_not_eq_false fun hfalse => hentitled ⟨harchive, hfalse⟩
    cases hadmitted : s.allowRequest x.clock.admission with
    | none =>
      have hrequest : request parsers s x = (s, .refused) := by rw [request, if_neg hentitled, hadmitted]
      refine iff_of_true ?_ fun _ hsome => absurd hadmitted hsome
      rw [Counted, circuitStep, hrequest]
      exact ⟨hfree, False.elim⟩
    | some s' =>
      obtain ⟨hfailures, hslot⟩ := allowRequest_some hfree hadmitted
      have hsome : s.allowRequest x.clock.admission ≠ none := by
        rw [hadmitted]
        exact Option.some_ne_none _
      cases hsupported : x.supported parsers with
      | false =>
        have hrequest : request parsers s x = (s', .invalid) := by
          simp [request, hentitled, hadmitted, hsupported]
        rw [Counted, circuitStep, hrequest]
        constructor
        · rintro ⟨hfree', -⟩ - -
          exact ⟨fun _ => hslot.mp hfree', fun htrue => absurd (hsupported.symm.trans htrue) (by decide)⟩
        · intro hcontained
          exact ⟨hslot.mpr ((hcontained hallowed hsome).1 hsupported), False.elim⟩
      | true =>
        have hended : Ended parsers x (attempts parsers x 0 maxAttempts) :=
          attempts_ended (fun k hk => absurd hk (Nat.not_lt_zero k)) rfl
        rw [Counted, circuitStep, request_sent hentitled hadmitted hsupported, ended_iff hended hfailures hslot]
        constructor
        · intro hmade _ _
          exact ⟨fun hfalse => absurd (hsupported.symm.trans hfalse) (by decide), fun _ => hmade⟩
        · intro hcontained
          exact (hcontained hallowed hsome).2 hsupported

-- A failure that is counted after two others opens the circuit.
theorem counted_opens (hfree : s.halfOpenInflight = false) (h : (circuitStep parsers s x).failures = s.failures + 1)
    (htwo : 2 ≤ s.failures) : (circuitStep parsers s x).openedAt ≠ none := by
  unfold circuitStep at h ⊢
  by_cases hentitled : x.endpoint = .archive ∧ x.archiveEntitled = false
  · rw [request, if_pos hentitled] at h
    exact absurd h (Nat.ne_of_lt (Nat.lt_succ_self _))
  · cases hadmitted : s.allowRequest x.clock.admission with
    | none =>
      rw [request, if_neg hentitled, hadmitted] at h
      exact absurd h (Nat.ne_of_lt (Nat.lt_succ_self _))
    | some s' =>
      have hfailures := (allowRequest_some hfree hadmitted).1
      cases hsupported : x.supported parsers with
      | false =>
        simp only [request, hentitled, if_false, hadmitted, hsupported, Bool.false_eq_true] at h
        omega
      | true =>
        rw [request_sent hentitled hadmitted hsupported] at h ⊢
        generalize attempts parsers x 0 maxAttempts = reply at h ⊢
        cases reply with
        | failed error =>
          have hthree : 3 ≤ s'.failures + 1 := by omega
          simp only [settle, Circuit.recordFailure, hthree, if_true]
          exact Option.some_ne_none _
        | returned => simp [settle] at h
        | _ =>
          simp only [settle] at h
          omega

theorem free_admits {openedAt now : ℚ} (hfree : s.halfOpenInflight = false) (hopened : s.openedAt = some openedAt)
    (hlong : 30 ≤ now - openedAt) : s.allowRequest now ≠ none := by
  have hwait : ¬(now - openedAt < 30 ∨ s.halfOpenInflight = true) := by
    rintro (hshort | hheld)
    · exact absurd hshort (not_lt.mpr hlong)
    · exact absurd (hfree.symm.trans hheld) (by decide)
  simp only [Circuit.allowRequest, hopened, if_neg hwait]
  exact Option.some_ne_none _

variable {ops : List NewsRequest}

theorem kept_free (h : Throughout (circuitStep parsers) (Kept parsers) ops {}) {before after : List NewsRequest}
    (hops : ops = before ++ after) : (before.foldl (circuitStep parsers) {}).halfOpenInflight = false := by
  rcases List.eq_nil_or_concat before with rfl | ⟨earlier, x, rfl⟩
  · rfl
  · have hkept := throughout_iff.mp h earlier x after (by simp [hops])
    simpa using hkept.1

theorem kept_governed (h : Throughout (circuitStep parsers) (Kept parsers) ops {}) : Governed parsers ops where
  free before after hops := kept_free h hops
  admits before after hops openedAt hopened now hlong := free_admits (kept_free h hops) hopened hlong
  counted before x after hops := (throughout_iff.mp h before x after hops).2
  opens before x y z after hops hx hy hz := by
    have hsplit : ops = (before ++ [x, y]) ++ z :: after := by simp [hops]
    have hfirst := (throughout_iff.mp h before x (y :: z :: after) hops).2 hx
    have hsecond := (throughout_iff.mp h (before ++ [x]) y (z :: after) (by simp [hops])).2 hy
    have hthird := (throughout_iff.mp h (before ++ [x, y]) z after hsplit).2 hz
    simp only [List.foldl_append, List.foldl_cons, List.foldl_nil] at hfirst hsecond hthird ⊢
    have hfree := kept_free h hsplit
    simp only [List.foldl_append, List.foldl_cons, List.foldl_nil] at hfree
    exact counted_opens hfree hthird (by omega)

theorem Governed.kept (h : Governed parsers ops) : Throughout (circuitStep parsers) (Kept parsers) ops {} := by
  refine throughout_iff.mpr fun before x after hops => ⟨?_, h.counted before x after hops⟩
  simpa using h.free (before ++ [x]) after (by simp [hops])

-- The circuit is governed over a run exactly when each of its requests meets the condition.
theorem governed_iff (parsers : Parsers) (ops : List NewsRequest) :
    Governed parsers ops ↔ Throughout (circuitStep parsers) (Contained parsers) ops {} := by
  have hcongr : Throughout (circuitStep parsers) (Kept parsers) ops {} ↔
      Throughout (circuitStep parsers) (Contained parsers) ops {} :=
    throughout_congr (fun _ _ _ hkept => hkept.1) (fun _ _ hfree => step_iff hfree) rfl
  rw [← hcongr]
  exact ⟨Governed.kept, kept_governed⟩

def down : NewsRequest where
  endpoint := .latest
  archiveEntitled := false
  supplied := []
  outcome _ := .response ⟨0, 500, none, .invalid⟩
  clock := ⟨0, 0, fun _ => 0, fun _ => 0, 0⟩

theorem down_untallied (parsers : Parsers) : request parsers {} down = ({}, .escaped .unavailable) := by
  have hattempts : attempts parsers down 0 maxAttempts = .escaped .unavailable := by
    norm_num [attempts, tryAttempt, down, maxAttempts, maxResponseBytes, overallDeadline, Raised.caught]
    decide
  rw [request_sent (by simp [down]) rfl rfl, hattempts]
  rfl

-- Three server errors in a row leave the circuit closed.
theorem server_errors_uncounted : ¬∀ parsers ops, Governed parsers ops := by
  intro hclaim
  have hdown := down_untallied ⟨fun _ => none, fun _ => none⟩
  have hopened := (hclaim ⟨fun _ => none, fun _ => none⟩ [down, down, down]).opens [] down down down [] rfl
  simp only [List.nil_append, List.foldl_cons, List.foldl_nil, circuitStep, hdown] at hopened
  exact hopened (.inl rfl) (.inl rfl) (.inl rfl) rfl

end News

end Beyvra
