import Mathlib.Tactic.NormNum
import Beyvra.FinancialClient.Availability
import Beyvra.Numeric.Rounding

namespace Beyvra

open Numeric Relational

namespace FinancialClient

structure Timeouts where
  connect : Binary64
  request : Binary64

-- What one attempt meets: the clock at its start and that of the breaker, how it ends, and the clocks after that
structure AttemptScript where
  started : Binary64
  admitted : Binary64
  outcome : Outcome
  ended : Readings Binary64

structure SentAttempt where
  started : Binary64
  timeout : Timeouts
  outcome : Outcome

structure AttemptRun where
  sent : List SentAttempt
  breaker : CircuitBreaker Binary64
  result : Except ClientError Json

section Attempts

def millisecond : Binary64 := .round (1 / 1000)

def attemptTimeout (timeout : Timeouts) (deadline now : Binary64) : Except ClientError Timeouts := do
  let remaining := deadline - now
  require (0 < remaining) Request.unavailable
  let connect := min timeout.connect (max millisecond (.round (remaining.value / 2)))
  let request := min timeout.request (max millisecond (remaining - connect))
  return ⟨connect, request⟩

def attempt (timeout : Timeouts) (script : AttemptScript) (r : Request Binary64) (b : CircuitBreaker Binary64) :
    Except ClientError (Timeouts × CircuitBreaker Binary64) := do
  let granted ← attemptTimeout timeout r.deadline script.started
  let admitted ← b.beforeRequest script.admitted
  return (granted, admitted)

-- `_request_attempts`, with the number of attempts that are left
def requestAttempts (timeout : Timeouts) (script : Nat → AttemptScript) :
    Nat → Request Binary64 → CircuitBreaker Binary64 → AttemptRun
  | 0, _, b => ⟨[], b, .error Request.unavailable⟩
  | left + 1, r, b =>
    match attempt timeout (script r.attempt) r b with
    | .error error => ⟨[], b, .error error⟩
    | .ok (granted, admitted) =>
      let sent := ⟨(script r.attempt).started, granted, (script r.attempt).outcome⟩
      let settled := r.settle (script r.attempt).outcome (script r.attempt).ended admitted
      match settled.2.phase with
      | .returned body => ⟨[sent], settled.1, .ok body⟩
      | .raised error => ⟨[sent], settled.1, .error error⟩
      | .ready | .sent =>
        let rest := requestAttempts timeout script left settled.2 settled.1
        ⟨sent :: rest.sent, rest.breaker, rest.result⟩

def clientRequest (timeout : Timeouts) (script : Nat → AttemptScript) (method : String) (retryCount : Int)
    (deadline : Binary64) (b : CircuitBreaker Binary64) : AttemptRun :=
  let r := Request.start method retryCount deadline
  requestAttempts timeout script r.attempts.toNat r b

-- The clock does not go back from an attempt's start to its end and to the start of the next one.
def Nondecreasing (script : Nat → AttemptScript) : Prop :=
  ∀ k, (script k).started ≤ (script k).ended.retry ∧ (script k).ended.retry ≤ (script (k + 1)).started

def unknownOutcome : ClientError := .unknownFinancialOutcome { code := "UNKNOWN_OUTCOME" }

structure AttemptsSound (script : Nat → AttemptScript) (method : String) (retryCount : Int) (deadline : Binary64)
    (run : AttemptRun) : Prop where
  mutation : method ∉ safeRetryMethods → run.sent.length ≤ 1
  read : method ∈ safeRetryMethods → run.sent.length ≤ (1 + retryCount).toNat
  inTime : ∀ s ∈ run.sent, s.started < deadline
  noneLater : Nondecreasing script → ∀ k, deadline ≤ (script k).ended.retry → run.sent.length ≤ k + 1
  timeouts : ∀ s ∈ run.sent, 2 / 1000 ≤ (deadline - s.started).value →
    s.timeout.connect.value + s.timeout.request.value ≤
      (deadline - s.started).value + ((deadline - s.started).value - s.timeout.connect.value) * 2 ^ (-53 : Int)
  ambiguous : method ∉ safeRetryMethods → ∀ s ∈ run.sent, s.outcome = .timeout ∨ s.outcome = .connectionError →
    run.result = .error unknownOutcome
  body : ∀ body, run.result = .ok body → ∃ s ∈ run.sent, ∃ statusCode raw,
    s.outcome = .response statusCode raw ∧ statusCode < 400 ∧ body = raw.getD (.obj [])

-- What one attempt leaves of the request
inductive Settled (r : Request Binary64) (outcome : Outcome) (after : Request Binary64) : Prop
  | raised (error : ClientError) (hphase : after.phase = .raised error)
    (hambiguous : r.safe = false → outcome = .timeout ∨ outcome = .connectionError → error = unknownOutcome)
  | returned (statusCode : Int) (raw : Option Json) (houtcome : outcome = .response statusCode raw)
    (hstatus : statusCode < 400) (hphase : after.phase = .returned (raw.getD (.obj [])))
  | again (h : after = r.again) (hsafe : r.safe = true)

def sentAt (script : Nat → AttemptScript) (r : Request Binary64) (granted : Timeouts) : SentAttempt :=
  ⟨(script r.attempt).started, granted, (script r.attempt).outcome⟩

inductive Runs (timeout : Timeouts) (script : Nat → AttemptScript) : Request Binary64 → AttemptRun → Prop
  | stopped (r : Request Binary64) (b : CircuitBreaker Binary64) (error : ClientError) : Runs timeout script r ⟨[], b, .error error⟩
  | raised (r : Request Binary64) (b : CircuitBreaker Binary64) {granted : Timeouts} (error : ClientError)
    (hgranted : attemptTimeout timeout r.deadline (script r.attempt).started = .ok granted)
    (hambiguous : r.safe = false → (script r.attempt).outcome = .timeout ∨ (script r.attempt).outcome = .connectionError →
      error = unknownOutcome) : Runs timeout script r ⟨[sentAt script r granted], b, .error error⟩
  | returned (r : Request Binary64) (b : CircuitBreaker Binary64) {granted : Timeouts} (statusCode : Int) (raw : Option Json)
    (hgranted : attemptTimeout timeout r.deadline (script r.attempt).started = .ok granted)
    (houtcome : (script r.attempt).outcome = .response statusCode raw) (hstatus : statusCode < 400) :
    Runs timeout script r ⟨[sentAt script r granted], b, .ok (raw.getD (.obj []))⟩
  | again (r : Request Binary64) {granted : Timeouts} {rest : AttemptRun}
    (hgranted : attemptTimeout timeout r.deadline (script r.attempt).started = .ok granted) (hsafe : r.safe = true)
    (h : Runs timeout script r.again rest) :
    Runs timeout script r ⟨sentAt script r granted :: rest.sent, rest.breaker, rest.result⟩

variable {timeout granted : Timeouts} {script : Nat → AttemptScript} {r : Request Binary64} {b admitted : CircuitBreaker Binary64}
  {outcome : Outcome} {now : Readings Binary64} {body : Json} {statusCode : Int} {code : String} {left : Nat} {deadline : Binary64}
  {run : AttemptRun}

-- An attempt of the loop is what begins a call on the shared breaker.
theorem begin_iff_attempt {step : AttemptScript} (h : (r.attempt : Int) < r.attempts) :
    r.begin step.started step.admitted b = .ok admitted ↔ ∃ granted, attempt timeout step r b = .ok (granted, admitted) := by
  unfold Request.begin attempt attemptTimeout
  simp only [bind_eq_ok, require_eq_ok, pure_eq_ok, Prod.mk.injEq]
  constructor
  · rintro ⟨_, _, _, hremaining, hadmitted⟩
    exact ⟨_, _, ⟨(), hremaining, rfl⟩, admitted, hadmitted, rfl, rfl⟩
  · rintro ⟨_, _, ⟨_, hremaining, _⟩, _, hadmitted, _, rfl⟩
    exact ⟨(), h, (), hremaining, hadmitted⟩

theorem settled_interrupted (outcome : Outcome) : Settled r outcome r.interrupted := by
  unfold Request.interrupted
  split_ifs with hsafe hlast
  · exact .raised unknownOutcome rfl fun _ _ => rfl
  · exact .raised Request.unavailable rfl fun h => absurd h hsafe
  · exact .again rfl (Bool.eq_true_of_not_eq_false hsafe)

theorem settled_answered (raw : Option Json) :
    Settled r (.response statusCode raw) (r.answered statusCode code (raw.getD (.obj []))) := by
  unfold Request.answered
  split_ifs with hstatus
  · exact .raised _ rfl fun _ h => by simp at h
  · exact .returned statusCode raw rfl (not_le.mp hstatus) rfl

theorem settled_receive (raw : Option Json) :
    Settled r (.response statusCode raw) (r.receive statusCode (raw.getD (.obj [])) code now b).2 := by
  unfold Request.receive
  split_ifs with hdisabled htransient hagain
  · exact .raised _ rfl fun _ h => by simp at h
  · exact .again rfl hagain.1
  · exact settled_answered raw
  · exact settled_answered raw

theorem settled_settle (r : Request Binary64) (outcome : Outcome) (now : Readings Binary64) (b : CircuitBreaker Binary64) :
    Settled r outcome (r.settle outcome now b).2 := by
  cases outcome with
  | sslError => exact .raised _ rfl fun _ h => by simp at h
  | timeout => exact settled_interrupted _
  | connectionError => exact settled_interrupted _
  | otherError exception => exact .raised _ rfl fun _ h => by simp at h
  | response statusCode raw =>
    cases hcode : rawCode (raw.getD (.obj [])) >>= safeCode with
    | error error =>
      rw [settle_of_error hcode]
      exact .raised _ rfl fun _ h => by simp at h
    | ok code =>
      rw [settle_of_code hcode]
      exact settled_receive raw

theorem runs_requestAttempts (timeout : Timeouts) (script : Nat → AttemptScript) (left : Nat) (r : Request Binary64)
    (b : CircuitBreaker Binary64) : Runs timeout script r (requestAttempts timeout script left r b) := by
  induction left generalizing r b with
  | zero => exact .stopped r b _
  | succ left ih =>
    rw [requestAttempts]
    cases hattempt : attempt timeout (script r.attempt) r b with
    | error error => exact .stopped r b error
    | ok result =>
      obtain ⟨granted, admitted⟩ := result
      obtain ⟨granted', hgranted, hrest⟩ := bind_eq_ok.mp hattempt
      obtain ⟨admitted', -, hpair⟩ := bind_eq_ok.mp hrest
      obtain ⟨rfl, rfl⟩ := Prod.mk.inj (pure_eq_ok.mp hpair)
      dsimp only
      rcases settled_settle r (script r.attempt).outcome (script r.attempt).ended admitted' with
        ⟨error, hphase, hambiguous⟩ | ⟨statusCode, raw, houtcome, hstatus, hphase⟩ | ⟨h, hsafe⟩
      · rw [hphase]
        exact .raised r _ error hgranted hambiguous
      · rw [hphase]
        exact .returned r _ statusCode raw hgranted houtcome hstatus
      · rw [h]
        exact .again r hgranted hsafe (ih _ _)

theorem length_requestAttempts (left : Nat) (r : Request Binary64) (b : CircuitBreaker Binary64) :
    (requestAttempts timeout script left r b).sent.length ≤ left := by
  induction left generalizing r b with
  | zero => exact le_rfl
  | succ left ih =>
    rw [requestAttempts]
    split
    · exact Nat.zero_le _
    · dsimp only
      split
      · exact Nat.le_add_left 1 left
      · exact Nat.le_add_left 1 left
      · exact Nat.succ_le_succ (ih _ _)
      · exact Nat.succ_le_succ (ih _ _)

-- Each attempt has its own place in the script and is given its timeouts there.
theorem Runs.grants (h : Runs timeout script r run) : ∀ j s, run.sent[j]? = some s →
    s.started = (script (r.attempt + j)).started ∧ attemptTimeout timeout r.deadline s.started = .ok s.timeout := by
  induction h with
  | stopped r b error => simp
  | raised r b error hgranted _ =>
    intro j s hs
    obtain ⟨rfl, rfl⟩ : j = 0 ∧ sentAt script r _ = s := by
      cases j with
      | zero => simpa using hs
      | succ j => simp at hs
    exact ⟨rfl, hgranted⟩
  | returned r b statusCode raw hgranted _ _ =>
    intro j s hs
    obtain ⟨rfl, rfl⟩ : j = 0 ∧ sentAt script r _ = s := by
      cases j with
      | zero => simpa using hs
      | succ j => simp at hs
    exact ⟨rfl, hgranted⟩
  | again r hgranted hsafe _ ih =>
    intro j s hs
    cases j with
    | zero =>
      obtain rfl : sentAt script r _ = s := by simpa using hs
      exact ⟨rfl, hgranted⟩
    | succ j =>
      obtain ⟨hstarted, htimeout⟩ := ih j s (by simpa using hs)
      have hplace : r.again.attempt + j = r.attempt + (j + 1) := Nat.succ_add_eq_add_succ _ _
      rw [hplace] at hstarted
      exact ⟨hstarted, htimeout⟩

-- A positive float is the difference of its terms before the rounding only up to half a unit of 53 digits.
theorem binary64_le_mul {x : ℚ} (hx : 1 / 1000 ≤ x) : binary64 x ≤ x + x * 2 ^ (-53 : Int) := by
  have hpos : 0 < x := lt_of_lt_of_le (by norm_num) hx
  have hlog : (-10 : Int) ≤ Int.log 2 x :=
    (Int.zpow_le_iff_le_log (by norm_num) hpos).mp (le_trans (by norm_num) hx)
  have hle := @nearest_le_mul 2 53 (-1074) x (by norm_num) hpos (by omega)
  have hscale : (1 : ℚ) + ((2 : Nat) : ℚ) ^ (1 - ((53 : Nat) : Int)) / 2 = 1 + 2 ^ (-53 : Int) := by norm_num
  rw [hscale, mul_add, mul_one] at hle
  exact hle

theorem half_exact {x : Binary64} (hx : 2 / 1000 ≤ x.value) : binary64 (x.value / 2) = x.value / 2 := by
  have hpos : 0 < x.value := lt_of_lt_of_le (by norm_num) hx
  have hlog : (-9 : Int) ≤ Int.log 2 x.value :=
    (Int.zpow_le_iff_le_log (by norm_num) hpos).mp (le_trans (by norm_num) hx)
  have hlast : (-1074 : Int) < lastExponent 2 53 (-1074) x.value := by
    rw [lastExponent, abs_of_pos hpos]
    omega
  exact_mod_cast nearest_div (by norm_num) x.rounded hlast

theorem attemptTimeout_eq_ok {now : Binary64} (h : attemptTimeout timeout deadline now = .ok granted) :
    now < deadline ∧ (2 / 1000 ≤ (deadline - now).value → granted.connect.value + granted.request.value ≤
      (deadline - now).value + ((deadline - now).value - granted.connect.value) * 2 ^ (-53 : Int)) := by
  obtain ⟨_, hremaining, hgranted⟩ := bind_eq_ok.mp h
  have hpositive := require_eq_ok.mp hremaining
  refine ⟨Binary64.lt_of_sub_pos hpositive, fun hroom => ?_⟩
  rw [← pure_eq_ok.mp hgranted]
  have hhalf := half_exact hroom
  have hfirst : millisecond ≤ .round ((deadline - now).value / 2) :=
    nearest_mono (by norm_num) (by norm_num) (by norm_num) (by linarith)
  have hconnect : (min timeout.connect (max millisecond (.round ((deadline - now).value / 2)))).value ≤
      (deadline - now).value / 2 := by
    rw [max_eq_right hfirst]
    exact (Binary64.monotone_value (min_le_right _ _)).trans_eq hhalf
  have hleft : 1 / 1000 ≤
      (deadline - now).value - (min timeout.connect (max millisecond (.round ((deadline - now).value / 2)))).value := by
    linarith
  have hsecond : millisecond ≤
      deadline - now - min timeout.connect (max millisecond (.round ((deadline - now).value / 2))) :=
    nearest_mono (by norm_num) (by norm_num) (by norm_num) hleft
  dsimp only
  rw [max_eq_right hsecond]
  have hrequest := Binary64.monotone_value (min_le_right timeout.request
    (deadline - now - min timeout.connect (max millisecond (.round ((deadline - now).value / 2)))))
  have hsum := hrequest.trans (binary64_le_mul hleft)
  linarith

theorem Runs.ambiguous (h : Runs timeout script r run) (hsafe : r.safe = false) : ∀ s ∈ run.sent,
    s.outcome = .timeout ∨ s.outcome = .connectionError → run.result = .error unknownOutcome := by
  cases h with
  | stopped _ b error => simp
  | raised _ b error hgranted hambiguous =>
    intro s hs houtcome
    obtain rfl := List.mem_singleton.mp hs
    rw [hambiguous hsafe houtcome]
  | returned _ b statusCode raw hgranted houtcome hstatus =>
    intro s hs hlost
    obtain rfl := List.mem_singleton.mp hs
    change (script r.attempt).outcome = .timeout ∨ (script r.attempt).outcome = .connectionError at hlost
    rw [houtcome] at hlost
    simp at hlost
  | again _ hgranted hagain _ =>
    rw [hsafe] at hagain
    cases hagain

theorem Runs.answers (h : Runs timeout script r run) : ∀ body, run.result = .ok body → ∃ s ∈ run.sent, ∃ statusCode raw,
    s.outcome = .response statusCode raw ∧ statusCode < 400 ∧ body = raw.getD (.obj []) := by
  induction h with
  | stopped r b error => exact fun _ h => nomatch h
  | raised r b error hgranted hambiguous => exact fun _ h => nomatch h
  | returned r b statusCode raw hgranted houtcome hstatus =>
    intro body hbody
    exact ⟨_, List.mem_singleton_self _, statusCode, raw, houtcome, hstatus, (Except.ok.inj hbody).symm⟩
  | again r hgranted hsafe _ ih =>
    intro body hbody
    obtain ⟨s, hs, rest⟩ := ih body hbody
    exact ⟨s, List.mem_cons_of_mem _ hs, rest⟩

theorem attempts_sound (timeout : Timeouts) (script : Nat → AttemptScript) (method : String)
    (retryCount : Int) (deadline : Binary64) (b : CircuitBreaker Binary64) : AttemptsSound script method retryCount deadline
      (clientRequest timeout script method retryCount deadline b) := by
  have hruns := runs_requestAttempts timeout script (Request.start method retryCount deadline).attempts.toNat
    (Request.start method retryCount deadline) b
  have hlength : (clientRequest timeout script method retryCount deadline b).sent.length ≤
      (Request.start method retryCount deadline).attempts.toNat := length_requestAttempts _ _ _
  have hgranted : ∀ s ∈ (clientRequest timeout script method retryCount deadline b).sent,
      attemptTimeout timeout deadline s.started = .ok s.timeout := by
    intro s hs
    obtain ⟨j, hj⟩ := List.mem_iff_getElem?.mp hs
    exact (hruns.grants j s hj).2
  constructor
  · intro hmethod
    simpa [Request.start, hmethod] using hlength
  · intro hmethod
    simpa [Request.start, hmethod] using hlength
  · exact fun s hs => (attemptTimeout_eq_ok (hgranted s hs)).1
  · intro hclock k hk
    by_contra hmore
    have hlong : k + 1 < (clientRequest timeout script method retryCount deadline b).sent.length := by omega
    obtain ⟨hstarted, htimeout⟩ := hruns.grants (k + 1) _ (List.getElem?_eq_getElem hlong)
    have hearly := (attemptTimeout_eq_ok htimeout).1
    rw [hstarted] at hearly
    have hplace : (Request.start method retryCount deadline).attempt + (k + 1) = k + 1 := Nat.zero_add _
    rw [hplace] at hearly
    exact absurd (hk.trans (hclock k).2) (not_le.mpr hearly)
  · exact fun s hs => (attemptTimeout_eq_ok (hgranted s hs)).2
  · intro hmethod
    exact hruns.ambiguous (by simp [Request.safe, Request.start, hmethod])
  · exact hruns.answers

end Attempts

-- The clock stands still.
def scriptAt (now : ℚ) (outcome : Outcome) : Nat → AttemptScript := fun _ =>
  { started := .round now, admitted := .round now, outcome, ended := ⟨.round now, .round now, .round now⟩ }

def requestAt (now : ℚ) (outcome : Outcome) (method : String) (connect request : ℚ) : AttemptRun :=
  clientRequest ⟨.round connect, .round request⟩ (scriptAt now outcome) method 2 (.round 12)
    { recoverySeconds := .round 30 }

theorem attempts_sound_lost : (requestAt 0 .timeout "POST" 5 10).sent.length = 1 ∧
    AttemptsSound (scriptAt 0 .timeout) "POST" 2 (.round 12) (requestAt 0 .timeout "POST" 5 10) :=
  ⟨by decide +kernel, attempts_sound _ _ _ _ _ _⟩

-- 11.999 seconds remain, of which 3.05 leave the float 8.949000000000002.
theorem timeouts_exceed_remaining : Nondecreasing (scriptAt (1 / 1000) .timeout) ∧
    ∃ s ∈ (requestAt (1 / 1000) .timeout "POST" (305 / 100) 10).sent,
      2 / 1000 ≤ (Binary64.round 12 - s.started).value ∧
        (Binary64.round 12 - s.started).value < s.timeout.connect.value + s.timeout.request.value :=
  ⟨fun _ => ⟨le_rfl, le_rfl⟩, by decide +kernel⟩

end FinancialClient

end Beyvra
