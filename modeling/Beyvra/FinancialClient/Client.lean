import Mathlib.Algebra.Group.Defs
import Mathlib.Order.Defs.LinearOrder
import Beyvra.FinancialBoundary.Canonical
import Beyvra.Relational.Table

namespace Beyvra

open Relational

namespace FinancialClient

structure FinancialServiceError where
  code : String
  detail : String := "Financial service request failed."
  status : Int := 503
  deriving DecidableEq

inductive ClientError where
  | financialServiceError (error : FinancialServiceError)
  | financialFeatureDisabled (error : FinancialServiceError)
  | unknownFinancialOutcome (error : FinancialServiceError)
  | circuitOpen (error : FinancialServiceError)
  | uncaught (exception : String)
  deriving DecidableEq

inductive CircuitState where
  | closed | open | halfOpen
  deriving DecidableEq

-- Clock readings are elements of any ordered type T with a subtraction, such as floats.
structure CircuitBreaker (T : Type) where
  threshold : Int := 5
  recoverySeconds : T
  failures : Nat := 0
  openedAt : Option T := none
  halfOpenProbe : Bool := false
  deriving DecidableEq

section Breaker

variable {T : Type} [Sub T] [LinearOrder T]

namespace CircuitBreaker

def state (b : CircuitBreaker T) (now : T) : CircuitState :=
  match b.openedAt with
  | none => .closed
  | some openedAt => if b.recoverySeconds ≤ now - openedAt then .halfOpen else .open

def beforeRequest (b : CircuitBreaker T) (now : T) : Except ClientError (CircuitBreaker T) := do
  let state := b.state now
  require (¬(state = .open ∨ (state = .halfOpen ∧ b.halfOpenProbe = true)))
    (.circuitOpen ⟨"SERVICE_TEMPORARILY_UNAVAILABLE", "Financial service request failed.", 503⟩)
  pure (if state = .halfOpen then { b with halfOpenProbe := true } else b)

def success (b : CircuitBreaker T) : CircuitBreaker T :=
  { b with failures := 0, openedAt := none, halfOpenProbe := false }

-- The clock is read for the state and again where the breaker opens.
def failure (b : CircuitBreaker T) (now reopened : T) : CircuitBreaker T :=
  { b with
    failures := b.failures + 1
    openedAt := if b.state now = .halfOpen ∨ b.threshold ≤ b.failures + 1 then some reopened else b.openedAt
    halfOpenProbe := false }

end CircuitBreaker

end Breaker

def safeRetryMethods : List String := ["GET", "HEAD"]

def transientStatus : List Int := [500, 502, 503, 504]

def codeMapping : List (String × String) :=
  [("VALIDATION_FAILED", "VALIDATION_ERROR"), ("RESOURCE_NOT_FOUND", "NOT_FOUND"),
    ("AUTHENTICATION_REQUIRED", "RESTRICTION"), ("AUTHORIZATION_DENIED", "RESTRICTION"),
    ("TENANT_MISMATCH", "RESTRICTION")]

def passedCodes : List String :=
  ["FEATURE_DISABLED", "INSUFFICIENT_AVAILABLE_BALANCE", "IDEMPOTENCY_CONFLICT",
    "WITHDRAWAL_NOT_CANCELLABLE", "WITHDRAWAL_ALREADY_PROCESSED"]

-- A list or an object is not hashable, so looking it up raises.
def safeCode : Json → Except ClientError String
  | .str code => pure ((codeMapping.lookup code).getD
      (if code ∈ passedCodes then code else "FINANCIAL_SERVICE_ERROR"))
  | .arr _ | .obj _ => .error (.uncaught "TypeError")
  | _ => pure "FINANCIAL_SERVICE_ERROR"

def rawCode : Json → Except ClientError Json
  | .obj fields => pure ((fields.lookup "code").getD (.str "FINANCIAL_SERVICE_ERROR"))
  | _ => .error (.uncaught "AttributeError")

-- A response without a body is one whose json() raised ValueError.
inductive Outcome where
  | sslError
  | timeout
  | connectionError
  | otherError (exception : String)
  | response (statusCode : Int) (body : Option Json)

inductive Phase where
  | ready | sent | returned (body : Json) | raised (error : ClientError)

structure Request (T : Type) where
  method : String
  attempts : Int
  deadline : T
  attempt : Nat := 0
  phase : Phase := .ready

structure Readings (T : Type) where
  state : T
  reopened : T
  retry : T

section Attempts

variable {T : Type} [Zero T] [Sub T] [LinearOrder T]

namespace Request

def safe (r : Request T) : Bool := r.method ∈ safeRetryMethods

def start (method : String) (retryCount : Int) (deadline : T) : Request T where
  method := method
  attempts := 1 + if method ∈ safeRetryMethods then retryCount else 0
  deadline := deadline

def again (r : Request T) : Request T := { r with attempt := r.attempt + 1, phase := .ready }

def finish (r : Request T) (error : ClientError) : Request T := { r with phase := .raised error }

def sent (r : Request T) : Prop := r.phase = .sent

instance (r : Request T) : Decidable r.sent :=
  match h : r.phase with
  | .sent => .isTrue h
  | .ready | .returned _ | .raised _ => .isFalse fun h' => by rw [sent, h] at h'; cases h'

def unavailable : ClientError := .financialServiceError { code := "TRANSIENT_UNAVAILABLE" }

-- The head of the loop: the next attempt, its timeout and the breaker's leave for it.
def begin (r : Request T) (remaining now : T) (b : CircuitBreaker T) :
    Except ClientError (CircuitBreaker T) := do
  require ((r.attempt : Int) < r.attempts) unavailable
  require (0 < r.deadline - remaining) unavailable
  b.beforeRequest now

def interrupted (r : Request T) : Request T :=
  if r.safe = false then r.finish (.unknownFinancialOutcome { code := "UNKNOWN_OUTCOME" })
  else if (r.attempt : Int) + 1 = r.attempts then r.finish unavailable
  else r.again

def answered (r : Request T) (statusCode : Int) (code : String) (body : Json) : Request T :=
  if 400 ≤ statusCode then r.finish (.financialServiceError { code := code, status := statusCode })
  else { r with phase := .returned body }

def receive (r : Request T) (statusCode : Int) (body : Json) (code : String) (now : Readings T)
    (b : CircuitBreaker T) : CircuitBreaker T × Request T :=
  if 400 ≤ statusCode ∧ code = "FEATURE_DISABLED" then
    (b.success, r.finish (.financialFeatureDisabled { code := code, status := statusCode }))
  else if statusCode ∈ transientStatus then
    (b.failure now.state now.reopened,
      if r.safe = true ∧ (r.attempt : Int) + 1 < r.attempts ∧ now.retry < r.deadline then r.again
      else r.answered statusCode code body)
  else (b.success, r.answered statusCode code body)

-- An exception that no clause catches leaves the loop with the breaker as it is.
def settle (r : Request T) (outcome : Outcome) (now : Readings T) (b : CircuitBreaker T) :
    CircuitBreaker T × Request T :=
  match outcome with
  | .sslError => (b.failure now.state now.reopened,
      r.finish (.financialServiceError { code := "MTLS_AUTHENTICATION_FAILED" }))
  | .timeout | .connectionError => (b.failure now.state now.reopened, r.interrupted)
  | .otherError exception => (b, r.finish (.uncaught exception))
  | .response statusCode body =>
    let body := body.getD (.obj [])
    match rawCode body >>= safeCode with
    | .error error => (b, r.finish error)
    | .ok code => r.receive statusCode body code now b

end Request

inductive ClientOp (T : Type) where
  | call (i : Nat) (method : String) (retryCount : Int) (deadline : T)
  | begin (i : Nat) (remaining now : T)
  | settle (i : Nat) (outcome : Outcome) (now : Readings T)

-- The calls that share a breaker, whichever clients they go through.
structure Calls (T : Type) where
  breaker : CircuitBreaker T
  requests : Table Nat (Request T) := Table.empty

namespace Calls

def step (s : Calls T) : ClientOp T → Calls T
  | .call i method retryCount deadline =>
    match s.requests.find i with
    | none => { s with requests := s.requests.put i (.start method retryCount deadline) }
    | some _ => s
  | .begin i remaining now =>
    match s.requests.find i with
    | some r => match r.phase with
      | .ready => match r.begin remaining now s.breaker with
        | .ok b => ⟨b, s.requests.put i { r with phase := .sent }⟩
        | .error error => { s with requests := s.requests.put i (r.finish error) }
      | _ => s
    | none => s
  | .settle i outcome now =>
    match s.requests.find i with
    | some r => if r.sent then
        ⟨(r.settle outcome now s.breaker).1, s.requests.put i (r.settle outcome now s.breaker).2⟩
      else s
    | none => s

def InFlight (s : Calls T) (i : Nat) : Prop := ∃ r, s.requests.find i = some r ∧ r.sent

def start (threshold : Int) (recoverySeconds : T) : Calls T where
  breaker := { threshold, recoverySeconds }

end Calls

end Attempts

end FinancialClient

end Beyvra
