import Beyvra.Foundation.Records

namespace Beyvra

open Relational

namespace ExecutionControl

inductive ProviderHealth where
  | healthy | degraded | unavailable | halted | unknown | disabled
  deriving DecidableEq

inductive CircuitState where
  | closed | open | halfOpen
  deriving DecidableEq

inductive ExecutionMode where
  | simulation | paper | live
  deriving DecidableEq

inductive GovernanceState where
  | discovered | paperApproved | paperTechnicallyCertified | liveApproved
  | other (value : String)
  deriving DecidableEq

structure ExecutionProviderRecord where
  environment : ExecutionMode := .simulation
  governanceState : GovernanceState := .discovered
  liveSupported : Bool := false
  mode : ExecutionMode
  enabled : Bool := false
  health : ProviderHealth := .halted
  circuitOpenUntil : Option Timestamp := none
  consecutiveFailures : Nat := 0
  updatedAt : Timestamp
  deriving DecidableEq

structure ExecutionProviderHealth where
  state : ProviderHealth := .unknown
  circuitState : CircuitState := .closed
  lastSuccessAt : Option Timestamp := none
  lastFailureAt : Option Timestamp := none
  errorRate : ℚ := 0
  rejectRate : ℚ := 0
  deriving DecidableEq

inductive GovernanceChangeStatus where
  | pending | approved | rejected
  deriving DecidableEq

structure ExecutionGovernanceChange where
  action : String
  requestedByRef : String
  reviewedByRef : String := ""
  reason : String
  status : GovernanceChangeStatus := .pending
  reviewedAt : Option Timestamp := none
  deriving DecidableEq

structure ExecutionSettings where
  allExecutionHalted : Bool := false
  realTradingEnabled : Bool := false
  externalExecutionEnabled : Bool := false
  liveBrokerRoutingEnabled : Bool := false

-- The provider object is the one in hand; the health row is read anew, or made from the object.
def evaluate (now : Timestamp) (provider : ExecutionProviderRecord) (row : Option ExecutionProviderHealth) :
    ProviderHealth :=
  let row := row.getD { state := provider.health }
  if provider.enabled = false then .disabled
  else if provider.health = .halted then .halted
  else if row.circuitState = .open ∨ ∃ t ∈ provider.circuitOpenUntil, now < t then .unavailable
  else if 25 / 100 ≤ row.errorRate ∨ 35 / 100 ≤ row.rejectRate then .degraded
  else if row.state ∈ [ProviderHealth.healthy, .degraded, .unavailable, .halted] then row.state
  else .unknown

def isRoutable (now : Timestamp) (provider : ExecutionProviderRecord) (row : Option ExecutionProviderHealth) : Bool :=
  evaluate now provider row = .healthy

def approvedPaperStates : List GovernanceState := [.paperApproved, .paperTechnicallyCertified]

def listed (condition : Prop) [Decidable condition] (reason : String) : List String :=
  if condition then [reason] else []

def reasons (settings : ExecutionSettings) (provider : ExecutionProviderRecord) (mode : ExecutionMode) :
    List String :=
  listed (settings.allExecutionHalted = true) "ALL_EXECUTION_HALTED" ++
    listed (settings.realTradingEnabled = true ∨ settings.externalExecutionEnabled = true ∨
      settings.liveBrokerRoutingEnabled = true) "LIVE_EXECUTION_DISABLED" ++
    listed (mode = .live) "LIVE_MODE_PROHIBITED" ++
    listed (provider.enabled = false) "PROVIDER_DISABLED" ++
    listed (provider.health ≠ .healthy) "PROVIDER_UNHEALTHY" ++
    listed (provider.environment ≠ mode) "ENVIRONMENT_MISMATCH" ++
    listed (mode = .paper ∧ provider.governanceState ∉ approvedPaperStates) "PAPER_NOT_APPROVED" ++
    listed (provider.liveSupported = true ∨ provider.governanceState = .liveApproved) "LIVE_CAPABILITY_PROHIBITED"

def eligible (settings : ExecutionSettings) (provider : ExecutionProviderRecord) (mode : ExecutionMode) : Bool :=
  (reasons settings provider mode).isEmpty

namespace ExecutionProviderRecord

def failed (now : Timestamp) (o : ExecutionProviderRecord) : ExecutionProviderRecord :=
  let failures := o.consecutiveFailures + 1
  { o with
    consecutiveFailures := failures
    health := if 3 ≤ failures then .unavailable else o.health
    circuitOpenUntil := if 3 ≤ failures then some (now + 30 * microsecondsPerSecond) else o.circuitOpenUntil
    updatedAt := now }

def succeeded (now : Timestamp) (o : ExecutionProviderRecord) : ExecutionProviderRecord :=
  { o with consecutiveFailures := 0, health := .healthy, circuitOpenUntil := none, updatedAt := now }

-- save() with update_fields writes the columns it names; without, every column of the object.
def saveFailure (row o : ExecutionProviderRecord) : ExecutionProviderRecord :=
  { row with
    consecutiveFailures := o.consecutiveFailures
    health := o.health
    circuitOpenUntil := o.circuitOpenUntil
    updatedAt := o.updatedAt }

end ExecutionProviderRecord

-- One provider: its rows, its governance changes and the objects read from its row.
structure ProviderControl where
  provider : ExecutionProviderRecord
  health : Option ExecutionProviderHealth := none
  changes : List ExecutionGovernanceChange := []
  objects : Table Nat ExecutionProviderRecord := Table.empty

namespace ProviderControl

def recordFailure (now : Timestamp) (object : Nat) (s : ProviderControl) : ProviderControl :=
  match s.objects.find object with
  | none => s
  | some o =>
    { s with
      provider := s.provider.saveFailure (o.failed now)
      health := some { s.health.getD {} with
        state := (o.failed now).health
        circuitState := if 3 ≤ (o.failed now).consecutiveFailures then .open else .closed
        lastFailureAt := some now }
      objects := s.objects.put object (o.failed now) }

def recordSuccess (now : Timestamp) (object : Nat) (s : ProviderControl) : ProviderControl :=
  match s.objects.find object with
  | none => s
  | some o =>
    { s with
      provider := o.succeeded now
      health := some { s.health.getD {} with
        state := .healthy, circuitState := .closed, lastSuccessAt := some now }
      objects := s.objects.put object (o.succeeded now) }

def halfOpen (s : ProviderControl) : ProviderControl :=
  { s with health := some { s.health.getD {} with circuitState := .halfOpen } }

def setProviderHalt (now : Timestamp) (halted : Bool) (expectedVersion : Timestamp) (s : ProviderControl) :
    Except String ProviderControl := do
  require (s.provider.mode ≠ .live) "LIVE_EXECUTION_DISABLED"
  require (s.provider.updatedAt = expectedVersion) "VERSION_CONFLICT"
  pure { s with provider := { s.provider with
    health := if halted then .halted else .healthy
    enabled := !halted
    updatedAt := now } }

def pendingChange (change : ExecutionGovernanceChange) : Bool :=
  change.action = "PAPER_ENABLE" && change.status = .pending

-- The first post makes the request, a second one by somebody else approves it.
def paperEnable (now : Timestamp) (actorRef reason : String) (expectedVersion : Timestamp) (s : ProviderControl) :
    Except String ProviderControl := do
  require (s.provider.mode = .paper ∧ s.provider.liveSupported = false) "RESOURCE_NOT_FOUND"
  require (s.provider.governanceState ∈ approvedPaperStates) "PROVIDER_NOT_APPROVED"
  require (expectedVersion = s.provider.updatedAt) "VERSION_CONFLICT"
  match s.changes.find? pendingChange with
  | none =>
    pure { s with changes := s.changes ++
      [{ action := "PAPER_ENABLE", requestedByRef := actorRef, reason := reason }] }
  | some pending => do
    require (pending.requestedByRef ≠ actorRef) "INDEPENDENT_REVIEW_REQUIRED"
    pure { s with
      changes := s.changes.map fun change => if change = pending then
          { change with reviewedByRef := actorRef, reviewedAt := some now, status := .approved }
        else change
      provider := { s.provider with enabled := true, updatedAt := now } }

def usable (settings : ExecutionSettings) (mode : ExecutionMode) (now : Timestamp) (s : ProviderControl) : Bool :=
  isRoutable now s.provider s.health && eligible settings s.provider mode

end ProviderControl

inductive ProviderOp where
  | read (object : Nat)
  | evaluate (object : Nat)
  | recordFailure (now : Timestamp) (object : Nat)
  | recordSuccess (now : Timestamp) (object : Nat)
  | halfOpen
  | paperEnable (now : Timestamp) (actorRef reason : String) (expectedVersion : Timestamp)
  | setProviderHalt (now : Timestamp) (halted : Bool) (expectedVersion : Timestamp)

-- Evaluating an object makes the missing health row from its health.
def ProviderControl.step (s : ProviderControl) : ProviderOp → ProviderControl
  | .read object => { s with objects := s.objects.put object s.provider }
  | .evaluate object =>
    match s.objects.find object with
    | none => s
    | some o => { s with health := some (s.health.getD { state := o.health }) }
  | .recordFailure now object => s.recordFailure now object
  | .recordSuccess now object => s.recordSuccess now object
  | .halfOpen => s.halfOpen
  | .paperEnable now actorRef reason expectedVersion =>
    commitState (ProviderControl.paperEnable now actorRef reason expectedVersion) s
  | .setProviderHalt now halted expectedVersion =>
    commitState (ProviderControl.setProviderHalt now halted expectedVersion) s

end ExecutionControl

end Beyvra
