import Beyvra.ExecutionControl.Routing
import Beyvra.Foundation.Decimals
import Beyvra.Relational.Revisions

namespace Beyvra

open Numeric Relational

namespace ExecutionControl

structure SafetySettings extends ExecutionSettings where
  fixLiveSessionEnabled : Bool := false
  paperTradingAllowed : Bool := true
  simulationAllowed : Bool := true

def assertSafeMode (settings : SafetySettings) (mode : ExecutionMode) : Except String Unit := do
  require (settings.realTradingEnabled = false ∧ settings.externalExecutionEnabled = false) "LIVE_EXECUTION_DISABLED"
  require (mode ≠ .live ∧ settings.liveBrokerRoutingEnabled = false ∧ settings.fixLiveSessionEnabled = false)
    "LIVE_EXECUTION_DISABLED"
  require (mode = .paper → settings.paperTradingAllowed = true) "PAPER_TRADING_DISABLED"
  require (mode = .simulation → settings.simulationAllowed = true) "SIMULATION_DISABLED"

-- The texts of a request after its defaults and capitals, and the hashes that are made of it
structure RouteData where
  mode : ExecutionMode := .simulation
  instrument : String
  side : String
  orderType : String := "MARKET"
  assetClass : String := "CRYPTO"
  timeInForce : String := "DAY"
  quantity : String
  referencePrice : String
  limitPrice : Option ℚ := none
  marketDataStale : Bool := false
  marketSnapshotHash : String
  pricingSnapshotHash : String
  riskSnapshotHash : String
  requestHash : String
  evidenceHash : String

def sideOf : String → Option OrderSide
  | "BUY" => some .buy
  | "SELL" => some .sell
  | _ => none

-- A NaN cannot be compared, and an infinity fails in the first computation.
def positive (d : Decimal) : Except String Unit := do
  require ((← demand d.leZero "ArithmeticError") = false) "VALIDATION_ERROR"

def finite : Decimal → Except String ℚ
  | .finite d => .ok d.value
  | _ => .error "ArithmeticError"

def routeRequest (settings : SafetySettings) (data : RouteData) : Except String RouteRequest := do
  assertSafeMode settings data.mode
  let quantity ← demand (decimalOf data.quantity) "VALIDATION_ERROR"
  let referencePrice ← demand (decimalOf data.referencePrice) "VALIDATION_ERROR"
  require (data.instrument ≠ "") "VALIDATION_ERROR"
  let side ← demand (sideOf data.side) "VALIDATION_ERROR"
  positive quantity
  positive referencePrice
  require (data.marketDataStale = false) "MARKET_DATA_STALE"
  pure {
    mode := data.mode
    side := side
    assetClass := data.assetClass
    orderType := data.orderType
    timeInForce := data.timeInForce
    quantity := ← finite quantity
    referencePrice := ← finite referencePrice
    limitPrice := data.limitPrice }

inductive RoutingStatus where
  | selected | denied | unknown
  deriving DecidableEq

structure ExecutionRoutingDecision where
  order : Option Uuid := none
  tenantRef : String
  subjectRef : String
  mode : ExecutionMode
  status : RoutingStatus
  selectedProviderId : String := ""
  selectedVenueId : String := ""
  policyVersion : String
  candidateEvidence : List ScoredCandidate := []
  exclusionReasons : List (String × List String) := []
  marketSnapshotHash : String
  requestHash : String
  evidenceHash : String := ""
  pricingSnapshotHash : String := ""
  riskSnapshotHash : String := ""
  selectedScore : Option ℚ := none
  referencePrice : ℚ
  revision : Nat := 1
  supersedes : Option Nat := none
  createdAt : Timestamp

inductive ExecutionState where
  | created | submitting | submitted | acknowledged | working | partiallyFilled | filled | cancelPending | cancelled
  | rejected | expired | unknown
  deriving DecidableEq

structure CanonicalExecution where
  order : Uuid
  provider : String
  venue : String
  providerOrderRefHash : String := ""
  providerExecutionRefHash : String := ""
  state : ExecutionState := .created
  quantity : ℚ
  filledQuantity : ℚ := 0
  remainingQuantity : ℚ
  averagePrice : Option ℚ := none
  completedAt : Option Timestamp := none
  mode : ExecutionMode
  version : Nat := 1

structure UnknownExecutionOutcome where
  execution : Nat
  resolved : Bool := false
  lookupAttempts : Nat := 0
  lastLookupAt : Option Timestamp := none
  resolutionEvidenceHash : String := ""
  resolvedAt : Option Timestamp := none

inductive ExecutionEvent where
  | routeSelected (decision : Nat)
  | unknown (order : Uuid) (providerId : String)
  | reconciled (execution : Nat)
  deriving DecidableEq

-- Rows are named by the place in which they were made.
structure ExecutionTables where
  decisions : List ExecutionRoutingDecision := []
  executions : List CanonicalExecution := []
  outcomes : List UnknownExecutionOutcome := []
  audits : List Nat := []
  events : List ExecutionEvent := []

structure TradedOrder where
  id : Uuid
  tenantRef : String
  subjectRef : String
  quantity : ℚ
  filledQuantity : ℚ := 0

-- The codes of the providers and the venues; no code is empty.
structure ExecutionDesk where
  providers : List String
  venues : List String
  named : "" ∉ venues := by decide

namespace ExecutionTables

def unoccupied (s : ExecutionTables) (x : ExecutionRoutingDecision) : Prop := Vacant (·.order) (·.revision) s.decisions x

instance (s : ExecutionTables) (x : ExecutionRoutingDecision) : Decidable (s.unoccupied x) :=
  inferInstanceAs (Decidable (Vacant _ _ _ _))

def decisionOf (now : Timestamp) (subjectRef : String) (order : Option Uuid) (data : RouteData) (request : RouteRequest)
    (result : SmartOrderRouter.RouteResult) : ExecutionRoutingDecision where
  order := order
  tenantRef := "default"
  subjectRef := subjectRef
  mode := request.mode
  status := if result.selected.isSome then .selected else .denied
  selectedProviderId := (result.selected.map (·.provider.providerId)).getD ""
  selectedVenueId := (result.selected.map (·.venue.venueId)).getD ""
  policyVersion := result.policy.policyVersion
  candidateEvidence := result.candidates
  exclusionReasons := result.exclusions
  marketSnapshotHash := data.marketSnapshotHash
  requestHash := data.requestHash
  evidenceHash := data.evidenceHash
  pricingSnapshotHash := data.pricingSnapshotHash
  riskSnapshotHash := data.riskSnapshotHash
  selectedScore := result.selected.map (·.score)
  referencePrice := request.referencePrice
  createdAt := now

-- The route of an order that is kept: one decision, one audit row and, where a route was found, one event
def previewRoute (settings : SafetySettings) (now : Timestamp) (t : RoutingTables) (subjectRef : String)
    (order : Option Uuid) (data : RouteData) (s : ExecutionTables) : Except String ExecutionTables := do
  let request ← routeRequest settings data
  let result ← SmartOrderRouter.route settings.toExecutionSettings now t request
  let decision := decisionOf now subjectRef order data request result
  require (s.unoccupied decision) "IntegrityError"
  pure { s with
    decisions := s.decisions ++ [decision]
    audits := s.audits ++ [s.decisions.length]
    events := s.events ++ if result.selected.isSome then [.routeSelected s.decisions.length] else [] }

-- Which of the decisions that were made last the database gives is left open.
def latestOf (order : Uuid) (prior : Nat) (s : ExecutionTables) : Option ExecutionRoutingDecision :=
  s.decisions[prior]?.filter fun row =>
    row.order = some order ∧ ∀ x ∈ s.decisions, x.order = some order → x.createdAt ≤ row.createdAt

def ambiguousDecision (now : Timestamp) (order : TradedOrder) (providerId : String) (priorId : Nat)
    (prior : ExecutionRoutingDecision) : ExecutionRoutingDecision where
  order := some order.id
  tenantRef := order.tenantRef
  subjectRef := order.subjectRef
  mode := prior.mode
  status := .unknown
  selectedProviderId := providerId
  selectedVenueId := prior.selectedVenueId
  policyVersion := prior.policyVersion
  candidateEvidence := prior.candidateEvidence
  exclusionReasons :=
    [(providerId, ["UNKNOWN_EXECUTION_OUTCOME", "RECONCILIATION_REQUIRED", "FAILOVER_PROHIBITED"])]
  marketSnapshotHash := prior.marketSnapshotHash
  requestHash := prior.requestHash
  pricingSnapshotHash := prior.pricingSnapshotHash
  riskSnapshotHash := prior.riskSnapshotHash
  referencePrice := prior.referencePrice
  revision := prior.revision + 1
  supersedes := some priorId
  createdAt := now

def ambiguousExecution (order : TradedOrder) (providerId : String) (prior : ExecutionRoutingDecision)
    (remaining : ℚ) : CanonicalExecution where
  order := order.id
  provider := providerId
  venue := prior.selectedVenueId
  state := .unknown
  quantity := order.quantity
  filledQuantity := order.filledQuantity
  remainingQuantity := remaining
  mode := prior.mode

def recordAmbiguousOutcome (desk : ExecutionDesk) (now : Timestamp) (order : TradedOrder) (providerId : String)
    (priorId : Nat) (s : ExecutionTables) : Except String ExecutionTables := do
  let prior ← demand (s.latestOf order.id priorId) "ROUTING_DECISION_REQUIRED"
  let decision := ambiguousDecision now order providerId priorId prior
  require (s.unoccupied decision) "IntegrityError"
  require (providerId ∈ desk.providers) "ExecutionProviderRecord.DoesNotExist"
  require (prior.selectedVenueId ∈ desk.venues) "ExecutionVenue.DoesNotExist"
  let remaining ← demand (defaultContext.sub order.quantity order.filledQuantity) "ArithmeticError"
  pure { s with
    decisions := s.decisions ++ [decision]
    executions := s.executions ++ [ambiguousExecution order providerId prior remaining]
    outcomes := s.outcomes ++ [{ execution := s.executions.length }]
    events := s.events ++ [.unknown order.id providerId] }

end ExecutionTables

namespace ExecutionStateAuthority

def transitions : ExecutionState → List ExecutionState
  | .created => [.submitting, .rejected]
  | .submitting => [.submitted, .unknown, .rejected]
  | .submitted => [.acknowledged, .unknown, .rejected]
  | .acknowledged => [.working, .partiallyFilled, .filled, .cancelPending, .rejected]
  | .working => [.partiallyFilled, .filled, .cancelPending, .cancelled, .expired]
  | .partiallyFilled => [.partiallyFilled, .filled, .cancelPending, .cancelled]
  | .cancelPending => [.cancelled, .partiallyFilled, .filled]
  | .unknown => [.submitted, .acknowledged, .working, .partiallyFilled, .filled, .cancelled, .rejected]
  | _ => []

def completing : List ExecutionState := [.filled, .cancelled, .rejected, .expired]

-- The keyword arguments that set a column of the row; the state is set after them.
structure ExecutionUpdates where
  order : Option Uuid := none
  provider : Option String := none
  venue : Option String := none
  providerOrderRefHash : Option String := none
  providerExecutionRefHash : Option String := none
  quantity : Option ℚ := none
  filledQuantity : Option ℚ := none
  remainingQuantity : Option ℚ := none
  averagePrice : Option (Option ℚ) := none
  completedAt : Option (Option Timestamp) := none
  mode : Option ExecutionMode := none
  version : Option Nat := none

-- What a caller reports of the execution: its references, its fills and their price
def ExecutionUpdates.OfOutcome (updates : ExecutionUpdates) : Prop :=
  updates.order = none ∧ updates.provider = none ∧ updates.venue = none ∧ updates.quantity = none ∧
    updates.completedAt = none ∧ updates.mode = none ∧ updates.version = none

instance (updates : ExecutionUpdates) : Decidable updates.OfOutcome := inferInstanceAs (Decidable (_ ∧ _))

def transitioned (now : Timestamp) (newState : ExecutionState) (updates : ExecutionUpdates)
    (execution : CanonicalExecution) : CanonicalExecution :=
  { order := updates.order.getD execution.order
    provider := updates.provider.getD execution.provider
    venue := updates.venue.getD execution.venue
    providerOrderRefHash := updates.providerOrderRefHash.getD execution.providerOrderRefHash
    providerExecutionRefHash := updates.providerExecutionRefHash.getD execution.providerExecutionRefHash
    state := newState
    quantity := updates.quantity.getD execution.quantity
    filledQuantity := updates.filledQuantity.getD execution.filledQuantity
    remainingQuantity := updates.remainingQuantity.getD execution.remainingQuantity
    averagePrice := updates.averagePrice.getD execution.averagePrice
    completedAt := if newState ∈ completing then some now else updates.completedAt.getD execution.completedAt
    mode := updates.mode.getD execution.mode
    version := updates.version.getD execution.version + 1 }

def transition (now : Timestamp) (id : Nat) (newState : ExecutionState) (updates : ExecutionUpdates)
    (s : ExecutionTables) : Except String ExecutionTables := do
  let execution ← demand s.executions[id]? "CanonicalExecution.DoesNotExist"
  require (newState ∈ transitions execution.state) "INVALID_EXECUTION_STATE_TRANSITION"
  pure { s with executions := s.executions.set id (transitioned now newState updates execution) }

end ExecutionStateAuthority

namespace ExecutionRecoveryService

-- The lookup gives the hash of its evidence, or nothing.
def resolveUnknown (now : Timestamp) (id : Nat) (lookup : CanonicalExecution → Option String) (s : ExecutionTables) :
    Except String ExecutionTables := do
  let outcome ← demand s.outcomes[id]? "UnknownExecutionOutcome.DoesNotExist"
  if outcome.resolved then pure s
  else do
    let execution ← demand s.executions[outcome.execution]? "CanonicalExecution.DoesNotExist"
    let looked := { outcome with lookupAttempts := outcome.lookupAttempts + 1, lastLookupAt := some now }
    match lookup execution with
    | none => pure { s with outcomes := s.outcomes.set id looked }
    | some evidenceHash =>
      pure { s with
        outcomes := s.outcomes.set id { looked with
          resolved := true, resolvedAt := some now, resolutionEvidenceHash := evidenceHash }
        events := s.events ++ [.reconciled outcome.execution] }

end ExecutionRecoveryService

namespace ExecutionReconciler

def auditGap (s : ExecutionTables) : Nat := ((List.range s.decisions.length).filter fun id => id ∉ s.audits).length

def outboxGap (s : ExecutionTables) : Nat :=
  ((placesOf (·.status = .selected) s.decisions).filter fun id => .routeSelected id ∉ s.events).length

def missingRoutingEvidence (s : ExecutionTables) : Nat :=
  (s.executions.filter fun e => some e.order ∉ s.decisions.map (·.order)).length

end ExecutionReconciler

inductive ExecutionOp where
  | previewRoute (settings : SafetySettings) (now : Timestamp) (t : RoutingTables) (subjectRef : String)
    (order : Option Uuid) (data : RouteData)
  | recordAmbiguousOutcome (now : Timestamp) (order : TradedOrder) (providerId : String) (priorId : Nat)
  | transition (now : Timestamp) (id : Nat) (newState : ExecutionState)
    (updates : ExecutionStateAuthority.ExecutionUpdates)
  | resolveUnknown (now : Timestamp) (id : Nat) (lookup : CanonicalExecution → Option String)

-- A transition sets only what is reported of the execution.
def ExecutionOp.Reports : ExecutionOp → Prop
  | .transition _ _ _ updates => updates.OfOutcome
  | _ => True

instance (op : ExecutionOp) : Decidable op.Reports := by
  cases op <;> unfold ExecutionOp.Reports <;> infer_instance

namespace ExecutionTables

def body (desk : ExecutionDesk) : ExecutionOp → ExecutionTables → Except String ExecutionTables
  | .previewRoute settings now t subjectRef order data => previewRoute settings now t subjectRef order data
  | .recordAmbiguousOutcome now order providerId priorId => recordAmbiguousOutcome desk now order providerId priorId
  | .transition now id newState updates => ExecutionStateAuthority.transition now id newState updates
  | .resolveUnknown now id lookup => ExecutionRecoveryService.resolveUnknown now id lookup

def step (desk : ExecutionDesk) (s : ExecutionTables) (op : ExecutionOp) : ExecutionTables :=
  commitState (body desk op) s

def after (desk : ExecutionDesk) (s : ExecutionTables) (ops : List ExecutionOp) : ExecutionTables :=
  ops.foldl (step desk) s

-- The decision is the outcome of a route that the settings allowed.
def RoutedBy (x : ExecutionRoutingDecision) : Prop :=
  ∃ settings now t subjectRef order data request result, routeRequest settings data = .ok request ∧
    SmartOrderRouter.route settings.toExecutionSettings now t request = .ok result ∧
      x = decisionOf now subjectRef order data request result

structure Moves (e e' : CanonicalExecution) : Prop where
  allowed : e'.state ∈ ExecutionStateAuthority.transitions e.state
  version : e'.version = e.version + 1
  completed : e'.completedAt.isSome = true ↔
    e'.state ∈ ExecutionStateAuthority.completing ∨ e.completedAt.isSome = true
  same : (e'.order, e'.provider, e'.venue, e'.mode, e'.quantity) = (e.order, e.provider, e.venue, e.mode, e.quantity)

structure Looked (o o' : UnknownExecutionOutcome) : Prop where
  unresolved : o.resolved = false
  execution : o'.execution = o.execution
  attempts : o'.lookupAttempts = o.lookupAttempts + 1
  looked : o'.lastLookupAt.isSome = true
  resolvedAt : o'.resolvedAt.isSome = true ↔ o'.resolved = true ∨ o.resolvedAt.isSome = true

-- All that an operation can do to the tables
inductive Effect (s : ExecutionTables) : ExecutionTables → Prop where
  | routed {x : ExecutionRoutingDecision} (hrouted : RoutedBy x) (hvacant : s.unoccupied x) :
    Effect s { s with
      decisions := s.decisions ++ [x]
      audits := s.audits ++ [s.decisions.length]
      events := s.events ++ if x.status = .selected then [.routeSelected s.decisions.length] else [] }
  | ambiguous {now : Timestamp} {order : TradedOrder} {providerId : String} {priorId : Nat}
    {prior : ExecutionRoutingDecision} {remaining : ℚ} (hprior : s.decisions[priorId]? = some prior)
    (horder : prior.order = some order.id) (hvenue : prior.selectedVenueId ≠ "")
    (hvacant : s.unoccupied (ambiguousDecision now order providerId priorId prior)) :
    Effect s { s with
      decisions := s.decisions ++ [ambiguousDecision now order providerId priorId prior]
      executions := s.executions ++ [ambiguousExecution order providerId prior remaining]
      outcomes := s.outcomes ++ [{ execution := s.executions.length }]
      events := s.events ++ [.unknown order.id providerId] }
  | moved {id : Nat} {e e' : CanonicalExecution} (he : s.executions[id]? = some e) (hmoves : Moves e e') :
    Effect s { s with executions := s.executions.set id e' }
  | missed {id : Nat} {o o' : UnknownExecutionOutcome} (ho : s.outcomes[id]? = some o) (hlooked : Looked o o')
    (hresolved : o'.resolved = false) : Effect s { s with outcomes := s.outcomes.set id o' }
  | found {id : Nat} {o o' : UnknownExecutionOutcome} (ho : s.outcomes[id]? = some o) (hlooked : Looked o o')
    (hresolved : o'.resolved = true) :
    Effect s { s with outcomes := s.outcomes.set id o', events := s.events ++ [.reconciled o.execution] }
  | none : Effect s s

variable {desk : ExecutionDesk} {s s' : ExecutionTables} {now : Timestamp} {id : Nat}

theorem effect_previewRoute {settings : SafetySettings} {t : RoutingTables} {subjectRef : String} {order : Option Uuid}
    {data : RouteData} (h : s.previewRoute settings now t subjectRef order data = .ok s') : s.Effect s' := by
  unfold previewRoute at h
  simp only [bind_eq_ok, require_eq_ok, pure_eq_ok] at h
  obtain ⟨request, hrequest, result, hresult, _, hvacant, rfl⟩ := h
  have hevents : (if result.selected.isSome then [ExecutionEvent.routeSelected s.decisions.length] else []) =
      if (decisionOf now subjectRef order data request result).status = .selected then
        [.routeSelected s.decisions.length] else [] := by
    unfold decisionOf
    cases result.selected <;> rfl
  rw [hevents]
  exact .routed ⟨settings, now, t, subjectRef, order, data, request, result, hrequest, hresult, rfl⟩ hvacant

theorem effect_ambiguous {order : TradedOrder} {providerId : String} {priorId : Nat}
    (h : s.recordAmbiguousOutcome desk now order providerId priorId = .ok s') : s.Effect s' := by
  unfold recordAmbiguousOutcome latestOf at h
  simp only [bind_eq_ok, demand_eq_ok, require_eq_ok, pure_eq_ok, Option.filter_eq_some_iff, decide_eq_true_eq] at h
  obtain ⟨prior, ⟨hprior, horder, -⟩, _, hvacant, _, -, _, hvenue, remaining, -, rfl⟩ := h
  exact .ambiguous hprior horder (fun hempty => desk.named (hempty ▸ hvenue)) hvacant

theorem effect_transition {newState : ExecutionState} {updates : ExecutionStateAuthority.ExecutionUpdates}
    (hreports : updates.OfOutcome) (h : ExecutionStateAuthority.transition now id newState updates s = .ok s') : s.Effect s' := by
  unfold ExecutionStateAuthority.transition at h
  simp only [bind_eq_ok, demand_eq_ok, require_eq_ok, pure_eq_ok] at h
  obtain ⟨e, he, _, hallowed, rfl⟩ := h
  obtain ⟨horder, hprovider, hvenue, hquantity, hcompleted, hmode, hversion⟩ := hreports
  refine .moved he ⟨hallowed, ?_, ?_, ?_⟩
  · simp only [ExecutionStateAuthority.transitioned, hversion, Option.getD_none]
  · simp only [ExecutionStateAuthority.transitioned, hcompleted, Option.getD_none]
    split_ifs with hcompleting <;> simp [hcompleting]
  · simp only [ExecutionStateAuthority.transitioned, horder, hprovider, hvenue, hquantity, hmode, Option.getD_none]

theorem effect_resolveUnknown {lookup : CanonicalExecution → Option String}
    (h : ExecutionRecoveryService.resolveUnknown now id lookup s = .ok s') : s.Effect s' := by
  unfold ExecutionRecoveryService.resolveUnknown at h
  obtain ⟨o, ho, h⟩ := bind_eq_ok.mp h
  rw [demand_eq_ok] at ho
  split_ifs at h with hresolved
  · rw [← pure_eq_ok.mp h]
    exact .none
  · obtain ⟨e, -, h⟩ := bind_eq_ok.mp h
    have hunresolved : o.resolved = false := by simpa using hresolved
    dsimp only at h
    split at h
    · rw [← pure_eq_ok.mp h]
      exact .missed ho ⟨hunresolved, rfl, rfl, rfl, by simp [hunresolved]⟩ hunresolved
    · rw [← pure_eq_ok.mp h]
      exact .found ho ⟨hunresolved, rfl, rfl, rfl, by simp⟩ rfl

theorem effect_step (desk : ExecutionDesk) (s : ExecutionTables) {op : ExecutionOp} (hreports : op.Reports) :
    s.Effect (s.step desk op) := by
  unfold step
  cases hbody : body desk op s with
  | error e =>
    rw [commitState_of_error hbody]
    exact .none
  | ok s' =>
    rw [commitState_of_ok hbody]
    cases op with
    | previewRoute settings now t subjectRef order data => exact effect_previewRoute hbody
    | recordAmbiguousOutcome now order providerId priorId => exact effect_ambiguous hbody
    | transition now id newState updates => exact effect_transition hreports hbody
    | resolveUnknown now id lookup => exact effect_resolveUnknown hbody

-- What an uncertain outcome keeps of the decision that it supersedes
def basis (x : ExecutionRoutingDecision) :=
  (x.selectedVenueId, x.mode, x.policyVersion, x.candidateEvidence, x.marketSnapshotHash, x.requestHash,
    x.pricingSnapshotHash, x.riskSnapshotHash, x.referencePrice)

structure Follows (prior x : ExecutionRoutingDecision) : Prop where
  status : x.status = .unknown
  routed : prior.selectedVenueId ≠ ""
  same : basis x = basis prior

def routedId : ExecutionEvent → Option Nat
  | .routeSelected id => some id
  | _ => none

def unknownOf : ExecutionEvent → Option (Uuid × String)
  | .unknown order providerId => some (order, providerId)
  | _ => none

def reconciledId : ExecutionEvent → Option Nat
  | .reconciled id => some id
  | _ => none

-- Decisions: the first is a route, every later one an uncertain outcome of it that some execution carries.
structure Decided (s : ExecutionTables) : Prop where
  numbered : Numbered (·.order) (·.revision) s.decisions
  linked : Linked (·.order) Follows s.decisions
  origin : ∀ x ∈ s.decisions, (x.status ≠ .unknown ∧ RoutedBy x) ∨
    (x.status = .unknown ∧ ∃ i prior, x.supersedes = some i ∧ s.decisions[i]? = some prior ∧ prior.order = x.order ∧
      x.revision = prior.revision + 1)
  executed : (s.decisions.filter (·.status = .unknown)).map
      (fun x => (x.order, x.selectedProviderId, x.selectedVenueId, x.mode)) =
    s.executions.map fun e => (some e.order, e.provider, e.venue, e.mode)
  audited : s.audits = placesOf (·.status ≠ .unknown) s.decisions
  announced : s.events.filterMap routedId = placesOf (·.status = .selected) s.decisions
  reported : s.events.filterMap unknownOf = s.executions.map fun e => (e.order, e.provider)

theorem decisionOf_status {subjectRef : String} {order : Option Uuid} {data : RouteData} {request : RouteRequest}
    {result : SmartOrderRouter.RouteResult} :
    (decisionOf now subjectRef order data request result).status ≠ .unknown ∧
      ((decisionOf now subjectRef order data request result).status ≠ .selected →
        (decisionOf now subjectRef order data request result).selectedVenueId = "") := by
  unfold decisionOf
  cases result.selected <;> simp

theorem RoutedBy.fresh {x : ExecutionRoutingDecision} (h : RoutedBy x) :
    x.revision = 1 ∧ x.status ≠ .unknown ∧ (x.status ≠ .selected → x.selectedVenueId = "") := by
  obtain ⟨settings, now, t, subjectRef, order, data, request, result, -, -, rfl⟩ := h
  exact ⟨rfl, decisionOf_status⟩

theorem follows_ambiguous {prior : ExecutionRoutingDecision} {order : TradedOrder} {providerId : String} {priorId : Nat}
    (hvenue : prior.selectedVenueId ≠ "") : Follows prior (ambiguousDecision now order providerId priorId prior) :=
  ⟨rfl, hvenue, rfl⟩

theorem Decided.routed (h : s.Decided) {x : ExecutionRoutingDecision} (hrouted : RoutedBy x) (hvacant : s.unoccupied x) :
    Decided { s with
      decisions := s.decisions ++ [x]
      audits := s.audits ++ [s.decisions.length]
      events := s.events ++ if x.status = .selected then [.routeSelected s.decisions.length] else [] } := by
  obtain ⟨hone, hknown, -⟩ := hrouted.fresh
  have hfirst (k : Uuid) (hkey : x.order = some k) : revisionsOf (·.order) k s.decisions = [] :=
    h.numbered.first hkey hone hvacant
  refine ⟨h.numbered.append fun k hkey => ?_, h.linked.append fun k p hkey hp => ?_, fun y hy => ?_, ?_, ?_, ?_, ?_⟩
  · rw [hfirst k hkey, hone]
    rfl
  · rw [hfirst k hkey] at hp
    cases hp
  · rcases List.mem_append.mp hy with hold | hnew
    · refine (h.origin y hold).imp_right (And.imp_right ?_)
      rintro ⟨i, prior, hi, hprior, hsame⟩
      exact ⟨i, prior, hi, (List.getElem?_append_left (List.getElem?_eq_some_iff.mp hprior).1).trans hprior, hsame⟩
    · obtain rfl := List.mem_singleton.mp hnew
      exact .inl ⟨hknown, hrouted⟩
  · simpa [List.filter_append, hknown] using h.executed
  · simp [placesOf_append, h.audited, hknown]
  · rw [List.filterMap_append, h.announced, placesOf_append]
    split_ifs with hselected <;> simp_all [routedId]
  · rw [List.filterMap_append, h.reported]
    split_ifs <;> simp [unknownOf]

theorem Decided.ambiguous (h : s.Decided) {order : TradedOrder} {providerId : String} {priorId : Nat}
    {prior : ExecutionRoutingDecision} {remaining : ℚ} (hprior : s.decisions[priorId]? = some prior)
    (horder : prior.order = some order.id) (hvenue : prior.selectedVenueId ≠ "")
    (hvacant : s.unoccupied (ambiguousDecision now order providerId priorId prior)) :
    Decided { s with
      decisions := s.decisions ++ [ambiguousDecision now order providerId priorId prior]
      executions := s.executions ++ [ambiguousExecution order providerId prior remaining]
      outcomes := s.outcomes ++ [{ execution := s.executions.length }]
      events := s.events ++ [.unknown order.id providerId] } := by
  obtain ⟨hlength, hlast⟩ := h.numbered.next (List.mem_of_getElem? hprior) horder rfl rfl hvacant
  refine ⟨h.numbered.append fun k hkey => ?_, h.linked.append fun k p hkey hp => ?_, fun y hy => ?_, ?_, ?_, ?_, ?_⟩
  · obtain rfl : order.id = k := Option.some.inj hkey
    exact congrArg (· + 1) hlength
  · obtain rfl : order.id = k := Option.some.inj hkey
    obtain rfl : prior = p := Option.some.inj (hlast.symm.trans hp)
    exact follows_ambiguous hvenue
  · have hkept {i : Nat} {r : ExecutionRoutingDecision} (hr : s.decisions[i]? = some r) :
        (s.decisions ++ [ambiguousDecision now order providerId priorId prior])[i]? = some r :=
      (List.getElem?_append_left (List.getElem?_eq_some_iff.mp hr).1).trans hr
    rcases List.mem_append.mp hy with hold | hnew
    · refine (h.origin y hold).imp_right (And.imp_right ?_)
      rintro ⟨i, r, hi, hr, hsame⟩
      exact ⟨i, r, hi, hkept hr, hsame⟩
    · obtain rfl := List.mem_singleton.mp hnew
      exact .inr ⟨rfl, priorId, prior, rfl, hkept hprior, horder, rfl⟩
  · rw [List.filter_append, List.map_append, List.map_append, h.executed]
    rfl
  · simp [placesOf_append, h.audited, ambiguousDecision]
  · simp [placesOf_append, h.announced, ambiguousDecision, routedId]
  · simp [h.reported, unknownOf, ambiguousExecution]

theorem Decided.moved (h : s.Decided) {e e' : CanonicalExecution} (he : s.executions[id]? = some e)
    (hmoves : Moves e e') : Decided { s with executions := s.executions.set id e' } := by
  have hplaced := hmoves.same
  simp only [Prod.mk.injEq] at hplaced
  obtain ⟨horder, hprovider, hvenue, hmode, -⟩ := hplaced
  refine ⟨h.numbered, h.linked, h.origin, ?_, h.audited, h.announced, ?_⟩
  · rw [h.executed]
    exact (map_set_of_same he (by rw [horder, hprovider, hvenue, hmode])).symm
  · rw [h.reported]
    exact (map_set_of_same he (by rw [horder, hprovider])).symm

theorem Decided.effect (h : s.Decided) (heffect : s.Effect s') : s'.Decided := by
  cases heffect with
  | routed hrouted hvacant => exact h.routed hrouted hvacant
  | ambiguous hprior horder hvenue hvacant => exact h.ambiguous hprior horder hvenue hvacant
  | moved he hmoves => exact h.moved he hmoves
  | missed ho hlooked hresolved => exact ⟨h.numbered, h.linked, h.origin, h.executed, h.audited, h.announced, h.reported⟩
  | found ho hlooked hresolved =>
    exact ⟨h.numbered, h.linked, h.origin, h.executed, h.audited, by simp [h.announced, routedId],
      by simp [h.reported, unknownOf]⟩
  | none => exact h

-- Only a new execution is submitted, and a complete one goes nowhere.
theorem transitions_forward {a b : ExecutionState} (h : b ∈ ExecutionStateAuthority.transitions a) :
    b ≠ .created ∧ (b = .submitting → a = .created) ∧ a ∉ ExecutionStateAuthority.completing := by
  revert h
  cases a <;> cases b <;> decide

def Live (e : CanonicalExecution) : Prop :=
  e.state ∉ [ExecutionState.created, .submitting] ∧
    (e.completedAt.isSome = true ↔ e.state ∈ ExecutionStateAuthority.completing)

def Tracked (o : UnknownExecutionOutcome) : Prop :=
  (o.resolvedAt.isSome = true ↔ o.resolved = true) ∧ (o.lastLookupAt.isSome = true ↔ 0 < o.lookupAttempts) ∧
    (o.resolved = true → 0 < o.lookupAttempts)

theorem Live.moves {e e' : CanonicalExecution} (h : Live e) (hmoves : Moves e e') : Live e' := by
  obtain ⟨hcreated, hsubmitting, hrunning⟩ := transitions_forward hmoves.allowed
  have hnone : ¬e.completedAt.isSome = true := mt h.2.mp hrunning
  refine ⟨fun hmem => ?_, hmoves.completed.trans (or_iff_left hnone)⟩
  rcases List.mem_cons.mp hmem with hnew | hlater
  · exact hcreated hnew
  · exact h.1 (hsubmitting (List.mem_singleton.mp hlater) ▸ List.mem_cons_self)

theorem Tracked.looked {o o' : UnknownExecutionOutcome} (h : Tracked o) (hlooked : Looked o o') : Tracked o' := by
  have hpos : 0 < o'.lookupAttempts := by
    rw [hlooked.attempts]
    omega
  have hnone : ¬o.resolvedAt.isSome = true := by
    rw [h.1, hlooked.unresolved]
    exact Bool.false_ne_true
  exact ⟨hlooked.resolvedAt.trans (or_iff_left hnone), iff_of_true hlooked.looked hpos, fun _ => hpos⟩

-- Executions: none is submitted anew, one that is complete has its time, and one outcome is kept for each.
structure Lives (s : ExecutionTables) : Prop where
  live : ∀ e ∈ s.executions, Live e
  outcomes : s.outcomes.map (·.execution) = List.range s.executions.length
  tracked : ∀ o ∈ s.outcomes, Tracked o
  reconciled : ∀ i, (s.events.filterMap reconciledId).count i =
    if s.outcomes[i]?.map (·.resolved) = some true then 1 else 0

theorem Lives.looked (h : s.Lives) {o o' : UnknownExecutionOutcome} (ho : s.outcomes[id]? = some o)
    (hlooked : Looked o o') : (∀ x ∈ s.outcomes.set id o', Tracked x) ∧
      (s.outcomes.set id o').map (·.execution) = List.range s.executions.length := by
  refine ⟨fun x hx => ?_, (map_set_of_same ho hlooked.execution).trans h.outcomes⟩
  rcases List.mem_or_eq_of_mem_set hx with hold | rfl
  · exact h.tracked x hold
  · exact (h.tracked o (List.mem_of_getElem? ho)).looked hlooked

theorem Lives.execution_eq (h : s.Lives) {o : UnknownExecutionOutcome} (ho : s.outcomes[id]? = some o) :
    o.execution = id := by
  have hrange : (s.outcomes.map (·.execution))[id]? = some o.execution := by rw [List.getElem?_map, ho]; rfl
  rw [h.outcomes] at hrange
  obtain ⟨hlt, heq⟩ := List.getElem?_eq_some_iff.mp hrange
  rw [← heq, List.getElem_range]

theorem Lives.effect (h : s.Lives) (heffect : s.Effect s') : s'.Lives := by
  have hlength : s.outcomes.length = s.executions.length := by simpa using congrArg List.length h.outcomes
  cases heffect with
  | @routed x hrouted hvacant =>
    refine ⟨h.live, h.outcomes, h.tracked, fun i => ?_⟩
    have hnew : (if x.status = .selected then [ExecutionEvent.routeSelected s.decisions.length] else []).filterMap
        reconciledId = [] := by
      split_ifs <;> rfl
    rw [List.filterMap_append, hnew, List.append_nil, h.reconciled i]
  | @ambiguous now order providerId priorId prior remaining hprior horder hvenue hvacant =>
    refine ⟨fun e he => ?_, ?_, fun o ho => ?_, fun i => ?_⟩
    · rcases List.mem_append.mp he with hold | hnew
      · exact h.live e hold
      · obtain rfl := List.mem_singleton.mp hnew
        exact ⟨by simp [ambiguousExecution], by simp [ambiguousExecution, ExecutionStateAuthority.completing]⟩
    · rw [List.map_append, h.outcomes, List.length_append, List.length_singleton, List.range_succ]
      rfl
    · rcases List.mem_append.mp ho with hold | hnew
      · exact h.tracked o hold
      · obtain rfl := List.mem_singleton.mp hnew
        exact ⟨by simp, by simp, by simp⟩
    · have hnew : [ExecutionEvent.unknown order.id providerId].filterMap reconciledId = [] := rfl
      rw [List.filterMap_append, hnew, List.append_nil, h.reconciled i]
      rcases lt_trichotomy i s.outcomes.length with hlt | rfl | hgt
      · rw [List.getElem?_append_left hlt]
      · simp
      · rw [List.getElem?_eq_none hgt.le, List.getElem?_eq_none (by simpa using hgt)]
  | moved he hmoves =>
    refine ⟨fun x hx => ?_, by rw [h.outcomes, List.length_set], h.tracked, h.reconciled⟩
    rcases List.mem_or_eq_of_mem_set hx with hold | rfl
    · exact h.live x hold
    · exact (h.live _ (List.mem_of_getElem? he)).moves hmoves
  | @missed id o o' ho hlooked hresolved =>
    obtain ⟨htracked, houtcomes⟩ := h.looked ho hlooked
    refine ⟨h.live, houtcomes, htracked, fun i => ?_⟩
    rw [h.reconciled i, ← List.getElem?_map, ← List.getElem?_map]
    rw [map_set_of_same ho (hresolved.trans hlooked.unresolved.symm)]
  | @found id o o' ho hlooked hresolved =>
    obtain ⟨htracked, houtcomes⟩ := h.looked ho hlooked
    refine ⟨h.live, houtcomes, htracked, fun i => ?_⟩
    obtain ⟨hlt, -⟩ := List.getElem?_eq_some_iff.mp ho
    rw [h.execution_eq ho, List.filterMap_append, List.count_append, h.reconciled i]
    rcases eq_or_ne id i with rfl | hne
    · rw [ho, List.getElem?_set_self hlt]
      simp [hlooked.unresolved, hresolved, reconciledId]
    · rw [List.getElem?_set_ne hne]
      simp [reconciledId, hne]
  | none => exact h

theorem chain_follows {first : ExecutionRoutingDecision} {rest : List ExecutionRoutingDecision}
    (h : (first :: rest).IsChain Follows) : ∀ x ∈ rest, x.status = .unknown ∧ basis x = basis first := by
  induction rest generalizing first with
  | nil => simp
  | cons y rest ih =>
    obtain ⟨hfollows, hrest⟩ := List.isChain_cons_cons.mp h
    intro x hx
    rcases List.mem_cons.mp hx with rfl | hlater
    · exact ⟨hfollows.status, hfollows.same⟩
    · exact (ih hrest x hlater).imp_right fun hsame => hsame.trans hfollows.same

-- An order is routed once, and what comes after the route rests on it.
theorem Decided.single (h : s.Decided) {order : Uuid} {first : ExecutionRoutingDecision}
    {rest : List ExecutionRoutingDecision} (hrows : revisionsOf (·.order) order s.decisions = first :: rest) :
    RoutedBy first ∧ (rest ≠ [] → first.status = .selected) ∧
      ∀ x ∈ rest, x.status = .unknown ∧ basis x = basis first := by
  obtain ⟨hmem, horder⟩ := mem_revisionsOf.mp (hrows ▸ List.mem_cons_self)
  have hone : first.revision = 1 := by
    have hnumbers := h.numbered order
    rw [hrows, List.map_cons, List.length_cons, List.range'_succ, List.cons.injEq] at hnumbers
    exact hnumbers.1
  have hrouted : RoutedBy first := by
    rcases h.origin first hmem with hfirst | ⟨-, i, prior, -, hprior, hsame, hnext⟩
    · exact hfirst.2
    · have hbounds := h.numbered.mem_iff.mp ⟨prior, List.mem_of_getElem? hprior, hsame.trans horder, rfl⟩
      omega
  have hchain := hrows ▸ h.linked order
  refine ⟨hrouted, fun hne => ?_, chain_follows hchain⟩
  by_contra hother
  cases rest with
  | nil => exact hne rfl
  | cons x rest => exact (List.isChain_cons_cons.mp hchain).1.routed (hrouted.fresh.2.2 hother)

theorem Decided.auditGap (h : s.Decided) : ExecutionReconciler.auditGap s = s.executions.length := by
  have hlength := congrArg List.length h.executed
  rw [List.length_map, List.length_map, ← List.countP_eq_length_filter] at hlength
  rw [ExecutionReconciler.auditGap, h.audited, length_unplaced, ← hlength]
  exact List.countP_congr fun x _ => by simp

theorem Decided.outboxGap (h : s.Decided) : ExecutionReconciler.outboxGap s = 0 := by
  rw [ExecutionReconciler.outboxGap, List.length_eq_zero_iff, List.filter_eq_nil_iff]
  intro id hid
  rw [← h.announced, List.mem_filterMap] at hid
  obtain ⟨event, hevent, hsome⟩ := hid
  cases event with
  | routeSelected decision =>
    obtain rfl : decision = id := Option.some.inj hsome
    simpa using hevent
  | unknown order providerId => cases hsome
  | reconciled execution => cases hsome

theorem Decided.missingRoutingEvidence (h : s.Decided) : ExecutionReconciler.missingRoutingEvidence s = 0 := by
  rw [ExecutionReconciler.missingRoutingEvidence, List.length_eq_zero_iff, List.filter_eq_nil_iff]
  intro e he
  have hplaced : (some e.order, e.provider, e.venue, e.mode) ∈
      s.executions.map fun e => (some e.order, e.provider, e.venue, e.mode) := List.mem_map_of_mem he
  rw [← h.executed, List.mem_map] at hplaced
  obtain ⟨x, hx, hsame⟩ := hplaced
  have hmem : some e.order ∈ s.decisions.map (·.order) :=
    List.mem_map.mpr ⟨x, List.mem_of_mem_filter hx, congrArg Prod.fst hsame⟩
  simpa using hmem

structure ExecutionLaw (s : ExecutionTables) : Prop extends Decided s, Lives s where
  single : ∀ order first rest, revisionsOf (·.order) order s.decisions = first :: rest →
    RoutedBy first ∧ (rest ≠ [] → first.status = .selected) ∧
      ∀ x ∈ rest, x.status = .unknown ∧ basis x = basis first
  auditGap : ExecutionReconciler.auditGap s = s.executions.length
  outboxGap : ExecutionReconciler.outboxGap s = 0
  missingRoutingEvidence : ExecutionReconciler.missingRoutingEvidence s = 0

-- What no later operation takes back
structure Continues (s s' : ExecutionTables) : Prop where
  decisions : s.decisions <+: s'.decisions
  audits : s.audits <+: s'.audits
  events : s.events <+: s'.events
  executions : ∀ (id : Nat) (e : CanonicalExecution), s.executions[id]? = some e → ∃ e', s'.executions[id]? = some e' ∧
    (e'.order, e'.provider, e'.venue, e'.mode, e'.quantity) = (e.order, e.provider, e.venue, e.mode, e.quantity) ∧
    e.version ≤ e'.version ∧ (e'.version = e.version ∨ e.state ∈ ExecutionStateAuthority.completing → e' = e)
  outcomes : ∀ (id : Nat) (o : UnknownExecutionOutcome), s.outcomes[id]? = some o → ∃ o', s'.outcomes[id]? = some o' ∧
    o'.execution = o.execution ∧ o.lookupAttempts ≤ o'.lookupAttempts ∧ (o.resolved = true → o' = o)

theorem Continues.refl (s : ExecutionTables) : s.Continues s where
  decisions := List.prefix_rfl
  audits := List.prefix_rfl
  events := List.prefix_rfl
  executions _ e he := ⟨e, he, rfl, le_rfl, fun _ => rfl⟩
  outcomes _ o ho := ⟨o, ho, rfl, le_rfl, fun _ => rfl⟩

theorem Continues.trans {s'' : ExecutionTables} (h : s.Continues s') (h' : s'.Continues s'') : s.Continues s'' where
  decisions := h.decisions.trans h'.decisions
  audits := h.audits.trans h'.audits
  events := h.events.trans h'.events
  executions id e he := by
    obtain ⟨e', he', hsame, hversion, hkept⟩ := h.executions id e he
    obtain ⟨e'', he'', hsame', hversion', hkept'⟩ := h'.executions id e' he'
    refine ⟨e'', he'', hsame'.trans hsame, hversion.trans hversion', fun hstill => ?_⟩
    rcases hstill with heq | hcomplete
    · obtain rfl := hkept (.inl (by omega))
      exact hkept' (.inl heq)
    · obtain rfl := hkept (.inr hcomplete)
      exact hkept' (.inr hcomplete)
  outcomes id o ho := by
    obtain ⟨o', ho', hsame, hattempts, hkept⟩ := h.outcomes id o ho
    obtain ⟨o'', ho'', hsame', hattempts', hkept'⟩ := h'.outcomes id o' ho'
    refine ⟨o'', ho'', hsame'.trans hsame, hattempts.trans hattempts', fun hresolved => ?_⟩
    obtain rfl := hkept hresolved
    exact hkept' hresolved

theorem Moves.continues {e e' : CanonicalExecution} (h : Moves e e') :
    (e'.order, e'.provider, e'.venue, e'.mode, e'.quantity) = (e.order, e.provider, e.venue, e.mode, e.quantity) ∧
      e.version ≤ e'.version ∧ (e'.version = e.version ∨ e.state ∈ ExecutionStateAuthority.completing → e' = e) := by
  have hversion := h.version
  refine ⟨h.same, by omega, fun hstill => ?_⟩
  rcases hstill with heq | hcomplete
  · omega
  · exact absurd hcomplete (transitions_forward h.allowed).2.2

theorem continues_looked {o o' : UnknownExecutionOutcome} (ho : s.outcomes[id]? = some o) (h : Looked o o')
    (i : Nat) (x : UnknownExecutionOutcome) (hx : s.outcomes[i]? = some x) : ∃ x', (s.outcomes.set id o')[i]? = some x' ∧
      x'.execution = x.execution ∧ x.lookupAttempts ≤ x'.lookupAttempts ∧ (x.resolved = true → x' = x) := by
  obtain ⟨hlt, -⟩ := List.getElem?_eq_some_iff.mp ho
  rcases eq_or_ne id i with rfl | hne
  · obtain rfl : o = x := Option.some.inj (ho.symm.trans hx)
    have hattempts := h.attempts
    refine ⟨o', List.getElem?_set_self hlt, h.execution, by omega, fun hresolved => ?_⟩
    rw [h.unresolved] at hresolved
    cases hresolved
  · exact ⟨x, (List.getElem?_set_ne hne).trans hx, rfl, le_rfl, fun _ => rfl⟩

theorem continues_effect (h : s.Effect s') : s.Continues s' := by
  have hrefl := Continues.refl s
  cases h with
  | routed hrouted hvacant =>
    exact { hrefl with decisions := List.prefix_append _ _, audits := List.prefix_append _ _
                       events := List.prefix_append _ _ }
  | ambiguous hprior horder hvenue hvacant =>
    refine ⟨List.prefix_append _ _, List.prefix_rfl, List.prefix_append _ _, fun id e he => ?_, fun id o ho => ?_⟩
    · exact ⟨e, (List.getElem?_append_left (List.getElem?_eq_some_iff.mp he).1).trans he, rfl, le_rfl, fun _ => rfl⟩
    · exact ⟨o, (List.getElem?_append_left (List.getElem?_eq_some_iff.mp ho).1).trans ho, rfl, le_rfl, fun _ => rfl⟩
  | @moved id e e' he hmoves =>
    refine { hrefl with executions := fun id' x hx => ?_ }
    obtain ⟨hlt, -⟩ := List.getElem?_eq_some_iff.mp he
    rcases eq_or_ne id id' with rfl | hne
    · obtain rfl : e = x := Option.some.inj (he.symm.trans hx)
      exact ⟨e', List.getElem?_set_self hlt, hmoves.continues⟩
    · exact ⟨x, (List.getElem?_set_ne hne).trans hx, rfl, le_rfl, fun _ => rfl⟩
  | @missed id o o' ho hlooked hresolved =>
    exact { hrefl with outcomes := continues_looked ho hlooked }
  | @found id o o' ho hlooked hresolved =>
    exact { hrefl with events := List.prefix_append _ _, outcomes := continues_looked ho hlooked }
  | none => exact hrefl

section Runs

variable {ops : List ExecutionOp} (hreports : ∀ op ∈ ops, op.Reports)
include hreports

theorem Continues.after (desk : ExecutionDesk) (s : ExecutionTables) : s.Continues (s.after desk ops) := by
  induction ops generalizing s with
  | nil => exact .refl s
  | cons op ops ih =>
    obtain ⟨hop, hrest⟩ := List.forall_mem_cons.mp hreports
    exact (continues_effect (effect_step desk s hop)).trans (ih hrest (s.step desk op))

theorem Decided.after (h : s.Decided) : (s.after desk ops).Decided := by
  induction ops generalizing s with
  | nil => exact h
  | cons op ops ih =>
    obtain ⟨hop, hrest⟩ := List.forall_mem_cons.mp hreports
    exact ih hrest (h.effect (effect_step desk s hop))

theorem Lives.after (h : s.Lives) : (s.after desk ops).Lives := by
  induction ops generalizing s with
  | nil => exact h
  | cons op ops ih =>
    obtain ⟨hop, hrest⟩ := List.forall_mem_cons.mp hreports
    exact ih hrest (h.effect (effect_step desk s hop))

end Runs

theorem execution_law (desk : ExecutionDesk) (ops later : List ExecutionOp) (hreports : ∀ op ∈ ops ++ later, op.Reports) :
    ExecutionLaw (after desk {} ops) ∧ (after desk {} ops).Continues (after desk {} (ops ++ later)) := by
  obtain ⟨hops, hlater⟩ := List.forall_mem_append.mp hreports
  have hdecided : (after desk {} ops).Decided := Decided.after hops
    ⟨numbered_nil, linked_nil, fun _ hx => (by cases hx), rfl, rfl, rfl, rfl⟩
  have hlives : (after desk {} ops).Lives := Lives.after hops
    ⟨fun _ he => (by cases he), rfl, fun _ ho => (by cases ho), fun _ => rfl⟩
  refine ⟨⟨hdecided, hlives, fun _ _ _ => hdecided.single, hdecided.auditGap, hdecided.outboxGap,
    hdecided.missingRoutingEvidence⟩, ?_⟩
  rw [after, after, List.foldl_append]
  exact Continues.after hlater desk _

-- The providers and the venue that the code seeds
def seededDesk : ExecutionDesk := { providers := ["simulation", "paper-a", "paper-b"], venues := ["BEYVRA-SIM"] }

def paperOrder : TradedOrder := { id := "order", tenantRef := "tenant", subjectRef := "user", quantity := 2 }

-- A paper order is routed, its submission is ambiguous.
def ambiguousRun : List ExecutionOp :=
  let data : RouteData :=
    { mode := .paper, instrument := "BTC-USD", side := "BUY", quantity := "2", referencePrice := "100"
      marketSnapshotHash := "market", pricingSnapshotHash := "pricing", riskSnapshotHash := "risk"
      requestHash := "request", evidenceHash := "evidence" }
  [.previewRoute {} 0 SmartOrderRouter.seededTables "user" (some "order") data,
    .recordAmbiguousOutcome 1 paperOrder "paper-b" 0]

-- A lookup finds that it was filled.
def resolvedRun : List ExecutionOp :=
  [.resolveUnknown 2 0 fun _ => some "lookup", .transition 3 0 .filled { filledQuantity := some 2, remainingQuantity := some 0 }]

theorem execution_law_resolved : ((after seededDesk {} (ambiguousRun ++ resolvedRun)).executions.map (·.state) = [.filled]) ∧
    ExecutionLaw (after seededDesk {} ambiguousRun) ∧
      (after seededDesk {} ambiguousRun).Continues (after seededDesk {} (ambiguousRun ++ resolvedRun)) :=
  ⟨by decide +kernel, execution_law seededDesk ambiguousRun resolvedRun (by decide)⟩

end ExecutionTables

end ExecutionControl

end Beyvra
