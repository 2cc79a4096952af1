import Beyvra.Compliance.Domain

namespace Beyvra

open Relational

inductive OrderState where
  | pending | accepted | opened | partiallyFilled | filled | cancelPending | cancelled | rejected
  | expired
  deriving DecidableEq

inductive OrderType where
  | market | limit | stop | stopLimit
  deriving DecidableEq

inductive OrderSide where
  | buy | sell
  deriving DecidableEq

def OrderState.value : OrderState → String
  | .pending => "PENDING"
  | .accepted => "ACCEPTED"
  | .opened => "OPEN"
  | .partiallyFilled => "PARTIALLY_FILLED"
  | .filled => "FILLED"
  | .cancelPending => "CANCEL_PENDING"
  | .cancelled => "CANCELLED"
  | .rejected => "REJECTED"
  | .expired => "EXPIRED"

def OrderType.value : OrderType → String
  | .market => "MARKET"
  | .limit => "LIMIT"
  | .stop => "STOP"
  | .stopLimit => "STOP_LIMIT"

def OrderSide.value : OrderSide → String
  | .buy => "BUY"
  | .sell => "SELL"

def OrderSide.opposite : OrderSide → OrderSide
  | .buy => .sell
  | .sell => .buy

def transitions : OrderState → List OrderState
  | .pending => [.accepted, .rejected]
  | .accepted => [.opened, .cancelPending]
  | .opened => [.partiallyFilled, .filled, .cancelPending, .expired]
  | .partiallyFilled => [.filled, .cancelPending]
  | .cancelPending => [.cancelled]
  | _ => []

def terminalStates : List OrderState := [.filled, .cancelled, .rejected, .expired]

def OrderState.terminal (state : OrderState) : Bool := state ∈ terminalStates

def transitionOrder (current target : OrderState) : Outcome OrderState := do
  require (target ∈ transitions current)
    (Error.invalidOrderTransition ("ORDER_INVALID_STATE:" ++ current.value ++ "->" ++ target.value))
  pure target

theorem transitionOrder_eq_ok {current target state : OrderState} :
    transitionOrder current target = .ok state ↔ target ∈ transitions current ∧ state = target := by
  simp only [transitionOrder, bind_eq_ok, require_eq_ok, pure_eq_ok, exists_and_left, exists_const]
  exact and_congr_right fun _ => eq_comm

theorem transitionOrder_of_mem {current target : OrderState} (h : target ∈ transitions current) :
    transitionOrder current target = .ok target :=
  transitionOrder_eq_ok.mpr ⟨h, rfl⟩

theorem transitions_terminal {state : OrderState} (h : state.terminal = true) :
    transitions state = [] := by
  cases state <;> first | rfl | simp [OrderState.terminal, terminalStates] at h

theorem not_terminal_of_transition {current target : OrderState} (h : target ∈ transitions current) :
    current.terminal = false := by
  cases ht : current.terminal with
  | false => rfl
  | true => simp [transitions_terminal ht] at h

def openForExecution (state : OrderState) : Outcome OrderState := do
  let state ← if state = .pending then transitionOrder state .accepted else pure state
  if state = .accepted then transitionOrder state .opened else pure state

def workingState : OrderState → OrderState
  | .pending => .opened
  | .accepted => .opened
  | state => state

theorem openForExecution_eq (state : OrderState) : openForExecution state = .ok (workingState state) := by
  cases state <;> rfl

structure TradingOrder where
  id : Uuid
  tenantRef : String
  subjectRef : String
  accountRef : String
  instrumentId : String
  orderType : OrderType
  side : OrderSide
  quantity : ℚ
  limitPrice : Option ℚ
  filledQuantity : ℚ := 0
  averageFillPrice : Option ℚ := none
  reservationId : Option Uuid := none
  state : OrderState := .pending
  simulation : Bool := true
  eligibilityPolicyVersion : String := ""
  eligibilityResult : EligibilityResult := .denied
  eligibilityReasonCodes : List String := []
  eligibilityEvaluatedAt : Option Timestamp := none
  updatedAt : Timestamp
  deriving DecidableEq

inductive RiskVerdict where
  | allow | deny | review
  deriving DecidableEq

def RiskVerdict.value : RiskVerdict → String
  | .allow => "ALLOW"
  | .deny => "DENY"
  | .review => "REVIEW"

structure RiskDecision where
  subjectRef : String
  accountRef : String
  orderId : Uuid
  decision : RiskVerdict
  reasonCodes : List String
  policyVersion : String
  deriving DecidableEq

structure SimulatedAccount where
  tenantRef : String
  subjectRef : String
  accountRef : String
  status : AccountState := .active
  quoteCurrency : String := "USD"
  totalBalance : ℚ := 10000
  pendingBalance : ℚ := 0
  deriving DecidableEq

inductive ExecutionMode where
  | paper | live
  deriving DecidableEq

structure TradingAccount where
  tenantRef : String
  subjectRef : String
  accountRef : String
  executionMode : ExecutionMode
  baseCurrency : String
  status : AccountState
  tradingEnabled : Bool
  deriving DecidableEq

inductive ReservationState where
  | active | released | consumed
  deriving DecidableEq

structure SimulatedReservation where
  account : String
  asset : String
  originalAmount : ℚ
  remainingAmount : ℚ
  state : ReservationState := .active
  deriving DecidableEq

structure SimulatedPosition where
  quantity : ℚ := 0
  averagePrice : ℚ := 0
  realizedPnl : ℚ := 0
  deriving DecidableEq

structure SimulatedTrade where
  orderId : Uuid
  instrumentId : String
  side : OrderSide
  quantity : ℚ
  price : ℚ
  fee : ℚ
  executedAt : Timestamp
  deriving DecidableEq

structure RoutingDecision where
  selected : Bool
  referencePrice : ℚ
  createdAt : Timestamp
  deriving DecidableEq

structure QualityEvidence where
  orderId : Uuid
  reference : ℚ
  execution : ℚ
  quantity : ℚ
  deriving DecidableEq

structure ExecutionQualityReport where
  orderId : Uuid
  revision : Nat
  referencePrice : ℚ
  executionPrice : ℚ
  filledQuantity : ℚ
  slippageBps : ℚ
  priceImprovementAmount : ℚ
  priceImprovementBps : ℚ
  fees : ℚ
  fillRate : ℚ
  unfilledQuantity : ℚ
  evidenceHash : QualityEvidence
  deriving DecidableEq

structure TradingTables where
  accounts : Table String SimulatedAccount := Table.empty
  identities : Table String TradingAccount := Table.empty
  positions : Table (String × String) SimulatedPosition := Table.empty
  reservations : Table Uuid SimulatedReservation := Table.empty
  orders : Table Uuid TradingOrder := Table.empty
  trades : Table String SimulatedTrade := Table.empty
  riskDecisions : List RiskDecision := []
  routingDecisions : Table Uuid RoutingDecision := Table.empty
  qualityReports : List ExecutionQualityReport := []

structure SurveillanceRule where
  eventType : String
  enabled : Bool
  severity : String
  version : Nat
  policyVersion : String
  effectiveFrom : Timestamp
  effectiveTo : Option Timestamp
  deviationRatio : ℚ

inductive RestrictionScope where
  | account | tenant | instrument | assetClass | venue | jurisdiction
  deriving DecidableEq

inductive TradingRestrictionType where
  | blockNewOrders | cancelOnly | closeOnly | blockBuys | blockSells | blockInstrument
  | blockAssetClass | blockVenue | reviewRequired
  deriving DecidableEq

structure TradingRestriction where
  tenantRef : String
  scopeType : RestrictionScope
  scopeRef : String
  restrictionType : TradingRestrictionType
  active : Bool
  effectiveFrom : Timestamp
  effectiveTo : Option Timestamp
  deriving DecidableEq

structure Finding where
  eventType : String
  severity : String
  score : ℚ
  ruleVersion : Nat
  policyVersion : String
  deriving DecidableEq

structure SurveillanceEvent where
  tenantRef : String
  accountRef : String
  instrumentId : String
  finding : Finding
  detectedAt : Timestamp

structure SurveillanceCase where
  tenantRef : String
  accountRef : String
  caseType : String
  severity : String
  active : Bool

structure SurveillanceTables where
  rules : List SurveillanceRule := []
  restrictions : List TradingRestriction := []
  events : List SurveillanceEvent := []
  cases : List SurveillanceCase := []

end Beyvra
