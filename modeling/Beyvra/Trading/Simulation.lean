import Beyvra.Compliance.Services
import Beyvra.Numeric.Column
import Beyvra.PostTrade.Processor
import Beyvra.Trading.Pretrade

namespace Beyvra

open Numeric Relational

inductive ExecutionOutcome where
  | fill | reject | expire
  deriving DecidableEq

def ExecutionOutcome.value : ExecutionOutcome → String
  | .fill => "FILL"
  | .reject => "REJECT"
  | .expire => "EXPIRE"

structure SimulatedExecution where
  executionId : String
  quantity : ℚ
  price : ℚ
  outcome : ExecutionOutcome := .fill
  deriving DecidableEq

def defaultTenant : String := "default"

def accountRefOf (subjectRef : String) : String := "sim:" ++ subjectRef

inductive CorrelationRef where
  | uuid (id : Uuid)
  | text (value : String)
  deriving DecidableEq

def correlationUuid (env : Env) : Option CorrelationRef → Uuid
  | some (.uuid id) => id
  | some (.text "") => env.uuid4 "correlation"
  | some (.text value) => uuid5 ("beyvra:" ++ value)
  | none => env.uuid4 "correlation"

def orderCorrelation (env : Env) (db : Database) (order : TradingOrder) : Uuid :=
  ((db.foundation.outbox.find? fun e => e.aggregateType = "order" && e.aggregateId = order.id &&
    e.eventType = "trading.order.created.v1").map (·.correlationId)).getD (env.uuid4 "correlation")

def ensurePaperIdentity (projection : SimulatedAccount) (t : TradingTables) :
    Outcome (TradingAccount × TradingTables) := do
  let _ ← fetch t.accounts projection.accountRef (.doesNotExist "SimulatedAccount")
  let created : TradingAccount :=
    { tenantRef := projection.tenantRef, subjectRef := projection.subjectRef
      accountRef := projection.accountRef, executionMode := .paper
      baseCurrency := projection.quoteCurrency, status := projection.status
      tradingEnabled := projection.status = .active }
  let account := (t.identities.find projection.accountRef).getD created
  require (account.tenantRef = projection.tenantRef ∧ account.subjectRef = projection.subjectRef ∧
      account.accountRef = projection.accountRef ∧ account.baseCurrency = projection.quoteCurrency ∧
      account.executionMode = .paper) (.valueError "ACCOUNT_PROJECTION_MISMATCH")
  pure (account, { t with identities := t.identities.put projection.accountRef account })

def accountFor (user : String) (t : TradingTables) : Outcome (SimulatedAccount × TradingTables) := do
  let accountRef := accountRefOf user
  let account := (t.accounts.find accountRef).getD
    { tenantRef := defaultTenant, subjectRef := user, accountRef }
  let t := { t with accounts := t.accounts.put accountRef account }
  let (_, t) ← ensurePaperIdentity account t
  pure (account, t)

structure Evaluation where
  payload : OrderPayload
  account : SimulatedAccount
  result : RiskResult
  surveillance : SurveillanceDecision
  available : ℚ
  notional : ℚ

def riskInputs (settings : Settings) (identity : TradingAccount) (payload : OrderPayload)
    (state : ControlState) (available : ℚ) : RiskInputs where
  accountStatus := if identity.tradingEnabled then identity.status else .restricted
  simulationEligible := some true
  instrumentStatus := "ACTIVE"
  marketStatus := "OPEN"
  quantity := payload.quantity
  minQuantity := 1 / 10000
  maxQuantity := some 100
  notional := payload.quantity * payload.price
  minNotional := 1
  maxNotional := some 1000000
  availableFunds := match payload.side with
    | .buy => some available
    | .sell => none
  projectedPosition := some payload.quantity
  positionLimit := some 100
  dailyNotional := 0
  dailyNotionalLimit := some 1000000
  dailyLoss := 0
  dailyLossLimit := some 10000
  marketDataStale := settings.simulatedMarketDataStale
  providerHealth := some "HEALTHY"
  complianceEligible := true
  controlState := if state = .cancelOnly ∨ state = .closeOnly ∧ payload.side = .buy then .halted
    else state
  referencePrice := some payload.price
  orderPrice := some (payload.limitPrice.getD payload.price)
  priceBandPercent := some 5

def evaluate (env : Env) (user : String) (data : OrderRequest) (db : Database) :
    Outcome (Evaluation × Database) := do
  let payload ← normalizedPayload env.settings data
  let (account, t) ← accountFor user db.trading
  let (identity, t) ← ensurePaperIdentity account t
  let available := t.availableQuote account
  let state := controlState db.foundation.controls payload.instrumentId
  let result := (riskInputs env.settings identity payload state available).evaluateOrder
  let surveillance := surveilOrder env db.surveillance t defaultTenant account.accountRef payload
  pure ({ payload, account, result, surveillance, available
          notional := payload.quantity * payload.price }, { db with trading := t })

theorem evaluate_eq_ok {env : Env} {user : String} {data : OrderRequest} {db db' : Database}
    {e : Evaluation} : evaluate env user data db = .ok (e, db') ↔ ∃ payload account t identity t',
      normalizedPayload env.settings data = .ok payload ∧ accountFor user db.trading = .ok (account, t) ∧
      ensurePaperIdentity account t = .ok (identity, t') ∧ db' = { db with trading := t' } ∧
      e = { payload, account
            result := (riskInputs env.settings identity payload
              (controlState db.foundation.controls payload.instrumentId)
              (t'.availableQuote account)).evaluateOrder
            surveillance := surveilOrder env db.surveillance t' defaultTenant account.accountRef payload
            available := t'.availableQuote account
            notional := payload.quantity * payload.price } := by
  constructor
  · intro hok
    obtain ⟨payload, hpayload, h₁⟩ := bind_eq_ok.mp hok
    obtain ⟨⟨account, t⟩, haccount, h₂⟩ := bind_eq_ok.mp h₁
    obtain ⟨⟨identity, t'⟩, hidentity, h₃⟩ := bind_eq_ok.mp h₂
    obtain ⟨rfl, rfl⟩ := Prod.mk.inj (pure_eq_ok.mp h₃)
    exact ⟨payload, account, t, identity, t', hpayload, haccount, hidentity, rfl, rfl⟩
  · rintro ⟨payload, account, t, identity, t', hpayload, haccount, hidentity, rfl, rfl⟩
    exact bind_eq_ok.mpr ⟨payload, hpayload, bind_eq_ok.mpr ⟨(account, t), haccount,
      bind_eq_ok.mpr ⟨(identity, t'), hidentity, rfl⟩⟩⟩

def eventPayload (settings : Settings) (order : TradingOrder) (extra : Payload := []) : Payload :=
  [("order_id", .str order.id), ("account_ref", .str order.accountRef),
    ("instrument", .str order.instrumentId), ("side", .str order.side.value),
    ("quantity", .dec order.quantity), ("filled_quantity", .dec order.filledQuantity),
    ("state", .str order.state.value), ("simulation", .flag true),
    ("price_source", .str settings.simulatedExecutionPriceSource)] ++ extra

def serializeOrder (order : TradingOrder) : Payload :=
  [("id", .str order.id), ("instrument", .str order.instrumentId), ("side", .str order.side.value),
    ("order_type", .str order.orderType.value), ("quantity", .dec order.quantity),
    ("filled_quantity", .dec order.filledQuantity), ("state", .str order.state.value),
    ("version", .time order.updatedAt), ("simulation", .flag true),
    ("eligibility_policy_version", .str order.eligibilityPolicyVersion),
    ("eligibility_result", .str order.eligibilityResult.value),
    ("eligibility_reason_codes", .strs order.eligibilityReasonCodes),
    ("eligibility_evaluated_at", (order.eligibilityEvaluatedAt.map Value.time).getD .null)]

def serializeAccount (account : SimulatedAccount) (t : TradingTables) :
    Outcome (Payload × TradingTables) := do
  let reserved := t.reservations.sum fun _ r =>
    if r.account = account.accountRef ∧ r.state = .active then r.remainingAmount else 0
  let (identity, t) ← ensurePaperIdentity account t
  pure ([("account_ref", .str account.accountRef), ("currency", .str account.quoteCurrency),
    ("total", .dec account.totalBalance), ("available", .dec (t.availableQuote account)),
    ("reserved", .dec reserved), ("pending", .dec account.pendingBalance), ("simulation", .flag true),
    ("base_currency", .str identity.baseCurrency), ("status", .str identity.status.value),
    ("trading_enabled", .flag identity.tradingEnabled)], t)

namespace Database

def saveOrder (db : Database) (order : TradingOrder) : Database :=
  { db with trading.orders := db.trading.orders.put order.id order }

def withTrading (db : Database) (t : TradingTables) : Database := { db with trading := t }

def orderEvent (db : Database) (env : Env) (order : TradingOrder) (eventType : String)
    (correlation : Uuid) : Database :=
  db.enqueueEvent env "order" order.id eventType (eventPayload env.settings order) order.tenantRef
    (some correlation)

def executionEvent (db : Database) (env : Env) (order : TradingOrder) (executionId eventType : String)
    (extra : Payload) (correlation : Uuid) : Database :=
  db.enqueueEvent env "execution" executionId eventType (eventPayload env.settings order extra)
    order.tenantRef (some correlation)

end Database

def assertSafeMode (settings : Settings) : Outcome Unit := do
  require (¬settings.realTradingEnabled ∧ ¬settings.externalExecutionEnabled)
    (.valueError "LIVE_EXECUTION_DISABLED")
  require (¬settings.liveBrokerRoutingEnabled ∧ ¬settings.fixLiveSessionEnabled)
    (.valueError "LIVE_EXECUTION_DISABLED")
  require (settings.simulationAllowed) (.valueError "SIMULATION_DISABLED")

def previewRoute (env : Env) (user : String) (order : TradingOrder) (referencePrice : ℚ)
    (correlation : Uuid) (db : Database) : Outcome Database := do
  assertSafeMode env.settings
  require (order.instrumentId ≠ "" ∧ 0 < order.quantity ∧ 0 < referencePrice)
    (.valueError "VALIDATION_ERROR")
  let decision : RoutingDecision :=
    { selected := env.routable, referencePrice, createdAt := env.now }
  let db := db.withTrading
    { db.trading with routingDecisions := db.trading.routingDecisions.put order.id decision }
  let db := db.audit env user
    (if env.routable then "execution.route.selected" else "execution.route.denied")
    "execution_route" order.id correlation "routing"
  if env.routable then
    pure (db.enqueueEvent env "execution_route" order.id "trading.execution.route.selected.v1"
      [("order_id", .str order.id)] order.tenantRef (some correlation))
  else pure db

inductive CreateReply where
  | created (body : Payload)
  | replayed (body : Payload)
  | rejected (reason : String)
  deriving DecidableEq

def orderEndpoint : String := "/api/v1/trading/orders"

def createScope (user key : String) : IdempotencyScope where
  key := key
  tenantRef := defaultTenant
  actorRef := user
  endpoint := orderEndpoint
  method := "POST"

def orderColumn : Column := ⟨36, 18⟩

-- The column rounds the limit price. The price band keeps it below the column's bound.
def OrderPayload.stored (payload : OrderPayload) : OrderPayload :=
  { payload with limitPrice := payload.limitPrice.map (roundTo halfUp orderColumn.unit) }

def newOrder (env : Env) (user : String) (payload : OrderPayload) : TradingOrder where
  id := env.uuid4 "TradingOrder"
  tenantRef := defaultTenant
  subjectRef := user
  accountRef := accountRefOf user
  instrumentId := payload.instrumentId
  orderType := payload.orderType
  side := payload.side
  quantity := payload.quantity
  limitPrice := payload.stored.limitPrice
  updatedAt := env.now

def TradingOrder.recordEligibility (order : TradingOrder) (eligibility : Option EligibilityDecisionValue) :
    TradingOrder :=
  match eligibility with
  | none => order
  | some decision =>
    { order with
      eligibilityPolicyVersion := decision.policyVersion
      eligibilityResult := decision.result
      eligibilityReasonCodes := decision.reasonCodes
      eligibilityEvaluatedAt := some decision.evaluatedAt }

def insertOrder (order : TradingOrder) (db : Database) : Outcome Database := do
  require (db.trading.orders.find order.id = none) (.integrityError "trading_order_pkey")
  pure (db.saveOrder order)

def recordRisk (env : Env) (order : TradingOrder) (result : RiskResult) (correlation : Uuid)
    (db : Database) : Database :=
  let risk : RiskDecision :=
    { subjectRef := order.subjectRef, accountRef := order.accountRef, orderId := order.id
      decision := result.decision, reasonCodes := result.reasonCodes
      policyVersion := result.policyVersion }
  let db := db.withTrading { db.trading with riskDecisions := db.trading.riskDecisions ++ [risk] }
  db.audit env order.subjectRef "simulation.risk.decided" "risk_decision" order.id correlation
    result.decision.value

def announceOrder (env : Env) (order : TradingOrder) (correlation : Uuid) (db : Database) : Database :=
  let db := db.orderEvent env order "trading.order.created.v1" correlation
  let db := db.executionEvent env order order.id "trading.execution.submitted.v1"
    [("execution_mode", .str "SIMULATION")] correlation
  db.audit env order.subjectRef "simulation.order.submitted" "simulation_order" order.id correlation

def recordOrder (env : Env) (user : String) (payload : OrderPayload) (db : Database) :
    Outcome (TradingOrder × Database) := do
  let order := newOrder env user payload
  let db ← insertOrder order db
  let eligibility := complianceDecision env user db.compliance
  let db := { db with compliance := recordDecision env user db.compliance }
  let order := order.recordEligibility eligibility
  pure (order, db.saveOrder order)

def reserveOrder (env : Env) (user : String) (e : Evaluation) (correlation : Uuid) (order : TradingOrder)
    (db : Database) : Outcome (TradingOrder × Database) := do
  let db ← previewRoute env user order e.payload.price correlation db
  let db := recordRisk env order e.result correlation db
  let (_, t) ← reserveFunds e.account order.id order.instrumentId order.side order.quantity
    e.payload.price db.trading
  let order := { order with reservationId := some order.id }
  pure (order, announceOrder env order correlation ((db.withTrading t).saveOrder order))

def placeOrder (env : Env) (user : String) (e : Evaluation) (key : String)
    (correlationId : Option CorrelationRef) (db : Database) : Outcome (CreateReply × Database) := do
  let (order, db) ← recordOrder env user e.payload db
  let (order, db) ← reserveOrder env user e (correlationUuid env correlationId) order db
  let body := serializeOrder order
  let db ← completeIdempotentRequest (createScope user key) 201 body "simulation_order" order.id db
  pure (.created body, db)

def storedBody (opened : IdempotencyRecord × Bool) : Option Payload :=
  if opened.2 then none else opened.1.responseBody

def openRecord (env : Env) (user : String) (data : OrderRequest) (key : String) (recordGiven : Bool)
    (db : Database) : Outcome (Option Payload × Database) :=
  if recordGiven then pure (none, db)
  else do
    let (opened, db) ← beginIdempotentRequest env (createScope user key) data.payload db
    pure (storedBody opened, db)

def refuse (e : Evaluation) (env : Env) (user : String) (db : Database) : CreateReply × Database :=
  (.rejected (e.surveillance.reasonCodes.headD "ORDER_REJECTED"),
    persistFindings env defaultTenant (accountRefOf user) e.payload.instrumentId
      e.surveillance.findings db)

def assertRisk (e : Evaluation) : Outcome Unit :=
  require (e.result.decision = .allow)
    (.valueError (e.result.reasonCodes.headD "ORDER_REVIEW_REQUIRED"))

def createAllowed (env : Env) (user : String) (data : OrderRequest) (key : String)
    (correlationId : Option CorrelationRef) (recordGiven : Bool) (db : Database) :
    Outcome (CreateReply × Database) := do
  let (_, t) ← accountFor user db.trading
  let (e, db) ← evaluate env user data (db.withTrading t)
  assertRisk e
  if e.surveillance.decision ≠ .allow then pure (refuse e env user db)
  else do
    let (stored, db) ← openRecord env user data key recordGiven db
    match stored with
    | some body => pure (.replayed body, db)
    | none => placeOrder env user e key correlationId db

def checkEligibility (env : Env) (user : String) (db : Database) : Outcome Unit × Database :=
  let db' := { db with compliance := recordDecision env user db.compliance }
  match complianceDecision env user db.compliance with
  | none => (.error (.valueError "KYC_REQUIRED"), db')
  | some decision =>
    if decision.result = .allowed then (.ok (), db')
    else (.error (.valueError (decision.reasonCodes.headD "COMPLIANCE_NOT_ELIGIBLE")), db')

def createTransaction (env : Env) (user : String) (data : OrderRequest) (key : String)
    (correlationId : Option CorrelationRef) (db : Database) : Outcome (CreateReply × Database) := do
  let (opened, db) ← beginIdempotentRequest env (createScope user key) data.payload db
  match storedBody opened with
  | some body => pure (.replayed body, db)
  | none => do
    let (e, db) ← evaluate env user data db
    assertRisk e
    if e.surveillance.decision ≠ .allow then pure (refuse e env user db)
    else createAllowed env user data key correlationId true db

structure Applied where
  order : TradingOrder
  eventType : String
  db : Database

def releaseFor (order : TradingOrder) (db : Database) : Outcome Database := do
  let reservationId ← demand order.reservationId (.doesNotExist "SimulatedReservation")
  let t ← releaseReservation reservationId db.trading
  pure (db.withTrading t)

def rejectOrder (order : TradingOrder) (db : Database) : Outcome Applied := do
  let state ← transitionOrder order.state .rejected
  let db ← releaseFor order db
  pure { order := { order with state }, eventType := "trading.order.rejected.v1", db }

def expireOrder (order : TradingOrder) (db : Database) : Outcome Applied := do
  let state ← openForExecution order.state
  let state ← transitionOrder state .expired
  let db ← releaseFor order db
  pure { order := { order with state }, eventType := "trading.order.expired.v1", db }

def insertTrade (env : Env) (order : TradingOrder) (execution : SimulatedExecution) (fee : ℚ)
    (t : TradingTables) : Outcome TradingTables := do
  require (t.trades.find execution.executionId = none) (.integrityError "execution_id")
  let trade : SimulatedTrade :=
    { orderId := order.id, instrumentId := order.instrumentId, side := order.side
      quantity := execution.quantity, price := execution.price, fee, executedAt := env.now }
  pure { t with trades := t.trades.put execution.executionId trade }

def TradingOrder.fillWith (order : TradingOrder) (execution : SimulatedExecution) (state : OrderState) :
    TradingOrder :=
  let previousValue := order.filledQuantity * order.averageFillPrice.getD 0
  let nextFilled := order.filledQuantity + execution.quantity
  { order with
    filledQuantity := nextFilled
    averageFillPrice := some ((previousValue + execution.quantity * execution.price) / nextFilled)
    state }

def settlementOf (order : TradingOrder) (execution : SimulatedExecution) : Settlement where
  side := order.side
  instrumentId := order.instrumentId
  quantity := execution.quantity
  price := execution.price
  fee := execution.quantity * execution.price * feeRate

def auditFill (env : Env) (order : TradingOrder) (execution : SimulatedExecution)
    (reservationId : Uuid) (correlation : Uuid) (db : Database) : Database :=
  let db := db.audit env order.subjectRef "simulation.execution.received" "simulation_execution"
    execution.executionId correlation
  let db := db.audit env order.subjectRef "simulation.trade.executed" "simulation_trade"
    execution.executionId correlation
  db.audit env order.subjectRef "simulation.settlement.applied" "simulation_reservation" reservationId
    correlation

def announceFill (env : Env) (order : TradingOrder) (execution : SimulatedExecution) (settled : Settled)
    (fee : ℚ) (correlation : Uuid) (db : Database) : Outcome Database := do
  let db := db.enqueueEvent env "trade" execution.executionId "trading.trade.executed.v1"
    (eventPayload env.settings order [("execution_id", .str execution.executionId),
      ("price", .dec execution.price), ("fee", .dec fee)]) order.tenantRef (some correlation)
  let db := db.enqueueEvent env "position" (order.accountRef ++ ":" ++ order.instrumentId)
    "trading.position.updated.v1"
    [("account_ref", .str order.accountRef), ("instrument", .str order.instrumentId),
      ("quantity", .dec settled.position.quantity),
      ("average_price", .dec settled.position.averagePrice), ("simulation", .flag true)]
    order.tenantRef (some correlation)
  let (payload, t) ← serializeAccount settled.account db.trading
  pure ((db.withTrading t).enqueueEvent env "account" order.accountRef
    "trading.balance_projection.updated.v1" payload order.tenantRef (some correlation))

def fillOrder (env : Env) (correlation : Uuid) (execution : SimulatedExecution) (order : TradingOrder)
    (db : Database) : Outcome Applied := do
  let state ← openForExecution order.state
  let nextFilled := order.filledQuantity + execution.quantity
  require (nextFilled ≤ order.quantity) (.valueError "EXECUTION_OVERFILL")
  let s := settlementOf order execution
  let reservationId ← demand order.reservationId (.doesNotExist "SimulatedReservation")
  let (settled, t) ← settleTrade reservationId s db.trading
  let t ← insertTrade env order execution s.fee t
  let db := db.withTrading t
  let books ← processSimulatedFill env order execution.executionId execution.quantity execution.price
    s.fee env.now db.books
  let db := auditFill env order execution reservationId correlation (db.withBooks books)
  require (nextFilled ≠ 0) .invalidOperation
  let state ← transitionOrder state (if nextFilled = order.quantity then .filled else .partiallyFilled)
  let order := order.fillWith execution state
  let db ← announceFill env order execution settled s.fee correlation db
  let eventType := if state = .filled then "trading.order.filled.v1"
    else "trading.order.partially_filled.v1"
  pure { order, eventType, db }

def executionEventType (order : TradingOrder) : ExecutionOutcome → String
  | .reject => "trading.execution.rejected.v1"
  | .expire => "trading.execution.cancelled.v1"
  | .fill => if order.state = .filled then "trading.execution.filled.v1"
      else "trading.execution.partial_fill.v1"

def feesOf (t : TradingTables) (orderId : Uuid) : ℚ :=
  t.trades.sum fun _ trade => if trade.orderId = orderId then trade.fee else 0

def latestReport (t : TradingTables) (orderId : Uuid) : Option ExecutionQualityReport :=
  ((t.qualityReports.filter (·.orderId = orderId)).insertionSort fun a b => b.revision ≤ a.revision).head?

def qualityReport (t : TradingTables) (order : TradingOrder) (reference execution : ℚ) :
    ExecutionQualityReport :=
  let signed := match order.side with
    | .buy => execution - reference
    | .sell => reference - execution
  { orderId := order.id
    revision := ((latestReport t order.id).map (·.revision + 1)).getD 1
    referencePrice := reference
    executionPrice := execution
    filledQuantity := order.filledQuantity
    slippageBps := signed / reference * 10000
    priceImprovementAmount := -signed
    priceImprovementBps := -signed / reference * 10000
    fees := feesOf t order.id
    fillRate := if order.quantity = 0 then 0 else order.filledQuantity / order.quantity
    unfilledQuantity := order.quantity - order.filledQuantity
    evidenceHash := { orderId := order.id, reference, execution, quantity := order.filledQuantity } }

def recordQuality (order : TradingOrder) (t : TradingTables) :
    Outcome (ExecutionQualityReport × TradingTables) := do
  let decision ← demand (t.routingDecisions.find order.id)
    (.valueError "EXECUTION_QUALITY_NOT_AVAILABLE")
  let execution ← demand order.averageFillPrice (.valueError "EXECUTION_QUALITY_NOT_AVAILABLE")
  require (execution ≠ 0 ∧ order.filledQuantity ≠ 0) (.valueError "EXECUTION_QUALITY_NOT_AVAILABLE")
  require (decision.referencePrice ≠ 0) .invalidOperation
  let report := qualityReport t order decision.referencePrice execution
  match (latestReport t order.id).filter (·.evidenceHash = report.evidenceHash) with
  | some prior => pure (prior, t)
  | none => pure (report, { t with qualityReports := t.qualityReports ++ [report] })

def announceQuality (env : Env) (correlation : Uuid) (order : TradingOrder) (db : Database) :
    Outcome Database :=
  if order.filledQuantity = 0 then pure db
  else do
    let (quality, t) ← recordQuality order db.trading
    pure ((db.withTrading t).enqueueEvent env "execution_quality" order.id
      "trading.execution.quality.updated.v1"
      [("order_id", .str order.id), ("slippage_bps", .dec quality.slippageBps),
        ("price_improvement_bps", .dec quality.priceImprovementBps), ("simulation", .flag true)]
      order.tenantRef (some correlation))

def finishExecution (env : Env) (correlation : Uuid) (execution : SimulatedExecution) (applied : Applied) :
    Outcome Database := do
  let order := { applied.order with updatedAt := env.now }
  let db := applied.db.saveOrder order
  let db := db.executionEvent env order execution.executionId
    (executionEventType order execution.outcome)
    [("execution_id", .str execution.executionId), ("execution_mode", .str "SIMULATION")] correlation
  let db ← announceQuality env correlation order db
  pure (db.orderEvent env order applied.eventType correlation)

def applyOutcome (env : Env) (correlation : Uuid) (execution : SimulatedExecution) (order : TradingOrder)
    (db : Database) : Outcome Applied :=
  match execution.outcome with
  | .reject => rejectOrder order db
  | .expire => expireOrder order db
  | .fill => fillOrder env correlation execution order db

def executionMutation (env : Env) (correlation : Uuid) (execution : SimulatedExecution)
    (order : TradingOrder) (db : Database) : Outcome Database := do
  let db := db.executionEvent env order execution.executionId "trading.execution.received.v1"
    [("execution_id", .str execution.executionId), ("outcome", .str execution.outcome.value)] correlation
  let applied ← applyOutcome env correlation execution order db
  finishExecution env correlation execution applied

def executionConsumer : String := "simulated-execution-v1"

def executionPayload (orderId : Uuid) (execution : SimulatedExecution) : Payload :=
  [("execution_id", .str execution.executionId), ("order_id", .str orderId),
    ("quantity", .dec execution.quantity), ("price", .dec execution.price),
    ("outcome", .str execution.outcome.value)]

def fetchOrder (orderId : Uuid) (db : Database) : Outcome TradingOrder := do
  let order ← fetch db.trading.orders orderId (.doesNotExist "TradingOrder")
  require (order.simulation) (.doesNotExist "TradingOrder")
  pure order

def applyExecution (env : Env) (orderId : Uuid) (execution : SimulatedExecution) (db : Database) :
    Outcome (Bool × Database) := do
  let order ← fetchOrder orderId db
  let correlation := orderCorrelation env db order
  consumeOnce env (uuid5 execution.executionId) (executionPayload orderId execution) executionConsumer
    (executionMutation env correlation execution order) db

def unmarketable (order : TradingOrder) (price : ℚ) : Outcome Bool :=
  match order.orderType with
  | .limit => do
    let limit ← demand order.limitPrice .invalidOperation
    pure (match order.side with
      | .buy => limit < price
      | .sell => price < limit)
  | _ => pure false

def submitOrder (settings : Settings) (scenario : Scenario) (order : TradingOrder) :
    Outcome (List SimulatedExecution) := do
  let price ← demand (settings.priceOf order.instrumentId) (.doesNotExist "SIMULATED_EXECUTION_PRICES")
  let execution (suffix : String) (quantity : ℚ) (outcome : ExecutionOutcome) : SimulatedExecution :=
    { executionId := "sim:" ++ order.id ++ suffix, quantity, price, outcome }
  match scenario with
  | .reject => pure [execution ":reject" 0 .reject]
  | .expire => pure [execution ":expire" 0 .expire]
  | .openThenCancel => pure []
  | .partialThenFill => do
    let resting ← unmarketable order price
    let first := if order.quantity = 10 then 4 else order.quantity * (4 / 10)
    pure (if resting then [] else
      [execution ":1" first .fill, execution ":2" (order.quantity - first) .fill])
  | .immediateFullFill => do
    let resting ← unmarketable order price
    pure (if resting then [] else [execution ":1" order.quantity .fill])

def acceptCreated (env : Env) (correlation : Uuid) (scenario : Scenario) (order : TradingOrder)
    (db : Database) : Outcome (TradingOrder × Database) :=
  if order.state = .pending ∧ scenario ≠ .reject then do
    let state ← transitionOrder order.state .accepted
    let order := { order with state, updatedAt := env.now }
    let db := (db.saveOrder order).orderEvent env order "trading.order.accepted.v1" correlation
    pure (order, db.executionEvent env order order.id "trading.execution.acknowledged.v1"
      [("execution_mode", .str "SIMULATION")] correlation)
  else pure (order, db)

def applyExecutions (env : Env) (orderId : Uuid) : List SimulatedExecution → Database → Outcome Database
  | [], db => pure db
  | execution :: rest, db => do
    let (_, db) ← applyExecution env orderId execution db
    applyExecutions env orderId rest db

def openAccepted (env : Env) (correlation : Uuid) (order : TradingOrder) (db : Database) : Outcome Database :=
  if order.state = .accepted then do
    let state ← transitionOrder order.state .opened
    let order := { order with state, updatedAt := env.now }
    pure ((db.saveOrder order).orderEvent env order "trading.order.opened.v1" correlation)
  else pure db

def processCreatedOrder (env : Env) (orderId : Uuid) (scenario : Option Scenario) (db : Database) :
    Outcome Database := do
  let order ← fetchOrder orderId db
  let correlation := orderCorrelation env db order
  let selected := scenario.getD env.settings.simulatedExecutionScenario
  let (order, db) ← acceptCreated env correlation selected order db
  let executions ← submitOrder env.settings selected order
  let db ← applyExecutions env orderId executions db
  let order ← fetchOrder orderId db
  openAccepted env correlation order db

def consumeOrderCreated (env : Env) (eventId : Uuid) (orderId : Uuid) (db : Database) :
    Outcome (Bool × Database) :=
  consumeOnce env eventId [("order_id", .str orderId)] "simulated-order-router-v1"
    (processCreatedOrder env orderId none) db

structure CancelRequest where
  user : String
  orderId : Uuid
  key : String
  expectedVersion : Value
  correlationId : Option CorrelationRef := none
  deriving DecidableEq

def CancelRequest.scope (request : CancelRequest) : IdempotencyScope where
  key := request.key
  tenantRef := defaultTenant
  actorRef := request.user
  endpoint := "/api/v1/trading/orders/" ++ request.orderId ++ "/cancel"
  method := "POST"

def CancelRequest.payload (request : CancelRequest) : Payload :=
  [("order_id", .str request.orderId), ("expected_version", request.expectedVersion)]

inductive CancelEntry where
  | replayed (body : Payload)
  | refused (code : Value)
  | proceed
  deriving DecidableEq

def bodyCode (body : Payload) : Value := (body.lookup "code").getD .null

def cancelEntry (opened : IdempotencyRecord × Bool) : CancelEntry :=
  match storedBody opened with
  | none => .proceed
  | some body => if opened.1.responseStatus.any (400 ≤ ·) then .refused (bodyCode body) else .replayed body

def beginCancel (env : Env) (request : CancelRequest) (db : Database) : Outcome (CancelEntry × Database) := do
  let (opened, db) ← beginIdempotentRequest env request.scope request.payload db
  pure (cancelEntry opened, db)

inductive CancelResult where
  | versionConflict
  | cancelled (body : Payload)
  deriving DecidableEq

def cancellable : List OrderState := [.accepted, .opened, .partiallyFilled]

def fetchOwned (request : CancelRequest) (db : Database) : Outcome TradingOrder := do
  let order ← fetchOrder request.orderId db
  require (order.tenantRef = defaultTenant ∧ order.subjectRef = request.user)
    (.doesNotExist "TradingOrder")
  pure order

def cancelCorrelation (env : Env) (request : CancelRequest) (db : Database) (order : TradingOrder) : Uuid :=
  match request.correlationId with
  | none => orderCorrelation env db order
  | some ref => correlationUuid env (some ref)

def cancelOrder (env : Env) (request : CancelRequest) (order : TradingOrder) (db : Database) :
    Outcome (CancelResult × Database) := do
  let correlation := cancelCorrelation env request db order
  require (order.state ∈ cancellable) (.valueError "ORDER_INVALID_STATE")
  let state ← transitionOrder order.state .cancelPending
  let order := { order with state, updatedAt := env.now }
  let db := (db.saveOrder order).orderEvent env order "trading.order.cancel_requested.v1" correlation
  let state ← transitionOrder order.state .cancelled
  let order := { order with state, updatedAt := env.now }
  let db := db.saveOrder order
  let db ← releaseFor order db
  let db := (db.orderEvent env order "trading.order.cancelled.v1" correlation).audit env request.user
    "simulation.order.cancelled" "simulation_order" order.id correlation
  let body := serializeOrder order
  let db ← completeIdempotentRequest request.scope 200 body "simulation_order" order.id db
  pure (.cancelled body, db)

def cancelLocked (env : Env) (request : CancelRequest) (db : Database) : Outcome (CancelResult × Database) := do
  let order ← fetchOwned request db
  if .time order.updatedAt ≠ request.expectedVersion then pure (.versionConflict, db)
  else cancelOrder env request order db

def conflictBody : Payload := [("code", .str "VERSION_CONFLICT")]

def completeConflict (request : CancelRequest) (db : Database) : Outcome Database :=
  completeIdempotentRequest request.scope 409 conflictBody "simulation_order" request.orderId db

def settleCancel (env : Env) (request : CancelRequest) (db : Database) : Database :=
  match cancelLocked env request db with
  | .error _ => db
  | .ok (.cancelled _, db') => db'
  | .ok (.versionConflict, db') =>
    match completeConflict request db' with
    | .error _ => db'
    | .ok db'' => db''

def cancel (env : Env) (request : CancelRequest) (db : Database) : Database :=
  match beginCancel env request db with
  | .ok (.proceed, db') => settleCancel env request db'
  | .ok (_, db') => db'
  | .error _ => db

end Beyvra
