import Beyvra.Foundation.Services

namespace Beyvra

open Relational

structure OrderRequest where
  instrument : String := ""
  instrumentId : String := ""
  side : String := ""
  orderType : String := ""
  quantity : Option ℚ := none
  limitPrice : Option ℚ := none

def OrderRequest.payload (data : OrderRequest) : Payload :=
  [("instrument", .str data.instrument), ("instrument_id", .str data.instrumentId),
    ("side", .str data.side), ("order_type", .str data.orderType),
    ("quantity", (data.quantity.map Value.dec).getD .null),
    ("limit_price", (data.limitPrice.map Value.dec).getD .null)]

structure OrderPayload where
  instrumentId : String
  side : OrderSide
  orderType : OrderType
  quantity : ℚ
  price : ℚ
  limitPrice : Option ℚ

def orDefault (value fallback : String) : String := if value = "" then fallback else value

def normalizedInstrument (data : OrderRequest) : String :=
  let instrument := (orDefault data.instrument data.instrumentId).toUpper
  let chars := instrument.toList
  if '-' ∉ chars ∧ ['U', 'S', 'D'] <:+ chars then
    String.ofList (chars.take (chars.length - 3)) ++ "-USD"
  else instrument

def parseSide (side : String) : Option OrderSide :=
  if side = "BUY" then some .buy else if side = "SELL" then some .sell else none

def parseOrderType (orderType : String) : Option OrderType :=
  if orderType = "MARKET" then some .market else if orderType = "LIMIT" then some .limit else none

def limitPriceOf (orderType : OrderType) (limitPrice : Option ℚ) : Outcome (Option ℚ) :=
  match orderType with
  | .limit => do
    let limit ← demand limitPrice (.valueError "VALIDATION_ERROR")
    require (0 < limit) (.valueError "VALIDATION_ERROR")
    pure (some limit)
  | _ => pure none

def normalizedPayload (settings : Settings) (data : OrderRequest) : Outcome OrderPayload := do
  let instrumentId := normalizedInstrument data
  let quantity ← demand data.quantity (.valueError "VALIDATION_ERROR")
  let price ← demand (settings.priceOf instrumentId) (.valueError "VALIDATION_ERROR")
  let side ← demand (parseSide data.side.toUpper) (.valueError "VALIDATION_ERROR")
  let orderType ← demand (parseOrderType (orDefault data.orderType "MARKET").toUpper)
    (.valueError "VALIDATION_ERROR")
  require (0 < quantity) (.valueError "VALIDATION_ERROR")
  let limitPrice ← limitPriceOf orderType data.limitPrice
  pure { instrumentId, side, orderType, quantity, price, limitPrice }

theorem normalizedPayload_eq_ok {settings : Settings} {data : OrderRequest} {payload : OrderPayload}
    (h : normalizedPayload settings data = .ok payload) :
    0 < payload.quantity ∧ settings.priceOf payload.instrumentId = some payload.price := by
  simp only [normalizedPayload, bind_eq_ok, demand_eq_ok, require_eq_ok, pure_eq_ok] at h
  obtain ⟨quantity, _, price, hprice, side, _, orderType, _, _, hpos, limitPrice, _, rfl⟩ := h
  exact ⟨hpos, hprice⟩

theorem normalizedPayload_limit {settings : Settings} {data : OrderRequest} {payload : OrderPayload}
    (h : normalizedPayload settings data = .ok payload) {limit : ℚ} (hlimit : payload.limitPrice = some limit) :
    data.limitPrice = some limit := by
  simp only [normalizedPayload, bind_eq_ok, demand_eq_ok, require_eq_ok, pure_eq_ok] at h
  obtain ⟨quantity, _, price, hprice, side, _, orderType, _, _, hpos, limitPrice, hread, rfl⟩ := h
  obtain rfl : limitPrice = some limit := hlimit
  unfold limitPriceOf at hread
  split at hread
  · obtain ⟨asked, hasked, hrest⟩ := bind_eq_ok.mp hread
    obtain ⟨_, -, hsame⟩ := bind_eq_ok.mp hrest
    rw [demand_eq_ok.mp hasked, ← pure_eq_ok.mp hsame]
  · cases hread

structure RiskInputs where
  accountStatus : AccountState := .active
  simulationEligible : Option Bool := none
  kycStatus : KycState := .approved
  jurisdictionAllowed : Bool := true
  instrumentStatus : String := "ACTIVE"
  marketStatus : String := "OPEN"
  controlState : ControlState := .active
  marketDataStale : Bool := false
  providerHealth : Option String := none
  complianceEligible : Bool := false
  quantity : ℚ := 0
  minQuantity : ℚ := 0
  maxQuantity : Option ℚ := none
  notional : ℚ := 0
  minNotional : ℚ := 0
  maxNotional : Option ℚ := none
  availableFunds : Option ℚ := some 0
  dailyNotional : ℚ := 0
  dailyNotionalLimit : Option ℚ := none
  dailyLoss : ℚ := 0
  dailyLossLimit : Option ℚ := none
  projectedPosition : Option ℚ := none
  positionLimit : Option ℚ := none
  referencePrice : Option ℚ := none
  orderPrice : Option ℚ := none
  priceBandPercent : Option ℚ := none
  manualReviewRequired : Bool := false

structure RiskResult where
  decision : RiskVerdict
  reasonCodes : List String
  policyVersion : String := "spot-p0-v1"

-- An absent limit stands for the source's infinity.
def exceeds (value : ℚ) (limit : Option ℚ) : Bool := limit.any (· < value)

def outsideBand (inputs : RiskInputs) : Bool :=
  match inputs.referencePrice, inputs.orderPrice, inputs.priceBandPercent with
  | some reference, some price, some band =>
    reference ≤ 0 || reference * band / 100 < |price - reference|
  | _, _, _ => false

def RiskInputs.reasons (inputs : RiskInputs) : List String :=
  ([(inputs.accountStatus ≠ .active, "ACCOUNT_RESTRICTED"),
    (inputs.simulationEligible = some false, "SIMULATION_NOT_AUTHORIZED"),
    (inputs.kycStatus ≠ .approved, "COMPLIANCE_RESTRICTED"),
    (¬inputs.jurisdictionAllowed, "JURISDICTION_RESTRICTED"),
    (inputs.instrumentStatus ≠ "ACTIVE", "INSTRUMENT_UNAVAILABLE"),
    (inputs.marketStatus ≠ "OPEN", "MARKET_CLOSED"),
    (inputs.controlState = .halted ∨ inputs.controlState = .maintenance, "TRADING_HALTED"),
    (inputs.marketDataStale, "MARKET_DATA_STALE"),
    (inputs.providerHealth.any (· ≠ "HEALTHY"), "PROVIDER_UNAVAILABLE"),
    (¬inputs.complianceEligible, "COMPLIANCE_RESTRICTED"),
    (inputs.quantity ≤ 0 ∨ inputs.quantity < inputs.minQuantity ∨
      exceeds inputs.quantity inputs.maxQuantity, "QUANTITY_OUT_OF_RANGE"),
    (inputs.notional ≤ 0 ∨ inputs.notional < inputs.minNotional ∨
      exceeds inputs.notional inputs.maxNotional, "NOTIONAL_OUT_OF_RANGE"),
    (exceeds inputs.notional inputs.availableFunds, "INSUFFICIENT_AVAILABLE_BALANCE"),
    (exceeds (inputs.notional + inputs.dailyNotional) inputs.dailyNotionalLimit,
      "DAILY_NOTIONAL_LIMIT"),
    (exceeds inputs.dailyLoss inputs.dailyLossLimit, "DAILY_LOSS_LIMIT"),
    (exceeds (inputs.projectedPosition.getD inputs.quantity) inputs.positionLimit, "POSITION_LIMIT"),
    (outsideBand inputs, "PRICE_BAND_EXCEEDED")] : List (Bool × String)).filterMap
      fun p => if p.1 then some p.2 else none

def RiskInputs.evaluateOrder (inputs : RiskInputs) : RiskResult :=
  let reasons := inputs.reasons
  let review := if inputs.manualReviewRequired then ["MANUAL_REVIEW"] else []
  if reasons ≠ [] then { decision := .deny, reasonCodes := reasons }
  else if review ≠ [] then { decision := .review, reasonCodes := review }
  else { decision := .allow, reasonCodes := [] }

def controlState (controls : List TradingControl) (instrumentId : String) : ControlState :=
  let relevant := controls.filter fun c =>
    (c.scope = .platform ∨ c.scope = .instrument) ∧ (c.scopeRef = "*" ∨ c.scopeRef = instrumentId)
  ((relevant.insertionSort fun a b => b.createdAt ≤ a.createdAt).head?.map (·.state)).getD .active

structure SurveillanceDecision where
  decision : RiskVerdict
  reasonCodes : List String
  findings : List Finding

namespace SurveillanceTables

def rule (s : SurveillanceTables) (eventType : String) (now : Timestamp) : Option SurveillanceRule :=
  let active := s.rules.filter fun r => r.eventType = eventType ∧ r.enabled ∧ r.effectiveFrom ≤ now ∧
    r.effectiveTo.all (now < ·)
  (active.insertionSort fun a b => b.version ≤ a.version).head?

def activeRestrictions (s : SurveillanceTables) (tenantRef accountRef instrumentId : String)
    (side : OrderSide) (now : Timestamp) : List TradingRestriction :=
  s.restrictions.filter fun r =>
    r.tenantRef = tenantRef ∧ r.active ∧ r.effectiveFrom ≤ now ∧ r.effectiveTo.all (now < ·) ∧
    (r.scopeType = .tenant ∧ r.scopeRef = tenantRef ∨ r.scopeType = .account ∧ r.scopeRef = accountRef ∨
      r.scopeType = .instrument ∧ r.scopeRef = instrumentId) ∧
    r.restrictionType ≠ (match side with
      | .buy => .blockSells
      | .sell => .blockBuys)

end SurveillanceTables

def SurveillanceRule.finding (rule : SurveillanceRule) (score : ℚ) : Finding where
  eventType := rule.eventType
  severity := rule.severity
  score := score
  ruleVersion := rule.version
  policyVersion := rule.policyVersion

def orderCrosses (incoming : OrderPayload) (resting : TradingOrder) : Bool :=
  if incoming.orderType = .market ∨ resting.orderType = .market then true
  else
    let incomingPrice := incoming.limitPrice.getD incoming.price
    match resting.limitPrice with
    | none => true
    | some restingPrice =>
      match incoming.side with
      | .buy => restingPrice ≤ incomingPrice
      | .sell => incomingPrice ≤ restingPrice

def selfTradeStates : List OrderState := [.pending, .accepted, .opened, .partiallyFilled]

def restingCross (t : TradingTables) (tenantRef accountRef : String) (payload : OrderPayload) :
    Option TradingOrder :=
  t.orders.values.find? fun order =>
    order.tenantRef = tenantRef && order.accountRef = accountRef &&
      order.instrumentId = payload.instrumentId && order.side = payload.side.opposite &&
      order.state ∈ selfTradeStates && order.simulation && orderCrosses payload order

def deviationOf (payload : OrderPayload) (limit : ℚ) : ℚ := |limit - payload.price| / payload.price

def priceFinding (s : SurveillanceTables) (payload : OrderPayload) (stale : Bool) (now : Timestamp) :
    Option Finding := do
  let rule ← s.rule "PRICE_DEVIATION_ORDER" now
  let limit ← payload.limitPrice
  if ¬stale ∧ rule.deviationRatio ≤ deviationOf payload limit then
    some (rule.finding (min (deviationOf payload limit) 1))
  else none

def surveilOrder (env : Env) (s : SurveillanceTables) (t : TradingTables) (tenantRef accountRef : String)
    (payload : OrderPayload) : SurveillanceDecision :=
  let found (eventType : String) := ((s.rule eventType env.now).map (·.finding 1)).toList
  let restrictions := s.activeRestrictions tenantRef accountRef payload.instrumentId payload.side env.now
  if ¬env.settings.surveillanceEnabled then
    { decision := .deny, reasonCodes := ["SURVEILLANCE_TEMPORARILY_UNAVAILABLE"], findings := [] }
  else if restrictions ≠ [] then
    let reviewOnly := restrictions.all (·.restrictionType = .reviewRequired)
    { decision := if reviewOnly then .review else .deny
      reasonCodes := [if reviewOnly then "ACCOUNT_REVIEW_REQUIRED" else "TRADING_NOT_AVAILABLE"]
      findings := found "RESTRICTED_INSTRUMENT_ATTEMPT" }
  else if env.settings.selfTradePreventionEnabled ∧ (restingCross t tenantRef accountRef payload).isSome then
    { decision := .deny, reasonCodes := ["ORDER_REJECTED"], findings := found "SELF_TRADE_ATTEMPT" }
  else
    match priceFinding s payload env.settings.simulatedMarketDataStale env.now with
    | some finding =>
      { decision := .review, reasonCodes := ["ACCOUNT_REVIEW_REQUIRED"], findings := [finding] }
    | none => { decision := .allow, reasonCodes := [], findings := [] }

def openCase (env : Env) (tenantRef accountRef : String) (finding : Finding) (db : Database) : Database :=
  if finding.severity ∉ ["HIGH", "CRITICAL"] then db
  else if db.surveillance.cases.any fun c =>
      c.tenantRef = tenantRef ∧ c.accountRef = accountRef ∧ c.caseType = finding.eventType ∧ c.active
    then db
  else
    let case : SurveillanceCase :=
      { tenantRef, accountRef, caseType := finding.eventType, severity := finding.severity
        active := true }
    let db := { db with surveillance.cases := db.surveillance.cases ++ [case] }
    db.enqueueEvent env "surveillance_case" finding.eventType
      "regulatory.surveillance.case.opened.v1"
      [("case_type", .str finding.eventType), ("severity", .str finding.severity),
        ("account_ref", .str accountRef)] tenantRef

def persistFinding (env : Env) (tenantRef accountRef instrumentId : String) (db : Database)
    (finding : Finding) : Database :=
  let event : SurveillanceEvent :=
    { tenantRef, accountRef, instrumentId, finding, detectedAt := env.now }
  let db := { db with surveillance.events := db.surveillance.events ++ [event] }
  let db := db.enqueueEvent env "surveillance_event" finding.eventType
    "regulatory.surveillance.alert.created.v1"
    [("event_type", .str finding.eventType), ("severity", .str finding.severity),
      ("account_ref", .str accountRef), ("instrument_id", .str instrumentId)] tenantRef
  openCase env tenantRef accountRef finding db

def persistFindings (env : Env) (tenantRef accountRef instrumentId : String) (findings : List Finding)
    (db : Database) : Database :=
  findings.foldl (persistFinding env tenantRef accountRef instrumentId) db

section Frames

variable (env : Env) (tenantRef accountRef instrumentId : String) (findings : List Finding) (db : Database)

theorem persistFindings_frame :
    let db' := persistFindings env tenantRef accountRef instrumentId findings db
    db'.trading = db.trading ∧ db'.compliance = db.compliance ∧ db'.postTrade = db.postTrade ∧
      db'.valuation = db.valuation ∧ db'.foundation.processedEvents = db.foundation.processedEvents ∧
      db'.foundation.idempotency = db.foundation.idempotency := by
  unfold persistFindings
  induction findings generalizing db with
  | nil => exact ⟨rfl, rfl, rfl, rfl, rfl, rfl⟩
  | cons finding findings ih =>
    have hone : ∀ d : Database, (openCase env tenantRef accountRef finding d).trading = d.trading ∧
        (openCase env tenantRef accountRef finding d).compliance = d.compliance ∧
        (openCase env tenantRef accountRef finding d).postTrade = d.postTrade ∧
        (openCase env tenantRef accountRef finding d).valuation = d.valuation ∧
        (openCase env tenantRef accountRef finding d).foundation.processedEvents =
          d.foundation.processedEvents ∧
        (openCase env tenantRef accountRef finding d).foundation.idempotency =
          d.foundation.idempotency := by
      intro d
      unfold openCase
      split
      · exact ⟨rfl, rfl, rfl, rfl, rfl, rfl⟩
      · split <;> exact ⟨rfl, rfl, rfl, rfl, rfl, rfl⟩
    obtain ⟨h₁, h₂, h₃, h₄, h₅, h₆⟩ := ih (persistFinding env tenantRef accountRef instrumentId db finding)
    obtain ⟨g₁, g₂, g₃, g₄, g₅, g₆⟩ := hone _
    exact ⟨h₁.trans g₁, h₂.trans g₂, h₃.trans g₃, h₄.trans g₄, h₅.trans g₅, h₆.trans g₆⟩

end Frames

end Beyvra
