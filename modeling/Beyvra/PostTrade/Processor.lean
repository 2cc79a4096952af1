import Beyvra.Foundation.Services
import Beyvra.Trading.Financial
import Beyvra.Valuation.Lots

namespace Beyvra

open Relational

structure Books where
  postTrade : PostTradeTables
  valuation : ValuationTables
  outbox : List OutboxEvent

def Database.books (db : Database) : Books := ⟨db.postTrade, db.valuation, db.foundation.outbox⟩

def Database.withBooks (db : Database) (b : Books) : Database :=
  { db with postTrade := b.postTrade, valuation := b.valuation, foundation.outbox := b.outbox }

def TradeState.value : TradeState → String
  | .captured => "CAPTURED"
  | .validating => "VALIDATING"
  | .validated => "VALIDATED"
  | .allocationPending => "ALLOCATION_PENDING"
  | .allocated => "ALLOCATED"
  | .settlementPending => "SETTLEMENT_PENDING"
  | .settlementInstructed => "SETTLEMENT_INSTRUCTED"
  | .settlementProcessing => "SETTLEMENT_PROCESSING"
  | .settled => "SETTLED"
  | .exception => "EXCEPTION"
  | .failed => "FAILED"
  | .reversed => "REVERSED"
  | .cancelled => "CANCELLED"

def postTradeTransitions : TradeState → List TradeState
  | .captured => [.validating, .exception, .cancelled]
  | .validating => [.validated, .exception, .failed]
  | .validated => [.allocationPending, .allocated, .exception]
  | .allocationPending => [.allocated, .exception]
  | .allocated => [.settlementPending, .exception]
  | .settlementPending => [.settlementInstructed, .exception, .cancelled]
  | .settlementInstructed => [.settlementProcessing, .settled, .exception, .cancelled]
  | .settlementProcessing => [.settled, .exception, .failed]
  | .exception => [.validating, .failed, .reversed, .cancelled]
  | .settled => [.reversed]
  | _ => []

namespace Books

def tradeRow (b : Books) (executionId : String) : Outcome Trade :=
  fetch b.postTrade.trades executionId (.doesNotExist "Trade")

def saveTrade (b : Books) (trade : Trade) : Books :=
  { b with postTrade.trades := b.postTrade.trades.put trade.executionId trade }

def audit (b : Books) (env : Env) (tenantRef action resourceType resourceRef : String)
    (actorRef : String := "system") : Books :=
  { b with postTrade.audits := b.postTrade.audits ++
      [{ tenantRef, actorRef, action, resourceType, resourceRef, occurredAt := env.now }] }

def publish (b : Books) (env : Env) (trade : Trade) (eventType : String) (payload : Payload) : Books :=
  { b with outbox := b.outbox ++
      [{ aggregateType := "post_trade", aggregateId := trade.executionId, eventType
         payload := [("trade_id", .str trade.executionId), ("account_ref", .str trade.accountRef),
           ("simulation", .flag true)] ++ payload
         tenantRef := trade.tenantRef, correlationId := env.uuid4 eventType, occurredAt := env.now }] }

end Books

namespace Trade

def moved (trade : Trade) (target : TradeState) : Trade :=
  { trade with tradeState := target, version := trade.version + 1 }

def withAllocations (trade : Trade) (allocations : List TradeAllocation) : Trade :=
  { trade with allocations }

def withObligations (trade : Trade) (obligations : List SettlementObligation) : Trade :=
  { trade with obligations }

def withEffects (trade : Trade) (positionEffects : List TradePositionEffect) : Trade :=
  { trade with positionEffects }

def withInstruction (trade : Trade) (settlementInstruction : Option SettlementInstruction) : Trade :=
  { trade with settlementInstruction }

def withConfirmations (trade : Trade) (confirmations : List TradeConfirmation) : Trade :=
  { trade with confirmations }

end Trade

section Calendar

def SettlementConvention.days : SettlementConvention → Option Nat
  | .instant => some 0
  | .tPlus0 => some 0
  | .blockchainFinality => some 0
  | .tPlus1 => some 1
  | .tPlus2 => some 2
  | .custom => none

-- The first day of the epoch is a Thursday.
def weekday (date : Date) : Int := (date + 3) % 7

def settlementLoop (holidays : List Date) : Nat → Nat → Date → Outcome Date
  | _, 0, result => pure result
  | 0, _ + 1, _ => .error .invalidOperation
  | fuel + 1, days + 1, result =>
    if weekday (result + 1) < 5 ∧ result + 1 ∉ holidays then
      settlementLoop holidays fuel days (result + 1)
    else settlementLoop holidays fuel (days + 1) (result + 1)

def settlementPolicy (calendars : List SettlementCalendar) (tradeDate : Date) (assetClass : String) :
    Option SettlementCalendar :=
  ((calendars.filter fun c => c.assetClass = assetClass ∧ c.effectiveFrom ≤ tradeDate ∧
    c.effectiveTo.all (tradeDate ≤ ·)).insertionSort fun a c => c.effectiveFrom ≤ a.effectiveFrom).head?

-- Five of any seven days are weekdays, which bounds the days the loop can pass over.
def calculateSettlementDate (calendars : List SettlementCalendar) (tradeDate : Date)
    (assetClass : String := "CRYPTO") : Outcome Date := do
  let policy ← demand (settlementPolicy calendars tradeDate assetClass)
    (.valueError "SETTLEMENT_CALENDAR_UNAVAILABLE")
  let days ← demand policy.settlementConvention.days (.valueError "CUSTOM_SETTLEMENT_POLICY_REQUIRED")
  settlementLoop policy.holidays (7 * (days + policy.holidays.length)) days tradeDate

def seededCalendars : List SettlementCalendar :=
  [{ code := "SIM-CRYPTO-INSTANT", assetClass := "CRYPTO", settlementConvention := .instant
     holidays := [], effectiveFrom := calendarSeedDate, effectiveTo := none }]

theorem calculateSettlementDate_seeded {date : Date} (h : calendarSeedDate ≤ date) :
    calculateSettlementDate seededCalendars date = .ok date := by
  have hpolicy : settlementPolicy seededCalendars date "CRYPTO" = seededCalendars.head? := by
    simp [settlementPolicy, seededCalendars, h]
  unfold calculateSettlementDate
  rw [hpolicy]
  rfl

end Calendar

def tradeOf (order : TradingOrder) (executionId : String) (quantity price fee : ℚ)
    (executedAt : Timestamp) (settlementDate : Date) : Trade where
  executionId := executionId
  tenantRef := order.tenantRef
  accountRef := order.accountRef
  orderId := order.id
  instrumentId := order.instrumentId
  side := order.side
  quantity := quantity
  price := price
  grossNotional := quantity * price
  tradeCurrency := "USD"
  tradeTime := executedAt
  settlementDate := settlementDate
  sourceEventId := uuid5 ("post-trade:" ++ executionId)
  feeSnapshot := some
    { totalFee := fee, commission := fee, currency := "USD"
      pricingPolicyVersion := "simulation-fee-v1" }

def captureFill (env : Env) (order : TradingOrder) (executionId : String) (quantity price fee : ℚ)
    (executedAt : Timestamp) (b : Books) : Outcome ((Trade × Bool) × Books) := do
  require (0 < quantity ∧ 0 < price) (.valueError "INVALID_FILL")
  require (order.tenantRef = "default" ∧ order.simulation) (.valueError "TRADE_SCOPE_INVALID")
  let settlementDate ← calculateSettlementDate b.postTrade.calendars (Timestamp.date executedAt)
  match b.postTrade.trades.find executionId with
  | some trade => pure ((trade, false), b)
  | none =>
    let trade := tradeOf order executionId quantity price fee executedAt settlementDate
    let b := (b.saveTrade trade).audit env trade.tenantRef "trade.captured" "trade" executionId
    let b := b.publish env trade "trading.trade.captured.v1"
      [("state", .str trade.tradeState.value), ("instrument_id", .str trade.instrumentId),
        ("quantity", .dec quantity)]
    pure ((trade, true), b)

def transitionTrade (env : Env) (executionId : String) (target : TradeState) (b : Books) :
    Outcome (Trade × Books) := do
  let trade ← b.tradeRow executionId
  require (target ∈ postTradeTransitions trade.tradeState) (.valueError "INVALID_POST_TRADE_TRANSITION")
  let trade := trade.moved target
  let b := (b.saveTrade trade).audit env trade.tenantRef "post_trade.state.changed" "trade" executionId
  let eventType := if target = .validated then "trading.trade.validated.v1"
    else "post_trade.settlement.updated.v1"
  pure (trade, b.publish env trade eventType
    [("state", .str target.value), ("version", .dec trade.version)])

structure AllocationRow where
  accountRef : String
  subaccountRef : String := ""
  strategyRef : String := ""
  quantity : ℚ
  method : AllocationMethod := .directAccount
  deriving DecidableEq

def AllocationRow.allocationOf (row : AllocationRow) (trade : Trade) : TradeAllocation where
  accountRef := row.accountRef
  subaccountRef := row.subaccountRef
  strategyRef := row.strategyRef
  allocationQuantity := row.quantity
  allocationNotional := row.quantity * trade.price
  allocationMethod := row.method

def addAllocation (trade : Trade) (rows : List TradeAllocation) (row : AllocationRow) :
    Outcome (List TradeAllocation) := do
  require (row.accountRef = trade.accountRef) (.valueError "CROSS_TENANT_ALLOCATION")
  if rows.any fun a => a.accountRef = row.accountRef ∧ a.subaccountRef = row.subaccountRef ∧
      a.strategyRef = row.strategyRef then pure rows
  else pure (rows ++ [row.allocationOf trade])

def directAccount (trade : Trade) : AllocationRow where
  accountRef := trade.accountRef
  quantity := trade.quantity

def requestedRows (trade : Trade) (requested : List AllocationRow) : List AllocationRow :=
  if requested = [] then [directAccount trade] else requested

def Books.saveAllocations (env : Env) (trade row : Trade) (count : Nat) (rows : List TradeAllocation) (b : Books) :
    Books :=
  let b := (b.saveTrade (row.withAllocations rows)).audit env trade.tenantRef "trade.allocated" "trade"
    trade.executionId
  b.publish env trade "trading.trade.allocated.v1" [("allocation_count", .dec count)]

def allocate (env : Env) (trade : Trade) (requested : List AllocationRow) (b : Books) : Outcome Books := do
  let allocations := requestedRows trade requested
  require ((allocations.map (·.quantity)).sum = trade.quantity)
    (.valueError "ALLOCATION_QUANTITY_MISMATCH")
  let row ← b.tradeRow trade.executionId
  let rows ← allocations.foldlM (addAllocation trade) row.allocations
  require ((rows.map (·.allocationQuantity)).sum = trade.quantity)
    (.valueError "ALLOCATION_QUANTITY_MISMATCH")
  pure (b.saveAllocations env trade row allocations.length rows)

def obligationsOf (trade : Trade) (fee : ℚ) : List SettlementObligation :=
  let (cashType, assetType) : ObligationType × ObligationType := match trade.side with
    | .buy => (.cashDebit, .assetReceipt)
    | .sell => (.cashCredit, .assetDelivery)
  let (cashDirection, assetDirection) : Direction × Direction := match trade.side with
    | .buy => (.debit, .credit)
    | .sell => (.credit, .debit)
  [{ obligationType := cashType, asset := trade.tradeCurrency, quantity := 0
     currency := trade.tradeCurrency, amount := trade.grossNotional, direction := cashDirection
     dueDate := trade.settlementDate },
   { obligationType := assetType, asset := baseAsset trade.instrumentId, quantity := trade.quantity
     currency := trade.tradeCurrency, amount := 0, direction := assetDirection
     dueDate := trade.settlementDate },
   { obligationType := .feeDebit, asset := trade.tradeCurrency, quantity := 0
     currency := trade.tradeCurrency, amount := fee, direction := .debit
     dueDate := trade.settlementDate }]

def addObligation (rows : List SettlementObligation) (row : SettlementObligation) :
    List SettlementObligation :=
  if rows.any (·.obligationType = row.obligationType) then rows else rows ++ [row]

def calculateObligations (env : Env) (trade : Trade) (b : Books) : Outcome Books := do
  let fee ← feeOf trade
  let row ← b.tradeRow trade.executionId
  let rows := (obligationsOf trade fee).foldl addObligation row.obligations
  require (rows.length = 3 ∧ ∀ o ∈ rows, 0 ≤ o.amount ∧ 0 ≤ o.quantity)
    (.valueError "SETTLEMENT_OBLIGATION_INVALID")
  pure ((b.saveTrade (row.withObligations rows)).audit env trade.tenantRef
    "settlement.obligations.created" "trade" trade.executionId)

def positionEffectOf (env : Env) (trade : Trade) : TradePositionEffect where
  quantityDelta := match trade.side with
    | .buy => trade.quantity
    | .sell => -trade.quantity
  costBasisDelta := match trade.side with
    | .buy => trade.grossNotional
    | .sell => -trade.grossNotional
  appliedAt := env.now

def createPositionEffect (env : Env) (trade : Trade) (b : Books) : Outcome Books := do
  let row ← b.tradeRow trade.executionId
  let effect := positionEffectOf env trade
  require (∀ e ∈ row.positionEffects, e.effectType ≠ effect.effectType)
    (.integrityError "post_trade_position_effect_unique")
  pure (b.saveTrade (row.withEffects (row.positionEffects ++ [effect])))

def obligation (rows : List SettlementObligation) (kind : ObligationType) : Outcome SettlementObligation :=
  demand (rows.find? (·.obligationType = kind)) (.doesNotExist "SettlementObligation")

def instructionOf (trade : Trade) (rows : List SettlementObligation) : Outcome SettlementInstruction := do
  let cash ← obligation rows (match trade.side with
    | .buy => .cashDebit
    | .sell => .cashCredit)
  let asset ← obligation rows (match trade.side with
    | .buy => .assetReceipt
    | .sell => .assetDelivery)
  let fee ← obligation rows .feeDebit
  let (deliverAsset, deliverQuantity) := match trade.side with
    | .buy => (cash.asset, cash.amount + fee.amount)
    | .sell => (asset.asset, asset.quantity)
  let (receiveAsset, receiveQuantity) := match trade.side with
    | .buy => (asset.asset, asset.quantity)
    | .sell => (cash.asset, cash.amount - fee.amount)
  pure { settlementDate := trade.settlementDate, deliverAsset, deliverQuantity, receiveAsset
         receiveQuantity, currency := trade.tradeCurrency, cashAmount := trade.grossNotional
         feeAmount := fee.amount }

def validateInstruction (instruction : SettlementInstruction) : Outcome Unit :=
  require (instruction.simulation ∧ 0 ≤ instruction.deliverQuantity ∧ 0 ≤ instruction.receiveQuantity)
    (.valueError "SETTLEMENT_INSTRUCTION_INVALID")

def createFromTrade (env : Env) (trade : Trade) (b : Books) : Outcome Books := do
  let row ← b.tradeRow trade.executionId
  let created ← instructionOf trade row.obligations
  match row.settlementInstruction with
  | some instruction => do
    validateInstruction instruction
    pure b
  | none => do
    let b := (b.saveTrade (row.withInstruction (some created))).audit env trade.tenantRef
      "settlement.instruction.created" "settlement_instruction" trade.executionId
    let b := b.publish env trade "post_trade.settlement.pending.v1"
      [("settlement_id", .str trade.executionId), ("state", .str created.state.value)]
    validateInstruction created
    pure b

def confirmationOf (trade : Trade) (fee : ℚ) : TradeConfirmation where
  version := 1
  tradeDate := Timestamp.date trade.tradeTime
  settlementDate := trade.settlementDate
  side := trade.side
  quantity := trade.quantity
  price := trade.price
  grossNotional := trade.grossNotional
  fees := fee
  netAmount := match trade.side with
    | .buy => trade.grossNotional + fee
    | .sell => trade.grossNotional - fee
  currency := trade.tradeCurrency

def generateConfirmation (env : Env) (trade : Trade) (b : Books) : Outcome Books := do
  let fee ← feeOf trade
  let row ← b.tradeRow trade.executionId
  if row.confirmations.any (·.version = 1) then pure b
  else
    let b := (b.saveTrade
      (row.withConfirmations (row.confirmations ++ [confirmationOf trade fee]))).audit env
      trade.tenantRef "trade.confirmation.generated" "trade_confirmation" trade.executionId
    pure (b.publish env trade "post_trade.confirmation.generated.v1"
      [("confirmation_id", .str trade.executionId), ("version", .dec 1)])

def settleInstruction (trade : Trade) (b : Books) : Outcome Books := do
  let row ← b.tradeRow trade.executionId
  pure (b.saveTrade
    (row.withInstruction (row.settlementInstruction.map ({ · with state := .settled }))))

def settleCaptured (env : Env) (captured : Trade) (b : Books) : Outcome (Trade × Books) := do
  let (_, b) ← transitionTrade env captured.executionId .validating b
  let (trade, b) ← transitionTrade env captured.executionId .validated b
  let b ← allocate env trade [] b
  let (trade, b) ← transitionTrade env trade.executionId .allocated b
  let b ← calculateObligations env trade b
  let b ← createPositionEffect env trade b
  let (trade, b) ← transitionTrade env trade.executionId .settlementPending b
  let b ← createFromTrade env trade b
  let (trade, b) ← transitionTrade env trade.executionId .settlementInstructed b
  let b ← generateConfirmation env trade b
  let (trade, b) ← transitionTrade env trade.executionId .settlementProcessing b
  let (trade, b) ← transitionTrade env trade.executionId .settled b
  let b ← settleInstruction trade b
  pure (trade, b)

def processSimulatedFill (env : Env) (order : TradingOrder) (executionId : String)
    (quantity price fee : ℚ) (executedAt : Timestamp) (b : Books) : Outcome Books := do
  let ((captured, created), b) ← captureFill env order executionId quantity price fee executedAt b
  if created then do
    let (trade, b) ← settleCaptured env captured b
    let valuation ← processTradeAccounting env trade b.valuation
    pure { b with valuation }
  else pure b

end Beyvra
