import Beyvra.PostTrade.FillAccounting
import Beyvra.Trading.Simulation

namespace Beyvra

open Relational

namespace TradingTables

def core (t : TradingTables) : TradingTables := { t with riskDecisions := [], qualityReports := [] }

def update (t : TradingTables) (id : Uuid) (o : TradingOrder) (r : SimulatedReservation) : TradingTables :=
  { t with orders := t.orders.put id o, reservations := t.reservations.put id r }

def heldFor (orders : Table Uuid TradingOrder) (p : TradingOrder → Bool) (id : Uuid)
    (r : SimulatedReservation) : ℚ :=
  if (orders.find id).any p then r.remainingAmount else 0

def held (t : TradingTables) (p : TradingOrder → Bool) : ℚ := t.reservations.sum (heldFor t.orders p)

def tradedQuantity (t : TradingTables) (id : Uuid) : ℚ :=
  t.trades.sum fun _ trade => if trade.orderId = id then trade.quantity else 0

def tradedNotional (t : TradingTables) (id : Uuid) : ℚ :=
  t.trades.sum fun _ trade => if trade.orderId = id then trade.quantity * trade.price else 0

end TradingTables

def buysOf (accountRef : String) (o : TradingOrder) : Bool :=
  o.side = .buy && o.accountRef = accountRef

def sellsOf (accountRef instrumentId : String) (o : TradingOrder) : Bool :=
  o.side = .sell && o.accountRef = accountRef && o.instrumentId = instrumentId

-- The state the money depends on: what the reports and the outbox record of it is left out.
structure Ledger where
  trading : TradingTables
  booked : Table String Trade
  audits : List PostTradeAudit
  calendars : List SettlementCalendar
  valuation : ValuationTables
  processed : Table (Uuid × String) ProcessedEvent

def Database.ledger (db : Database) : Ledger where
  trading := db.trading.core
  booked := db.postTrade.trades
  audits := db.postTrade.audits
  calendars := db.postTrade.calendars
  valuation := db.valuation
  processed := db.foundation.processedEvents

namespace Ledger

def withTrading (l : Ledger) (trading : TradingTables) : Ledger := { l with trading }

def withProcessed (l : Ledger) (key : Uuid × String) (event : ProcessedEvent) : Ledger :=
  { l with processed := l.processed.put key event }

def Unprocessed (l : Ledger) (executionId : String) : Prop :=
  l.processed.find (uuid5 executionId, executionConsumer) = none

end Ledger

structure Backed (id : Uuid) (o : TradingOrder) (r : SimulatedReservation) : Prop where
  keyed : o.id = id
  tenant : o.tenantRef = defaultTenant
  simulation : o.simulation = true
  reservation : o.reservationId = some id
  account : r.account = o.accountRef
  quantity : 0 < o.quantity
  filled : 0 ≤ o.filledQuantity ∧ o.filledQuantity ≤ o.quantity
  complete : o.state = .filled ↔ o.filledQuantity = o.quantity
  original : 0 < r.originalAmount
  remaining : 0 ≤ r.remainingAmount
  active : r.state = .active ↔ 0 < r.remainingAmount
  untouched : o.state ∈ [.pending, .accepted, .opened] →
    o.filledQuantity = 0 ∧ r.remainingAmount = r.originalAmount
  partly : o.state = .partiallyFilled → 0 < o.filledQuantity
  settling : o.state ≠ .cancelPending
  selling : o.side = .sell → o.state ∉ [.cancelled, .rejected, .expired] →
    r.remainingAmount = o.quantity - o.filledQuantity

structure Matches (i : TradingAccount) (a : SimulatedAccount) : Prop where
  tenant : i.tenantRef = a.tenantRef
  subject : i.subjectRef = a.subjectRef
  account : i.accountRef = a.accountRef
  currency : i.baseCurrency = a.quoteCurrency
  paper : i.executionMode = .paper

def assetOf (o : TradingOrder) (a : SimulatedAccount) : String :=
  match o.side with
  | .buy => a.quoteCurrency
  | .sell => baseAsset o.instrumentId

structure Solvent (t : TradingTables) (accountRef : String) (a : SimulatedAccount) : Prop where
  keyed : a.accountRef = accountRef
  tenant : a.tenantRef = defaultTenant
  subject : accountRef = accountRefOf a.subjectRef
  pending : a.pendingBalance = 0
  covered : t.held (buysOf accountRef) ≤ a.totalBalance

structure Traded (t : TradingTables) (id : Uuid) (o : TradingOrder) : Prop where
  quantity : t.tradedQuantity id = o.filledQuantity
  notional : t.tradedNotional id = o.filledQuantity * o.averageFillPrice.getD 0
  average : 0 < o.filledQuantity → 0 < o.averageFillPrice.getD 0

def Quoted (d : RoutingDecision) (o : TradingOrder) (r : SimulatedReservation) : Prop :=
  0 < d.referencePrice ∧
    (o.side = .buy → r.originalAmount = o.quantity * d.referencePrice * (1 + feeRate))

structure Inv (l : Ledger) : Prop where
  backed : ∀ id o, l.trading.orders.find id = some o →
    ∃ r, l.trading.reservations.find id = some r ∧ Backed id o r
  owned : ∀ id r, l.trading.reservations.find id = some r → ∃ o, l.trading.orders.find id = some o
  funded : ∀ id o r, l.trading.orders.find id = some o → l.trading.reservations.find id = some r →
    ∃ a, l.trading.accounts.find o.accountRef = some a ∧ r.asset = assetOf o a
  solvent : ∀ ref a, l.trading.accounts.find ref = some a → Solvent l.trading ref a
  identified : ∀ ref i, l.trading.identities.find ref = some i →
    ∃ a, l.trading.accounts.find ref = some a ∧ Matches i a
  covered : ∀ ref instrument, l.trading.held (sellsOf ref instrument) ≤
    (l.trading.positionAt ref instrument).quantity
  lots : ∀ ref instrument, (l.trading.positionAt ref instrument).quantity =
    l.valuation.held ⟨defaultTenant, ref, instrument⟩
  kept : LotsKept l.valuation.lots
  traded : ∀ id o, l.trading.orders.find id = some o → Traded l.trading id o
  attributed : ∀ key trade, l.trading.trades.find key = some trade →
    ∃ o, l.trading.orders.find trade.orderId = some o
  quoted : ∀ id o r, l.trading.orders.find id = some o → l.trading.reservations.find id = some r →
    ∃ d, l.trading.routingDecisions.find id = some d ∧ Quoted d o r
  fresh : ∀ executionId, l.Unprocessed executionId →
    l.trading.trades.find executionId = none ∧ l.booked.find executionId = none ∧
      l.valuation.Unbooked executionId
  calendars : l.calendars = seededCalendars

inductive OrderMove (o : TradingOrder) (r : SimulatedReservation) :
    TradingOrder → SimulatedReservation → Prop
  | accept (now : Timestamp) (h : o.state = .pending) :
    OrderMove o r { o with state := .accepted, updatedAt := now } r
  | opened (now : Timestamp) (h : o.state = .accepted) :
    OrderMove o r { o with state := .opened, updatedAt := now } r
  | reject (now : Timestamp) (h : o.state = .pending) :
    OrderMove o r { o with state := .rejected, updatedAt := now } r.release
  | expire (now : Timestamp) (h : workingState o.state = .opened) :
    OrderMove o r { o with state := .expired, updatedAt := now } r.release
  | cancel (now : Timestamp) (h : o.state ∈ cancellable) :
    OrderMove o r { o with state := .cancelled, updatedAt := now } r.release

def fillTarget (o : TradingOrder) (e : SimulatedExecution) : OrderState :=
  if o.filledQuantity + e.quantity = o.quantity then .filled else .partiallyFilled

structure AcceptsFill (o : TradingOrder) (r : SimulatedReservation) (e : SimulatedExecution) : Prop where
  quantity : 0 < e.quantity
  price : 0 < e.price
  fits : o.filledQuantity + e.quantity ≤ o.quantity
  transition : fillTarget o e ∈ transitions (workingState o.state)
  funded : (settlementOf o e).spent ≤ r.remainingAmount

def Accepts (o : TradingOrder) (r : SimulatedReservation) (e : SimulatedExecution) : Prop :=
  match e.outcome with
  | .reject => o.state = .pending
  | .expire => workingState o.state = .opened
  | .fill => AcceptsFill o r e

def filledOrder (o : TradingOrder) (e : SimulatedExecution) (now : Timestamp) : TradingOrder :=
  { o.fillWith e (fillTarget o e) with updatedAt := now }

def settledTables (t : TradingTables) (o : TradingOrder) (r : SimulatedReservation) (a : SimulatedAccount)
    (e : SimulatedExecution) (now : Timestamp) : TradingTables :=
  let s := settlementOf o e
  { t.update o.id (filledOrder o e now) (s.draw r) with
    accounts := t.accounts.put o.accountRef { a with totalBalance := s.balanceAfter a.totalBalance }
    positions := t.positions.put (o.accountRef, o.instrumentId)
      (s.applyTo (t.positionAt o.accountRef o.instrumentId))
    trades := t.trades.put e.executionId
      { orderId := o.id, instrumentId := o.instrumentId, side := o.side, quantity := e.quantity
        price := e.price, fee := s.fee, executedAt := now } }

structure BooksMoved (l l' : Ledger) (o : TradingOrder) (e : SimulatedExecution) : Prop where
  booked : ∀ key, key ≠ e.executionId → l'.booked.find key = l.booked.find key
  calendars : l'.calendars = l.calendars
  audits : l.audits <+: l'.audits
  audited : Audited l'.audits o.tenantRef e.executionId
  kept : LotsKept l'.valuation.lots
  held : ∀ h, l'.valuation.held h = l.valuation.held h +
    if (⟨o.tenantRef, o.accountRef, o.instrumentId⟩ : Holding) = h then o.side.signed e.quantity else 0
  unbooked : ∀ key, key ≠ e.executionId → l.valuation.Unbooked key → l'.valuation.Unbooked key
  posted : Posted o e.executionId e.quantity l.booked l'.booked l.valuation l'.valuation
  recorded : ∃ row, TradeRecorded o e.executionId e.quantity e.price (settlementOf o e).fee row ∧
    l'.booked = l.booked.put e.executionId row

structure Placement (t : TradingTables) (o : TradingOrder) (r : SimulatedReservation)
    (a : SimulatedAccount) (d : RoutingDecision) : Prop where
  free : t.orders.find o.id = none
  unreserved : t.reservations.find o.id = none
  account : t.accounts.find o.accountRef = some a
  tenant : o.tenantRef = defaultTenant
  simulation : o.simulation = true
  reservation : o.reservationId = some o.id
  state : o.state = .pending
  unfilled : o.filledQuantity = 0
  unpriced : o.averageFillPrice = none
  quantity : 0 < o.quantity
  price : 0 < d.referencePrice
  holder : r.account = o.accountRef
  asset : r.asset = assetOf o a
  active : r.state = .active
  full : r.remainingAmount = r.originalAmount
  buying : o.side = .buy → r.originalAmount = o.quantity * d.referencePrice * (1 + feeRate) ∧
    r.originalAmount ≤ t.availableQuote a
  selling : o.side = .sell → r.originalAmount = o.quantity ∧
    o.quantity ≤ (t.positionAt o.accountRef o.instrumentId).quantity -
      t.activeReserved o.accountRef (baseAsset o.instrumentId)

structure NewAccount (t : TradingTables) (accountRef : String) (a : SimulatedAccount) : Prop where
  free : t.accounts.find accountRef = none
  keyed : a.accountRef = accountRef
  tenant : a.tenantRef = defaultTenant
  subject : accountRef = accountRefOf a.subjectRef
  pending : a.pendingBalance = 0
  total : 0 ≤ a.totalBalance

-- What a run is assumed to do: the instruments it orders, the fills it delivers and the profile
-- changes it commits.
structure Regime where
  instrument : String → Prop
  fill : Ledger → Uuid → SimulatedExecution → Prop
  change : Env → ProfileChange → Prop

def Regime.any : Regime := ⟨fun _ => True, fun _ _ _ => True, fun _ _ => True⟩

inductive Effect (F : Regime) (l : Ledger) : Ledger → Prop
  | enrolled (ref : String) (a : SimulatedAccount) (h : NewAccount l.trading ref a) :
    Effect F l (l.withTrading { l.trading with accounts := l.trading.accounts.put ref a })
  | identified (ref : String) (i : TradingAccount) (a : SimulatedAccount)
    (ha : l.trading.accounts.find ref = some a) (hm : Matches i a) :
    Effect F l (l.withTrading { l.trading with identities := l.trading.identities.put ref i })
  | placed (o : TradingOrder) (r : SimulatedReservation) (a : SimulatedAccount) (d : RoutingDecision)
    (h : Placement l.trading o r a d) (hF : F.instrument o.instrumentId) :
    Effect F l (l.withTrading { l.trading.update o.id o r with
      routingDecisions := l.trading.routingDecisions.put o.id d })
  | moved (id : Uuid) (o o' : TradingOrder) (r r' : SimulatedReservation)
    (ho : l.trading.orders.find id = some o) (hr : l.trading.reservations.find id = some r)
    (h : OrderMove o r o' r') :
    Effect F l (l.withTrading (l.trading.update id o' r'))
  | closed (id : Uuid) (o o' : TradingOrder) (r r' : SimulatedReservation) (e : SimulatedExecution)
    (event : ProcessedEvent) (ho : l.trading.orders.find id = some o)
    (hr : l.trading.reservations.find id = some r) (h : OrderMove o r o' r')
    (hnone : l.Unprocessed e.executionId) :
    Effect F l ((l.withTrading (l.trading.update id o' r')).withProcessed
      (uuid5 e.executionId, executionConsumer) event)
  | filled (id : Uuid) (o : TradingOrder) (r : SimulatedReservation) (a : SimulatedAccount)
    (e : SimulatedExecution) (now : Timestamp) (event : ProcessedEvent) (l' : Ledger)
    (ho : l.trading.orders.find id = some o) (hr : l.trading.reservations.find id = some r)
    (ha : l.trading.accounts.find o.accountRef = some a) (hnone : l.Unprocessed e.executionId)
    (h : AcceptsFill o r e) (hF : F.fill l id e) (hbooks : BooksMoved l l' o e)
    (htrading : l'.trading = settledTables l.trading o r a e now)
    (hprocessed : l'.processed = l.processed.put (uuid5 e.executionId, executionConsumer) event) :
    Effect F l l'
  | invalidated (env : Env) (change : ProfileChange) (hF : F.change env change) :
    Effect F l (l.withTrading (invalidatePendingSimulationOrdersIfDenied env change l.trading))
  | consumed (key : Uuid × String) (event : ProcessedEvent) (h : key.2 ≠ executionConsumer) :
    Effect F l (l.withProcessed key event)

end Beyvra
