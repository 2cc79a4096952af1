import Beyvra.Trading.Invariant

namespace Beyvra

open Relational

namespace Ledger

def saveOrder (l : Ledger) (id : Uuid) (o : TradingOrder) : Ledger :=
  l.withTrading { l.trading with orders := l.trading.orders.put id o }

def saveIdentity (l : Ledger) (ref : String) (i : TradingAccount) : Ledger :=
  l.withTrading { l.trading with identities := l.trading.identities.put ref i }

end Ledger

section Projection

variable (db : Database) (env : Env) (a b c d : String) (payload : Payload) (u : Uuid)
  (correlation : Option Uuid) (o : TradingOrder) (t : TradingTables)

@[simp] theorem ledger_enqueueEvent : (db.enqueueEvent env a b c payload d correlation).ledger = db.ledger := rfl

@[simp] theorem ledger_orderEvent : (db.orderEvent env o a u).ledger = db.ledger := rfl

@[simp] theorem ledger_withTrading : (db.withTrading t).ledger = db.ledger.withTrading t.core := rfl

@[simp] theorem ledger_saveOrder : (db.saveOrder o).ledger = db.ledger.saveOrder o.id o := rfl

@[simp] theorem ledger_withIdempotency (scope : IdempotencyScope) (record : IdempotencyRecord) :
    (db.withIdempotency scope record).ledger = db.ledger := rfl

@[simp] theorem ledger_withProcessed (key : Uuid × String) (event : ProcessedEvent) :
    (db.withProcessed key event).ledger = db.ledger.withProcessed key event := rfl

end Projection

section Identity

variable {t : TradingTables} {a : SimulatedAccount} {i : TradingAccount}

def identityOf (a : SimulatedAccount) : TradingAccount where
  tenantRef := a.tenantRef
  subjectRef := a.subjectRef
  accountRef := a.accountRef
  executionMode := .paper
  baseCurrency := a.quoteCurrency
  status := a.status
  tradingEnabled := a.status = .active

theorem identityOf_matches (a : SimulatedAccount) : Matches (identityOf a) a :=
  ⟨rfl, rfl, rfl, rfl, rfl⟩

theorem ensurePaperIdentity_eq_ok {t' : TradingTables} :
    ensurePaperIdentity a t = .ok (i, t') ↔
      (∃ row, t.accounts.find a.accountRef = some row) ∧
        i = (t.identities.find a.accountRef).getD (identityOf a) ∧ Matches i a ∧
        t' = { t with identities := t.identities.put a.accountRef i } := by
  simp only [ensurePaperIdentity, bind_eq_ok, fetch_eq_ok, require_eq_ok, pure_eq_ok, Prod.mk.injEq]
  constructor
  · rintro ⟨row, hrow, _, ⟨h₁, h₂, h₃, h₄, h₅⟩, rfl, rfl⟩
    exact ⟨⟨row, hrow⟩, rfl, ⟨h₁, h₂, h₃, h₄, h₅⟩, rfl⟩
  · rintro ⟨⟨row, hrow⟩, rfl, hm, rfl⟩
    exact ⟨row, hrow, (), ⟨hm.tenant, hm.subject, hm.account, hm.currency, hm.paper⟩, rfl, rfl⟩

theorem ensurePaperIdentity_of (ha : t.accounts.find a.accountRef = some a)
    (hi : ∀ j, t.identities.find a.accountRef = some j → Matches j a) :
    ∃ i, Matches i a ∧
      ensurePaperIdentity a t = .ok (i, { t with identities := t.identities.put a.accountRef i }) := by
  have hm : Matches ((t.identities.find a.accountRef).getD (identityOf a)) a := by
    cases hf : t.identities.find a.accountRef with
    | none => exact identityOf_matches a
    | some j => exact hi j hf
  exact ⟨_, hm, ensurePaperIdentity_eq_ok.mpr ⟨⟨a, ha⟩, rfl, hm, rfl⟩⟩

theorem serializeAccount_of (ha : t.accounts.find a.accountRef = some a)
    (hi : ∀ j, t.identities.find a.accountRef = some j → Matches j a) :
    ∃ payload i, Matches i a ∧
      serializeAccount a t = .ok (payload, { t with identities := t.identities.put a.accountRef i }) := by
  obtain ⟨i, hm, hok⟩ := ensurePaperIdentity_of ha hi
  refine ⟨?_, i, hm, ?_⟩
  rotate_left
  · unfold serializeAccount
    exact bind_of_ok hok

end Identity

section Quality

variable {env : Env} {correlation : Uuid} {order : TradingOrder} {t : TradingTables} {db : Database}
  {execution : SimulatedExecution}

structure Reportable (t : TradingTables) (order : TradingOrder) : Prop where
  routed : ∃ d, t.routingDecisions.find order.id = some d ∧ d.referencePrice ≠ 0
  priced : ∃ v, order.averageFillPrice = some v ∧ v ≠ 0

theorem recordQuality_of (h : Reportable t order) (hf : order.filledQuantity ≠ 0) :
    ∃ report t', recordQuality order t = .ok (report, t') ∧ t'.core = t.core := by
  obtain ⟨⟨d, hd, hprice⟩, v, hv, hne⟩ := h
  unfold recordQuality
  rw [bind_of_ok (demand_eq_ok.mpr hd), bind_of_ok (demand_eq_ok.mpr hv),
    bind_of_ok (require_of ⟨hne, hf⟩), bind_of_ok (require_of hprice)]
  cases hprior : (latestReport t order.id).filter
      (·.evidenceHash = (qualityReport t order d.referencePrice v).evidenceHash) with
  | some prior =>
    refine ⟨prior, t, ?_, rfl⟩
    simp only [hprior]
    rfl
  | none =>
    refine ⟨qualityReport t order d.referencePrice v,
      { t with qualityReports := t.qualityReports ++ [qualityReport t order d.referencePrice v] }, ?_, rfl⟩
    simp only [hprior]
    rfl

theorem announceQuality_of (env : Env) (correlation : Uuid)
    (h : order.filledQuantity ≠ 0 → Reportable db.trading order) :
    ∃ db', announceQuality env correlation order db = .ok db' ∧ db'.ledger = db.ledger := by
  unfold announceQuality
  split
  · exact ⟨db, rfl, rfl⟩
  · rename_i hf
    obtain ⟨report, t', hok, hcore⟩ := recordQuality_of (h hf) hf
    rw [bind_of_ok hok]
    refine ⟨_, rfl, ?_⟩
    rw [ledger_enqueueEvent, ledger_withTrading, hcore]
    rfl

theorem finishExecution_of (env : Env) (correlation : Uuid) (execution : SimulatedExecution)
    {applied : Applied} (h : applied.order.filledQuantity ≠ 0 → Reportable applied.db.trading applied.order) :
    ∃ db', finishExecution env correlation execution applied = .ok db' ∧
      db'.ledger = applied.db.ledger.saveOrder applied.order.id
        { applied.order with updatedAt := env.now } := by
  let order := { applied.order with updatedAt := env.now }
  let saved := (applied.db.saveOrder order).executionEvent env order execution.executionId
    (executionEventType order execution.outcome)
    [("execution_id", .str execution.executionId), ("execution_mode", .str "SIMULATION")] correlation
  have hreport : order.filledQuantity ≠ 0 → Reportable saved.trading order := fun hf =>
    ⟨(h hf).routed, (h hf).priced⟩
  obtain ⟨db', hok, hledger⟩ := announceQuality_of env correlation hreport
  refine ⟨_, bind_of_ok hok, ?_⟩
  rw [ledger_orderEvent, hledger]
  rfl

end Quality

section Close

variable {env : Env} {correlation : Uuid} {db : Database} {id : Uuid} {o : TradingOrder}
  {r : SimulatedReservation} {e : SimulatedExecution}

theorem fetchOrder_eq_ok :
    fetchOrder id db = .ok o ↔ db.trading.orders.find id = some o ∧ o.simulation = true := by
  simp only [fetchOrder, bind_eq_ok, fetch_eq_ok, require_eq_ok, pure_eq_ok]
  constructor
  · rintro ⟨x, hx, _, hs, rfl⟩
    exact ⟨hx, hs⟩
  · rintro ⟨ho, hs⟩
    exact ⟨o, ho, (), hs, rfl⟩

theorem releaseFor_of (hid : o.reservationId = some id) (hr : db.trading.reservations.find id = some r) :
    releaseFor o db = .ok (db.withTrading
      { db.trading with reservations := db.trading.reservations.put id r.release }) := by
  unfold releaseFor
  rw [bind_of_ok (demand_eq_ok.mpr hid),
    bind_of_ok (releaseReservation_eq_ok.mpr ⟨r, hr, rfl⟩)]
  rfl

theorem releaseFor_eq_ok {db' : Database} (h : releaseFor o db = .ok db') (hid : o.reservationId = some id) :
    ∃ r, db.trading.reservations.find id = some r ∧ db' = db.withTrading
      { db.trading with reservations := db.trading.reservations.put id r.release } := by
  obtain ⟨reservationId, hreservation, h₁⟩ := bind_eq_ok.mp h
  obtain ⟨t, hrelease, h₂⟩ := bind_eq_ok.mp h₁
  obtain rfl := Option.some.inj (hid.symm.trans (demand_eq_ok.mp hreservation))
  obtain ⟨r, hr, rfl⟩ := releaseReservation_eq_ok.mp hrelease
  exact ⟨r, hr, (pure_eq_ok.mp h₂).symm⟩

theorem Backed.unfilled (hb : Backed id o r) (hs : o.state ∈ [.pending, .accepted, .opened]) :
    o.filledQuantity = 0 :=
  (hb.untouched hs).1

theorem closeOrder_of {state : OrderState} (eventType : String) (body : Database → Outcome Applied)
    (hb : Backed id o r) (hr : db.trading.reservations.find id = some r)
    (hs : o.state ∈ [.pending, .accepted, .opened])
    (hbody : ∀ d, d.trading = db.trading → body d = .ok
      { order := { o with state }, eventType
        db := d.withTrading { d.trading with reservations := d.trading.reservations.put id r.release } })
    (houtcome : ∀ d, applyOutcome env correlation e o d = body d) :
    ∃ written, executionMutation env correlation e o db = .ok written ∧
      written.ledger = db.ledger.withTrading
        (db.ledger.trading.update id { o with state, updatedAt := env.now } r.release) := by
  let received := db.executionEvent env o e.executionId "trading.execution.received.v1"
    [("execution_id", .str e.executionId), ("outcome", .str e.outcome.value)] correlation
  have happly := (houtcome received).trans (hbody received rfl)
  have hunfilled : ({ o with state } : TradingOrder).filledQuantity = 0 := hb.unfilled hs
  let applied : Applied := ⟨{ o with state }, eventType, received.withTrading
    { received.trading with reservations := received.trading.reservations.put id r.release }⟩
  obtain ⟨written, hok, hledger⟩ := finishExecution_of env correlation e
    (show applied.order.filledQuantity ≠ 0 → Reportable applied.db.trading applied.order from
        fun hne => absurd hunfilled hne)
  refine ⟨written, ?_, ?_⟩
  · unfold executionMutation
    exact (bind_of_ok happly).trans hok
  · rw [hledger]
    obtain rfl := hb.keyed
    rfl

theorem reject_of (hb : Backed id o r) (hr : db.trading.reservations.find id = some r)
    (he : e.outcome = .reject) (hs : o.state = .pending) :
    ∃ written, executionMutation env correlation e o db = .ok written ∧
      written.ledger = db.ledger.withTrading
        (db.ledger.trading.update id { o with state := .rejected, updatedAt := env.now } r.release) := by
  refine closeOrder_of "trading.order.rejected.v1" (rejectOrder o) hb hr
    (by simp [hs]) ?_ ?_
  · intro d hd
    have ht : .rejected ∈ transitions o.state := by simp [hs, transitions]
    unfold rejectOrder
    rw [bind_of_ok (transitionOrder_of_mem ht), bind_of_ok (releaseFor_of hb.reservation (hd ▸ hr))]
    rfl
  · intro d
    unfold applyOutcome
    rw [he]

theorem expire_of (hb : Backed id o r) (hr : db.trading.reservations.find id = some r)
    (he : e.outcome = .expire) (hs : workingState o.state = .opened) :
    ∃ written, executionMutation env correlation e o db = .ok written ∧
      written.ledger = db.ledger.withTrading
        (db.ledger.trading.update id { o with state := .expired, updatedAt := env.now } r.release) := by
  refine closeOrder_of "trading.order.expired.v1" (expireOrder o) hb hr
    (workingState_eq_opened.mp hs) ?_ ?_
  · intro d hd
    have ht : .expired ∈ transitions (workingState o.state) := by simp [hs, transitions]
    unfold expireOrder
    rw [bind_of_ok (openForExecution_eq o.state), bind_of_ok (transitionOrder_of_mem ht),
      bind_of_ok (releaseFor_of hb.reservation (hd ▸ hr))]
    rfl
  · intro d
    unfold applyOutcome
    rw [he]

end Close

section Fill

variable {env : Env} {correlation : Uuid} {db : Database} {l : Ledger} {id : Uuid} {o : TradingOrder}
  {r : SimulatedReservation} {a : SimulatedAccount} {e : SimulatedExecution}

theorem Inv.position_nonneg (h : Inv l) (ref instrument : String) :
    0 ≤ (l.trading.positionAt ref instrument).quantity :=
  (held_nonneg h.remaining).trans (h.covered ref instrument)

theorem Inv.sellable (h : Inv l) (ho : l.trading.orders.find id = some o)
    (hr : l.trading.reservations.find id = some r) (hs : o.side = .sell) :
    r.remainingAmount ≤ (l.trading.positionAt o.accountRef o.instrumentId).quantity := by
  have hown : sellsOf o.accountRef o.instrumentId o = true := by simp [sellsOf, hs]
  exact (remaining_le_held h.remaining ho hr hown).trans (h.covered _ _)

theorem Inv.guards (h : Inv l) (ho : l.trading.orders.find id = some o)
    (hr : l.trading.reservations.find id = some r) (hf : AcceptsFill o r e) :
    (settlementOf o e).guards (l.trading.positionAt o.accountRef o.instrumentId) r = .ok () := by
  have hfunded := hf.funded
  cases hs : o.side with
  | buy =>
    have hspent : (settlementOf o e).spent = (settlementOf o e).debit := by
      simp [Settlement.spent, settlementOf, hs]
    have hposition := h.position_nonneg o.accountRef o.instrumentId
    have hquantity := hf.quantity
    refine (Settlement.guards_buy hs).mpr ⟨hspent ▸ hfunded, ?_⟩
    change (l.trading.positionAt o.accountRef o.instrumentId).quantity + e.quantity ≠ 0
    exact (by linarith : (0 : ℚ) < _).ne'
  | sell =>
    have hspent : (settlementOf o e).spent = e.quantity := by
      simp [Settlement.spent, settlementOf, hs]
    rw [hspent] at hfunded
    exact (Settlement.guards_sell hs).mpr ⟨hfunded.trans (h.sellable ho hr hs), hfunded⟩

theorem announceFill_of (env : Env) (correlation : Uuid) (o : TradingOrder) (e : SimulatedExecution)
    {settled : Settled} (fee : ℚ)
    (ha : db.trading.accounts.find settled.account.accountRef = some settled.account)
    (hi : ∀ j, db.trading.identities.find settled.account.accountRef = some j →
      Matches j settled.account) :
    ∃ db' i, Matches i settled.account ∧
      announceFill env o e settled fee correlation db = .ok db' ∧
      db'.trading = { db.trading with
        identities := db.trading.identities.put settled.account.accountRef i } ∧
      db'.ledger = db.ledger.saveIdentity settled.account.accountRef i := by
  obtain ⟨payload, i, hm, hok⟩ := serializeAccount_of ha hi
  refine ⟨?_, i, hm, ?_, ?_, ?_⟩
  rotate_left
  · unfold announceFill
    exact bind_of_ok hok
  · rfl
  · rfl

theorem Inv.filed (env : Env) (h : Inv db.ledger) (ho : db.trading.orders.find id = some o)
    (hr : db.trading.reservations.find id = some r) (hnone : db.ledger.Unprocessed e.executionId)
    (hf : AcceptsFill o r e) :
    ∃ books, processSimulatedFill env o e.executionId e.quantity e.price (settlementOf o e).fee env.now
        db.books = .ok books ∧ Filed o e.executionId e.quantity db.books books ∧
      Posted o e.executionId e.quantity db.ledger.booked books.postTrade.trades db.ledger.valuation
        books.valuation ∧
      ∃ row, TradeRecorded o e.executionId e.quantity e.price (settlementOf o e).fee row ∧
        books.postTrade.trades = db.ledger.booked.put e.executionId row := by
  have hb := h.backing ho hr
  obtain ⟨-, hbooked, hunbooked⟩ := h.fresh e.executionId hnone
  refine processSimulatedFill_of ⟨hf.quantity, hf.price⟩ ⟨hb.tenant, hb.simulation⟩ h.calendars
    env.seeded hbooked hf.fee.1 hf.fee.2 h.kept hunbooked ?_
  intro hs
  have hspent : (settlementOf o e).spent = e.quantity := by
    simp [Settlement.spent, settlementOf, hs]
  have hle := (hspent ▸ hf.funded).trans (h.sellable ho hr hs)
  rw [h.lots] at hle
  rw [hb.tenant]
  exact hle

-- The tables once the fill has settled, with the order row still to be saved.
def unsavedTables (t : TradingTables) (o : TradingOrder) (r : SimulatedReservation) (a : SimulatedAccount)
    (e : SimulatedExecution) (now : Timestamp) : TradingTables :=
  { settledTables t o r a e now with orders := t.orders }

def Ledger.refile (l : Ledger) (trading : TradingTables) (books : Books) : Ledger :=
  { trading, booked := books.postTrade.trades, audits := books.postTrade.audits
    calendars := books.postTrade.calendars, valuation := books.valuation, processed := l.processed }

def SimulatedAccount.settledBy (a : SimulatedAccount) (o : TradingOrder) (e : SimulatedExecution) :
    SimulatedAccount :=
  { a with totalBalance := (settlementOf o e).balanceAfter a.totalBalance }

theorem Inv.fillOrder_of (env : Env) (correlation : Uuid) (db : Database) (h : Inv db.ledger)
    (ho : db.trading.orders.find id = some o)
    (hr : db.trading.reservations.find id = some r)
    (ha : db.trading.accounts.find o.accountRef = some a) (hnone : db.ledger.Unprocessed e.executionId)
    (hf : AcceptsFill o r e) :
    ∃ applied i books, fillOrder env correlation e o db = .ok applied ∧
      applied.order = o.fillWith e (fillTarget o e) ∧
      applied.db.trading.routingDecisions = db.trading.routingDecisions ∧
      Matches i (a.settledBy o e) ∧
      BooksMoved db.ledger (db.ledger.refile (settledTables db.ledger.trading o r a e env.now) books) o e ∧
      applied.db.ledger = (db.ledger.refile
        (unsavedTables db.ledger.trading o r a e env.now) books).saveIdentity o.accountRef i := by
  have hb := h.backing ho hr
  obtain rfl := hb.keyed
  obtain ⟨htrade, -⟩ := h.fresh e.executionId hnone
  have hkey : a.accountRef = o.accountRef := (h.solvent o.accountRef a ha).keyed
  let settled : Settled :=
    { account := a.settledBy o e
      position := (settlementOf o e).applyTo (db.trading.positionAt o.accountRef o.instrumentId)
      reservation := (settlementOf o e).draw r }
  let t := unsavedTables db.trading o r a e env.now
  have hsettle : settleTrade o.id (settlementOf o e) db.trading =
      .ok (settled, { t with trades := db.trading.trades }) := by
    have hposition : db.trading.positionAt a.accountRef o.instrumentId =
        db.trading.positionAt o.accountRef o.instrumentId := by rw [hkey]
    refine settleTrade_eq_ok.mpr ⟨r, a, hr, hb.account ▸ ha, ?_, ?_, ?_⟩
    · exact hposition ▸ h.guards ho hr hf
    · exact hposition ▸ rfl
    · rw [hkey, hb.account]
      rfl
  have hinsert : insertTrade env o e (settlementOf o e).fee { t with trades := db.trading.trades } =
      .ok t := by
    unfold insertTrade
    exact bind_of_ok (require_of htrade)
  obtain ⟨books, hbooks, hfiled, hposted, hrecorded⟩ := h.filed env ho hr hnone hf
  have hpos : o.filledQuantity + e.quantity ≠ 0 :=
    (by linarith [hb.filled.1, hf.quantity] : (0 : ℚ) < o.filledQuantity + e.quantity).ne'
  let order := o.fillWith e (fillTarget o e)
  let audited := auditFill env o e o.id correlation ((db.withTrading t).withBooks books)
  have hheld : audited.trading.accounts.find settled.account.accountRef = some settled.account := by
    change (db.trading.accounts.put o.accountRef (a.settledBy o e)).find a.accountRef =
      some (a.settledBy o e)
    rw [hkey]
    exact Table.find_put_self _ _ _
  have hidentity : ∀ j, audited.trading.identities.find settled.account.accountRef = some j →
      Matches j settled.account := by
    intro j hj
    change db.trading.identities.find a.accountRef = some j at hj
    rw [hkey] at hj
    obtain ⟨b, hb', hm⟩ := h.identified o.accountRef j hj
    rw [show db.ledger.trading.accounts.find o.accountRef = some a from ha] at hb'
    cases hb'
    exact ⟨hm.tenant, hm.subject, hm.account, hm.currency, hm.paper⟩
  obtain ⟨announced, i, hm, hannounce, htrading, hledger⟩ :=
    announceFill_of env correlation order e (settlementOf o e).fee hheld hidentity
  have hmoved : BooksMoved db.ledger
      (db.ledger.refile (settledTables db.ledger.trading o r a e env.now) books) o e :=
    ⟨hfiled.trades, hfiled.calendars, hfiled.audits, hfiled.audited, hfiled.kept, hfiled.held,
      hfiled.unbooked, hposted, hrecorded⟩
  refine ⟨?_, i, books, ?_, ?_, ?_, hm, hmoved, ?_⟩
  rotate_left
  · unfold fillOrder
    refine (bind_of_ok (openForExecution_eq o.state)).trans ?_
    refine (bind_of_ok (require_of hf.fits)).trans ?_
    refine (bind_of_ok (demand_eq_ok.mpr hb.reservation)).trans ?_
    refine (bind_of_ok hsettle).trans ?_
    refine (bind_of_ok hinsert).trans ?_
    refine (bind_of_ok hbooks).trans ?_
    refine (bind_of_ok (require_of hpos)).trans ?_
    refine (bind_of_ok (transitionOrder_of_mem hf.transition)).trans ?_
    exact bind_of_ok hannounce
  · rfl
  · rw [htrading]
    rfl
  · rw [hledger]
    change audited.ledger.saveIdentity a.accountRef i = _
    rw [hkey]
    rfl

theorem Inv.fill_of (env : Env) (correlation : Uuid) (h : Inv db.ledger)
    (ho : db.trading.orders.find id = some o)
    (hr : db.trading.reservations.find id = some r)
    (ha : db.trading.accounts.find o.accountRef = some a) (hnone : db.ledger.Unprocessed e.executionId)
    (he : e.outcome = .fill) (hf : AcceptsFill o r e) :
    ∃ written i books, executionMutation env correlation e o db = .ok written ∧
      Matches i (a.settledBy o e) ∧
      BooksMoved db.ledger (db.ledger.refile (settledTables db.ledger.trading o r a e env.now) books) o e ∧
      written.ledger = (db.ledger.refile
        (settledTables db.ledger.trading o r a e env.now) books).saveIdentity o.accountRef i := by
  let received := db.executionEvent env o e.executionId "trading.execution.received.v1"
    [("execution_id", .str e.executionId), ("outcome", .str e.outcome.value)] correlation
  obtain ⟨applied, i, books, hfill, horder, hrouting, hm, hmoved, hledger⟩ :=
    Inv.fillOrder_of env correlation received h ho hr ha hnone hf
  have hreport : applied.order.filledQuantity ≠ 0 → Reportable applied.db.trading applied.order := by
    intro _
    obtain ⟨d, hd, hprice, -⟩ := h.quoted id o r ho hr
    have hb := h.backing ho hr
    obtain rfl := hb.keyed
    rw [horder]
    refine ⟨⟨d, ?_, hprice.ne'⟩, _, rfl, ?_⟩
    · rw [hrouting]
      exact hd
    · exact ((h.traded o.id o ho).average_fill hb hf).ne'
  obtain ⟨written, hfinish, hwritten⟩ := finishExecution_of env correlation e hreport
  have happly : applyOutcome env correlation e o received = .ok applied := by
    unfold applyOutcome
    rw [he]
    exact hfill
  refine ⟨written, i, books, ?_, hm, hmoved, ?_⟩
  · unfold executionMutation
    exact (bind_of_ok happly).trans hfinish
  · rw [hwritten, hledger, horder]
    rfl

end Fill

section Inversion

variable {env : Env} {correlation : Uuid} {db written : Database} {id : Uuid} {o : TradingOrder}
  {r : SimulatedReservation} {e : SimulatedExecution}

theorem pending_of_rejected {state : OrderState} (h : .rejected ∈ transitions state) :
    state = .pending := by
  cases state <;> simp [transitions] at h ⊢

theorem opened_of_expired {state : OrderState} (h : .expired ∈ transitions state) : state = .opened := by
  cases state <;> simp [transitions] at h ⊢

theorem rejectOrder_pending {applied : Applied} (h : rejectOrder o db = .ok applied) :
    o.state = .pending := by
  obtain ⟨state, hstate, -⟩ := bind_eq_ok.mp h
  exact pending_of_rejected (transitionOrder_eq_ok.mp hstate).1

theorem expireOrder_working {applied : Applied} (h : expireOrder o db = .ok applied) :
    workingState o.state = .opened := by
  obtain ⟨working, hworking, h₁⟩ := bind_eq_ok.mp h
  obtain ⟨state, hstate, -⟩ := bind_eq_ok.mp h₁
  rw [openForExecution_eq] at hworking
  cases hworking
  exact opened_of_expired (transitionOrder_eq_ok.mp hstate).1

theorem fillOrder_accepts {applied : Applied} (hb : Backed id o r)
    (hr : db.trading.reservations.find id = some r)
    (h : fillOrder env correlation e o db = .ok applied) : AcceptsFill o r e := by
  obtain ⟨working, hworking, h₁⟩ := bind_eq_ok.mp h
  obtain ⟨_, hfits, h₂⟩ := bind_eq_ok.mp h₁
  obtain ⟨reservationId, hreservation, h₃⟩ := bind_eq_ok.mp h₂
  obtain ⟨⟨settled, t⟩, hsettle, h₄⟩ := bind_eq_ok.mp h₃
  obtain ⟨t', _, h₅⟩ := bind_eq_ok.mp h₄
  obtain ⟨books, hbooks, h₆⟩ := bind_eq_ok.mp h₅
  obtain ⟨_, _, h₇⟩ := bind_eq_ok.mp h₆
  obtain ⟨state, hstate, -⟩ := bind_eq_ok.mp h₇
  rw [openForExecution_eq] at hworking
  cases hworking
  obtain ⟨hquantity, hprice⟩ := processSimulatedFill_positive hbooks
  have hid : id = reservationId := Option.some.inj (hb.reservation.symm.trans (demand_eq_ok.mp hreservation))
  subst hid
  obtain ⟨r', _, hr', _, hguards, -⟩ := settleTrade_eq_ok.mp hsettle
  rw [hr] at hr'
  cases hr'
  exact
    { quantity := hquantity
      price := hprice
      fits := require_eq_ok.mp hfits
      transition := (transitionOrder_eq_ok.mp hstate).1
      funded := Settlement.spent_le hguards }

theorem executionMutation_accepts (hb : Backed id o r) (hr : db.trading.reservations.find id = some r)
    (h : executionMutation env correlation e o db = .ok written) : Accepts o r e := by
  obtain ⟨applied, happly, -⟩ := bind_eq_ok.mp h
  unfold applyOutcome at happly
  unfold Accepts
  cases he : e.outcome with
  | reject =>
    rw [he] at happly
    exact rejectOrder_pending happly
  | expire =>
    rw [he] at happly
    exact expireOrder_working happly
  | fill =>
    rw [he] at happly
    refine fillOrder_accepts hb ?_ happly
    exact hr

end Inversion

section Delivery

variable {F : Regime} {env : Env} {db db' : Database} {id : Uuid}
  {o : TradingOrder} {r : SimulatedReservation} {a : SimulatedAccount} {e : SimulatedExecution}

abbrev Effects (F : Regime) : Ledger → Ledger → Prop :=
  Relation.ReflTransGen (Effect F)

theorem Inv.effects {l l' : Ledger} (h : Inv l) (he : Effects F l l') : Inv l' := by
  induction he with
  | refl => exact h
  | tail _ hstep ih => exact ih.effect hstep

def receipt (env : Env) (id : Uuid) (e : SimulatedExecution) : ProcessedEvent where
  payloadHash := payloadHash (executionPayload id e)
  processedAt := env.now

def deliveryKey (e : SimulatedExecution) : Uuid × String := (uuid5 e.executionId, executionConsumer)

theorem applyExecution_of (ho : db.trading.orders.find id = some o) (hs : o.simulation = true) :
    applyExecution env id e db = consumeOnce env (uuid5 e.executionId) (executionPayload id e)
      executionConsumer (executionMutation env (orderCorrelation env db o) e o) db :=
  bind_of_ok (fetchOrder_eq_ok.mpr ⟨ho, hs⟩)

theorem applyExecution_found {consumed : Bool} (h : applyExecution env id e db = .ok (consumed, db')) :
    ∃ x, db.trading.orders.find id = some x ∧ x.simulation = true := by
  obtain ⟨x, hx, -⟩ := bind_eq_ok.mp h
  exact ⟨x, fetchOrder_eq_ok.mp hx⟩

theorem applyExecution_eq (h : Inv db.ledger) (ho : db.trading.orders.find id = some o)
    (hr : db.trading.reservations.find id = some r) (hnone : db.ledger.Unprocessed e.executionId)
    {written : Database}
    (hok : executionMutation env (orderCorrelation env db o) e o db = .ok written)
    (hprocessed : written.ledger.processed = db.ledger.processed) :
    applyExecution env id e db = .ok (true, written.withProcessed (deliveryKey e) (receipt env id e)) := by
  rw [applyExecution_of ho (h.backing ho hr).simulation, consumeOnce_of_unprocessed hnone]
  have hfresh : written.foundation.processedEvents.find (uuid5 e.executionId, executionConsumer) = none := by
    change written.ledger.processed.find _ = none
    rw [hprocessed]
    exact hnone
  exact ⟨rfl, written, hok, hfresh, rfl⟩

theorem Inv.applyExecution_fill (env : Env) (h : Inv db.ledger) (ho : db.trading.orders.find id = some o)
    (hr : db.trading.reservations.find id = some r)
    (ha : db.trading.accounts.find o.accountRef = some a) (hnone : db.ledger.Unprocessed e.executionId)
    (he : e.outcome = .fill) (hf : AcceptsFill o r e) :
    ∃ db' l' i, applyExecution env id e db = .ok (true, db') ∧ Matches i (a.settledBy o e) ∧
      BooksMoved db.ledger l' o e ∧
      l'.trading = settledTables db.ledger.trading o r a e env.now ∧
      l'.processed = db.ledger.processed.put (deliveryKey e) (receipt env id e) ∧
      db'.ledger = l'.saveIdentity o.accountRef i := by
  obtain ⟨written, i, books, hok, hm, hbooks, hledger⟩ := h.fill_of env
    (orderCorrelation env db o) ho hr ha hnone he hf
  have happly := applyExecution_eq h ho hr hnone hok (by rw [hledger]; rfl)
  refine ⟨_, (db.ledger.refile (settledTables db.ledger.trading o r a e env.now) books).withProcessed
    (deliveryKey e) (receipt env id e), i, happly, hm, ?_, rfl, rfl, ?_⟩
  · exact ⟨hbooks.booked, hbooks.calendars, hbooks.audits, hbooks.audited, hbooks.kept, hbooks.held,
      hbooks.unbooked, hbooks.posted, hbooks.recorded⟩
  · rw [ledger_withProcessed, hledger]
    rfl

def closedOrder (env : Env) (o : TradingOrder) (e : SimulatedExecution) : TradingOrder :=
  { o with
    state := match e.outcome with
      | .reject => .rejected
      | _ => .expired
    updatedAt := env.now }

theorem Accepts.closes (h : Accepts o r e) (he : e.outcome ≠ .fill) :
    OrderMove o r (closedOrder env o e) r.release := by
  unfold Accepts at h
  unfold closedOrder
  cases hout : e.outcome with
  | reject =>
    rw [hout] at h
    exact .reject env.now h
  | expire =>
    rw [hout] at h
    exact .expire env.now h
  | fill => exact absurd hout he

theorem Inv.applyExecution_close (env : Env) (h : Inv db.ledger) (ho : db.trading.orders.find id = some o)
    (hr : db.trading.reservations.find id = some r) (hnone : db.ledger.Unprocessed e.executionId)
    (he : e.outcome ≠ .fill) (hacc : Accepts o r e) :
    ∃ db', applyExecution env id e db = .ok (true, db') ∧
      db'.ledger = (db.ledger.withTrading
        (db.ledger.trading.update id (closedOrder env o e) r.release)).withProcessed (deliveryKey e)
          (receipt env id e) := by
  have hb := h.backing ho hr
  have hclose : ∃ written, executionMutation env (orderCorrelation env db o) e o db = .ok written ∧
      written.ledger = db.ledger.withTrading
        (db.ledger.trading.update id (closedOrder env o e) r.release) := by
    unfold Accepts at hacc
    unfold closedOrder
    cases hout : e.outcome with
    | reject =>
      rw [hout] at hacc
      exact reject_of hb hr hout hacc
    | expire =>
      rw [hout] at hacc
      exact expire_of hb hr hout hacc
    | fill => exact absurd hout he
  obtain ⟨written, hok, hledger⟩ := hclose
  have happly := applyExecution_eq h ho hr hnone hok (by rw [hledger]; rfl)
  exact ⟨_, happly, by rw [ledger_withProcessed, hledger]⟩

theorem Inv.applyExecution_accepts (h : Inv db.ledger)
    (hok : applyExecution env id e db = .ok (true, db')) :
    ∃ o r a, db.trading.orders.find id = some o ∧ db.trading.reservations.find id = some r ∧
      db.trading.accounts.find o.accountRef = some a ∧ db.ledger.Unprocessed e.executionId ∧
      Accepts o r e := by
  obtain ⟨o, ho, hs⟩ := applyExecution_found hok
  obtain ⟨r, hr, hb⟩ := h.backed id o ho
  obtain ⟨a, ha, -⟩ := h.funded id o r ho hr
  rw [applyExecution_of ho hs] at hok
  rcases consumeOnce_cases hok with ⟨hc, -⟩ | ⟨-, hnone, written, hmut, -⟩
  · cases hc
  · exact ⟨o, r, a, ho, hr, ha, hnone, executionMutation_accepts hb hr hmut⟩

theorem applyExecution_replay (hok : applyExecution env id e db = .ok (false, db')) : db' = db := by
  obtain ⟨o, ho, hs⟩ := applyExecution_found hok
  rw [applyExecution_of ho hs] at hok
  rcases consumeOnce_cases hok with ⟨-, hdb, -⟩ | ⟨hc, -⟩
  · exact hdb
  · cases hc

theorem Inv.applyExecution_effects (h : Inv db.ledger) {consumed : Bool}
    (hok : applyExecution env id e db = .ok (consumed, db'))
    (hF : e.outcome = .fill → F.fill db.ledger id e) : Effects F db.ledger db'.ledger := by
  cases consumed with
  | false =>
    rw [applyExecution_replay hok]
  | true =>
    obtain ⟨o, r, a, ho, hr, ha, hnone, hacc⟩ := h.applyExecution_accepts hok
    by_cases he : e.outcome = .fill
    · have hf : AcceptsFill o r e := by
        unfold Accepts at hacc
        rwa [he] at hacc
      obtain ⟨d, l', i, happly, hm, hbooks, htrading, hprocessed, hledger⟩ :=
        h.applyExecution_fill env ho hr ha hnone he hf
      rw [hok] at happly
      cases happly
      have hfilled : Effect F db.ledger l' :=
        .filled id o r a e env.now _ l' ho hr ha hnone hf (hF he) hbooks htrading hprocessed
      have hheld : l'.trading.accounts.find o.accountRef = some (a.settledBy o e) := by
        rw [htrading]
        exact Table.find_put_self _ _ _
      rw [hledger]
      exact .tail (.single hfilled) (.identified o.accountRef i _ hheld hm)
    · obtain ⟨d, happly, hledger⟩ := h.applyExecution_close env ho hr hnone he hacc
      rw [hok] at happly
      cases happly
      rw [hledger]
      exact .single (.closed id o _ r _ e _ ho hr (hacc.closes he) hnone)

end Delivery

end Beyvra
