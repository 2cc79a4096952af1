import Beyvra.Trading.Acceptance

namespace Beyvra

open Relational

variable {F : Regime} {env : Env} {user : String}

section Account

variable {db : Database} {t t' : TradingTables} {a : SimulatedAccount} {i : TradingAccount}

def defaultAccount (user : String) : SimulatedAccount where
  tenantRef := defaultTenant
  subjectRef := user
  accountRef := accountRefOf user

theorem defaultAccount_new {t : TradingTables} (h : t.accounts.find (accountRefOf user) = none) :
    NewAccount t (accountRefOf user) (defaultAccount user) :=
  ⟨h, rfl, rfl, rfl, rfl, by norm_num [defaultAccount]⟩

structure Admitted (db : Database) (user : String) (a : SimulatedAccount) (t : TradingTables) : Prop where
  only : t = { db.trading with accounts := t.accounts, identities := t.identities }
  stored : t.accounts.find (accountRefOf user) = some a
  keyed : a.accountRef = accountRefOf user

theorem identity_effects {l : Ledger} (ha : t.accounts.find a.accountRef = some a)
    (hok : ensurePaperIdentity a t = .ok (i, t')) :
    Effects F (l.withTrading t.core) (l.withTrading t'.core) := by
  obtain ⟨-, -, hm, rfl⟩ := ensurePaperIdentity_eq_ok.mp hok
  exact .single (.identified a.accountRef i a ha hm)

theorem Inv.account_effects (user : String) (h : Inv db.ledger) :
    ∃ a, (db.trading.accounts.find (accountRefOf user)).getD (defaultAccount user) = a ∧
      a.accountRef = accountRefOf user ∧
      Effects F db.ledger (db.withTrading
        { db.trading with accounts := db.trading.accounts.put (accountRefOf user) a }).ledger := by
  cases hfind : db.trading.accounts.find (accountRefOf user) with
  | none =>
    exact ⟨_, rfl, rfl, .single (.enrolled _ _ (defaultAccount_new hfind))⟩
  | some a =>
    refine ⟨a, rfl, (h.solvent _ a hfind).keyed, ?_⟩
    rw [Table.put_self _ hfind]
    exact .refl

theorem Inv.accountFor_effects (h : Inv db.ledger) (hok : accountFor user db.trading = .ok (a, t)) :
    Effects F db.ledger (db.withTrading t).ledger ∧ Admitted db user a t := by
  obtain ⟨b, hb, hkey, hacc⟩ := h.account_effects (F := F) user
  obtain ⟨⟨i, t'⟩, hid, hpure⟩ := bind_eq_ok.mp hok
  obtain ⟨rfl, rfl⟩ := Prod.mk.inj (pure_eq_ok.mp hpure)
  rw [show (db.trading.accounts.find (accountRefOf user)).getD
    { tenantRef := defaultTenant, subjectRef := user, accountRef := accountRefOf user } = b from hb] at hid ⊢
  have hstored : (db.trading.accounts.put (accountRefOf user) b).find b.accountRef = some b := by
    rw [hkey]
    exact Table.find_put_self _ _ _
  have hidentity := identity_effects (F := F) (l := db.ledger) hstored hid
  obtain ⟨-, -, -, rfl⟩ := ensurePaperIdentity_eq_ok.mp hid
  exact ⟨hacc.trans hidentity, rfl, Table.find_put_self _ _ _, hkey⟩

structure Funded (db : Database) (user : String) (e : Evaluation) : Prop where
  stored : db.trading.accounts.find (accountRefOf user) = some e.account
  keyed : e.account.accountRef = accountRefOf user
  quantity : 0 < e.payload.quantity

structure Evaluated (db db' : Database) (user : String) (e : Evaluation) : Prop where
  funded : Funded db' user e
  compliance : db'.compliance = db.compliance
  orders : db'.trading.orders = db.trading.orders

theorem Inv.evaluate_effects (h : Inv db.ledger) {db' : Database} {data : OrderRequest} {e : Evaluation}
    (hok : evaluate env user data db = .ok (e, db')) :
    Effects F db.ledger db'.ledger ∧ Evaluated db db' user e ∧
      normalizedPayload env.settings data = .ok e.payload := by
  obtain ⟨payload, hpayload, h₁⟩ := bind_eq_ok.mp hok
  obtain ⟨⟨account, t₁⟩, haccount, h₂⟩ := bind_eq_ok.mp h₁
  obtain ⟨⟨identity, t₂⟩, hidentity, h₃⟩ := bind_eq_ok.mp h₂
  obtain ⟨rfl, rfl⟩ := Prod.mk.inj (pure_eq_ok.mp h₃)
  obtain ⟨heff, honly, hstored, hkey⟩ := h.accountFor_effects (F := F) haccount
  have hfound : t₁.accounts.find account.accountRef = some account := by rw [hkey]; exact hstored
  have hid := identity_effects (F := F) (l := db.ledger) hfound hidentity
  obtain ⟨-, -, -, rfl⟩ := ensurePaperIdentity_eq_ok.mp hidentity
  refine ⟨heff.trans hid, ⟨⟨hstored, hkey, (normalizedPayload_eq_ok hpayload).1⟩, rfl, ?_⟩, hpayload⟩
  change t₁.orders = _
  rw [honly]

end Account

section Place

variable {db db' : Database} {order : TradingOrder} {price : ℚ} {correlation : Uuid}

theorem previewRoute_eq_ok (h : previewRoute env user order price correlation db = .ok db') :
    ∃ d : RoutingDecision, 0 < price ∧ d.referencePrice = price ∧
      db'.compliance = db.compliance ∧ db'.foundation.idempotency = db.foundation.idempotency ∧
      db'.ledger = (db.withTrading { db.trading with
        routingDecisions := db.trading.routingDecisions.put order.id d }).ledger ∧
      db'.trading = { db.trading with routingDecisions := db.trading.routingDecisions.put order.id d } := by
  obtain ⟨_, -, h₁⟩ := bind_eq_ok.mp h
  obtain ⟨_, hvalid, h₂⟩ := bind_eq_ok.mp h₁
  refine ⟨{ selected := env.routable, referencePrice := price, createdAt := env.now },
    (require_eq_ok.mp hvalid).2.2, rfl, ?_⟩
  cases hroutable : env.routable with
  | true =>
    simp only [hroutable, if_true] at h₂
    obtain rfl := pure_eq_ok.mp h₂
    exact ⟨rfl, rfl, rfl, rfl⟩
  | false =>
    simp only [hroutable, Bool.false_eq_true, if_false] at h₂
    obtain rfl := pure_eq_ok.mp h₂
    exact ⟨rfl, rfl, rfl, rfl⟩

theorem completeIdempotentRequest_eq_ok {scope : IdempotencyScope} {status : Nat} {body : Payload}
    {resourceType resourceId : String}
    (h : completeIdempotentRequest scope status body resourceType resourceId db = .ok db') :
    ∃ record, db.foundation.idempotency.find scope = some record ∧
      db' = db.withIdempotency scope { record with
        responseStatus := some status, responseBody := some body, resourceType, resourceId } := by
  obtain ⟨record, hrecord, h₁⟩ := bind_eq_ok.mp h
  exact ⟨record, fetch_eq_ok.mp hrecord, (pure_eq_ok.mp h₁).symm⟩

theorem recordEligibility_eq (o : TradingOrder) (v : Option EligibilityDecisionValue) :
    o.recordEligibility v =
      { o with
        eligibilityPolicyVersion := (v.map (·.policyVersion)).getD o.eligibilityPolicyVersion
        eligibilityResult := (v.map (·.result)).getD o.eligibilityResult
        eligibilityReasonCodes := (v.map (·.reasonCodes)).getD o.eligibilityReasonCodes
        eligibilityEvaluatedAt := (v.map (some ·.evaluatedAt)).getD o.eligibilityEvaluatedAt } := by
  cases v <;> rfl

def eligibleOrder (env : Env) (user : String) (payload : OrderPayload) (c : ComplianceTables) :
    TradingOrder :=
  (newOrder env user payload).recordEligibility (complianceDecision env user c)

def TradingOrder.reserved (o : TradingOrder) : TradingOrder := { o with reservationId := some o.id }

theorem recordOrder_eq_ok {payload : OrderPayload} {o : TradingOrder}
    (h : recordOrder env user payload db = .ok (o, db')) :
    o = eligibleOrder env user payload db.compliance ∧ db.trading.orders.find o.id = none ∧
      db' = { db with
        compliance := recordDecision env user db.compliance
        trading.orders := db.trading.orders.put o.id o } := by
  obtain ⟨db₁, hinsert, h₁⟩ := bind_eq_ok.mp h
  obtain ⟨_, hfree, h₂⟩ := bind_eq_ok.mp hinsert
  obtain rfl := pure_eq_ok.mp h₂
  obtain ⟨rfl, rfl⟩ := Prod.mk.inj (pure_eq_ok.mp h₁)
  have hid : (eligibleOrder env user payload db.compliance).id = (newOrder env user payload).id := by
    unfold eligibleOrder
    rw [recordEligibility_eq]
  have hput := db.trading.orders.put_put (newOrder env user payload).id (newOrder env user payload)
    (eligibleOrder env user payload db.compliance)
  rw [← hid] at hput
  refine ⟨rfl, hid ▸ require_eq_ok.mp hfree, ?_⟩
  change Database.saveOrder _ (eligibleOrder env user payload db.compliance) = _
  unfold Database.saveOrder
  dsimp only
  rw [← hid, hput]
  rfl

theorem reserved_placement {t : TradingTables} {e : Evaluation} {o : TradingOrder}
    {r : SimulatedReservation} {d : RoutingDecision} {amount : ℚ} {asset : String} {c : ComplianceTables}
    (ho : o = eligibleOrder env user e.payload c) (hstored : t.accounts.find (accountRefOf user) = some e.account)
    (hkey : e.account.accountRef = accountRefOf user) (hquantity : 0 < e.payload.quantity)
    (hfree : t.orders.find o.id = none) (hunreserved : t.reservations.find o.id = none)
    (hprice : 0 < d.referencePrice) (hquote : d.referencePrice = e.payload.price)
    (hr : r = { account := e.account.accountRef, asset, originalAmount := amount, remainingAmount := amount })
    (hterms : reservationTerms t e.account o.instrumentId o.side o.quantity e.payload.price =
      .ok (amount, asset)) : Placement t o.reserved r e.account d := by
  unfold eligibleOrder at ho
  rw [recordEligibility_eq] at ho
  have haccount : o.accountRef = accountRefOf user := by rw [ho]; rfl
  have hbuy : o.side = .buy → r.originalAmount = o.quantity * d.referencePrice * (1 + feeRate) ∧
      r.originalAmount ≤ t.availableQuote e.account ∧ r.asset = e.account.quoteCurrency := by
    intro hs
    rw [hs] at hterms
    obtain ⟨havailable, hamount, hasset⟩ := reservationTerms_buy.mp hterms
    rw [hr, hquote]
    exact ⟨hamount, hamount ▸ havailable, hasset⟩
  have hsell : o.side = .sell → r.originalAmount = o.quantity ∧
      o.quantity ≤ (t.positionAt o.accountRef o.instrumentId).quantity -
        t.activeReserved o.accountRef (baseAsset o.instrumentId) ∧ r.asset = baseAsset o.instrumentId := by
    intro hs
    rw [hs] at hterms
    obtain ⟨⟨position, hposition, havailable⟩, hamount, hasset⟩ := reservationTerms_sell.mp hterms
    rw [hkey] at hposition havailable
    rw [hr, haccount]
    refine ⟨hamount, ?_, hasset⟩
    unfold TradingTables.positionAt
    rw [hposition]
    exact havailable
  exact
    { free := hfree
      unreserved := hunreserved
      account := haccount ▸ hstored
      tenant := by rw [ho]; rfl
      simulation := by rw [ho]; rfl
      reservation := rfl
      state := by rw [ho]; rfl
      unfilled := by rw [ho]; rfl
      unpriced := by rw [ho]; rfl
      quantity := by rw [ho]; exact hquantity
      price := hprice
      holder := by rw [hr]; exact hkey.trans haccount.symm
      asset := by
        unfold assetOf
        cases hs : o.side with
        | buy =>
          rw [show o.reserved.side = .buy from hs]
          exact (hbuy hs).2.2
        | sell =>
          rw [show o.reserved.side = .sell from hs]
          exact (hsell hs).2.2
      active := by rw [hr]
      full := by rw [hr]
      buying := fun hs => ⟨(hbuy hs).1, (hbuy hs).2.1⟩
      selling := fun hs => ⟨(hsell hs).1, (hsell hs).2.1⟩ }

structure Reserved (db db' : Database) (e : Evaluation) (o : TradingOrder) (r : SimulatedReservation)
    (d : RoutingDecision) : Prop where
  price : 0 < d.referencePrice
  quote : d.referencePrice = e.payload.price
  unreserved : db.trading.reservations.find o.id = none
  terms : ∃ row amount asset, db.trading.accounts.find e.account.accountRef = some row ∧
    reservationTerms db.trading row o.instrumentId o.side o.quantity e.payload.price = .ok (amount, asset) ∧
    r = { account := row.accountRef, asset, originalAmount := amount, remainingAmount := amount }
  compliance : db'.compliance = db.compliance
  idempotency : db'.foundation.idempotency = db.foundation.idempotency
  ledger : db'.ledger = db.ledger.withTrading { db.ledger.trading.update o.id o.reserved r with
    routingDecisions := db.ledger.trading.routingDecisions.put o.id d }

theorem reserveOrder_eq_ok {e : Evaluation} {o o' : TradingOrder}
    (h : reserveOrder env user e correlation o db = .ok (o', db')) :
    o' = o.reserved ∧ ∃ r d, Reserved db db' e o r d := by
  obtain ⟨routed, hroute, h₁⟩ := bind_eq_ok.mp h
  obtain ⟨⟨r, t⟩, hreserve, h₂⟩ := bind_eq_ok.mp h₁
  obtain ⟨rfl, rfl⟩ := Prod.mk.inj (pure_eq_ok.mp h₂)
  obtain ⟨d, hprice, hquote, hcompliance, hidempotency, hledger, htrading⟩ := previewRoute_eq_ok hroute
  obtain ⟨row, amount, asset, hrow, hterms, hunreserved, hr, rfl⟩ := reserveFunds_eq_ok.mp hreserve
  have hrisk : (recordRisk env o e.result correlation routed).trading = { db.trading with
      routingDecisions := db.trading.routingDecisions.put o.id d
      riskDecisions := (recordRisk env o e.result correlation routed).trading.riskDecisions } := by
    change { routed.trading with
      riskDecisions := (recordRisk env o e.result correlation routed).trading.riskDecisions } = _
    rw [htrading]
  rw [hrisk] at hrow hterms hunreserved
  refine ⟨rfl, r, d, hquote ▸ hprice, hquote, hunreserved, ⟨row, amount, asset, hrow, hterms, hr⟩,
    hcompliance, hidempotency, ?_⟩
  rw [hrisk]
  change routed.ledger.withTrading _ = _
  rw [hledger]
  rfl

structure Placed (env : Env) (user : String) (e : Evaluation) (db db' : Database) (o : TradingOrder)
    (r : SimulatedReservation) (d : RoutingDecision) : Prop where
  order : o = (eligibleOrder env user e.payload db.compliance).reserved
  placement : Placement db.ledger.trading o r e.account d
  compliance : db'.compliance = recordDecision env user db.compliance
  ledger : db'.ledger = db.ledger.withTrading { db.ledger.trading.update o.id o r with
    routingDecisions := db.ledger.trading.routingDecisions.put o.id d }

theorem update_saved (t : TradingTables) (id : Uuid) (x o : TradingOrder) (r : SimulatedReservation) :
    TradingTables.update { t with orders := t.orders.put id x } id o r = t.update id o r := by
  unfold TradingTables.update
  rw [Table.put_put]

theorem placeOrder_placed {e : Evaluation} {key : String} {correlationId : Option CorrelationRef}
    {reply : CreateReply} (he : Funded db user e)
    (h : placeOrder env user e key correlationId db = .ok (reply, db')) :
    ∃ o r d, Placed env user e db db' o r d ∧ reply = .created (serializeOrder o) := by
  obtain ⟨⟨o, db₁⟩, hrecord, h₁⟩ := bind_eq_ok.mp h
  obtain ⟨⟨o', db₂⟩, hreserve, h₂⟩ := bind_eq_ok.mp h₁
  obtain ⟨db₃, hcomplete, h₃⟩ := bind_eq_ok.mp h₂
  obtain ⟨rfl, rfl⟩ := Prod.mk.inj (pure_eq_ok.mp h₃)
  obtain ⟨ho, hfree, rfl⟩ := recordOrder_eq_ok hrecord
  obtain ⟨rfl, r, d, hres⟩ := reserveOrder_eq_ok hreserve
  obtain ⟨record, -, hwritten⟩ := completeIdempotentRequest_eq_ok hcomplete
  obtain ⟨row, amount, asset, hrow, hterms, hr⟩ := hres.terms
  rw [he.keyed, show Table.find _ _ = some e.account from he.stored] at hrow
  obtain rfl := Option.some.inj hrow
  have hplacement : Placement db.ledger.trading o.reserved r e.account d :=
    reserved_placement ho he.stored he.keyed he.quantity hfree hres.unreserved hres.price hres.quote hr
      hterms
  refine ⟨o.reserved, r, d, ⟨by rw [← ho], hplacement, ?_, ?_⟩, rfl⟩
  · rw [hwritten]
    exact hres.compliance
  · rw [hwritten, ledger_withIdempotency, hres.ledger]
    exact congrArg (fun t : TradingTables => db.ledger.withTrading
      { t with routingDecisions := db.ledger.trading.routingDecisions.put o.id d })
      (update_saved db.ledger.trading o.id o o.reserved r)

theorem Placed.effect {e : Evaluation} {o : TradingOrder} {r : SimulatedReservation} {d : RoutingDecision}
    (h : Placed env user e db db' o r d) (hF : F.instrument e.payload.instrumentId) :
    Effect F db.ledger db'.ledger := by
  have hinstrument : o.instrumentId = e.payload.instrumentId := by
    rw [h.order]
    unfold eligibleOrder
    rw [recordEligibility_eq]
    rfl
  rw [h.ledger]
  exact .placed o r e.account d h.placement (hinstrument ▸ hF)

end Place

section Create

variable {db db' : Database} {data : OrderRequest} {key : String} {correlationId : Option CorrelationRef}
  {reply : CreateReply} {recordGiven : Bool}

theorem beginIdempotentRequest_eq_ok {scope : IdempotencyScope} {request : Payload}
    {opened : IdempotencyRecord × Bool}
    (h : beginIdempotentRequest env scope request db = .ok (opened, db')) :
    (db.foundation.idempotency.find scope = none ∧ opened.2 = true ∧
      opened.1 = { requestHash := canonicalRequestHash request, expiresAt := env.now + idempotencyTtl } ∧
      db' = db.withIdempotency scope opened.1) ∨
    (db.foundation.idempotency.find scope = some opened.1 ∧ opened.2 = false ∧
      opened.1.requestHash = canonicalRequestHash request ∧ db' = db) := by
  unfold beginIdempotentRequest at h
  cases hfind : db.foundation.idempotency.find scope with
  | none =>
    rw [hfind] at h
    obtain ⟨rfl, rfl⟩ := Prod.mk.inj (pure_eq_ok.mp h)
    exact .inl ⟨rfl, rfl, rfl, rfl⟩
  | some record =>
    rw [hfind] at h
    obtain ⟨_, hhash, h₁⟩ := bind_eq_ok.mp h
    obtain ⟨rfl, rfl⟩ := Prod.mk.inj (pure_eq_ok.mp h₁)
    exact .inr ⟨rfl, rfl, require_eq_ok.mp hhash, rfl⟩

theorem beginIdempotentRequest_frame {scope : IdempotencyScope} {request : Payload}
    {opened : IdempotencyRecord × Bool}
    (h : beginIdempotentRequest env scope request db = .ok (opened, db')) :
    db'.trading = db.trading ∧ db'.compliance = db.compliance ∧ db'.ledger = db.ledger := by
  rcases beginIdempotentRequest_eq_ok h with ⟨-, -, -, rfl⟩ | ⟨-, -, -, rfl⟩ <;> exact ⟨rfl, rfl, rfl⟩

inductive Created (env : Env) (user : String) (db db' : Database) : CreateReply → Prop
  | replayed (body : Payload) (hc : db'.compliance = db.compliance)
    (ho : db'.trading.orders = db.trading.orders) : Created env user db db' (.replayed body)
  | rejected (reason : String) (hc : db'.compliance = db.compliance)
    (ho : db'.trading.orders = db.trading.orders) : Created env user db db' (.rejected reason)
  | created (opened : Database) (e : Evaluation) (o : TradingOrder) (r : SimulatedReservation)
    (d : RoutingDecision) (hc : opened.compliance = db.compliance)
    (ho : opened.trading.orders = db.trading.orders)
    (h : Placed env user e opened db' o r d) : Created env user db db' (.created (serializeOrder o))

theorem openRecord_frame {stored : Option Payload}
    (h : openRecord env user data key recordGiven db = .ok (stored, db')) :
    db'.trading = db.trading ∧ db'.compliance = db.compliance ∧ db'.ledger = db.ledger := by
  unfold openRecord at h
  split at h
  · obtain ⟨rfl, rfl⟩ := Prod.mk.inj (pure_eq_ok.mp h)
    exact ⟨rfl, rfl, rfl⟩
  · obtain ⟨⟨opened, db₁⟩, hbegin, h₁⟩ := bind_eq_ok.mp h
    obtain ⟨rfl, rfl⟩ := Prod.mk.inj (pure_eq_ok.mp h₁)
    exact beginIdempotentRequest_frame hbegin

theorem refuse_eq {e : Evaluation} (h : refuse e env user db = (reply, db')) :
    db'.ledger = db.ledger ∧ Created env user db db' reply := by
  obtain ⟨rfl, rfl⟩ := Prod.mk.inj h
  obtain ⟨htrading, hcompliance, hpostTrade, hvaluation, hprocessed, -⟩ := persistFindings_frame env
    defaultTenant (accountRefOf user) e.payload.instrumentId e.surveillance.findings db
  refine ⟨?_, .rejected _ hcompliance (congrArg TradingTables.orders htrading)⟩
  unfold Database.ledger
  rw [htrading, hpostTrade, hvaluation, hprocessed]

theorem Created.after {db₀ : Database} (h : Created env user db db' reply)
    (hc : db.compliance = db₀.compliance) (ho : db.trading.orders = db₀.trading.orders) :
    Created env user db₀ db' reply := by
  cases h with
  | replayed body hc' ho' => exact .replayed body (hc'.trans hc) (ho'.trans ho)
  | rejected reason hc' ho' => exact .rejected reason (hc'.trans hc) (ho'.trans ho)
  | created opened e o r d hc' ho' hp => exact .created opened e o r d (hc'.trans hc) (ho'.trans ho) hp

theorem Inv.createAllowed_effects (h : Inv db.ledger)
    (hF : ∀ payload, normalizedPayload env.settings data = .ok payload → F.instrument payload.instrumentId)
    (hok : createAllowed env user data key correlationId recordGiven db = .ok (reply, db')) :
    Effects F db.ledger db'.ledger ∧ Created env user db db' reply := by
  obtain ⟨⟨a, t⟩, haccount, h₁⟩ := bind_eq_ok.mp hok
  obtain ⟨⟨e, db₁⟩, hevaluate, h₂⟩ := bind_eq_ok.mp h₁
  obtain ⟨_, -, h₃⟩ := bind_eq_ok.mp h₂
  obtain ⟨heff, hadmitted⟩ := h.accountFor_effects (F := F) haccount
  obtain ⟨heff₁, hevaluated, hpayload⟩ := Inv.evaluate_effects (F := F) (h.effects heff) hevaluate
  have horders : db₁.trading.orders = db.trading.orders := by
    rw [hevaluated.orders]
    change t.orders = _
    rw [hadmitted.only]
  have hcompliance : db₁.compliance = db.compliance := hevaluated.compliance
  split at h₃
  · have hreach : Effects F db.ledger db₁.ledger := heff.trans heff₁
    obtain ⟨hledger, hcreated⟩ := refuse_eq (pure_eq_ok.mp h₃)
    exact ⟨hledger ▸ hreach, hcreated.after hcompliance horders⟩
  · obtain ⟨⟨stored, db₂⟩, hopen, h₄⟩ := bind_eq_ok.mp h₃
    obtain ⟨htrading, hcompliance', hledger⟩ := openRecord_frame hopen
    have hreach : Effects F db.ledger db₂.ledger := by
      rw [hledger]
      exact heff.trans heff₁
    have ho : db₂.trading.orders = db.trading.orders := by rw [htrading, horders]
    have hc : db₂.compliance = db.compliance := hcompliance'.trans hcompliance
    cases stored with
    | some body =>
      obtain ⟨rfl, rfl⟩ := Prod.mk.inj (pure_eq_ok.mp h₄)
      exact ⟨hreach, .replayed body hc ho⟩
    | none =>
      have hfunded : Funded db₂ user e := by
        obtain ⟨hstored, hkey, hquantity⟩ := hevaluated.funded
        exact ⟨by rw [htrading]; exact hstored, hkey, hquantity⟩
      obtain ⟨o, r, d, hplaced, rfl⟩ := placeOrder_placed hfunded h₄
      exact ⟨hreach.tail (hplaced.effect (hF _ hpayload)), .created db₂ e o r d hc ho hplaced⟩

theorem Inv.createTransaction_effects (h : Inv db.ledger)
    (hF : ∀ payload, normalizedPayload env.settings data = .ok payload → F.instrument payload.instrumentId)
    (hok : createTransaction env user data key correlationId db = .ok (reply, db')) :
    Effects F db.ledger db'.ledger ∧ Created env user db db' reply := by
  obtain ⟨⟨opened, db₁⟩, hbegin, h₁⟩ := bind_eq_ok.mp hok
  obtain ⟨htrading, hcompliance, hledger⟩ := beginIdempotentRequest_frame hbegin
  have horders : db₁.trading.orders = db.trading.orders := by rw [htrading]
  cases hstored : storedBody opened with
  | some body =>
    simp only [hstored] at h₁
    obtain ⟨rfl, rfl⟩ := Prod.mk.inj (pure_eq_ok.mp h₁)
    exact ⟨hledger ▸ .refl, .replayed body hcompliance horders⟩
  | none =>
    simp only [hstored] at h₁
    obtain ⟨⟨e, db₂⟩, hevaluate, h₂⟩ := bind_eq_ok.mp h₁
    obtain ⟨_, -, h₃⟩ := bind_eq_ok.mp h₂
    have h₀ : Inv db₁.ledger := hledger ▸ h
    obtain ⟨heff, hevaluated, -⟩ := h₀.evaluate_effects (F := F) hevaluate
    have hreach : Effects F db.ledger db₂.ledger := hledger ▸ heff
    have hc : db₂.compliance = db.compliance := hevaluated.compliance.trans hcompliance
    have ho : db₂.trading.orders = db.trading.orders := hevaluated.orders.trans horders
    split at h₃
    · obtain ⟨hledger', hcreated⟩ := refuse_eq (pure_eq_ok.mp h₃)
      exact ⟨hledger' ▸ hreach, hcreated.after hc ho⟩
    · obtain ⟨heff', hcreated⟩ := Inv.createAllowed_effects (F := F) (h.effects hreach) hF h₃
      exact ⟨hreach.trans heff', hcreated.after hc ho⟩

end Create

end Beyvra
