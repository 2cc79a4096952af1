import Beyvra.Trading.SelfTrade

namespace Beyvra

open Relational

def positionLimit : ℚ := 100

def dailyNotionalLimit : ℚ := 1000000

-- What a buy that is still working may yet add to the position.
def openBuy (ref instrument : String) (o : TradingOrder) : ℚ :=
  if o.side = .buy ∧ o.accountRef = ref ∧ o.instrumentId = instrument ∧ o.state ∈ selfTradeStates then
    o.quantity - o.filledQuantity
  else 0

namespace TradingTables

def exposure (t : TradingTables) (ref instrument : String) : ℚ :=
  (t.positionAt ref instrument).quantity + t.orders.sum fun _ o => openBuy ref instrument o

-- An order is accepted in the transaction that writes its routing decision, at the price of the table.
def notionalOn (t : TradingTables) (day : Date) (id : Uuid) (o : TradingOrder) : ℚ :=
  ((t.routingDecisions.find id).filter (·.createdAt.date = day)).elim 0 (o.quantity * ·.referencePrice)

def acceptedNotional (t : TradingTables) (ref : String) (day : Date) : ℚ :=
  t.orders.sum fun id o => if o.accountRef = ref then t.notionalOn day id o else 0

end TradingTables

structure WithinLimits (t : TradingTables) : Prop where
  position : ∀ ref instrument, (t.positionAt ref instrument).quantity ≤ positionLimit
  notional : ∀ ref day, t.acceptedNotional ref day ≤ dailyNotionalLimit

-- The order fits beside the fills and the acceptances there have been.
structure FitsLimits (t : TradingTables) (ref : String) (payload : OrderPayload) (day : Date) : Prop where
  position : payload.side = .buy → t.exposure ref payload.instrumentId + payload.quantity ≤ positionLimit
  notional : t.acceptedNotional ref day + payload.quantity * payload.price ≤ dailyNotionalLimit

-- The call enters no order, or one that fits.
def Call.fitsLimits (db : Database) (call : Call) : Prop :=
  match call.op with
  | .createAllowed user data _ _ _ | .createTransaction user data _ _ =>
    (step db call).trading.orders = db.trading.orders ∨
      ∀ payload, normalizedPayload call.env.settings data = .ok payload →
        FitsLimits db.trading (accountRefOf user) payload call.env.now.date
  | _ => True

structure Restrained (t t' : TradingTables) : Prop where
  exposure : ∀ ref instrument, t'.exposure ref instrument ≤ t.exposure ref instrument
  notional : ∀ ref day, t'.acceptedNotional ref day = t.acceptedNotional ref day

section Restraint

variable {t t' t'' : TradingTables} {o o' : TradingOrder} {r r' : SimulatedReservation} {id : Uuid}
  {ref instrument : String} {l l' : Ledger}

theorem Restrained.refl (t : TradingTables) : Restrained t t := ⟨fun _ _ => le_rfl, fun _ _ => rfl⟩

theorem Restrained.trans (h : Restrained t t') (h' : Restrained t' t'') : Restrained t t'' where
  exposure ref instrument := (h'.exposure ref instrument).trans (h.exposure ref instrument)
  notional ref day := (h'.notional ref day).trans (h.notional ref day)

theorem openBuy_nonneg (h : o.filledQuantity ≤ o.quantity) : 0 ≤ openBuy ref instrument o := by
  unfold openBuy
  split
  · linarith
  · exact le_rfl

theorem openBuy_le (ref instrument : String) (h : Aged o o') (hquantity : o'.quantity = o.quantity)
    (hfilled : o'.filledQuantity = o.filledQuantity) (hfits : o.filledQuantity ≤ o.quantity) :
    openBuy ref instrument o' ≤ openBuy ref instrument o := by
  by_cases hworking : o'.state ∈ selfTradeStates
  · simp only [openBuy, h.side, h.account, h.instrument, hquantity, hfilled, hworking, h.working hworking, le_rfl]
  · have hzero : openBuy ref instrument o' = 0 := if_neg fun hopen => hworking hopen.2.2.2
    rw [hzero]
    exact openBuy_nonneg hfits

theorem acceptedNotional_update (h : SameTerms o o') (ho : t.orders.find id = some o)
    (horders : t'.orders = t.orders.put id o') (hrouting : t'.routingDecisions = t.routingDecisions)
    (ref : String) (day : Date) : t'.acceptedNotional ref day = t.acceptedNotional ref day := by
  unfold TradingTables.acceptedNotional TradingTables.notionalOn
  rw [horders, hrouting, Table.sum_put_of_some ho]
  simp only [h.account, h.quantity, sub_add_cancel]

theorem exposure_update (ho : t.orders.find id = some o) (horders : t'.orders = t.orders.put id o')
    (hposition : t'.positions = t.positions) (ref instrument : String) :
    t'.exposure ref instrument =
      t.exposure ref instrument - openBuy ref instrument o + openBuy ref instrument o' := by
  unfold TradingTables.exposure TradingTables.positionAt
  rw [horders, hposition, Table.sum_put_of_some ho]
  ring

theorem OrderMove.restrained (hm : OrderMove o r o' r') (hb : Backed id o r) (ho : t.orders.find id = some o)
    (horders : t'.orders = t.orders.put id o') (hposition : t'.positions = t.positions)
    (hrouting : t'.routingDecisions = t.routingDecisions) : Restrained t t' where
  exposure ref instrument := by
    have hle := openBuy_le ref instrument hm.aged hm.terms.1.quantity hm.terms.2.1
      hb.filled.2
    rw [exposure_update ho horders hposition]
    linarith
  notional := acceptedNotional_update hm.terms.1 ho horders hrouting

theorem openBuy_filled (ref instrument : String) {e : SimulatedExecution} (hf : AcceptsFill o r e) (now : Timestamp) :
    openBuy ref instrument (filledOrder o e now) +
        (if (o.accountRef, o.instrumentId) = (ref, instrument) then o.side.signed e.quantity else 0) ≤
      openBuy ref instrument o := by
  have hquantity := hf.quantity
  cases hside : o.side with
  | sell =>
    have hsell (x : TradingOrder) (hx : x.side = .sell) : openBuy ref instrument x = 0 :=
      if_neg fun hopen => by rw [hx] at hopen; cases hopen.1
    rw [hsell o hside, hsell (filledOrder o e now) hside, zero_add]
    split
    · exact neg_nonpos.mpr hquantity.le
    · exact le_rfl
  | buy =>
    by_cases hkey : (o.accountRef, o.instrumentId) = (ref, instrument)
    · obtain ⟨rfl, rfl⟩ := Prod.mk.inj hkey
      have hopen : openBuy o.accountRef o.instrumentId o = o.quantity - o.filledQuantity :=
        if_pos ⟨hside, rfl, rfl, hf.state⟩
      have hfilled : openBuy o.accountRef o.instrumentId (filledOrder o e now) ≤
          o.quantity - (o.filledQuantity + e.quantity) := by
        unfold openBuy
        split
        · exact le_rfl
        · exact sub_nonneg.mpr hf.fits
      rw [if_pos hkey, hopen]
      change _ + e.quantity ≤ _
      linarith
    · have hother (x : TradingOrder) (hx : (x.accountRef, x.instrumentId) = (o.accountRef, o.instrumentId)) :
          openBuy ref instrument x = 0 := by
        refine if_neg fun hopen => hkey ?_
        rw [← hx, hopen.2.1, hopen.2.2.1]
      rw [hother o rfl, hother (filledOrder o e now) rfl, if_neg hkey, add_zero]

theorem AcceptsFill.restrained {a : SimulatedAccount} {e : SimulatedExecution} (hf : AcceptsFill o r e)
    (ho : t.orders.find o.id = some o) (now : Timestamp) : Restrained t (settledTables t o r a e now) where
  exposure ref instrument := by
    have hle := openBuy_filled ref instrument hf now
    have hsum : (settledTables t o r a e now).orders.sum (fun _ x => openBuy ref instrument x) =
        t.orders.sum (fun _ x => openBuy ref instrument x) - openBuy ref instrument o +
          openBuy ref instrument (filledOrder o e now) := Table.sum_put_of_some ho _ _
    unfold TradingTables.exposure
    rw [hsum, positionAt_settled]
    linarith
  notional := acceptedNotional_update (filledOrder_terms o e now) ho rfl rfl

theorem restrained_invalidate (env : Env) (change : ProfileChange)
    (hfits : ∀ id o, t.orders.find id = some o → o.filledQuantity ≤ o.quantity) :
    Restrained t (invalidatePendingSimulationOrdersIfDenied env change t) := by
  have hsum (g : Uuid → TradingOrder → ℚ) :
      (invalidatePendingSimulationOrdersIfDenied env change t).orders.sum g =
        t.orders.sum fun id o => g id (invalidateIf env change o) := by
    unfold invalidatePendingSimulationOrdersIfDenied invalidateIf
    dsimp only
    split
    · next hallowed => simp [hallowed]
    · next hdenied => simp only [Table.sum_mapRows, ne_eq, hdenied, not_false_eq_true, true_and]
  have hlabels := relabelled_invalidate env change t
  constructor
  · intro ref instrument
    unfold TradingTables.exposure
    rw [hlabels.positionAt, hsum]
    refine add_le_add_right (Table.sum_le_sum fun id o ho => ?_) _
    obtain ⟨hterms, hfilled, -⟩ := invalidateIf_terms env change o
    exact openBuy_le _ _ (invalidateIf_aged env change o) hterms.quantity hfilled (hfits id o ho)
  · intro ref day
    unfold TradingTables.acceptedNotional TradingTables.notionalOn
    rw [hsum, hlabels.routing]
    refine Table.sum_congr fun id o _ => ?_
    have hterms := (invalidateIf_terms env change o).1
    simp only [hterms.account, hterms.quantity]

theorem Inv.fits (h : Inv l) (id : Uuid) (o : TradingOrder) (ho : l.trading.orders.find id = some o) :
    o.filledQuantity ≤ o.quantity := by
  obtain ⟨r, -, hb⟩ := h.backed id o ho
  exact hb.filled.2

theorem Inv.effect_restrained (h : Inv l) (he : Effect Regime.unplaced l l') : Restrained l.trading l'.trading := by
  cases he with
  | enrolled ref a hn => exact ⟨fun _ _ => le_rfl, fun _ _ => rfl⟩
  | identified ref i a ha hm => exact ⟨fun _ _ => le_rfl, fun _ _ => rfl⟩
  | placed o r a d hp hF => exact hF.elim
  | moved id o o' r r' ho hr hm => exact hm.restrained (h.backing ho hr) ho rfl rfl rfl
  | closed id o o' r r' e event ho hr hm hnone => exact hm.restrained (h.backing ho hr) ho rfl rfl rfl
  | filled id o r a e now event l' ho hr ha hnone hf hF hbooks htrading hprocessed =>
    have hkeyed := (h.backing ho hr).keyed
    rw [← hkeyed] at ho
    rw [htrading]
    exact hf.restrained ho now
  | invalidated env change hF => exact restrained_invalidate env change h.fits
  | consumed key event hne => exact .refl _

theorem Inv.effects_restrained (h : Inv l) (he : Effects Regime.unplaced l l') :
    Restrained l.trading l'.trading := by
  induction he with
  | refl => exact .refl _
  | tail hprefix hlast ih => exact ih.trans ((h.effects hprefix).effect_restrained hlast)

end Restraint

-- What the acceptance of an order adds to what is counted.
structure Accepted (t t' : TradingTables) (ref : String) (payload : OrderPayload) (day : Date) : Prop where
  entered : t'.orders ≠ t.orders
  exposure : ∀ ref' instrument, t'.exposure ref' instrument ≤ t.exposure ref' instrument +
    if payload.side = .buy ∧ ref = ref' ∧ payload.instrumentId = instrument then payload.quantity else 0
  notional : ∀ ref' day', t'.acceptedNotional ref' day' = t.acceptedNotional ref' day' +
    if ref = ref' ∧ day = day' then payload.quantity * payload.price else 0

section Acceptance

variable {env : Env} {user : String} {db db' : Database} {data : OrderRequest} {key : String}
  {correlationId : Option CorrelationRef} {recordGiven : Bool} {reply : CreateReply} {e : Evaluation}
  {o : TradingOrder} {r : SimulatedReservation} {d : RoutingDecision} {t t' t'' : TradingTables}
  {ref : String} {payload : OrderPayload} {day : Date}

theorem Accepted.after (h : Restrained t t') (horders : t'.orders = t.orders)
    (ha : Accepted t' t'' ref payload day) : Accepted t t'' ref payload day where
  entered := horders ▸ ha.entered
  exposure ref' instrument := (ha.exposure ref' instrument).trans
    (add_le_add_left (h.exposure ref' instrument) _)
  notional ref' day' := by rw [ha.notional, h.notional]

theorem Restrained.of_ledger (h : Restrained db.ledger.trading db'.ledger.trading) :
    Restrained db.trading db'.trading :=
  ⟨h.exposure, h.notional⟩

theorem restrained_of_eq (h : db'.ledger = db.ledger) : Restrained db.trading db'.trading :=
  .of_ledger (h ▸ .refl _)

theorem previewRoute_routing {order : TradingOrder} {price : ℚ} {correlation : Uuid}
    (h : previewRoute env user order price correlation db = .ok db') :
    db'.trading.routingDecisions.find order.id =
      some { selected := env.routable, referencePrice := price, createdAt := env.now } := by
  obtain ⟨_, -, h₁⟩ := bind_eq_ok.mp h
  obtain ⟨_, -, h₂⟩ := bind_eq_ok.mp h₁
  split at h₂
  all_goals
    obtain rfl := pure_eq_ok.mp h₂
    exact Table.find_put_self _ _ _

-- The routing decision of an accepted order keeps the price and the instant of its acceptance.
theorem placeOrder_quote (hp : Placed env user e db db' o r d)
    (h : placeOrder env user e key correlationId db = .ok (reply, db')) :
    d.referencePrice = e.payload.price ∧ d.createdAt = env.now := by
  obtain ⟨⟨o₁, db₁⟩, hrecord, h₁⟩ := bind_eq_ok.mp h
  obtain ⟨⟨o₂, db₂⟩, hreserve, h₂⟩ := bind_eq_ok.mp h₁
  obtain ⟨db₃, hcomplete, h₃⟩ := bind_eq_ok.mp h₂
  obtain ⟨rfl, rfl⟩ := Prod.mk.inj (pure_eq_ok.mp h₃)
  obtain ⟨ho, -, -⟩ := recordOrder_eq_ok hrecord
  obtain ⟨routed, hroute, h₄⟩ := bind_eq_ok.mp hreserve
  obtain ⟨⟨r', t⟩, hfunds, h₅⟩ := bind_eq_ok.mp h₄
  obtain ⟨rfl, rfl⟩ := Prod.mk.inj (pure_eq_ok.mp h₅)
  obtain ⟨record, -, hwritten⟩ := completeIdempotentRequest_eq_ok hcomplete
  obtain ⟨row, amount, asset, -, -, -, -, rfl⟩ := reserveFunds_eq_ok.mp hfunds
  have hid : o₁.id = o.id := by
    rw [hp.order, ho]
    rfl
  have hfound : db₃.trading.routingDecisions.find o₁.id =
      some { selected := env.routable, referencePrice := e.payload.price, createdAt := env.now } := by
    have hrouted := previewRoute_routing hroute
    rw [hwritten]
    exact hrouted
  have hplaced : db₃.trading.routingDecisions.find o.id = some d := by
    have hledger := congrArg (·.trading.routingDecisions.find o.id) hp.ledger
    exact hledger.trans (Table.find_put_self _ _ _)
  rw [hid, hplaced] at hfound
  obtain rfl := Option.some.inj hfound
  exact ⟨rfl, rfl⟩

theorem Placed.accepted (hp : Placed env user e db db' o r d)
    (hquote : d.referencePrice = e.payload.price ∧ d.createdAt = env.now) :
    Accepted db.trading db'.trading (accountRefOf user) e.payload env.now.date := by
  have ho := hp.order
  unfold eligibleOrder at ho
  rw [recordEligibility_eq] at ho
  have haccount : o.accountRef = accountRefOf user := by rw [ho]; rfl
  have hside : o.side = e.payload.side := by rw [ho]; rfl
  have hinstrument : o.instrumentId = e.payload.instrumentId := by rw [ho]; rfl
  have hquantity : o.quantity = e.payload.quantity := by rw [ho]; rfl
  have horders : db'.trading.orders = db.trading.orders.put o.id o := congrArg (·.trading.orders) hp.ledger
  have hpositions : db'.trading.positions = db.trading.positions := congrArg (·.trading.positions) hp.ledger
  have hrouting : db'.trading.routingDecisions = db.trading.routingDecisions.put o.id d :=
    congrArg (·.trading.routingDecisions) hp.ledger
  have hfree : db.trading.orders.find o.id = none := hp.placement.free
  constructor
  · intro hsame
    rw [horders] at hsame
    have hfound := congrArg (·.find o.id) hsame
    simp only [Table.find_put_self, hfree, reduceCtorEq] at hfound
  · intro ref' instrument
    have hopen : openBuy ref' instrument o ≤
        if e.payload.side = .buy ∧ accountRefOf user = ref' ∧ e.payload.instrumentId = instrument then
          e.payload.quantity else 0 := by
      unfold openBuy
      rw [hside, haccount, hinstrument, hquantity, hp.placement.unfilled, hp.placement.state, sub_zero]
      split
      · next hbuy => rw [if_pos ⟨hbuy.1, hbuy.2.1, hbuy.2.2.1⟩]
      · next hbuy => rw [if_neg fun hmatch => hbuy ⟨hmatch.1, hmatch.2.1, hmatch.2.2, by decide⟩]
    unfold TradingTables.exposure TradingTables.positionAt
    rw [horders, hpositions, Table.sum_put_of_none hfree, ← add_assoc]
    exact add_le_add_right hopen _
  · intro ref' day'
    have hold : db.trading.orders.sum (fun id x => if x.accountRef = ref' then
          ((db.trading.routingDecisions.put o.id d).find id |>.filter (·.createdAt.date = day')).elim 0
            (x.quantity * ·.referencePrice) else 0) = db.trading.acceptedNotional ref' day' := by
      refine Table.sum_congr fun id x hx => ?_
      have hne : id ≠ o.id := by
        rintro rfl
        rw [hfree] at hx
        cases hx
      rw [Table.find_put_of_ne _ _ hne]
      rfl
    change db'.trading.orders.sum (fun id x => if x.accountRef = ref' then
      ((db'.trading.routingDecisions.find id).filter (·.createdAt.date = day')).elim 0
        (x.quantity * ·.referencePrice) else 0) = _
    rw [horders, hrouting, Table.sum_put_of_none hfree, hold, Table.find_put_self, haccount, hquantity,
      Option.filter_some, hquote.2]
    congr 1
    by_cases hday : env.now.date = day'
    · simp [hquote.1, hday]
    · simp [hday]

theorem Inv.createAllowed_accepted (h : Inv db.ledger)
    (hok : createAllowed env user data key correlationId recordGiven db = .ok (reply, db')) :
    Restrained db.trading db'.trading ∨ ∃ payload, normalizedPayload env.settings data = .ok payload ∧
      Accepted db.trading db'.trading (accountRefOf user) payload env.now.date := by
  obtain ⟨⟨a, t⟩, haccount, h₁⟩ := bind_eq_ok.mp hok
  obtain ⟨⟨e, db₁⟩, hevaluate, h₂⟩ := bind_eq_ok.mp h₁
  obtain ⟨_, -, h₃⟩ := bind_eq_ok.mp h₂
  obtain ⟨heff, hadmitted⟩ := h.accountFor_effects (F := Regime.unplaced) haccount
  obtain ⟨heff₁, hevaluated, hpayload⟩ := Inv.evaluate_effects (F := Regime.unplaced) (h.effects heff) hevaluate
  have hrestrained : Restrained db.trading db₁.trading := .of_ledger (h.effects_restrained (heff.trans heff₁))
  have horders : db₁.trading.orders = db.trading.orders := by
    rw [hevaluated.orders]
    change t.orders = _
    rw [hadmitted.only]
  split at h₃
  · have hledger := (refuse_eq (pure_eq_ok.mp h₃)).1
    exact .inl (hrestrained.trans (restrained_of_eq hledger))
  · obtain ⟨⟨stored, db₂⟩, hopen, h₄⟩ := bind_eq_ok.mp h₃
    obtain ⟨htrading, -, -⟩ := openRecord_frame hopen
    cases stored with
    | some body =>
      obtain ⟨-, rfl⟩ := Prod.mk.inj (pure_eq_ok.mp h₄)
      exact .inl (htrading ▸ hrestrained)
    | none =>
      obtain ⟨hstored, hkey, hquantity⟩ := hevaluated.funded
      have hfunded : Funded db₂ user e := ⟨by rw [htrading]; exact hstored, hkey, hquantity⟩
      obtain ⟨o, r, d, hplaced, -⟩ := placeOrder_placed hfunded h₄
      have haccepted := hplaced.accepted (placeOrder_quote hplaced h₄)
      rw [htrading] at haccepted
      exact .inr ⟨e.payload, hpayload, haccepted.after hrestrained horders⟩

theorem Inv.createTransaction_accepted (h : Inv db.ledger)
    (hok : createTransaction env user data key correlationId db = .ok (reply, db')) :
    Restrained db.trading db'.trading ∨ ∃ payload, normalizedPayload env.settings data = .ok payload ∧
      Accepted db.trading db'.trading (accountRefOf user) payload env.now.date := by
  obtain ⟨⟨opened, db₁⟩, hbegin, h₁⟩ := bind_eq_ok.mp hok
  obtain ⟨htrading, -, hledger⟩ := beginIdempotentRequest_frame hbegin
  cases hstored : storedBody opened with
  | some body =>
    simp only [hstored] at h₁
    obtain ⟨-, rfl⟩ := Prod.mk.inj (pure_eq_ok.mp h₁)
    exact .inl (htrading ▸ .refl _)
  | none =>
    simp only [hstored] at h₁
    obtain ⟨⟨e, db₂⟩, hevaluate, h₂⟩ := bind_eq_ok.mp h₁
    obtain ⟨_, -, h₃⟩ := bind_eq_ok.mp h₂
    have h₀ : Inv db₁.ledger := hledger ▸ h
    obtain ⟨heff, hevaluated, -⟩ := h₀.evaluate_effects (F := Regime.unplaced) hevaluate
    have hrestrained : Restrained db₁.trading db₂.trading := .of_ledger (h₀.effects_restrained heff)
    rw [htrading] at hrestrained
    have horders : db₂.trading.orders = db.trading.orders := by rw [hevaluated.orders, htrading]
    split at h₃
    · have hledger' := (refuse_eq (pure_eq_ok.mp h₃)).1
      exact .inl (hrestrained.trans (restrained_of_eq hledger'))
    · rcases (h₀.effects heff).createAllowed_accepted h₃ with hsame | ⟨payload, hpayload, haccepted⟩
      · exact .inl (hrestrained.trans hsame)
      · exact .inr ⟨payload, hpayload, haccepted.after hrestrained horders⟩

end Acceptance

structure Bounded (t : TradingTables) : Prop where
  exposure : ∀ ref instrument, t.exposure ref instrument ≤ positionLimit
  notional : ∀ ref day, t.acceptedNotional ref day ≤ dailyNotionalLimit

section Run

variable {db db' : Database} {t t' : TradingTables} {ref : String} {payload : OrderPayload} {day : Date}
  {call : Call}

theorem Bounded.restrained (h : Bounded t) (hr : Restrained t t') : Bounded t' where
  exposure ref instrument := (hr.exposure ref instrument).trans (h.exposure ref instrument)
  notional ref day := hr.notional ref day ▸ h.notional ref day

theorem Bounded.accepted (h : Bounded t) (ha : Accepted t t' ref payload day)
    (hfits : FitsLimits t ref payload day) : Bounded t' where
  exposure ref' instrument := by
    refine (ha.exposure ref' instrument).trans ?_
    split
    · next hbuy =>
      obtain ⟨hside, rfl, rfl⟩ := hbuy
      exact hfits.position hside
    · rw [add_zero]
      exact h.exposure ref' instrument
  notional ref' day' := by
    rw [ha.notional]
    split
    · next hmatch =>
      obtain ⟨rfl, rfl⟩ := hmatch
      exact hfits.notional
    · rw [add_zero]
      exact h.notional ref' day'

theorem Bounded.created {α : Type} {body : Database → Outcome (α × Database)} {submitted : Outcome OrderPayload}
    (h : Bounded db.trading)
    (hbody : ∀ a db', body db = .ok (a, db') → Restrained db.trading db'.trading ∨
      ∃ payload, submitted = .ok payload ∧ Accepted db.trading db'.trading ref payload day)
    (hfits : (commit body db).trading.orders = db.trading.orders ∨
      ∀ payload, submitted = .ok payload → FitsLimits db.trading ref payload day) : Bounded (commit body db).trading := by
  rcases commit_cases body db with ⟨a, db', hok, hdb⟩ | ⟨-, hdb⟩
  · rw [hdb] at hfits ⊢
    rcases hbody a db' hok with hsame | ⟨payload, hpayload, haccepted⟩
    · exact h.restrained hsame
    · rcases hfits with hsame | hfits
      · exact absurd hsame haccepted.entered
      · exact h.accepted haccepted (hfits payload hpayload)
  · rwa [hdb]

theorem Bounded.unplaced (h : Inv db.ledger) (hb : Bounded db.trading) (hmeets : call.meets Regime.unplaced db) :
    Bounded (step db call).trading :=
  hb.restrained (.of_ledger (h.effects_restrained (h.step_effects hmeets)))

theorem Bounded.step (h : Inv db.ledger) (hb : Bounded db.trading) (hfits : call.fitsLimits db) :
    Bounded (step db call).trading := by
  obtain ⟨env, op⟩ := call
  cases op with
  | createAllowed user data key correlationId recordGiven =>
    exact hb.created (fun _ _ hok => h.createAllowed_accepted hok) hfits
  | createTransaction user data key correlationId =>
    exact hb.created (fun _ _ hok => h.createTransaction_accepted hok) hfits
  | process orderId scenario =>
    exact hb.unplaced h fun _ _ _ _ _ _ _ => fillsIn_of_all (fun _ _ => trivial) _ _ _
  | consume eventId orderId =>
    exact hb.unplaced h fun _ _ _ _ _ _ _ _ => fillsIn_of_all (fun _ _ => trivial) _ _ _
  | execute orderId execution => exact hb.unplaced h fun _ => trivial
  | comply mutation => exact hb.unplaced h fun _ _ => trivial
  | check user => exact hb.unplaced h trivial
  | cancel request => exact hb.unplaced h trivial
  | requestOverride request => exact hb.unplaced h trivial

theorem Bounded.withinLimits (h : Inv db.ledger) (hb : Bounded db.trading) : WithinLimits db.trading where
  position ref instrument := by
    have hopen : 0 ≤ db.trading.orders.sum fun _ o => openBuy ref instrument o :=
      Table.sum_nonneg fun id o ho => openBuy_nonneg (h.fits id o ho)
    have hexposure := hb.exposure ref instrument
    unfold TradingTables.exposure at hexposure
    linarith
  notional := hb.notional

theorem Initial.exposure (h : Initial db) (ref instrument : String) : db.trading.exposure ref instrument = 0 := by
  unfold TradingTables.exposure TradingTables.positionAt
  rw [h.positions, h.orders, Table.find_empty, Table.sum_empty]
  exact add_zero 0

theorem Initial.acceptedNotional (h : Initial db) (ref : String) (day : Date) :
    db.trading.acceptedNotional ref day = 0 := by
  unfold TradingTables.acceptedNotional
  rw [h.orders, Table.sum_empty]

theorem Initial.bounded (h : Initial db) : Bounded db.trading where
  exposure ref instrument := by
    rw [h.exposure]
    norm_num [positionLimit]
  notional ref day := by
    rw [h.acceptedNotional]
    norm_num [dailyNotionalLimit]

theorem limits_hold (hinit : Initial db) (hrun : Reaches Beyvra.step Call.fitsLimits db db') :
    WithinLimits db'.trading := by
  have hboth := hrun.invariant (P := fun d => Inv d.ledger ∧ Bounded d.trading) ⟨hinit.inv, hinit.bounded⟩
    fun d call hd hfits => ⟨hd.1.effects (hd.1.step_effects (meets_any d call)), hd.2.step hd.1 hfits⟩
  exact hboth.2.withinLimits hboth.1

end Run

theorem createTen_fits : Call.fitsLimits freshDatabase createTen := by
  refine .inr fun payload hpayload => ?_
  have hterms : (normalizedPayload createTen.env.settings (buyOrder 10)).map (fun p => (p.quantity, p.price)) =
      .ok (10, 100) := by
    decide +kernel
  rw [show normalizedPayload createTen.env.settings (buyOrder 10) = .ok payload from hpayload] at hterms
  obtain ⟨hquantity, hprice⟩ := Prod.mk.inj (Except.ok.inj hterms)
  constructor
  · intro _
    rw [freshDatabase_initial.exposure, hquantity]
    norm_num [positionLimit]
  · rw [freshDatabase_initial.acceptedNotional, hquantity, hprice]
    norm_num [dailyNotionalLimit]

theorem limits_hold_after_ten : WithinLimits (step (step freshDatabase createTen) (fillTen 100)).trading :=
  limits_hold freshDatabase_initial
    (.tail (.single ⟨createTen, createTen_fits, rfl⟩) ⟨fillTen 100, trivial, rfl⟩)

def buyHundred (suffix : String) : Call where
  env := { fixtureEnv [("BTC-USD", 1)] with uuid4 := fun name => name ++ suffix }
  op := .createAllowed "alice" (buyOrder 100) ("key" ++ suffix) none false

def fillHundred (suffix : String) : Call where
  env := fixtureEnv [("BTC-USD", 1)]
  op := .execute ("TradingOrder" ++ suffix) { executionId := "execution" ++ suffix, quantity := 100, price := 1 }

def boughtTwice : List Call := [buyHundred "1", fillHundred "1", buyHundred "2", fillHundred "2"]

theorem position_limit_passed :
    ¬∀ db db', Initial db → Reaches step (fun _ call => call.op.engine) db db' → WithinLimits db'.trading := by
  intro hclaim
  have hposition : ((boughtTwice.foldl step freshDatabase).trading.positionAt "sim:alice" "BTC-USD").quantity =
      200 := by
    decide +kernel
  have hlimits := hclaim _ (boughtTwice.foldl step freshDatabase) freshDatabase_initial
    (.of_foldl fun _ call hcall => ?_)
  · have hle := hlimits.position "sim:alice" "BTC-USD"
    rw [hposition] at hle
    norm_num [positionLimit] at hle
  · simp only [boughtTwice, List.mem_cons, List.not_mem_nil, or_false] at hcall
    rcases hcall with rfl | rfl | rfl | rfl
    · trivial
    · exact ⟨by norm_num, by norm_num⟩
    · trivial
    · exact ⟨by norm_num, by norm_num⟩

end Beyvra
