import Beyvra.Trading.FinishedOrders

namespace Beyvra

open Numeric Relational

-- A buy that meets a sell: either is a market order, or the buy is willing to pay what the sell asks.
def Crosses (b s : TradingOrder) : Prop :=
  b.orderType = .market ∨ s.orderType = .market ∨
    b.orderType = .limit ∧ s.orderType = .limit ∧
      ∃ bid ask, b.limitPrice = some bid ∧ s.limitPrice = some ask ∧ ask ≤ bid

structure SelfCross (b s : TradingOrder) : Prop where
  account : b.accountRef = s.accountRef
  instrument : b.instrumentId = s.instrumentId
  buy : b.side = .buy
  sell : s.side = .sell
  simulated : b.simulation = true ∧ s.simulation = true
  working : b.state ∈ selfTradeStates ∧ s.state ∈ selfTradeStates
  crosses : Crosses b s

def Uncrossed (orders : Table Uuid TradingOrder) : Prop :=
  ∀ id id' b s, orders.find id = some b → orders.find id' = some s → ¬SelfCross b s

def Call.prevents (call : Call) : Prop := call.env.settings.selfTradePreventionEnabled = true

-- The limit price as its column keeps it meets no resting order that the one sent did not meet.
def KeepsApart (env : Env) (user : String) (data : OrderRequest) (t : TradingTables) : Prop :=
  ∀ payload, normalizedPayload env.settings data = .ok payload →
    restingCross t defaultTenant (accountRefOf user) payload = none →
      restingCross t defaultTenant (accountRefOf user) payload.stored = none

def Call.priced (db : Database) (call : Call) : Prop :=
  match call.op with
  | .createAllowed user data _ _ _ => KeepsApart call.env user data db.trading
  | .createTransaction user data _ _ => KeepsApart call.env user data db.trading
  | _ => True

-- The order may have left the working states, but has neither entered them nor changed its terms.
structure Aged (o o' : TradingOrder) : Prop where
  side : o'.side = o.side
  account : o'.accountRef = o.accountRef
  instrument : o'.instrumentId = o.instrumentId
  simulation : o'.simulation = o.simulation
  orderType : o'.orderType = o.orderType
  limitPrice : o'.limitPrice = o.limitPrice
  working : o'.state ∈ selfTradeStates → o.state ∈ selfTradeStates

def OrdersAged (orders orders' : Table Uuid TradingOrder) : Prop :=
  ∀ id o', orders'.find id = some o' → ∃ o, orders.find id = some o ∧ Aged o o'

section Aging

variable {orders orders' orders'' : Table Uuid TradingOrder} {o o' o'' b s b' s' : TradingOrder}
  {r r' : SimulatedReservation} {e : SimulatedExecution} {id : Uuid}

theorem Aged.refl (o : TradingOrder) : Aged o o := ⟨rfl, rfl, rfl, rfl, rfl, rfl, id⟩

theorem Aged.trans (h : Aged o o') (h' : Aged o' o'') : Aged o o'' where
  side := h'.side.trans h.side
  account := h'.account.trans h.account
  instrument := h'.instrument.trans h.instrument
  simulation := h'.simulation.trans h.simulation
  orderType := h'.orderType.trans h.orderType
  limitPrice := h'.limitPrice.trans h.limitPrice
  working hstate := h.working (h'.working hstate)

theorem Aged.of_working (h : o.state ∈ selfTradeStates) {state : OrderState} {updatedAt : Timestamp} :
    Aged o { o with state, updatedAt } := ⟨rfl, rfl, rfl, rfl, rfl, rfl, fun _ => h⟩

theorem Aged.of_finished {state : OrderState} {updatedAt : Timestamp} (h : state ∉ selfTradeStates) :
    Aged o { o with state, updatedAt } := ⟨rfl, rfl, rfl, rfl, rfl, rfl, fun hstate => absurd hstate h⟩

theorem OrderMove.aged (h : OrderMove o r o' r') : Aged o o' := by
  cases h with
  | accept now hs => exact .of_working (by rw [hs]; decide)
  | opened now hs => exact .of_working (by rw [hs]; decide)
  | reject now hs => exact .of_finished (by decide)
  | expire now hs => exact .of_finished (by decide)
  | cancel now hs => exact .of_finished (by decide)

theorem AcceptsFill.aged (h : AcceptsFill o r e) (now : Timestamp) : Aged o (filledOrder o e now) :=
  ⟨rfl, rfl, rfl, rfl, rfl, rfl, fun _ => h.state⟩

theorem invalidateIf_aged (env : Env) (change : ProfileChange) (o : TradingOrder) :
    Aged o (invalidateIf env change o) := by
  rcases invalidateIf_cases env change o with h | ⟨hs, h⟩
  · rw [h]
    exact .refl o
  · rw [h]
    exact ⟨rfl, rfl, rfl, rfl, rfl, rfl, fun _ => by rw [hs]; decide⟩

theorem OrdersAged.of_eq (h : orders' = orders) : OrdersAged orders orders' := by
  subst h
  exact fun id o ho => ⟨o, ho, .refl o⟩

theorem OrdersAged.trans (h : OrdersAged orders orders') (h' : OrdersAged orders' orders'') :
    OrdersAged orders orders'' := by
  intro id o'' ho''
  obtain ⟨o', ho', haged'⟩ := h' id o'' ho''
  obtain ⟨o, ho, haged⟩ := h id o' ho'
  exact ⟨o, ho, haged.trans haged'⟩

theorem OrdersAged.of_put (ho : orders.find id = some o) (h : Aged o o') :
    OrdersAged orders (orders.put id o') := by
  intro k x hx
  rcases Table.find_put_cases hx with ⟨rfl, rfl⟩ | ⟨-, hx'⟩
  · exact ⟨o, ho, h⟩
  · exact ⟨x, hx', .refl x⟩

theorem SelfCross.aged (hb : Aged b b') (hs : Aged s s') (h : SelfCross b' s') : SelfCross b s where
  account := by rw [← hb.account, ← hs.account, h.account]
  instrument := by rw [← hb.instrument, ← hs.instrument, h.instrument]
  buy := hb.side ▸ h.buy
  sell := hs.side ▸ h.sell
  simulated := ⟨hb.simulation ▸ h.simulated.1, hs.simulation ▸ h.simulated.2⟩
  working := ⟨hb.working h.working.1, hs.working h.working.2⟩
  crosses := by
    have hcrosses := h.crosses
    unfold Crosses at hcrosses ⊢
    rwa [hb.orderType, hs.orderType, hb.limitPrice, hs.limitPrice] at hcrosses

theorem Uncrossed.aged (h : Uncrossed orders) (haged : OrdersAged orders orders') : Uncrossed orders' := by
  intro id id' b' s' hb' hs' hcross
  obtain ⟨b, hb, hbaged⟩ := haged id b' hb'
  obtain ⟨s, hs, hsaged⟩ := haged id' s' hs'
  exact h id id' b s hb hs (hcross.aged hbaged hsaged)

end Aging

-- The effects of the calls that create no order.
def Regime.unplaced : Regime := ⟨fun _ => False, fun _ _ _ => True, fun _ _ => True⟩

section Effects

variable {l l' : Ledger}

theorem Inv.effect_aged (h : Inv l) (he : Effect Regime.unplaced l l') :
    OrdersAged l.trading.orders l'.trading.orders := by
  cases he with
  | enrolled ref a hn => exact .of_eq rfl
  | identified ref i a ha hm => exact .of_eq rfl
  | placed o r a d hp hF => exact hF.elim
  | moved id o o' r r' ho hr hm => exact .of_put ho hm.aged
  | closed id o o' r r' e event ho hr hm hnone => exact .of_put ho hm.aged
  | filled id o r a e now event l' ho hr ha hnone hf hF hbooks htrading hprocessed =>
    have hkeyed := (h.backing ho hr).keyed
    rw [htrading]
    rw [← hkeyed] at ho
    exact .of_put ho (hf.aged now)
  | invalidated env change hF =>
    intro k x hx
    obtain ⟨y, hy, rfl⟩ := (relabelled_invalidate env change l.trading).back hx
    exact ⟨y, hy, invalidateIf_aged env change y⟩
  | consumed key event hne => exact .of_eq rfl

theorem Inv.effects_aged (h : Inv l) (he : Effects Regime.unplaced l l') :
    OrdersAged l.trading.orders l'.trading.orders := by
  induction he with
  | refl => exact .of_eq rfl
  | tail hprefix hlast ih => exact ih.trans ((h.effects hprefix).effect_aged hlast)

end Effects

section Admission

variable {env : Env} {user : String} {data : OrderRequest} {key : String} {t : TradingTables}
  {correlationId : Option CorrelationRef} {recordGiven : Bool} {reply : CreateReply} {db db' : Database}
  {payload : OrderPayload} {tenantRef accountRef : String} {o : TradingOrder}

theorem surveilOrder_allow {s : SurveillanceTables} (hprevents : env.settings.selfTradePreventionEnabled = true)
    (h : (surveilOrder env s t tenantRef accountRef payload).decision = .allow) :
    restingCross t tenantRef accountRef payload = none := by
  cases hcross : restingCross t tenantRef accountRef payload with
  | none => rfl
  | some resting =>
    unfold surveilOrder at h
    dsimp only at h
    split at h
    · cases h
    · split at h
      · split at h <;> cases h
      · rw [if_pos ⟨hprevents, by rw [hcross]; rfl⟩] at h
        cases h

theorem restingCross_congr {t' : TradingTables} (h : t'.orders = t.orders) :
    restingCross t' tenantRef accountRef payload = restingCross t tenantRef accountRef payload := by
  unfold restingCross
  rw [h]

-- What the creation of an order puts into the book.
structure Entered (orders : Table Uuid TradingOrder) (t : TradingTables) (payload : OrderPayload)
    (o : TradingOrder) : Prop where
  book : orders = t.orders.put o.id o
  unmatched : restingCross t defaultTenant o.accountRef payload = none
  side : o.side = payload.side
  instrument : o.instrumentId = payload.instrumentId
  orderType : o.orderType = payload.orderType
  limitPrice : o.limitPrice = payload.limitPrice

theorem KeepsApart.of_orders {t' : TradingTables} (horders : t'.orders = t.orders) (h : KeepsApart env user data t) :
    KeepsApart env user data t' := by
  intro payload hpayload hnone
  rw [restingCross_congr horders] at hnone ⊢
  exact h payload hpayload hnone

theorem evaluate_unmatched {e : Evaluation} (hprevents : env.settings.selfTradePreventionEnabled = true)
    (hapart : KeepsApart env user data db'.trading) (hok : evaluate env user data db = .ok (e, db'))
    (hkey : e.account.accountRef = accountRefOf user) (hallow : e.surveillance.decision = .allow) :
    restingCross db'.trading defaultTenant (accountRefOf user) e.payload.stored = none := by
  obtain ⟨payload, account, t, identity, t', hpayload, -, -, rfl, rfl⟩ := evaluate_eq_ok.mp hok
  have hnone := surveilOrder_allow hprevents hallow
  rw [hkey] at hnone
  exact hapart payload hpayload hnone

theorem Placed.entered {e : Evaluation} {o : TradingOrder} {r : SimulatedReservation} {d : RoutingDecision}
    (h : Placed env user e db db' o r d)
    (hunmatched : restingCross db.trading defaultTenant (accountRefOf user) e.payload.stored = none) :
    Entered db'.trading.orders db.trading e.payload.stored o := by
  have ho := h.order
  unfold eligibleOrder at ho
  rw [recordEligibility_eq] at ho
  have haccount : o.accountRef = accountRefOf user := by rw [ho]; rfl
  exact
    { book := congrArg (·.trading.orders) h.ledger
      unmatched := haccount ▸ hunmatched
      side := by rw [ho]; rfl
      instrument := by rw [ho]; rfl
      orderType := by rw [ho]; rfl
      limitPrice := by rw [ho]; rfl }

theorem Entered.of_orders {orders : Table Uuid TradingOrder} {t' : TradingTables} (horders : t.orders = t'.orders)
    (h : Entered orders t payload o) : Entered orders t' payload o where
  book := horders ▸ h.book
  unmatched := restingCross_congr horders ▸ h.unmatched
  side := h.side
  instrument := h.instrument
  orderType := h.orderType
  limitPrice := h.limitPrice

theorem Inv.createAllowed_entered (h : Inv db.ledger)
    (hprevents : env.settings.selfTradePreventionEnabled = true) (hapart : KeepsApart env user data db.trading)
    (hok : createAllowed env user data key correlationId recordGiven db = .ok (reply, db')) :
    db'.trading.orders = db.trading.orders ∨ ∃ payload o, Entered db'.trading.orders db.trading payload o := by
  obtain ⟨⟨a, t⟩, haccount, h₁⟩ := bind_eq_ok.mp hok
  obtain ⟨⟨e, db₁⟩, hevaluate, h₂⟩ := bind_eq_ok.mp h₁
  obtain ⟨_, -, h₃⟩ := bind_eq_ok.mp h₂
  obtain ⟨heff, hadmitted⟩ := h.accountFor_effects (F := Regime.any) haccount
  obtain ⟨-, hevaluated, -⟩ := Inv.evaluate_effects (F := Regime.any) (h.effects heff) hevaluate
  have horders : db₁.trading.orders = db.trading.orders := by
    rw [hevaluated.orders]
    change t.orders = _
    rw [hadmitted.only]
  split at h₃
  · have hledger := (refuse_eq (pure_eq_ok.mp h₃)).1
    exact .inl ((congrArg (·.trading.orders) hledger).trans horders)
  · rename_i hallow
    obtain ⟨⟨stored, db₂⟩, hopen, h₄⟩ := bind_eq_ok.mp h₃
    obtain ⟨htrading, -, -⟩ := openRecord_frame hopen
    have horders₂ : db₂.trading.orders = db.trading.orders := by rw [htrading, horders]
    cases stored with
    | some body =>
      obtain ⟨-, rfl⟩ := Prod.mk.inj (pure_eq_ok.mp h₄)
      exact .inl horders₂
    | none =>
      obtain ⟨hstored, hkey, hquantity⟩ := hevaluated.funded
      have hfunded : Funded db₂ user e := ⟨by rw [htrading]; exact hstored, hkey, hquantity⟩
      obtain ⟨o, r, d, hplaced, -⟩ := placeOrder_placed hfunded h₄
      have hunmatched := evaluate_unmatched hprevents (hapart.of_orders horders) hevaluate hkey (not_not.mp hallow)
      rw [← htrading] at hunmatched
      exact .inr ⟨e.payload.stored, o, (hplaced.entered hunmatched).of_orders horders₂⟩

theorem Inv.createTransaction_entered (h : Inv db.ledger)
    (hprevents : env.settings.selfTradePreventionEnabled = true) (hapart : KeepsApart env user data db.trading)
    (hok : createTransaction env user data key correlationId db = .ok (reply, db')) :
    db'.trading.orders = db.trading.orders ∨ ∃ payload o, Entered db'.trading.orders db.trading payload o := by
  obtain ⟨⟨opened, db₁⟩, hbegin, h₁⟩ := bind_eq_ok.mp hok
  obtain ⟨htrading, -, hledger⟩ := beginIdempotentRequest_frame hbegin
  cases hstored : storedBody opened with
  | some body =>
    simp only [hstored] at h₁
    obtain ⟨-, rfl⟩ := Prod.mk.inj (pure_eq_ok.mp h₁)
    exact .inl (by rw [htrading])
  | none =>
    simp only [hstored] at h₁
    obtain ⟨⟨e, db₂⟩, hevaluate, h₂⟩ := bind_eq_ok.mp h₁
    obtain ⟨_, -, h₃⟩ := bind_eq_ok.mp h₂
    have h₀ : Inv db₁.ledger := hledger ▸ h
    obtain ⟨heff, hevaluated, -⟩ := h₀.evaluate_effects (F := Regime.any) hevaluate
    have horders : db₂.trading.orders = db.trading.orders := by rw [hevaluated.orders, htrading]
    split at h₃
    · have hledger' := (refuse_eq (pure_eq_ok.mp h₃)).1
      exact .inl ((congrArg (·.trading.orders) hledger').trans horders)
    · have hentered := Inv.createAllowed_entered (h₀.effects heff) hprevents (hapart.of_orders horders) h₃
      rw [horders] at hentered
      refine hentered.imp_right fun ⟨payload, o, hputs⟩ => ⟨payload, o, hputs.of_orders horders⟩

end Admission

section Matching

variable {t : TradingTables} {payload : OrderPayload} {o resting : TradingOrder} {id : Uuid}
  {orders : Table Uuid TradingOrder}

theorem not_crosses_of_unmatched {tenantRef accountRef : String}
    (hnone : restingCross t tenantRef accountRef payload = none) (hresting : t.orders.find id = some resting)
    (htenant : resting.tenantRef = tenantRef) (haccount : resting.accountRef = accountRef)
    (hinstrument : resting.instrumentId = payload.instrumentId) (hside : resting.side = payload.side.opposite)
    (hworking : resting.state ∈ selfTradeStates) (hsimulation : resting.simulation = true) :
    orderCrosses payload resting = false := by
  have hmem : resting ∈ t.orders.values := Table.mem_values_iff.mpr ⟨id, hresting⟩
  have hpredicate := List.find?_eq_none.mp hnone resting hmem
  simpa [htenant, haccount, hinstrument, hside, hworking, hsimulation] using hpredicate

theorem orderCrosses_of_buy (hside : payload.side = .buy) (htype : o.orderType = payload.orderType)
    (hlimit : o.limitPrice = payload.limitPrice) (h : Crosses o resting) : orderCrosses payload resting = true := by
  unfold orderCrosses
  rcases h with hmarket | hmarket | ⟨hbuy, hsell, bid, ask, hbid, hask, hle⟩
  · rw [if_pos (.inl (htype ▸ hmarket))]
  · rw [if_pos (.inr hmarket)]
  · rw [htype] at hbuy
    rw [hlimit] at hbid
    simp [hbuy, hsell, hside, hbid, hask, hle]

theorem orderCrosses_of_sell (hside : payload.side = .sell) (htype : o.orderType = payload.orderType)
    (hlimit : o.limitPrice = payload.limitPrice) (h : Crosses resting o) : orderCrosses payload resting = true := by
  unfold orderCrosses
  rcases h with hmarket | hmarket | ⟨hbuy, hsell, bid, ask, hbid, hask, hle⟩
  · rw [if_pos (.inr hmarket)]
  · rw [if_pos (.inl (htype ▸ hmarket))]
  · rw [htype] at hsell
    rw [hlimit] at hask
    simp [hbuy, hsell, hside, hbid, hask, hle]

theorem Entered.uncrossed (hentered : Entered orders t payload o) (h : Uncrossed t.orders)
    (htenant : ∀ id o, t.orders.find id = some o → o.tenantRef = defaultTenant) : Uncrossed orders := by
  intro id id' b s hb hs hcross
  rw [hentered.book] at hb hs
  rcases Table.find_put_cases hb with ⟨-, rfl⟩ | ⟨-, hb'⟩
  · have hbuy : payload.side = .buy := hentered.side.symm.trans hcross.buy
    rcases Table.find_put_cases hs with ⟨-, rfl⟩ | ⟨-, hs'⟩
    · have hside := hcross.buy
      rw [hcross.sell] at hside
      cases hside
    · have hcrosses := orderCrosses_of_buy hbuy hentered.orderType hentered.limitPrice hcross.crosses
      rw [not_crosses_of_unmatched hentered.unmatched hs' (htenant id' s hs') hcross.account.symm
        (hcross.instrument.symm.trans hentered.instrument) (by rw [hcross.sell, hbuy]; rfl)
        hcross.working.2 hcross.simulated.2] at hcrosses
      cases hcrosses
  · rcases Table.find_put_cases hs with ⟨-, rfl⟩ | ⟨-, hs'⟩
    · have hsell : payload.side = .sell := hentered.side.symm.trans hcross.sell
      have hcrosses := orderCrosses_of_sell hsell hentered.orderType hentered.limitPrice hcross.crosses
      rw [not_crosses_of_unmatched hentered.unmatched hb' (htenant id b hb') hcross.account
        (hcross.instrument.trans hentered.instrument) (by rw [hcross.buy, hsell]; rfl)
        hcross.working.1 hcross.simulated.1] at hcrosses
      cases hcrosses
    · exact h id id' b s hb' hs' hcross

end Matching

section Run

variable {db db' : Database} {call : Call}

theorem Inv.tenant (h : Inv db.ledger) (id : Uuid) (o : TradingOrder)
    (ho : db.trading.orders.find id = some o) : o.tenantRef = defaultTenant := by
  obtain ⟨r, -, hb⟩ := h.backed id o ho
  exact hb.tenant

theorem Uncrossed.created {α : Type} {body : Database → Outcome (α × Database)} (h : Inv db.ledger)
    (hu : Uncrossed db.trading.orders)
    (hbody : ∀ a db', body db = .ok (a, db') → db'.trading.orders = db.trading.orders ∨
      ∃ payload o, Entered db'.trading.orders db.trading payload o) :
    Uncrossed (commit body db).trading.orders := by
  rcases commit_cases body db with ⟨a, db', hok, hdb⟩ | ⟨-, hdb⟩
  · rw [hdb]
    rcases hbody a db' hok with hsame | ⟨payload, o, hentered⟩
    · rwa [hsame]
    · exact hentered.uncrossed hu h.tenant
  · rwa [hdb]

theorem Uncrossed.unplaced (h : Inv db.ledger) (hu : Uncrossed db.trading.orders)
    (hmeets : call.meets Regime.unplaced db) : Uncrossed (step db call).trading.orders :=
  hu.aged (h.effects_aged (h.step_effects hmeets))

theorem Uncrossed.step (h : Inv db.ledger) (hu : Uncrossed db.trading.orders) (hprevents : call.prevents)
    (hpriced : call.priced db) : Uncrossed (step db call).trading.orders := by
  obtain ⟨env, op⟩ := call
  cases op with
  | createAllowed user data key correlationId recordGiven =>
    exact hu.created h fun _ _ hok => h.createAllowed_entered hprevents hpriced hok
  | createTransaction user data key correlationId =>
    exact hu.created h fun _ _ hok => h.createTransaction_entered hprevents hpriced hok
  | process orderId scenario =>
    exact hu.unplaced h fun _ _ _ _ _ _ _ => fillsIn_of_all (fun _ _ => trivial) _ _ _
  | consume eventId orderId =>
    exact hu.unplaced h fun _ _ _ _ _ _ _ _ => fillsIn_of_all (fun _ _ => trivial) _ _ _
  | execute orderId execution => exact hu.unplaced h fun _ => trivial
  | comply mutation => exact hu.unplaced h fun _ _ => trivial
  | check user => exact hu.unplaced h trivial
  | cancel request => exact hu.unplaced h trivial
  | requestOverride request => exact hu.unplaced h trivial

theorem no_self_trade (hinit : Initial db)
    (hrun : Reaches step (fun db call => call.prevents ∧ call.priced db) db db') : Uncrossed db'.trading.orders := by
  have hstart : Uncrossed db.trading.orders := by
    intro id id' b s hb
    rw [hinit.orders] at hb
    cases hb
  have hboth := hrun.invariant (P := fun d => Inv d.ledger ∧ Uncrossed d.trading.orders)
    ⟨hinit.inv, hstart⟩ fun d call hd hcall =>
      ⟨hd.1.effects (hd.1.step_effects (meets_any d call)), hd.2.step hd.1 hcall.1 hcall.2⟩
  exact hboth.2

-- A price of at most 18 decimals is stored as it is.
theorem keepsApart_of_decimals {env : Env} {user : String} {data : OrderRequest} (t : TradingTables)
    (h : ∀ limit, data.limitPrice = some limit → IsMultiple orderColumn.unit limit) : KeepsApart env user data t := by
  intro payload hpayload hnone
  have hstored : payload.stored = payload := by
    cases hlimit : payload.limitPrice with
    | none => rw [OrderPayload.stored, hlimit, Option.map_none, ← hlimit]
    | some limit =>
      have hsame := roundTo_of_isMultiple Column.unit_pos.ne' halfUp_intCast (h limit (normalizedPayload_limit hpayload hlimit))
      rw [OrderPayload.stored, hlimit, Option.map_some, hsame, ← hlimit]
  rwa [hstored]

end Run

def limitOrder (suffix side : String) (quantity limitPrice : ℚ) : Call where
  env := { fixtureEnv [("BTC-USD", 100)] with uuid4 := fun name => name ++ suffix }
  op := .createAllowed "alice"
    { instrument := "BTC-USD", side, orderType := "LIMIT", quantity := some quantity
      limitPrice := some limitPrice } ("key" ++ suffix) none false

-- The third order would meet the resting sell and is refused.
def quoteBothSides : List Call :=
  [createTen, fillTen 100, limitOrder "2" "SELL" 5 104, limitOrder "3" "BUY" 5 105, limitOrder "4" "BUY" 5 96]

theorem no_self_trade_between_quotes :
    ((quoteBothSides.foldl step freshDatabase).trading.orders.values.filter (·.state ∈ selfTradeStates)).map
        (fun o => (o.side, o.limitPrice)) = [(.sell, some 104), (.buy, some 96)] ∧
      Uncrossed (quoteBothSides.foldl step freshDatabase).trading.orders := by
  refine ⟨by decide +kernel, no_self_trade freshDatabase_initial (.of_foldl fun db call hcall => ?_)⟩
  have hwhole : ∀ (n : Nat) (limit : ℚ), (some (n : ℚ)) = some limit → IsMultiple orderColumn.unit limit := by
    rintro n limit ⟨⟩
    refine ⟨n * 10 ^ 18, ?_⟩
    norm_num [orderColumn, Column.unit]
    ring
  simp only [quoteBothSides, List.mem_cons, List.not_mem_nil, or_false] at hcall
  rcases hcall with rfl | rfl | rfl | rfl | rfl
  · exact ⟨rfl, keepsApart_of_decimals _ fun _ h => by cases h⟩
  · exact ⟨rfl, trivial⟩
  · exact ⟨rfl, keepsApart_of_decimals _ (hwhole 104)⟩
  · exact ⟨rfl, keepsApart_of_decimals _ (hwhole 105)⟩
  · exact ⟨rfl, keepsApart_of_decimals _ (hwhole 96)⟩

-- The bid stays below the ask as it is sent and reaches it when its column has rounded it.
def quoteBelowUnit : List Call :=
  [createTen, fillTen 100, limitOrder "2" "SELL" 5 (104 + 1 / 10 ^ 18), limitOrder "3" "BUY" 5 (104 + 6 / 10 ^ 19)]

-- What of an order decides whether it crosses another one
structure Quote where
  accountRef : String
  instrumentId : String
  simulation : Bool
  state : OrderState
  orderType : OrderType
  side : OrderSide
  limitPrice : Option ℚ
  deriving DecidableEq

def TradingOrder.quote (o : TradingOrder) : Quote :=
  ⟨o.accountRef, o.instrumentId, o.simulation, o.state, o.orderType, o.side, o.limitPrice⟩

theorem rounded_bid_crosses : (∀ call ∈ quoteBelowUnit, call.prevents) ∧
    ¬Uncrossed (quoteBelowUnit.foldl step freshDatabase).trading.orders := by
  constructor
  · intro call hcall
    simp only [quoteBelowUnit, List.mem_cons, List.not_mem_nil, or_false] at hcall
    rcases hcall with rfl | rfl | rfl | rfl <;> rfl
  · intro h
    have hask : ((quoteBelowUnit.foldl step freshDatabase).trading.orders.find "TradingOrder2").map (·.quote) =
        some ⟨"sim:alice", "BTC-USD", true, .pending, .limit, .sell, some (104 + 1 / 10 ^ 18)⟩ := by decide +kernel
    have hbid : ((quoteBelowUnit.foldl step freshDatabase).trading.orders.find "TradingOrder3").map (·.quote) =
        some ⟨"sim:alice", "BTC-USD", true, .pending, .limit, .buy, some (104 + 1 / 10 ^ 18)⟩ := by decide +kernel
    obtain ⟨s, hs, hask⟩ := Option.map_eq_some_iff.mp hask
    obtain ⟨b, hb, hbid⟩ := Option.map_eq_some_iff.mp hbid
    simp only [TradingOrder.quote, Quote.mk.injEq] at hask hbid
    obtain ⟨haccount, hinstrument, hsimulation, hstate, htype, hside, hprice⟩ := hask
    obtain ⟨haccount', hinstrument', hsimulation', hstate', htype', hside', hprice'⟩ := hbid
    exact h "TradingOrder3" "TradingOrder2" b s hb hs
      { account := haccount'.trans haccount.symm
        instrument := hinstrument'.trans hinstrument.symm
        buy := hside'
        sell := hside
        simulated := ⟨hsimulation', hsimulation⟩
        working := ⟨hstate' ▸ by decide, hstate ▸ by decide⟩
        crosses := .inr (.inr ⟨htype', htype, _, _, hprice', hprice, le_rfl⟩) }

end Beyvra
