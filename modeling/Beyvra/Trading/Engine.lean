import Beyvra.Trading.Creation

namespace Beyvra

open Relational

inductive Op where
  | check (user : String)
  | createAllowed (user : String) (data : OrderRequest) (key : String)
    (correlationId : Option CorrelationRef) (recordGiven : Bool)
  | createTransaction (user : String) (data : OrderRequest) (key : String)
    (correlationId : Option CorrelationRef)
  | process (orderId : Uuid) (scenario : Option Scenario)
  | consume (eventId orderId : Uuid)
  | execute (orderId : Uuid) (execution : SimulatedExecution)
  | cancel (request : CancelRequest)
  | comply (mutation : Mutation)
  | requestOverride (request : OverrideRequest)

structure Call where
  env : Env
  op : Op

def step (db : Database) (call : Call) : Database :=
  let env := call.env
  match call.op with
  | .check user => (checkEligibility env user db).2
  | .createAllowed user data key correlationId recordGiven =>
    commit (createAllowed env user data key correlationId recordGiven) db
  | .createTransaction user data key correlationId =>
    commit (createTransaction env user data key correlationId) db
  | .process orderId scenario => commitState (processCreatedOrder env orderId scenario) db
  | .consume eventId orderId => commit (consumeOrderCreated env eventId orderId) db
  | .execute orderId execution => commit (applyExecution env orderId execution) db
  | .cancel request => cancel env request db
  | .comply mutation => commitState (mutation.run env) db
  | .requestOverride request =>
    { db with compliance := commitState (requestOverride env request) db.compliance }

def FillsIn (F : Regime) (env : Env) (id : Uuid) :
    List SimulatedExecution → Database → Prop
  | [], _ => True
  | e :: es, db => (e.outcome = .fill → F.fill db.ledger id e) ∧
    ∀ consumed db', applyExecution env id e db = .ok (consumed, db') → FillsIn F env id es db'

def ProcessFills (F : Regime) (env : Env) (id : Uuid)
    (scenario : Option Scenario) (db : Database) : Prop :=
  ∀ o order db' executions, fetchOrder id db = .ok o →
    acceptCreated env (orderCorrelation env db o) (scenario.getD env.settings.simulatedExecutionScenario) o
      db = .ok (order, db') →
    submitOrder env.settings (scenario.getD env.settings.simulatedExecutionScenario) order =
      .ok executions → FillsIn F env id executions db'

-- Each fill that the call delivers is judged in the state it is delivered to.
def Call.meets (F : Regime) (db : Database) (call : Call) : Prop :=
  match call.op with
  | .createAllowed _ data _ _ _ =>
    ∀ payload, normalizedPayload call.env.settings data = .ok payload → F.instrument payload.instrumentId
  | .createTransaction _ data _ _ =>
    ∀ payload, normalizedPayload call.env.settings data = .ok payload → F.instrument payload.instrumentId
  | .process orderId scenario => ProcessFills F call.env orderId scenario db
  | .consume eventId orderId =>
    db.foundation.processedEvents.find (eventId, "simulated-order-router-v1") = none →
      ProcessFills F call.env orderId none db
  | .execute orderId execution => execution.outcome = .fill → F.fill db.ledger orderId execution
  | .comply mutation =>
    ∀ change, mutation.change call.env db.compliance = .ok (some change) → F.change call.env change
  | _ => True

section Process

variable {F : Regime} {env : Env} {db db' : Database} {id : Uuid}
  {o o' : TradingOrder} {r : SimulatedReservation} {correlation : Uuid}

theorem saveOrder_eq_update {l : Ledger} (hr : l.trading.reservations.find id = some r) :
    l.saveOrder id o = l.withTrading (l.trading.update id o r) := by
  unfold Ledger.saveOrder TradingTables.update
  rw [Table.put_self _ hr]

theorem Inv.move_effect {now : Timestamp} {state : OrderState} (h : Inv db.ledger)
    (ho : db.trading.orders.find id = some o)
    (hmove : ∀ r, OrderMove o r { o with state, updatedAt := now } r) :
    Effect F db.ledger (db.saveOrder { o with state, updatedAt := now }).ledger := by
  obtain ⟨r, hr, hb⟩ := h.backed id o ho
  obtain rfl := hb.keyed
  rw [ledger_saveOrder, saveOrder_eq_update hr]
  exact .moved o.id o _ r r ho hr (hmove r)

theorem Inv.acceptCreated_effects (h : Inv db.ledger) {scenario : Scenario}
    (ho : db.trading.orders.find id = some o)
    (hok : acceptCreated env correlation scenario o db = .ok (o', db')) :
    Effects F db.ledger db'.ledger := by
  unfold acceptCreated at hok
  split at hok
  · rename_i hpending
    obtain ⟨state, hstate, h₁⟩ := bind_eq_ok.mp hok
    obtain ⟨-, rfl⟩ := transitionOrder_eq_ok.mp hstate
    obtain ⟨rfl, rfl⟩ := Prod.mk.inj (pure_eq_ok.mp h₁)
    exact .single (h.move_effect ho fun r => .accept env.now hpending.1)
  · obtain ⟨rfl, rfl⟩ := Prod.mk.inj (pure_eq_ok.mp hok)
    exact .refl

theorem Inv.openAccepted_effects (h : Inv db.ledger) (ho : db.trading.orders.find id = some o)
    (hok : openAccepted env correlation o db = .ok db') : Effects F db.ledger db'.ledger := by
  unfold openAccepted at hok
  split at hok
  · rename_i haccepted
    obtain ⟨state, hstate, h₁⟩ := bind_eq_ok.mp hok
    obtain ⟨-, rfl⟩ := transitionOrder_eq_ok.mp hstate
    obtain rfl := pure_eq_ok.mp h₁
    exact .single (h.move_effect ho fun r => .opened env.now haccepted)
  · obtain rfl := pure_eq_ok.mp hok
    exact .refl

theorem Inv.applyExecutions_effects {executions : List SimulatedExecution} (h : Inv db.ledger)
    (hF : FillsIn F env id executions db) (hok : applyExecutions env id executions db = .ok db') :
    Effects F db.ledger db'.ledger := by
  induction executions generalizing db with
  | nil =>
    obtain rfl := pure_eq_ok.mp hok
    exact .refl
  | cons e es ih =>
    obtain ⟨⟨consumed, db₁⟩, happly, hrest⟩ := bind_eq_ok.mp hok
    have hhead := h.applyExecution_effects happly hF.1
    exact hhead.trans (ih (h.effects hhead) (hF.2 consumed db₁ happly) hrest)

theorem Inv.processCreatedOrder_effects {scenario : Option Scenario} (h : Inv db.ledger)
    (hF : ProcessFills F env id scenario db)
    (hok : processCreatedOrder env id scenario db = .ok db') : Effects F db.ledger db'.ledger := by
  obtain ⟨o, hfetch, h₁⟩ := bind_eq_ok.mp hok
  obtain ⟨⟨order, db₁⟩, haccept, h₂⟩ := bind_eq_ok.mp h₁
  obtain ⟨executions, hsubmit, h₃⟩ := bind_eq_ok.mp h₂
  obtain ⟨db₂, happly, h₄⟩ := bind_eq_ok.mp h₃
  obtain ⟨o₂, hfetch₂, hopen⟩ := bind_eq_ok.mp h₄
  have heff := h.acceptCreated_effects (F := F) (fetchOrder_eq_ok.mp hfetch).1 haccept
  have hinv := h.effects heff
  have heff₁ := hinv.applyExecutions_effects (hF o order db₁ executions hfetch haccept hsubmit) happly
  have heff₂ := (hinv.effects heff₁).openAccepted_effects (F := F) (fetchOrder_eq_ok.mp hfetch₂).1 hopen
  exact (heff.trans heff₁).trans heff₂

theorem routerConsumer_ne : "simulated-order-router-v1" ≠ executionConsumer := by
  decide

theorem Inv.consumeOrderCreated_effects {eventId : Uuid} {consumed : Bool} (h : Inv db.ledger)
    (hF : db.foundation.processedEvents.find (eventId, "simulated-order-router-v1") = none →
      ProcessFills F env id none db)
    (hok : consumeOrderCreated env eventId id db = .ok (consumed, db')) :
    Effects F db.ledger db'.ledger := by
  rcases consumeOnce_cases hok with ⟨-, rfl, -⟩ | ⟨-, hnone, written, hprocess, -, rfl⟩
  · exact .refl
  · have heff := h.processCreatedOrder_effects (hF hnone) hprocess
    exact heff.tail (.consumed _ _ routerConsumer_ne)

end Process

section Cancel

variable {F : Regime} {env : Env} {db db' : Database}
  {request : CancelRequest} {o : TradingOrder} {r : SimulatedReservation}

structure Cancelled (env : Env) (db db' : Database) (request : CancelRequest) (o : TradingOrder)
    (r : SimulatedReservation) : Prop where
  keyed : o.id = request.orderId
  order : db.trading.orders.find o.id = some o
  reservation : db.trading.reservations.find o.id = some r
  version : .time o.updatedAt = request.expectedVersion
  state : o.state ∈ cancellable
  compliance : db'.compliance = db.compliance
  ledger : db'.ledger = db.ledger.withTrading (db.ledger.trading.update o.id
    { o with state := .cancelled, updatedAt := env.now } r.release)
  record : ∃ record, db.foundation.idempotency.find request.scope = some record ∧
    db'.foundation.idempotency = db.foundation.idempotency.put request.scope
      { record with
        responseStatus := some 200
        responseBody := some (serializeOrder { o with state := .cancelled, updatedAt := env.now })
        resourceType := "simulation_order"
        resourceId := o.id }

theorem fetchOwned_eq_ok (h : fetchOwned request db = .ok o) :
    db.trading.orders.find request.orderId = some o := by
  obtain ⟨x, hx, h₁⟩ := bind_eq_ok.mp h
  obtain ⟨_, -, h₂⟩ := bind_eq_ok.mp h₁
  obtain rfl := pure_eq_ok.mp h₂
  exact (fetchOrder_eq_ok.mp hx).1

theorem Inv.cancelLocked_cases {result : CancelResult} (h : Inv db.ledger)
    (hok : cancelLocked env request db = .ok (result, db')) :
    (result = .versionConflict ∧ db' = db ∧
      ∃ o, db.trading.orders.find request.orderId = some o ∧ .time o.updatedAt ≠ request.expectedVersion) ∨
    ∃ o r, result = .cancelled (serializeOrder { o with state := .cancelled, updatedAt := env.now }) ∧
      Cancelled env db db' request o r := by
  obtain ⟨o, howned, h₁⟩ := bind_eq_ok.mp hok
  have ho := fetchOwned_eq_ok howned
  split at h₁
  · rename_i hversion
    obtain ⟨rfl, rfl⟩ := Prod.mk.inj (pure_eq_ok.mp h₁)
    exact .inl ⟨rfl, rfl, o, ho, hversion⟩
  · rename_i hversion
    obtain ⟨r, hr, hb⟩ := h.backed _ o ho
    obtain ⟨_, hstate, h₂⟩ := bind_eq_ok.mp h₁
    obtain ⟨state₁, hpending, h₃⟩ := bind_eq_ok.mp h₂
    obtain ⟨state₂, hcancelled, h₄⟩ := bind_eq_ok.mp h₃
    obtain ⟨released, hrelease, h₅⟩ := bind_eq_ok.mp h₄
    obtain ⟨completed, hcomplete, h₆⟩ := bind_eq_ok.mp h₅
    obtain ⟨rfl, rfl⟩ := Prod.mk.inj (pure_eq_ok.mp h₆)
    obtain ⟨-, rfl⟩ := transitionOrder_eq_ok.mp hpending
    obtain ⟨-, rfl⟩ := transitionOrder_eq_ok.mp hcancelled
    have hid := hb.keyed
    obtain ⟨r', hr', rfl⟩ := releaseFor_eq_ok hrelease hb.reservation
    obtain rfl : r' = r := Option.some.inj (hr'.symm.trans hr)
    obtain ⟨record, hrecord, rfl⟩ := completeIdempotentRequest_eq_ok hcomplete
    refine .inr ⟨o, r', rfl, hid, by rw [hid]; exact ho, by rw [hid]; exact hr, not_not.mp hversion,
      require_eq_ok.mp hstate, rfl, ?_, record, hrecord, rfl⟩
    have hput := db.trading.orders.put_put o.id { o with state := .cancelPending, updatedAt := env.now }
      { o with state := .cancelled, updatedAt := env.now }
    rw [← hid]
    exact congrArg (fun orders => db.ledger.withTrading { db.ledger.trading with
      orders, reservations := db.trading.reservations.put o.id r'.release }) hput

theorem Cancelled.effect (h : Cancelled env db db' request o r) : Effect F db.ledger db'.ledger := by
  rw [h.ledger]
  exact .moved o.id o _ r _ h.order h.reservation (.cancel env.now h.state)

theorem beginCancel_frame {entry : CancelEntry} (h : beginCancel env request db = .ok (entry, db')) :
    db'.trading = db.trading ∧ db'.compliance = db.compliance ∧ db'.ledger = db.ledger := by
  obtain ⟨⟨opened, db₁⟩, hbegin, h₁⟩ := bind_eq_ok.mp h
  obtain ⟨rfl, rfl⟩ := Prod.mk.inj (pure_eq_ok.mp h₁)
  exact beginIdempotentRequest_frame hbegin

theorem completeConflict_frame (h : completeConflict request db = .ok db') :
    db'.trading = db.trading ∧ db'.compliance = db.compliance ∧ db'.ledger = db.ledger := by
  obtain ⟨record, -, rfl⟩ := completeIdempotentRequest_eq_ok h
  exact ⟨rfl, rfl, rfl⟩

theorem Inv.cancelLocked_effects {result : CancelResult} (h : Inv db.ledger)
    (hok : cancelLocked env request db = .ok (result, db')) : Effects F db.ledger db'.ledger := by
  rcases h.cancelLocked_cases hok with ⟨-, rfl, -⟩ | ⟨o, r, -, hcancelled⟩
  · exact .refl
  · exact .single hcancelled.effect

theorem Inv.settleCancel_effects (env : Env) (request : CancelRequest) (h : Inv db.ledger) :
    Effects F db.ledger (settleCancel env request db).ledger := by
  unfold settleCancel
  cases hlocked : cancelLocked env request db with
  | error e => exact .refl
  | ok p =>
    obtain ⟨result, db'⟩ := p
    have heff := h.cancelLocked_effects (F := F) hlocked
    cases result with
    | cancelled body => exact heff
    | versionConflict =>
      dsimp only
      cases hcomplete : completeConflict request db' with
      | error e => exact heff
      | ok db'' => exact (completeConflict_frame hcomplete).2.2.symm ▸ heff

theorem Inv.cancel_effects (h : Inv db.ledger) :
    Effects F db.ledger (cancel env request db).ledger := by
  unfold cancel
  cases hbegin : beginCancel env request db with
  | error e => exact .refl
  | ok p =>
    obtain ⟨entry, db'⟩ := p
    have hledger := (beginCancel_frame hbegin).2.2
    cases entry with
    | proceed =>
      have hsettle := Inv.settleCancel_effects (F := F) env request (hledger ▸ h)
      exact hledger ▸ hsettle
    | replayed body => exact hledger ▸ .refl
    | refused code => exact hledger ▸ .refl

end Cancel

section Run

variable {F : Regime} {env : Env} {db db' : Database} {call : Call} {id : Uuid}
  {allowed : Database → Call → Prop}

theorem ProfileChange.apply_ledger (change : ProfileChange) :
    (change.apply env db).ledger = db.ledger.withTrading
      (invalidatePendingSimulationOrdersIfDenied env change db.ledger.trading) := by
  have hcore : (invalidatePendingSimulationOrdersIfDenied env change db.trading).core =
      invalidatePendingSimulationOrdersIfDenied env change db.trading.core := by
    unfold invalidatePendingSimulationOrdersIfDenied
    dsimp only
    split <;> rfl
  exact congrArg db.ledger.withTrading hcore

theorem checkEligibility_frame (env : Env) (db : Database) (user : String) :
    (checkEligibility env user db).2 = { db with compliance := recordDecision env user db.compliance } := by
  unfold checkEligibility
  dsimp only
  split
  · rfl
  · split <;> rfl

theorem Inv.commit_effects {α : Type} {body : Database → Outcome (α × Database)} (h : Inv db.ledger)
    (hbody : ∀ a db', Inv db.ledger → body db = .ok (a, db') → Effects F db.ledger db'.ledger) :
    Effects F db.ledger (commit body db).ledger := by
  rcases commit_cases body db with ⟨a, db', hok, hdb⟩ | ⟨-, hdb⟩
  · rw [hdb]
    exact hbody a db' h hok
  · rw [hdb]

theorem Inv.commitState_effects {body : Database → Outcome Database} (h : Inv db.ledger)
    (hbody : ∀ db', Inv db.ledger → body db = .ok db' → Effects F db.ledger db'.ledger) :
    Effects F db.ledger (commitState body db).ledger := by
  rcases commitState_cases body db with ⟨db', hok, hdb⟩ | ⟨-, hdb⟩
  · rw [hdb]
    exact hbody db' h hok
  · rw [hdb]

theorem Mutation.run_effects {mutation : Mutation}
    (hF : ∀ change, mutation.change env db.compliance = .ok (some change) → F.change env change)
    (h : mutation.run env db = .ok db') : Effects F db.ledger db'.ledger := by
  rcases Mutation.run_eq_ok.mp h with ⟨-, rfl⟩ | ⟨change, hchange, rfl⟩
  · exact .refl
  · rw [change.apply_ledger]
    exact .single (.invalidated env change (hF change hchange))

theorem Inv.step_effects (h : Inv db.ledger) (hF : call.meets F db) :
    Effects F db.ledger (step db call).ledger := by
  obtain ⟨env, op⟩ := call
  cases op with
  | check user =>
    have hframe := checkEligibility_frame env db user
    change Effects F db.ledger (checkEligibility env user db).2.ledger
    rw [hframe]
    exact .refl
  | createAllowed user data key correlationId recordGiven =>
    exact h.commit_effects fun _ _ h hok => (h.createAllowed_effects hF hok).1
  | createTransaction user data key correlationId =>
    exact h.commit_effects fun _ _ h hok => (h.createTransaction_effects hF hok).1
  | process orderId scenario =>
    exact h.commitState_effects fun _ h hok => h.processCreatedOrder_effects hF hok
  | consume eventId orderId =>
    exact h.commit_effects fun _ _ h hok => h.consumeOrderCreated_effects hF hok
  | execute orderId execution =>
    exact h.commit_effects fun _ _ h hok => h.applyExecution_effects hok hF
  | cancel request => exact h.cancel_effects
  | comply mutation =>
    exact h.commitState_effects fun _ _ hok => Mutation.run_effects hF hok
  | requestOverride request => exact .refl

theorem Inv.run_effects (h : Inv db.ledger) (hle : ∀ d c, allowed d c → Call.meets F d c)
    (hrun : Reaches step allowed db db') : Effects F db.ledger db'.ledger := by
  induction hrun with
  | refl => exact .refl
  | tail _ hmove ih =>
    obtain ⟨c, hc, rfl⟩ := hmove
    exact ih.trans ((h.effects ih).step_effects (hle _ c hc))

theorem fillsIn_of_all (hF : ∀ l e, F.fill l id e) (env : Env) (es : List SimulatedExecution)
    (db : Database) : FillsIn F env id es db := by
  induction es generalizing db with
  | nil => trivial
  | cons e es ih => exact ⟨fun _ => hF _ e, fun _ db' _ => ih db'⟩

theorem meets_any (db : Database) (call : Call) : call.meets Regime.any db := by
  obtain ⟨env, op⟩ := call
  cases op with
  | createAllowed user data key correlationId recordGiven => exact fun _ _ => trivial
  | createTransaction user data key correlationId => exact fun _ _ => trivial
  | process orderId scenario => exact fun _ _ _ _ _ _ _ => fillsIn_of_all (fun _ _ => trivial) _ _ _
  | consume eventId orderId => exact fun _ _ _ _ _ _ _ _ => fillsIn_of_all (fun _ _ => trivial) _ _ _
  | execute orderId execution => exact fun _ => trivial
  | comply mutation => exact fun _ _ => trivial
  | _ => trivial

theorem Inv.run (h : Inv db.ledger) (hrun : Reaches step allowed db db') : Inv db'.ledger :=
  h.effects (h.run_effects (fun d c _ => meets_any d c) hrun)

-- No order has been placed yet; accounts may have been opened and funded before.
structure Initial (db : Database) : Prop where
  orders : db.trading.orders = Table.empty
  reservations : db.trading.reservations = Table.empty
  positions : db.trading.positions = Table.empty
  trades : db.trading.trades = Table.empty
  booked : db.postTrade.trades = Table.empty
  calendars : db.postTrade.calendars = seededCalendars
  lots : db.valuation.lots = Table.empty
  realizedPnl : db.valuation.realizedPnl = Table.empty
  accounts : ∀ ref a, db.trading.accounts.find ref = some a →
    a.accountRef = ref ∧ a.tenantRef = defaultTenant ∧ ref = accountRefOf a.subjectRef ∧
      a.pendingBalance = 0 ∧ 0 ≤ a.totalBalance
  identities : ∀ ref i, db.trading.identities.find ref = some i →
    ∃ a, db.trading.accounts.find ref = some a ∧ Matches i a

theorem Initial.inv (h : Initial db) : Inv db.ledger := by
  have hheld (p : TradingOrder → Bool) : db.ledger.trading.held p = 0 := by
    change db.trading.reservations.sum _ = 0
    rw [h.reservations, Table.sum_empty]
  have hposition (ref instrument : String) :
      (db.ledger.trading.positionAt ref instrument).quantity = 0 := by
    change ((db.trading.positions.find _).getD {}).quantity = 0
    rw [h.positions]
    rfl
  have horder {id : Uuid} {o : TradingOrder} : ¬db.ledger.trading.orders.find id = some o := by
    change ¬db.trading.orders.find id = some o
    rw [h.orders]
    simp
  have hreservation {id : Uuid} {r : SimulatedReservation} :
      ¬db.ledger.trading.reservations.find id = some r := by
    change ¬db.trading.reservations.find id = some r
    rw [h.reservations]
    simp
  exact
    { backed := fun id o ho => absurd ho horder
      owned := fun id r hr => absurd hr hreservation
      funded := fun id o r ho => absurd ho horder
      solvent := fun ref a ha => by
        obtain ⟨hkey, htenant, hsubject, hpending, htotal⟩ := h.accounts ref a ha
        exact ⟨hkey, htenant, hsubject, hpending, (hheld _).trans_le htotal⟩
      identified := h.identities
      covered := fun ref instrument => by rw [hheld, hposition]
      lots := fun ref instrument => by
        rw [hposition]
        unfold ValuationTables.held ValuationTables.heldIn
        rw [show db.ledger.valuation.lots = Table.empty from h.lots, Table.sum_empty]
      kept := by
        change LotsKept db.valuation.lots
        rw [h.lots]
        exact ⟨fun _ _ hlot => by simp at hlot, fun _ _ hlot => by simp at hlot⟩
      traded := fun id o ho => absurd ho horder
      attributed := fun key trade htrade => by
        change db.trading.trades.find key = some trade at htrade
        rw [h.trades] at htrade
        simp at htrade
      quoted := fun id o r ho => absurd ho horder
      fresh := fun executionId _ => by
        change db.trading.trades.find _ = none ∧ db.postTrade.trades.find _ = none ∧
          db.valuation.lots.find _ = none ∧ db.valuation.realizedPnl.find _ = none
        rw [h.trades, h.booked, h.lots, h.realizedPnl]
        exact ⟨rfl, rfl, rfl, rfl⟩
      calendars := h.calendars }

end Run

def freshDatabase : Database where
  postTrade := { calendars := seededCalendars }

theorem freshDatabase_initial : Initial freshDatabase :=
  ⟨rfl, rfl, rfl, rfl, rfl, rfl, rfl, rfl, fun _ _ ha => by simp [freshDatabase] at ha,
    fun _ _ hi => by simp [freshDatabase] at hi⟩

def seedTime : Timestamp := calendarSeedDate * microsecondsPerDay

theorem seedTime_seeded : calendarSeedDate ≤ Timestamp.date seedTime := by
  decide

def fixtureEnv (prices : List (String × ℚ)) : Env where
  now := seedTime
  settings := { simulatedExecutionPrices := prices }
  uuid4 := id
  seeded := seedTime_seeded

end Beyvra
