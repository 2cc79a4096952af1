import Beyvra.Trading.Interleaving

namespace Beyvra

open Relational

section Orders

variable {env : Env} {db db' : Database} {id : Uuid} {o o' : TradingOrder} {r : SimulatedReservation}
  {e : SimulatedExecution} {next : OrderTxn} {rows rows' : Uuid → Option TradingOrder}

abbrev Database.orderRows (db : Database) : Uuid → Option TradingOrder := db.trading.orders.find

theorem orderRows_put (h : db'.trading.orders = db.trading.orders.put id o) :
    db'.orderRows = Function.update db.orderRows id (some o) := by
  funext k
  unfold Database.orderRows
  rw [h, Table.find_put, Function.update_apply]

theorem completes_attempt {α : Type} {outcome : Outcome α} {next : α → OrderTxn} {a : α}
    (h : outcome = .ok a) (hnext : (next a).Completes rows rows') :
    (attempt outcome next).Completes rows rows' := by
  subst h
  exact hnext

theorem getOrder_of (ho : db.trading.orders.find id = some o) (hs : o.simulation = true) :
    getOrder (db.orderRows id) = .ok o := by
  unfold getOrder Database.orderRows
  rw [bind_of_ok (demand_eq_ok.mpr ho), bind_of_ok (require_of hs)]
  rfl

theorem completes_save {save : OrderSave} {f : TradingOrder → TradingOrder}
    (ho : rows id = some o) (hnext : next.Completes (Function.update rows id (some (f o))) rows') :
    Txn.Completes (.update save id (fun _ => true) f next) rows rows' :=
  .updated (by rw [ho]; rfl) hnext

theorem executedOrder_fill (hf : AcceptsFill o r e) (hb : Backed id o r) (he : e.outcome = .fill) :
    executedOrder env e o = .ok (filledOrder o e env.now) := by
  have hpositive : o.filledQuantity + e.quantity ≠ 0 := by
    have hquantity := hf.quantity
    have hfilled := hb.filled.1
    linarith
  have hmove := hf.transition
  unfold fillTarget at hmove
  unfold executedOrder
  rw [he]
  dsimp only
  rw [bind_of_ok (openForExecution_eq o.state), bind_of_ok (require_of hf.fits),
    bind_of_ok (require_of hpositive), bind_of_ok (transitionOrder_of_mem hmove)]
  rfl

theorem executedOrder_close (hacc : Accepts o r e) (he : e.outcome ≠ .fill) :
    executedOrder env e o = .ok (closedOrder env o e) := by
  unfold Accepts at hacc
  unfold executedOrder closedOrder
  cases hout : e.outcome with
  | reject =>
    simp only [hout] at hacc ⊢
    have hmove : OrderState.rejected ∈ transitions o.state := by rw [hacc]; decide
    rw [bind_of_ok (transitionOrder_of_mem hmove)]
    rfl
  | expire =>
    simp only [hout] at hacc ⊢
    have hmove : OrderState.expired ∈ transitions (workingState o.state) := by rw [hacc]; decide
    rw [bind_of_ok (openForExecution_eq o.state), bind_of_ok (transitionOrder_of_mem hmove)]
    rfl
  | fill => exact absurd hout he

structure Executes (env : Env) (db db' : Database) (id : Uuid) (e : SimulatedExecution)
    (o o' : TradingOrder) : Prop where
  order : db.trading.orders.find id = some o
  simulation : o.simulation = true
  executed : executedOrder env e o = .ok o'
  saved : o.saveExecution o' = o'
  orders : db'.trading.orders = db.trading.orders.put id o'

theorem Inv.executes (h : Inv db.ledger) (hok : applyExecution env id e db = .ok (true, db')) :
    ∃ o o', Executes env db db' id e o o' := by
  obtain ⟨o, r, a, ho, hr, ha, hnone, hacc⟩ := h.applyExecution_accepts hok
  have hb := h.backing ho hr
  by_cases he : e.outcome = .fill
  · have hf : AcceptsFill o r e := by
      unfold Accepts at hacc
      rwa [he] at hacc
    obtain rfl := hb.keyed
    obtain ⟨db'', l', i, happly, -, -, htrading, -, hledger⟩ := h.applyExecution_fill env ho hr ha hnone he hf
    rw [hok] at happly
    obtain rfl := (Prod.mk.inj (Except.ok.inj happly)).2
    refine ⟨o, filledOrder o e env.now, ho, hb.simulation, executedOrder_fill hf hb he, rfl, ?_⟩
    change db'.ledger.trading.orders = _
    rw [hledger]
    change l'.trading.orders = _
    rw [htrading]
    rfl
  · obtain ⟨db'', happly, hledger⟩ := h.applyExecution_close env ho hr hnone he hacc
    rw [hok] at happly
    obtain rfl := (Prod.mk.inj (Except.ok.inj happly)).2
    refine ⟨o, closedOrder env o e, ho, hb.simulation, executedOrder_close hacc he, rfl, ?_⟩
    change db'.ledger.trading.orders = _
    rw [hledger]
    rfl

theorem Inv.applyExecution_completes (h : Inv db.ledger) {consumed : Bool}
    (hok : applyExecution env id e db = .ok (consumed, db'))
    (hnext : next.Completes db'.orderRows rows') :
    (applyExecutionTxn env id e next).Completes db.orderRows rows' := by
  cases consumed with
  | false =>
    obtain ⟨o, ho, hs⟩ := applyExecution_found hok
    obtain rfl := applyExecution_replay hok
    exact .selectForUpdate (completes_attempt (getOrder_of ho hs) (.consult .duplicate hnext))
  | true =>
    obtain ⟨o, o', hexecutes⟩ := h.executes hok
    rw [orderRows_put hexecutes.orders] at hnext
    refine .selectForUpdate (completes_attempt (getOrder_of hexecutes.order hexecutes.simulation)
      (.consult .consumed (completes_attempt hexecutes.executed (completes_save hexecutes.order ?_))))
    rw [hexecutes.saved]
    exact hnext

theorem Inv.applyExecutions_completes {executions : List SimulatedExecution} (h : Inv db.ledger)
    (hok : applyExecutions env id executions db = .ok db') (hnext : next.Completes db'.orderRows rows') :
    (applyExecutionsTxn env id next executions).Completes db.orderRows rows' := by
  induction executions generalizing db with
  | nil =>
    obtain rfl := pure_eq_ok.mp hok
    exact hnext
  | cons e es ih =>
    obtain ⟨⟨consumed, db₁⟩, happly, hrest⟩ := bind_eq_ok.mp hok
    have hinv := h.effects (h.applyExecution_effects (F := .any) happly fun _ => trivial)
    exact h.applyExecution_completes happly (ih hinv hrest)

theorem Inv.openAccepted_completes (h : Inv db.ledger) {correlation : Uuid} (hfetch : fetchOrder id db = .ok o)
    (hok : openAccepted env correlation o db = .ok db') :
    (openAcceptedTxn env id).Completes db.orderRows db'.orderRows := by
  obtain ⟨ho, hs⟩ := fetchOrder_eq_ok.mp hfetch
  obtain ⟨r, hr, hb⟩ := h.backed id o ho
  refine .select (completes_attempt (getOrder_of ho hs) ?_)
  unfold openAccepted at hok
  by_cases haccepted : o.state = .accepted
  · rw [if_pos haccepted] at hok ⊢
    obtain ⟨state, hstate, h₁⟩ := bind_eq_ok.mp hok
    obtain rfl := hb.keyed
    have horders : db'.trading.orders =
        db.trading.orders.put o.id { o with state, updatedAt := env.now } := by
      rw [← pure_eq_ok.mp h₁]
      rfl
    refine completes_attempt hstate (completes_save ho ?_)
    rw [orderRows_put horders]
    exact .commit _
  · rw [if_neg haccepted] at hok ⊢
    obtain rfl := pure_eq_ok.mp hok
    exact .commit _

theorem Inv.processCreatedOrder_completes (h : Inv db.ledger) {scenario : Option Scenario}
    (hok : processCreatedOrder env id scenario db = .ok db') :
    (processCreatedOrderTxn env id scenario).Completes db.orderRows db'.orderRows := by
  obtain ⟨o, hfetch, h₁⟩ := bind_eq_ok.mp hok
  obtain ⟨⟨order, db₁⟩, haccept, h₂⟩ := bind_eq_ok.mp h₁
  obtain ⟨executions, hsubmit, h₃⟩ := bind_eq_ok.mp h₂
  obtain ⟨db₂, happly, h₄⟩ := bind_eq_ok.mp h₃
  obtain ⟨o₂, hfetch₂, hopen⟩ := bind_eq_ok.mp h₄
  obtain ⟨ho, hs⟩ := fetchOrder_eq_ok.mp hfetch
  have hinv := h.effects (h.acceptCreated_effects (F := .any) ho haccept)
  have hinv₂ := hinv.effects (hinv.applyExecutions_effects (F := .any)
    (fillsIn_of_all (fun _ _ => trivial) _ _ _) happly)
  have hrest := hinv.applyExecutions_completes happly (hinv₂.openAccepted_completes hfetch₂ hopen)
  refine .select (completes_attempt (getOrder_of ho hs) ?_)
  unfold acceptCreated at haccept
  unfold acceptCreatedTxn
  split at haccept
  · rename_i hpending
    rw [if_pos hpending]
    obtain ⟨r, hr, hb⟩ := h.backed id o ho
    obtain ⟨state, hstate, h₅⟩ := bind_eq_ok.mp haccept
    obtain ⟨rfl, hdb⟩ := Prod.mk.inj (pure_eq_ok.mp h₅)
    obtain rfl := hb.keyed
    have horders : db₁.trading.orders =
        db.trading.orders.put o.id { o with state, updatedAt := env.now } := by
      rw [← hdb]
      rfl
    rw [orderRows_put horders] at hrest
    exact completes_attempt hstate (completes_save ho (completes_attempt hsubmit hrest))
  · rename_i hpending
    rw [if_neg hpending]
    obtain ⟨rfl, rfl⟩ := Prod.mk.inj (pure_eq_ok.mp haccept)
    exact completes_attempt hsubmit hrest

theorem Inv.consumeOrderCreated_completes (h : Inv db.ledger) {eventId : Uuid} {consumed : Bool}
    (hok : consumeOrderCreated env eventId id db = .ok (consumed, db')) :
    (consumeOrderCreatedTxn env id).Completes db.orderRows db'.orderRows := by
  rcases consumeOnce_cases hok with ⟨-, rfl, -⟩ | ⟨-, -, written, hprocess, -, rfl⟩
  · exact .consult .duplicate (.commit _)
  · have hcompletes := h.processCreatedOrder_completes hprocess
    exact .consult .consumed hcompletes

theorem invalidateIf_of_affects {change : ProfileChange} (hdenied : (change.decision env).result ≠ .allowed)
    (haffects : change.affects o) : invalidateIf env change o = o.invalidate (change.decision env) :=
  if_pos ⟨hdenied, haffects⟩

theorem invalidateIf_of_not_affects {change : ProfileChange} (h : ¬change.affects o) :
    invalidateIf env change o = o :=
  if_neg fun hmatch => h hmatch.2

theorem invalidateIf_idem (env : Env) (change : ProfileChange) (o : TradingOrder) :
    invalidateIf env change (invalidateIf env change o) = invalidateIf env change o := by
  rcases invalidateIf_cases env change o with h | ⟨-, h⟩
  · rw [h, h]
  · rw [h]
    exact invalidateIf_of_not_affects fun haffects => nomatch invalidated_pending haffects

def invalidatedRows (env : Env) (change : ProfileChange) (keys : List Uuid)
    (rows : Uuid → Option TradingOrder) (id : Uuid) : Option TradingOrder :=
  if id ∈ keys then (rows id).map (invalidateIf env change) else rows id

theorem invalidatedRows_cons (change : ProfileChange) (keys : List Uuid) (ho : rows id = some o) :
    invalidatedRows env change keys (Function.update rows id (some (invalidateIf env change o))) =
      invalidatedRows env change (id :: keys) rows := by
  funext k
  unfold invalidatedRows
  by_cases hk : k = id
  · subst hk
    simp [ho, invalidateIf_idem]
  · simp [hk]

theorem invalidatedRows_skip {change : ProfileChange} (keys : List Uuid)
    (hnone : (rows id).filter (fun o => change.affects o) = none) :
    invalidatedRows env change keys rows = invalidatedRows env change (id :: keys) rows := by
  have hsame : (rows id).map (invalidateIf env change) = rows id := by
    cases ho : rows id with
    | none => rfl
    | some o =>
      have hnot : ¬change.affects o := by simpa [ho, Option.filter] using hnone
      rw [Option.map_some, invalidateIf_of_not_affects hnot]
  funext k
  unfold invalidatedRows
  by_cases hk : k = id
  · subst hk
    simp [hsame]
  · simp [hk]

theorem invalidateEach_completes {change : ProfileChange} (hdenied : (change.decision env).result ≠ .allowed)
    (keys : List Uuid) (rows : Uuid → Option TradingOrder) :
    (invalidateEach env change keys).Completes rows (invalidatedRows env change keys rows) := by
  induction keys generalizing rows with
  | nil =>
    have hsame : invalidatedRows env change [] rows = rows := by
      funext k
      simp [invalidatedRows]
    rw [hsame]
    exact .commit rows
  | cons id keys ih =>
    cases hmatch : (rows id).filter fun o => change.affects o with
    | none =>
      rw [← invalidatedRows_skip keys hmatch]
      exact .unmatched hmatch (ih rows)
    | some o =>
      obtain ⟨ho, haffects⟩ := Option.filter_eq_some_iff.mp hmatch
      rw [← invalidatedRows_cons change keys ho,
        invalidateIf_of_affects hdenied (of_decide_eq_true haffects)]
      exact .updated hmatch (ih _)

theorem invalidatePending_completes (env : Env) (change : ProfileChange)
    (rows : Uuid → Option TradingOrder) :
    (invalidatePendingTxn env change).Completes rows fun id => (rows id).map (invalidateIf env change) := by
  unfold invalidatePendingTxn
  by_cases hallowed : (change.decision env).result = .allowed
  · have hsame : (fun id => (rows id).map (invalidateIf env change)) = rows := by
      funext id
      have hid : invalidateIf env change = fun o => o :=
        funext fun o => if_neg fun hmatch => hmatch.1 hallowed
      rw [hid, Option.map_id']
    rw [if_pos hallowed, hsame]
    exact .commit rows
  · rw [if_neg hallowed]
    refine .scan fun keys hkeys => ?_
    have hinvalidated : (fun id => (rows id).map (invalidateIf env change)) =
        invalidatedRows env change keys rows := by
      funext id
      unfold invalidatedRows
      by_cases hid : id ∈ keys
      · rw [if_pos hid]
      · rw [if_neg hid]
        cases ho : rows id with
        | none => rfl
        | some o =>
          have hnot : ¬change.affects o := fun haffects =>
            hid ((hkeys id).mpr (by rw [ho]; exact decide_eq_true haffects))
          rw [Option.map_some, invalidateIf_of_not_affects hnot]
    rw [hinvalidated]
    exact invalidateEach_completes hallowed keys rows

theorem mutation_completes {mutation : Mutation} (hrun : mutation.run env db = .ok db') :
    (mutationTxn env db.compliance mutation).Completes db.orderRows db'.orderRows := by
  rcases Mutation.run_eq_ok.mp hrun with ⟨hnone, rfl⟩ | ⟨change, hchange, rfl⟩
  · exact completes_attempt hnone (.commit _)
  · have hrows : (change.apply env db).orderRows = fun id =>
        (db.orderRows id).map (invalidateIf env change) :=
      funext fun id => find_invalidated env change db.trading id
    rw [hrows]
    exact completes_attempt hchange (invalidatePending_completes env change db.orderRows)

theorem Inv.cancelLocked_completes (h : Inv db.ledger) {request : CancelRequest} {result : CancelResult}
    (hok : cancelLocked env request db = .ok (result, db')) :
    (cancelLockedTxn env request).Completes db.orderRows db'.orderRows := by
  obtain ⟨o, howned, -⟩ := bind_eq_ok.mp hok
  obtain ⟨x, hfetch, h₁⟩ := bind_eq_ok.mp howned
  obtain ⟨_, howner, h₂⟩ := bind_eq_ok.mp h₁
  obtain rfl := pure_eq_ok.mp h₂
  obtain ⟨ho, hs⟩ := fetchOrder_eq_ok.mp hfetch
  have hread : ownedOrder request (db.orderRows request.orderId) = .ok x := by
    unfold ownedOrder
    rw [bind_of_ok (getOrder_of ho hs), bind_of_ok howner]
    rfl
  refine .selectForUpdate (completes_attempt hread ?_)
  rcases h.cancelLocked_cases hok with ⟨-, rfl, y, hy, hversion⟩ | ⟨y, r, -, hcancelled⟩
  · rw [ho] at hy
    obtain rfl := Option.some.inj hy
    rw [if_pos hversion]
    exact .commit _
  · have hy := hcancelled.order
    rw [hcancelled.keyed, ho] at hy
    obtain rfl := Option.some.inj hy
    have horders : db'.trading.orders = db.trading.orders.put request.orderId
        { x with state := .cancelled, updatedAt := env.now } := by
      change db'.ledger.trading.orders = _
      rw [hcancelled.ledger, hcancelled.keyed]
      rfl
    have hmove : OrderState.cancelPending ∈ transitions x.state := by
      have hstate := hcancelled.state
      simp only [cancellable, List.mem_cons, List.not_mem_nil, or_false] at hstate
      rcases hstate with hs | hs | hs <;> rw [hs] <;> decide
    rw [if_neg (not_not.mpr hcancelled.version)]
    refine completes_attempt (require_of hcancelled.state) (completes_attempt (transitionOrder_of_mem hmove)
      (completes_save ho (completes_attempt (transitionOrder_of_mem (by decide))
        (completes_save (Function.update_self ..) (.consult .consumed ?_)))))
    rw [orderRows_put horders, Function.update_idem]
    exact .commit _

def OrderTransaction.runs (env : Env) (db db' : Database) : OrderTransaction → Prop
  | .process orderId scenario => processCreatedOrder env orderId scenario db = .ok db'
  | .consume orderId => ∃ eventId consumed, consumeOrderCreated env eventId orderId db = .ok (consumed, db')
  | .execute orderId execution => ∃ consumed, applyExecution env orderId execution db = .ok (consumed, db')
  | .comply c mutation => c = db.compliance ∧ mutation.run env db = .ok db'
  | .cancel request => ∃ result, cancelLocked env request db = .ok (result, db')

theorem Inv.transaction_completes (h : Inv db.ledger) {transaction : OrderTransaction}
    (hruns : transaction.runs env db db') :
    (transaction.txn env).Completes db.orderRows db'.orderRows := by
  cases transaction with
  | process orderId scenario => exact h.processCreatedOrder_completes hruns
  | consume orderId =>
    obtain ⟨eventId, consumed, hok⟩ := hruns
    exact h.consumeOrderCreated_completes hok
  | execute orderId execution =>
    obtain ⟨consumed, hok⟩ := hruns
    exact h.applyExecution_completes hok (.commit _)
  | comply c mutation =>
    obtain ⟨rfl, hrun⟩ := hruns
    exact mutation_completes hrun
  | cancel request =>
    obtain ⟨result, hok⟩ := hruns
    exact h.cancelLocked_completes hok

-- Run alone, a transaction's statements leave the orders that the sequential model leaves.
theorem Inv.serial_run (h : Inv db.ledger) {transaction : OrderTransaction}
    (hruns : transaction.runs env db db') :
    Store.LoneResult (Store.lone db.trading.orders { txn := transaction.txn env }) db'.orderRows :=
  Store.lone_completes (h.transaction_completes hruns) rfl
    ⟨fun _ => rfl, fun _ _ hr => by simp at hr⟩

end Orders

end Beyvra
