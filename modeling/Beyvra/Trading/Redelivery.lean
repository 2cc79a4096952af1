import Beyvra.Trading.OrderHistory

namespace Beyvra

open Relational

structure Delivery where
  env : Env
  orderId : Uuid
  execution : SimulatedExecution

namespace Delivery

def executionId (d : Delivery) : String := d.execution.executionId

def payload (d : Delivery) : Uuid × SimulatedExecution := (d.orderId, d.execution)

end Delivery

def deliver (db : Database) (d : Delivery) : Database :=
  commit (applyExecution d.env d.orderId d.execution) db

structure Deliverable (l : Ledger) (id : Uuid) (e : SimulatedExecution) (o : TradingOrder)
    (r : SimulatedReservation) : Prop where
  order : l.trading.orders.find id = some o
  reservation : l.trading.reservations.find id = some r
  unprocessed : l.Unprocessed e.executionId
  accepts : Accepts o r e

section Acceptance

variable {o o' : TradingOrder} {r r' : SimulatedReservation} {e e' : SimulatedExecution}

theorem Accepts.opening (h : Accepts o r e) : o.state.terminal = false := by
  unfold Accepts at h
  cases hout : e.outcome with
  | reject =>
    rw [hout] at h
    exact (OrderMove.reject (r := r) seedTime h).opening
  | expire =>
    rw [hout] at h
    exact (OrderMove.expire (r := r) seedTime h).opening
  | fill =>
    rw [hout] at h
    exact h.opening

theorem AcceptsFill.narrows (h : AcceptsFill o r e) (now : Timestamp)
    (h' : Accepts (filledOrder o e now) ((settlementOf o e).draw r) e') : Accepts o r e' := by
  have hstate := h.state
  have hpartly : fillTarget o e = .partiallyFilled := by
    rcases fillTarget_cases o e with hf | hf
    · have hopen := h'.opening
      change (fillTarget o e).terminal = false at hopen
      rw [hf] at hopen
      simp [OrderState.terminal, terminalStates] at hopen
    · exact hf
  have hworking : workingState o.state = .opened := by
    have ht := h.transition
    rw [hpartly] at ht
    revert ht
    cases o.state <;> simp [workingState, transitions]
  unfold Accepts at h' ⊢
  cases hout : e'.outcome with
  | reject =>
    rw [hout] at h'
    change fillTarget o e = .pending at h'
    simp [hpartly] at h'
  | expire => exact hworking
  | fill =>
    rw [hout] at h'
    have hfits : o.filledQuantity + e.quantity + e'.quantity ≤ o.quantity := h'.fits
    have hspent := h.spent_pos
    have hfunded : (settlementOf o e').spent ≤ r.remainingAmount - (settlementOf o e).spent := h'.funded
    refine ⟨h'.quantity, h'.price, by linarith [h.quantity], ?_, by linarith⟩
    rw [hworking]
    rcases fillTarget_cases o e' with ht | ht <;> simp [ht, transitions]

end Acceptance

section Deliver

variable {db : Database} {d d' : Delivery} {o : TradingOrder} {r : SimulatedReservation}

-- The rows that one accepted delivery writes; every other order keeps its own.
structure Delivered (l l' : Ledger) (id : Uuid) (e : SimulatedExecution) (o o' : TradingOrder)
    (r r' : SimulatedReservation) (event : ProcessedEvent) : Prop where
  orders : l'.trading.orders = l.trading.orders.put id o'
  reservations : l'.trading.reservations = l.trading.reservations.put id r'
  processed : l'.processed = l.processed.put (deliveryKey e) event
  narrows : ∀ e', Accepts o' r' e' → Accepts o r e'

theorem Inv.delivered (h : Inv db.ledger) (hd : Deliverable db.ledger d.orderId d.execution o r) :
    ∃ db' o' r', applyExecution d.env d.orderId d.execution db = .ok (true, db') ∧
      Delivered db.ledger db'.ledger d.orderId d.execution o o' r r'
        (receipt d.env d.orderId d.execution) := by
  obtain ⟨ho, hr, hnone, hacc⟩ := hd
  by_cases he : d.execution.outcome = .fill
  · have hf : AcceptsFill o r d.execution := by
      unfold Accepts at hacc
      rwa [he] at hacc
    obtain ⟨a, ha, -⟩ := h.funded _ o r ho hr
    have hid := (h.backing ho hr).keyed
    obtain ⟨db', l', i, hok, -, -, htrading, hprocessed, hledger⟩ :=
      h.applyExecution_fill d.env ho hr ha hnone he hf
    refine ⟨db', filledOrder o d.execution d.env.now, (settlementOf o d.execution).draw r, hok,
      ?_, ?_, ?_, fun e' => hf.narrows d.env.now⟩
    · rw [hledger]
      change l'.trading.orders = _
      rw [htrading, ← hid]
      rfl
    · rw [hledger]
      change l'.trading.reservations = _
      rw [htrading, ← hid]
      rfl
    · rw [hledger]
      exact hprocessed
  · obtain ⟨db', hok, hledger⟩ := h.applyExecution_close d.env ho hr hnone he hacc
    have hdone : (closedOrder d.env o d.execution).state.terminal = true := by
      unfold closedOrder
      cases d.execution.outcome <;> rfl
    refine ⟨db', closedOrder d.env o d.execution, r.release, hok, ?_, ?_, ?_, fun e' hacc' => ?_⟩
    · rw [hledger]
      rfl
    · rw [hledger]
      rfl
    · rw [hledger]
      rfl
    · have hopen := hacc'.opening
      rw [hdone] at hopen
      cases hopen

theorem Inv.deliver_of_not (h : Inv db.ledger)
    (hd : ¬∃ o r, Deliverable db.ledger d.orderId d.execution o r) : deliver db d = db := by
  rcases commit_cases (applyExecution d.env d.orderId d.execution) db with ⟨consumed, db', hok, hdb⟩ | ⟨-, hdb⟩
  · cases consumed with
    | false => exact hdb.trans (applyExecution_replay hok)
    | true =>
      obtain ⟨o, r, a, ho, hr, -, hnone, hacc⟩ := h.applyExecution_accepts hok
      exact absurd ⟨o, r, ho, hr, hnone, hacc⟩ hd
  · exact hdb

theorem Inv.deliver_of (h : Inv db.ledger) (hd : Deliverable db.ledger d.orderId d.execution o r) :
    ∃ o' r', Delivered db.ledger (deliver db d).ledger d.orderId d.execution o o' r r'
      (receipt d.env d.orderId d.execution) := by
  obtain ⟨db', o', r', hok, hdelivered⟩ := h.delivered hd
  refine ⟨o', r', ?_⟩
  unfold deliver
  rw [commit_of_ok hok]
  exact hdelivered

theorem Inv.after (h : Inv db.ledger) (d : Delivery) : Inv (deliver db d).ledger := by
  have hstep : Reaches step (fun _ _ => True) db (deliver db d) :=
    .single ⟨⟨d.env, .execute d.orderId d.execution⟩, trivial, rfl⟩
  exact h.run hstep

theorem Delivered.consumed {l l' : Ledger} {id : Uuid} {e : SimulatedExecution} {o o' : TradingOrder}
    {r r' : SimulatedReservation} {event : ProcessedEvent} (h : Delivered l l' id e o o' r r' event) :
    ¬l'.Unprocessed e.executionId := by
  unfold Ledger.Unprocessed
  rw [h.processed]
  change ¬(l.processed.put (deliveryKey e) event).find (deliveryKey e) = none
  simp

theorem Delivered.antitone {l l' : Ledger} {id id' : Uuid} {e e' : SimulatedExecution} {o o' x : TradingOrder}
    {r r' y : SimulatedReservation} {event : ProcessedEvent} (h : Delivered l l' id e o o' r r' event)
    (hold : Deliverable l id e o r) (hd : Deliverable l' id' e' x y) :
    ∃ x' y', Deliverable l id' e' x' y' := by
  obtain ⟨hx, hy, hnone, hacc⟩ := hd
  rw [h.orders] at hx
  rw [h.reservations] at hy
  unfold Ledger.Unprocessed at hnone
  rw [h.processed] at hnone
  have hfresh : l.Unprocessed e'.executionId := (Table.find_put_none hnone).2
  rcases Table.find_put_cases hx with ⟨rfl, rfl⟩ | ⟨hk, hx'⟩
  · rcases Table.find_put_cases hy with ⟨-, rfl⟩ | ⟨hne, -⟩
    · exact ⟨o, r, hold.order, hold.reservation, hfresh, h.narrows e' hacc⟩
    · exact absurd rfl hne
  · rcases Table.find_put_cases hy with ⟨rfl, -⟩ | ⟨-, hy'⟩
    · exact absurd rfl hk
    · exact ⟨x, y, hx', hy', hfresh, hacc⟩

theorem Inv.deliver_same (h : Inv db.ledger) (hd : deliver db d = db) :
    ¬∃ o r, Deliverable db.ledger d.orderId d.execution o r := by
  rintro ⟨o, r, hdeliverable⟩
  obtain ⟨o', r', hdelivered⟩ := h.deliver_of hdeliverable
  rw [hd] at hdelivered
  exact hdelivered.consumed hdeliverable.unprocessed

theorem absorbing_deliver {ds : List Delivery}
    (hsame : ∀ d ∈ ds, ∀ d' ∈ ds, d.executionId = d'.executionId → d.payload = d'.payload) :
    Absorbing deliver Delivery.executionId (fun db => Inv db.ledger) (· ∈ ds) where
  kept db d h _ := h.after d
  settled db d d' h hd hd' hkey := by
    obtain ⟨horder, hexecution⟩ := Prod.mk.inj (hsame d hd d' hd' hkey)
    have hinv := h.after d
    refine hinv.deliver_of_not ?_
    rintro ⟨o', r', hdeliverable⟩
    rw [← horder, ← hexecution] at hdeliverable
    by_cases hfirst : ∃ o r, Deliverable db.ledger d.orderId d.execution o r
    · obtain ⟨o, r, hfirst⟩ := hfirst
      obtain ⟨_, _, hdelivered⟩ := h.deliver_of hfirst
      exact hdelivered.consumed hdeliverable.unprocessed
    · rw [h.deliver_of_not hfirst] at hdeliverable
      exact hfirst ⟨o', r', hdeliverable⟩
  persists db d d' h _ _ hunchanged := by
    have hnot := h.deliver_same hunchanged
    refine (h.after d').deliver_of_not ?_
    rintro ⟨x, y, hdeliverable⟩
    by_cases hother : ∃ o r, Deliverable db.ledger d'.orderId d'.execution o r
    · obtain ⟨o, r, hother⟩ := hother
      obtain ⟨_, _, hdelivered⟩ := h.deliver_of hother
      exact hnot (hdelivered.antitone hother hdeliverable)
    · rw [h.deliver_of_not hother] at hdeliverable
      exact hnot ⟨x, y, hdeliverable⟩

end Deliver

section Conflict

variable {F : Regime} {l l' : Ledger} {db db' : Database} {d d' : Delivery} {event : ProcessedEvent}
  {executionId : String}

theorem Effect.processed (he : Effect F l l')
    (hp : l.processed.find (uuid5 executionId, executionConsumer) = some event) :
    l'.processed.find (uuid5 executionId, executionConsumer) = some event := by
  have hfresh {e : SimulatedExecution} (hnone : l.Unprocessed e.executionId) :
      (uuid5 executionId, executionConsumer) ≠ (uuid5 e.executionId, executionConsumer) := by
    intro heq
    unfold Ledger.Unprocessed at hnone
    rw [← heq, hp] at hnone
    cases hnone
  cases he with
  | closed id o o' r r' e event' ho hr hm hnone =>
    exact (Table.find_put_of_ne _ _ (hfresh hnone)).trans hp
  | filled id o r a e now event' l' ho hr ha hnone hf hF hbooks htrading hprocessed =>
    rw [hprocessed]
    exact (Table.find_put_of_ne _ _ (hfresh hnone)).trans hp
  | consumed key event' hne =>
    have hkey : (uuid5 executionId, executionConsumer) ≠ key := fun heq => hne (by rw [← heq])
    exact (Table.find_put_of_ne _ _ hkey).trans hp
  | _ => exact hp

theorem Effects.processed (he : Effects F l l')
    (hp : l.processed.find (uuid5 executionId, executionConsumer) = some event) :
    l'.processed.find (uuid5 executionId, executionConsumer) = some event := by
  induction he with
  | refl => exact hp
  | tail _ hlast ih => exact hlast.processed ih

theorem executionPayload_injective {id id' : Uuid} {e e' : SimulatedExecution}
    (h : executionPayload id e = executionPayload id' e') : id = id' ∧ e = e' := by
  obtain ⟨executionId, quantity, price, outcome⟩ := e
  obtain ⟨executionId', quantity', price', outcome'⟩ := e'
  simp only [executionPayload, List.cons.injEq, Prod.mk.injEq, Value.str.injEq, Value.dec.injEq,
    true_and, and_true] at h
  obtain ⟨rfl, rfl, rfl, rfl, hout⟩ := h
  refine ⟨rfl, ?_⟩
  cases outcome <;> cases outcome' <;> first | rfl | simp [ExecutionOutcome.value] at hout

theorem conflicting_reuse (hp : db.ledger.processed.find (deliveryKey d.execution) =
      some (receipt d.env d.orderId d.execution))
    (hid : d'.executionId = d.executionId) (hne : d'.payload ≠ d.payload) :
    ∃ error, applyExecution d'.env d'.orderId d'.execution db = .error error := by
  cases hfetch : fetchOrder d'.orderId db with
  | error error => exact ⟨error, bind_of_error hfetch⟩
  | ok o =>
    obtain ⟨ho, hs⟩ := fetchOrder_eq_ok.mp hfetch
    refine ⟨.valueError "EVENT_PAYLOAD_CONFLICT", ?_⟩
    rw [applyExecution_of ho hs]
    have hstored : db.foundation.processedEvents.find (uuid5 d'.execution.executionId, executionConsumer) =
        some (receipt d.env d.orderId d.execution) := by
      rw [show d'.execution.executionId = d.execution.executionId from hid]
      exact hp
    refine consumeOnce_of_conflict hstored ?_
    intro hhash
    obtain ⟨horder, hexecution⟩ := executionPayload_injective hhash
    exact hne (by rw [Delivery.payload, Delivery.payload, horder, hexecution])

end Conflict

theorem exactly_once {db₀ db : Database} (hinit : Initial db₀)
    (hrun : Reaches step (fun _ _ => True) db₀ db) :
    (∀ ds : List Delivery,
      (∀ d ∈ ds, ∀ d' ∈ ds, d.executionId = d'.executionId → d.payload = d'.payload) →
        ds.foldl deliver db = (firstOccurrences Delivery.executionId ds).foldl deliver db) ∧
    ∀ (d d' : Delivery) (db' db'' : Database),
      applyExecution d.env d.orderId d.execution db = .ok (true, db') →
      Reaches step (fun _ _ => True) db' db'' →
      d'.executionId = d.executionId → d'.payload ≠ d.payload →
        (∃ error, applyExecution d'.env d'.orderId d'.execution db'' = .error error) ∧
          deliver db'' d' = db'' := by
  have hinv := hinit.inv.run hrun
  refine ⟨?_, ?_⟩
  · intro ds hsame
    exact (absorbing_deliver hsame).foldl_firstOccurrences ds db hinv fun _ hmem => hmem
  · intro d d' db' db'' hok hlater hid hne
    obtain ⟨o, r, _, ho, hr, -, hnone, hacc⟩ := hinv.applyExecution_accepts hok
    obtain ⟨db₁, _, _, hok', hdelivered⟩ := hinv.delivered (d := d) ⟨ho, hr, hnone, hacc⟩
    rw [hok] at hok'
    cases hok'
    have hinv' : Inv db'.ledger := hinv.effects (hinv.applyExecution_effects (F := .any) hok fun _ => trivial)
    have hstored : db'.ledger.processed.find (deliveryKey d.execution) =
        some (receipt d.env d.orderId d.execution) := by
      rw [hdelivered.processed, Table.find_put_self]
    have heffects := hinv'.run_effects (fun t call _ => meets_any t call) hlater
    obtain ⟨error, herror⟩ := conflicting_reuse (heffects.processed hstored) hid hne
    exact ⟨⟨error, herror⟩, commit_of_error herror⟩

def deliveryAt (price : ℚ) : Delivery where
  env := fixtureEnv [("BTC-USD", 100)]
  orderId := "TradingOrder"
  execution := { executionId := "execution", quantity := 4, price }

theorem exactly_once_after_create :
    [deliveryAt 90, deliveryAt 90].foldl deliver (step freshDatabase createTen) =
      deliver (step freshDatabase createTen) (deliveryAt 90) ∧
    deliver (deliver (step freshDatabase createTen) (deliveryAt 90)) (deliveryAt 80) =
      deliver (step freshDatabase createTen) (deliveryAt 90) := by
  have honce := exactly_once freshDatabase_initial (.single ⟨createTen, trivial, rfl⟩)
  constructor
  · have hfirst : firstOccurrences Delivery.executionId [deliveryAt 90, deliveryAt 90] = [deliveryAt 90] := by
      simp [firsts]
    have hsame := honce.1 [deliveryAt 90, deliveryAt 90] (by simp)
    rw [hfirst] at hsame
    exact hsame
  · have hconsumed : (applyExecution (deliveryAt 90).env (deliveryAt 90).orderId (deliveryAt 90).execution
        (step freshDatabase createTen)).toOption.map Prod.fst = some true := by
      decide +kernel
    cases hrun : applyExecution (deliveryAt 90).env (deliveryAt 90).orderId (deliveryAt 90).execution
        (step freshDatabase createTen) with
    | error error =>
      rw [hrun] at hconsumed
      cases hconsumed
    | ok p =>
      obtain ⟨consumed, db'⟩ := p
      rw [hrun] at hconsumed
      obtain rfl : consumed = true := Option.some.inj hconsumed
      have hdelivered : deliver (step freshDatabase createTen) (deliveryAt 90) = db' := commit_of_ok hrun
      rw [hdelivered]
      exact (honce.2 (deliveryAt 90) (deliveryAt 80) db' db' hrun .refl rfl (by
        simp [Delivery.payload, deliveryAt])).2

end Beyvra
