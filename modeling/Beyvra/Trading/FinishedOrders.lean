import Beyvra.Trading.Engine

namespace Beyvra

open Relational

def HoldsNothing (t : TradingTables) (o : TradingOrder) : Prop :=
  ∃ reservationId r, o.reservationId = some reservationId ∧ t.reservations.find reservationId = some r ∧
    r.state ≠ .active ∧ r.remainingAmount = 0

def FinishedHoldNothing (t : TradingTables) : Prop :=
  ∀ id o, t.orders.find id = some o → o.state.terminal = true → HoldsNothing t o

section Holdings

variable {l : Ledger} {id : Uuid} {o : TradingOrder} {r : SimulatedReservation}

theorem Backed.holdsNothing (hb : Backed id o r) {t : TradingTables}
    (hr : t.reservations.find id = some r) : HoldsNothing t o ↔ r.remainingAmount = 0 := by
  constructor
  · rintro ⟨rid, r', hrid, hr', -, hzero⟩
    obtain rfl := Option.some.inj (hb.reservation.symm.trans hrid)
    rw [hr] at hr'
    exact (Option.some.inj hr') ▸ hzero
  · intro hzero
    have hidle : r.state ≠ .active := fun hactive => by
      have hpos := hb.active.mp hactive
      rw [hzero] at hpos
      exact lt_irrefl 0 hpos
    exact ⟨id, r, hb.reservation, hr, hidle, hzero⟩

theorem Inv.finishedHoldNothing (h : Inv l) :
    FinishedHoldNothing l.trading ↔ ∀ id o r, l.trading.orders.find id = some o →
      l.trading.reservations.find id = some r → o.state.terminal = true → r.remainingAmount = 0 := by
  constructor
  · intro hfree id o r ho hr hterminal
    exact ((h.backing ho hr).holdsNothing hr).mp (hfree id o ho hterminal)
  · intro hzero id o ho hterminal
    obtain ⟨r, hr, hb⟩ := h.backed id o ho
    exact (hb.holdsNothing hr).mpr (hzero id o r ho hr hterminal)

end Holdings

-- A fill that completes a BUY order must cost at least what its reservation still holds.
def CompletesInFull (l : Ledger) (id : Uuid) (e : SimulatedExecution) : Prop :=
  ∀ o r, l.trading.orders.find id = some o → l.trading.reservations.find id = some r →
    o.side = .buy → o.state ∈ [.pending, .accepted, .opened, .partiallyFilled] →
    l.Unprocessed e.executionId → 0 < e.quantity → 0 < e.price →
    o.filledQuantity + e.quantity = o.quantity →
    r.remainingAmount ≤ e.quantity * e.price * (1 + feeRate)

def fullCompletions : Regime := ⟨fun _ => True, CompletesInFull, fun _ _ => False⟩

section Step

variable {l l' : Ledger} {id : Uuid} {o o' : TradingOrder} {r r' : SimulatedReservation}
  {e : SimulatedExecution}

theorem OrderMove.drained (hb : Backed id o r) (hm : OrderMove o r o' r')
    (hterminal : o'.state.terminal = true) : r'.remainingAmount = 0 := by
  cases hm with
  | accept now => simp [OrderState.terminal, terminalStates] at hterminal
  | opened now => simp [OrderState.terminal, terminalStates] at hterminal
  | reject now => exact hb.released
  | expire now => exact hb.released
  | cancel now => exact hb.released

theorem debit_eq (hs : o.side = .buy) :
    (settlementOf o e).spent = e.quantity * e.price * (1 + feeRate) := by
  simp only [Settlement.spent, settlementOf, hs, Settlement.debit]
  ring

theorem Backed.completed (hb : Backed id o r) (hf : AcceptsFill o r e)
    (hdone : o.filledQuantity + e.quantity = o.quantity)
    (hcovers : o.side = .buy → r.remainingAmount ≤ e.quantity * e.price * (1 + feeRate)) :
    ((settlementOf o e).draw r).remainingAmount = 0 := by
  change r.remainingAmount - (settlementOf o e).spent = 0
  have hfunded := hf.funded
  cases hs : o.side with
  | buy =>
    rw [debit_eq hs] at hfunded ⊢
    have hle := hcovers hs
    linarith
  | sell =>
    have hspent : (settlementOf o e).spent = e.quantity := by
      simp [Settlement.spent, settlementOf, hs]
    have hstate := hf.state
    have hrem : r.remainingAmount = o.quantity - o.filledQuantity := by
      apply hb.selling hs
      intro hclosed
      simp only [List.mem_cons, List.not_mem_nil, or_false] at hstate hclosed
      rcases hclosed with hc | hc | hc <;> simp [hc] at hstate
    rw [hspent, hrem]
    linarith

theorem filled_of_terminal (hterminal : (fillTarget o e).terminal = true) :
    o.filledQuantity + e.quantity = o.quantity := by
  rcases fillTarget_cases o e with hf | hf
  · exact fillTarget_eq_filled.mp hf
  · rw [hf] at hterminal
    simp [OrderState.terminal, terminalStates] at hterminal

theorem FinishedHoldNothing.update (h : FinishedHoldNothing l.trading) (hi : Inv l) (o' : TradingOrder)
    (r' : SimulatedReservation)
    (hterminal : o'.state.terminal = true → r'.remainingAmount = 0) {k : Uuid} {x : TradingOrder}
    {y : SimulatedReservation} (hx : (l.trading.orders.put id o').find k = some x)
    (hy : (l.trading.reservations.put id r').find k = some y) (hxt : x.state.terminal = true) :
    y.remainingAmount = 0 := by
  rcases Table.find_put_cases hx with ⟨rfl, rfl⟩ | ⟨hk, hx'⟩
  · rcases Table.find_put_cases hy with ⟨-, rfl⟩ | ⟨hne, -⟩
    · exact hterminal hxt
    · exact absurd rfl hne
  · rcases Table.find_put_cases hy with ⟨rfl, -⟩ | ⟨-, hy'⟩
    · exact absurd rfl hk
    · exact hi.finishedHoldNothing.mp h k x y hx' hy' hxt

theorem FinishedHoldNothing.effect (h : FinishedHoldNothing l.trading) (hi : Inv l)
    (he : Effect fullCompletions l l') : FinishedHoldNothing l'.trading := by
  have hi' := hi.effect he
  refine hi'.finishedHoldNothing.mpr ?_
  intro k x y hx hy hxt
  cases he with
  | enrolled ref a hn => exact hi.finishedHoldNothing.mp h k x y hx hy hxt
  | identified ref i a ha hm => exact hi.finishedHoldNothing.mp h k x y hx hy hxt
  | placed o r a d hp hF =>
    refine h.update hi o r (fun hterminal => ?_) hx hy hxt
    simp [hp.state, OrderState.terminal, terminalStates] at hterminal
  | moved id o o' r r' ho hr hm => exact h.update hi o' r' (hm.drained (hi.backing ho hr)) hx hy hxt
  | closed id o o' r r' e event ho hr hm hnone =>
    exact h.update hi o' r' (hm.drained (hi.backing ho hr)) hx hy hxt
  | filled id o r a e now event l' ho hr ha hnone hf hF hbooks htrading hprocessed =>
    have hb := hi.backing ho hr
    obtain rfl := hb.keyed
    rw [htrading] at hx hy
    refine h.update hi (filledOrder o e now) ((settlementOf o e).draw r) ?_ hx hy hxt
    intro hterminal
    have hdone := filled_of_terminal hterminal
    exact hb.completed hf hdone fun hs =>
      hF o r ho hr hs hf.state hnone hf.quantity hf.price hdone
  | invalidated env change hF => exact hF.elim
  | consumed key event hne => exact hi.finishedHoldNothing.mp h k x y hx hy hxt

theorem FinishedHoldNothing.effects (h : FinishedHoldNothing l.trading) (hi : Inv l)
    (he : Effects fullCompletions l l') : FinishedHoldNothing l'.trading := by
  induction he with
  | refl => exact h
  | tail hprefix hlast ih => exact ih.effect (hi.effects hprefix) hlast

end Step

section Run

variable {env : Env} {db db' : Database} {id : Uuid} {o : TradingOrder} {r : SimulatedReservation}
  {a : SimulatedAccount} {e : SimulatedExecution}

theorem Initial.finishedHoldNothing (h : Initial db) : FinishedHoldNothing db.trading := by
  intro id o ho
  rw [h.orders] at ho
  simp at ho

-- The condition is exact: a fill that completes a BUY order for less strands the rest.
theorem cheaper_completion_strands (h : Inv db.ledger) (ho : db.trading.orders.find id = some o)
    (hr : db.trading.reservations.find id = some r)
    (ha : db.trading.accounts.find o.accountRef = some a) (hnone : db.ledger.Unprocessed e.executionId)
    (he : e.outcome = .fill) (hf : AcceptsFill o r e) (hs : o.side = .buy)
    (hdone : o.filledQuantity + e.quantity = o.quantity)
    (hcheap : e.quantity * e.price * (1 + feeRate) < r.remainingAmount) :
    ∃ db', applyExecution env id e db = .ok (true, db') ∧ ¬FinishedHoldNothing db'.trading := by
  obtain ⟨db', l', i, hok, -, -, htrading, -, hledger⟩ :=
    h.applyExecution_fill env ho hr ha hnone he hf
  refine ⟨db', hok, fun hfree => ?_⟩
  have hi' : Inv db'.ledger := h.effects (h.applyExecution_effects (F := .any) hok fun _ => trivial)
  have hid := (h.backing ho hr).keyed
  have horders : db'.ledger.trading.orders = db.ledger.trading.orders.put o.id (filledOrder o e env.now) := by
    rw [hledger]
    exact congrArg TradingTables.orders htrading
  have hreservations : db'.ledger.trading.reservations =
      db.ledger.trading.reservations.put o.id ((settlementOf o e).draw r) := by
    rw [hledger]
    exact congrArg TradingTables.reservations htrading
  have hfilled : (filledOrder o e env.now).state.terminal = true := by
    change (fillTarget o e).terminal = true
    rw [fillTarget_eq_filled.mpr hdone]
    rfl
  have hzero := hi'.finishedHoldNothing.mp hfree o.id _ _ (by rw [horders, Table.find_put_self])
    (by rw [hreservations, Table.find_put_self]) hfilled
  change r.remainingAmount - (settlementOf o e).spent = 0 at hzero
  rw [debit_eq hs] at hzero
  linarith

theorem finished_orders_hold_nothing (hinit : Initial db)
    (hrun : Reaches step (fun d call => call.meets fullCompletions d) db db') :
    FinishedHoldNothing db'.trading := by
  have heffects := hinit.inv.run_effects (fun _ _ hmeets => hmeets) hrun
  exact FinishedHoldNothing.effects hinit.finishedHoldNothing hinit.inv heffects

end Run

def buyOrder (quantity : ℚ) : OrderRequest where
  instrument := "BTC-USD"
  side := "BUY"
  quantity := some quantity

def Op.engine : Op → Prop
  | .createAllowed .. => True
  | .process .. => True
  | .execute _ execution => 0 < execution.quantity ∧ 0 < execution.price
  | .cancel _ => True
  | _ => False

def createTen : Call :=
  ⟨fixtureEnv [("BTC-USD", 100)], .createAllowed "alice" (buyOrder 10) "key" none false⟩

def fillTen (price : ℚ) : Call :=
  ⟨fixtureEnv [("BTC-USD", 100)],
    .execute "TradingOrder" { executionId := "execution", quantity := 10, price }⟩

theorem finished_orders_hold_nothing_at_reserved_price :
    FinishedHoldNothing (step (step freshDatabase createTen) (fillTen 100)).trading := by
  have hcovers : CompletesInFull (step freshDatabase createTen).ledger "TradingOrder"
      { executionId := "execution", quantity := 10, price := 100 } := by
    intro o r _ hr _ _ _ _ _ _
    have hreserved : ((step freshDatabase createTen).trading.reservations.find "TradingOrder").map
        (·.remainingAmount) = some 1001 := by
      decide +kernel
    rw [show (step freshDatabase createTen).trading.reservations.find "TradingOrder" = some r from hr]
      at hreserved
    have hremaining : r.remainingAmount = 1001 := Option.some.inj hreserved
    rw [hremaining]
    norm_num [feeRate]
  exact finished_orders_hold_nothing freshDatabase_initial
    (.tail (.single ⟨createTen, fun _ _ => trivial, rfl⟩) ⟨fillTen 100, fun _ => hcovers, rfl⟩)

theorem finished_order_still_reserved :
    ¬∀ db db', Initial db → Reaches step (fun _ call => call.op.engine) db db' →
      FinishedHoldNothing db'.trading := by
  intro hclaim
  have hrun : Reaches step (fun _ call => call.op.engine) freshDatabase
      (step (step freshDatabase createTen) (fillTen 90)) :=
    .tail (.single ⟨createTen, trivial, rfl⟩) ⟨fillTen 90, ⟨by norm_num, by norm_num⟩, rfl⟩
  have hrows : ((step (step freshDatabase createTen) (fillTen 90)).trading.orders.find "TradingOrder").map
        (fun o => (o.state, o.reservationId)) = some (.filled, some "TradingOrder") ∧
      ((step (step freshDatabase createTen) (fillTen 90)).trading.reservations.find "TradingOrder").map
        (fun r => (r.state, r.remainingAmount)) = some (.active, 1001 / 10) := by
    decide +kernel
  obtain ⟨o, ho, horder⟩ := Option.map_eq_some_iff.mp hrows.1
  obtain ⟨r, hr, hreservation⟩ := Option.map_eq_some_iff.mp hrows.2
  obtain ⟨hstate, hid⟩ := Prod.mk.inj horder
  obtain ⟨rid, r', hrid, hr', hidle, -⟩ :=
    hclaim _ _ freshDatabase_initial hrun "TradingOrder" o ho (by rw [hstate]; rfl)
  rw [hid] at hrid
  obtain rfl := Option.some.inj hrid
  rw [hr] at hr'
  obtain rfl := Option.some.inj hr'
  exact hidle (Prod.mk.inj hreservation).1

end Beyvra
