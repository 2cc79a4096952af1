import Beyvra.Trading.Redelivery

namespace Beyvra

open Relational

structure Fill where
  env : Env
  executionId : String
  quantity : ℚ

def Fill.at (fill : Fill) (price : ℚ) : SimulatedExecution where
  executionId := fill.executionId
  quantity := fill.quantity
  price := price

def PartlyFilled (t : TradingTables) (id : Uuid) : Prop :=
  ∃ o, t.orders.find id = some o ∧ o.state = .partiallyFilled

def FullyFilled (t : TradingTables) (id : Uuid) : Prop :=
  (∃ o, t.orders.find id = some o ∧ o.state = .filled) ∧
    ∃ r, t.reservations.find id = some r ∧ r.state = .consumed ∧ r.remainingAmount = 0

def FillsThrough (id : Uuid) (price : ℚ) : Database → List Fill → Prop
  | db, [] => FullyFilled db.trading id
  | db, fill :: fills => ∃ db', applyExecution fill.env id (fill.at price) db = .ok (true, db') ∧
      (fills ≠ [] → PartlyFilled db'.trading id) ∧ FillsThrough id price db' fills

structure Divides (fills : List Fill) (l : Ledger) (amount : ℚ) : Prop where
  some : fills ≠ []
  positive : ∀ fill ∈ fills, 0 < fill.quantity
  distinct : (fills.map (·.executionId)).Nodup
  unused : ∀ fill ∈ fills, l.Unprocessed fill.executionId
  total : (fills.map (·.quantity)).sum = amount

section Step

variable {env : Env} {db : Database} {id : Uuid} {o : TradingOrder} {r : SimulatedReservation}
  {e : SimulatedExecution}

structure FilledBy (env : Env) (db db' : Database) (id : Uuid) (o : TradingOrder) (r : SimulatedReservation)
    (e : SimulatedExecution) : Prop where
  applied : applyExecution env id e db = .ok (true, db')
  order : db'.trading.orders.find id = some (filledOrder o e env.now)
  reservation : db'.trading.reservations.find id = some ((settlementOf o e).draw r)
  unprocessed : ∀ executionId, executionId ≠ e.executionId → db.ledger.Unprocessed executionId →
    db'.ledger.Unprocessed executionId

theorem Inv.filledBy (env : Env) (h : Inv db.ledger) (ho : db.trading.orders.find id = some o)
    (hr : db.trading.reservations.find id = some r) (hnone : db.ledger.Unprocessed e.executionId)
    (he : e.outcome = .fill) (hf : AcceptsFill o r e) : ∃ db', FilledBy env db db' id o r e := by
  obtain ⟨a, ha, -⟩ := h.funded id o r ho hr
  obtain rfl := (h.backing ho hr).keyed
  obtain ⟨db', l', i, hok, -, -, htrading, hprocessed, hledger⟩ :=
    h.applyExecution_fill env ho hr ha hnone he hf
  refine ⟨db', hok, ?_, ?_, ?_⟩
  · change db'.ledger.trading.orders.find o.id = _
    rw [hledger]
    change l'.trading.orders.find o.id = _
    rw [htrading]
    exact Table.find_put_self _ _ _
  · change db'.ledger.trading.reservations.find o.id = _
    rw [hledger]
    change l'.trading.reservations.find o.id = _
    rw [htrading]
    exact Table.find_put_self _ _ _
  · intro executionId hne hun
    unfold Ledger.Unprocessed
    rw [hledger]
    change l'.processed.find _ = none
    rw [hprocessed]
    have hkey : (uuid5 executionId, executionConsumer) ≠ deliveryKey e := fun heq =>
      hne (uuid5_injective (Prod.mk.inj heq).1)
    exact (Table.find_put_of_ne _ _ hkey).trans hun

theorem FilledBy.unique {db' db'' : Database} {consumed : Bool} (h : FilledBy env db db' id o r e)
    (hok : applyExecution env id e db = .ok (consumed, db'')) : db'' = db' := by
  rw [h.applied] at hok
  cases hok
  rfl

theorem FilledBy.inv {db' : Database} (h : FilledBy env db db' id o r e) (hinv : Inv db.ledger) :
    Inv db'.ledger :=
  hinv.effects (hinv.applyExecution_effects (F := .any) h.applied fun _ => trivial)

end Step

section Provision

variable {o : TradingOrder} {r : SimulatedReservation} {e : SimulatedExecution} {id : Uuid} {price : ℚ}

def unitCost (side : OrderSide) (price : ℚ) : ℚ :=
  match side with
  | .buy => price * (1 + feeRate)
  | .sell => 1

def Provides (o : TradingOrder) (r : SimulatedReservation) (price : ℚ) : Prop :=
  r.remainingAmount = (o.quantity - o.filledQuantity) * unitCost o.side price

theorem spent_eq (o : TradingOrder) (e : SimulatedExecution) :
    (settlementOf o e).spent = e.quantity * unitCost o.side e.price := by
  cases hs : o.side <;> simp only [Settlement.spent, settlementOf, hs, Settlement.debit, unitCost] <;> ring

theorem unitCost_nonneg (side : OrderSide) (hprice : 0 < price) : 0 ≤ unitCost side price := by
  cases side with
  | buy =>
    have hrate : (0 : ℚ) ≤ 1 + feeRate := by norm_num [feeRate]
    exact mul_nonneg hprice.le hrate
  | sell => exact zero_le_one

theorem Provides.accepts (h : Provides o r e.price) (hquantity : 0 < e.quantity) (hprice : 0 < e.price)
    (hfits : o.filledQuantity + e.quantity ≤ o.quantity)
    (htransition : fillTarget o e ∈ transitions (workingState o.state)) : AcceptsFill o r e := by
  refine ⟨hquantity, hprice, hfits, htransition, ?_⟩
  rw [spent_eq, h]
  exact mul_le_mul_of_nonneg_right (by linarith) (unitCost_nonneg _ hprice)

theorem Provides.fill (h : Provides o r e.price) (now : Timestamp) :
    Provides (filledOrder o e now) ((settlementOf o e).draw r) e.price := by
  change r.remainingAmount - (settlementOf o e).spent =
    (o.quantity - (o.filledQuantity + e.quantity)) * unitCost o.side e.price
  rw [spent_eq, h]
  ring

theorem Provides.exhausted (h : Provides o r e.price) (hdone : o.filledQuantity + e.quantity = o.quantity) :
    ((settlementOf o e).draw r).remainingAmount = 0 ∧ ((settlementOf o e).draw r).state = .consumed := by
  have hzero : r.remainingAmount - (settlementOf o e).spent = 0 := by
    rw [spent_eq, h]
    have hrest : o.quantity - o.filledQuantity = e.quantity := by linarith
    rw [hrest, sub_self]
  refine ⟨hzero, ?_⟩
  simp only [Settlement.draw]
  exact if_pos hzero

theorem Inv.provides {l : Ledger} (h : Inv l) (ho : l.trading.orders.find id = some o)
    (hr : l.trading.reservations.find id = some r) {d : RoutingDecision}
    (hd : l.trading.routingDecisions.find id = some d)
    (hopen : o.state ∈ [.pending, .accepted, .opened]) :
    0 < d.referencePrice ∧ Provides o r d.referencePrice := by
  have hb := h.backing ho hr
  obtain ⟨d', hd', hpos, hquote⟩ := h.quoted id o r ho hr
  rw [hd] at hd'
  obtain rfl := Option.some.inj hd'
  obtain ⟨hunfilled, hfull⟩ := hb.untouched hopen
  refine ⟨hpos, ?_⟩
  unfold Provides
  cases hs : o.side with
  | buy =>
    rw [hfull, hquote hs, hunfilled]
    simp only [unitCost]
    ring
  | sell =>
    have hnot : o.state ∉ [.cancelled, .rejected, .expired] := by
      simp only [List.mem_cons, List.not_mem_nil, or_false] at hopen ⊢
      rcases hopen with hst | hst | hst <;> simp [hst]
    rw [hb.selling hs hnot]
    simp [unitCost]

end Provision

section Deliveries

variable {db db' : Database} {id : Uuid} {o : TradingOrder} {r : SimulatedReservation} {price : ℚ}
  {fill : Fill}

theorem FilledBy.fullyFilled (h : FilledBy fill.env db db' id o r (fill.at price))
    (hp : Provides o r price) (hdone : o.filledQuantity + fill.quantity = o.quantity) :
    FullyFilled db'.trading id := by
  obtain ⟨hzero, hconsumed⟩ := Provides.exhausted (e := fill.at price) hp hdone
  exact ⟨⟨_, h.order, fillTarget_eq_filled.mpr hdone⟩, _, h.reservation, hconsumed, hzero⟩

theorem fillTarget_partly {e : SimulatedExecution} (hless : o.filledQuantity + e.quantity ≠ o.quantity) :
    fillTarget o e = .partiallyFilled :=
  (fillTarget_cases o e).resolve_left fun hf => hless (fillTarget_eq_filled.mp hf)

-- No third fill: the second one finds a partly filled order, which only a completing fill can leave.
theorem not_partlyFilled_again {env : Env} {e : SimulatedExecution} (h : Inv db.ledger)
    (hpartly : PartlyFilled db.trading id) (hok : applyExecution env id e db = .ok (true, db'))
    (he : e.outcome = .fill) : ¬PartlyFilled db'.trading id := by
  rintro ⟨o', ho', hstate'⟩
  obtain ⟨x, hx, hstate⟩ := hpartly
  obtain ⟨o, r, a, ho, hr, ha, hnone, hacc⟩ := h.applyExecution_accepts hok
  rw [hx] at ho
  obtain rfl := Option.some.inj ho
  have hf : AcceptsFill x r e := by
    unfold Accepts at hacc
    rwa [he] at hacc
  obtain ⟨db'', hfilled⟩ := h.filledBy env hx hr hnone he hf
  obtain rfl := hfilled.unique hok
  rw [hfilled.order] at ho'
  obtain rfl := Option.some.inj ho'
  have htransition := hf.transition
  rw [show fillTarget x e = .partiallyFilled from hstate', hstate] at htransition
  simp [workingState, transitions] at htransition

theorem Inv.last_fill (h : Inv db.ledger) (ho : db.trading.orders.find id = some o)
    (hr : db.trading.reservations.find id = some r) (hp : Provides o r price) (hprice : 0 < price)
    (hnone : db.ledger.Unprocessed fill.executionId) (hpos : 0 < fill.quantity)
    (hstate : .filled ∈ transitions (workingState o.state))
    (hdone : o.filledQuantity + fill.quantity = o.quantity) : FillsThrough id price db [fill] := by
  have htarget : fillTarget o (fill.at price) = .filled := fillTarget_eq_filled.mpr hdone
  have hf : AcceptsFill o r (fill.at price) :=
    hp.accepts hpos hprice hdone.le (htarget ▸ hstate)
  obtain ⟨db', hfilled⟩ := h.filledBy fill.env ho hr hnone rfl hf
  exact ⟨db', hfilled.applied, fun hne => absurd rfl hne, hfilled.fullyFilled hp hdone⟩

theorem Inv.two_fills {last : Fill} (h : Inv db.ledger) (ho : db.trading.orders.find id = some o)
    (hr : db.trading.reservations.find id = some r) (hp : Provides o r price) (hprice : 0 < price)
    (hworking : workingState o.state = .opened) (hunfilled : o.filledQuantity = 0)
    (hdivides : Divides [fill, last] db.ledger o.quantity) : FillsThrough id price db [fill, last] := by
  have hpos : 0 < fill.quantity := hdivides.positive fill List.mem_cons_self
  have hpos' : 0 < last.quantity := hdivides.positive last (by simp)
  have htotal : fill.quantity + last.quantity = o.quantity := by
    simpa using hdivides.total
  have hpartly : fillTarget o (fill.at price) = .partiallyFilled := by
    refine fillTarget_partly ?_
    change o.filledQuantity + fill.quantity ≠ o.quantity
    linarith
  have hf : AcceptsFill o r (fill.at price) := by
    refine hp.accepts hpos hprice ?_ ?_
    · change o.filledQuantity + fill.quantity ≤ o.quantity
      linarith
    · rw [hpartly, hworking]
      decide
  obtain ⟨db', hfilled⟩ := h.filledBy fill.env ho hr (hdivides.unused fill List.mem_cons_self) rfl hf
  refine ⟨db', hfilled.applied, fun _ => ⟨_, hfilled.order, hpartly⟩, ?_⟩
  have hdistinct : last.executionId ≠ fill.executionId := by
    have hnodup := hdivides.distinct
    simp only [List.map_cons, List.map_nil, List.nodup_cons, List.mem_singleton] at hnodup
    exact fun heq => hnodup.1 heq.symm
  refine (hfilled.inv h).last_fill hfilled.order hfilled.reservation (hp.fill fill.env.now) hprice
    (hfilled.unprocessed _ hdistinct (hdivides.unused last (by simp))) hpos' ?_ ?_
  · change .filled ∈ transitions (workingState (fillTarget o (fill.at price)))
    rw [hpartly]
    decide
  · change o.filledQuantity + fill.quantity + last.quantity = o.quantity
    linarith

theorem Inv.at_most_two_fills {fills : List Fill} (h : Inv db.ledger)
    (hthrough : FillsThrough id price db fills) : fills.length ≤ 2 := by
  rcases fills with _ | ⟨first, _ | ⟨second, _ | ⟨third, rest⟩⟩⟩
  · simp
  · simp
  · simp
  · obtain ⟨db₁, hfirst, hpartly, db₂, hsecond, hagain, -⟩ := hthrough
    have hinv : Inv db₁.ledger :=
      h.effects (h.applyExecution_effects (F := .any) hfirst fun _ => trivial)
    have hnever := not_partlyFilled_again hinv (hpartly (List.cons_ne_nil _ _)) hsecond rfl
    exact absurd (hagain (List.cons_ne_nil _ _)) hnever

theorem Inv.fills_through {fills : List Fill} (h : Inv db.ledger)
    (ho : db.trading.orders.find id = some o) (hr : db.trading.reservations.find id = some r)
    (hp : Provides o r price) (hprice : 0 < price) (hworking : workingState o.state = .opened)
    (hunfilled : o.filledQuantity = 0) (hdivides : Divides fills db.ledger o.quantity)
    (hlength : fills.length ≤ 2) : FillsThrough id price db fills := by
  rcases fills with _ | ⟨fill, _ | ⟨last, _ | ⟨third, rest⟩⟩⟩
  · exact absurd rfl hdivides.some
  · have htotal : fill.quantity = o.quantity := by simpa using hdivides.total
    refine h.last_fill ho hr hp hprice (hdivides.unused fill (by simp))
      (hdivides.positive fill (by simp)) ?_ ?_
    · rw [hworking]
      decide
    · rw [hunfilled, htotal, zero_add]
  · exact h.two_fills ho hr hp hprice hworking hunfilled hdivides
  · simp at hlength

theorem workingState_of_open {state : OrderState} (h : state ∈ [.pending, .accepted, .opened]) :
    workingState state = .opened := by
  simp only [List.mem_cons, List.not_mem_nil, or_false] at h
  rcases h with hs | hs | hs <;> rw [hs] <;> rfl

-- Of exact amounts: the rows that round them are the subject of StoredFills.
theorem fills_through_iff {start : Database} {d : RoutingDecision} {fills : List Fill}
    (hinit : Initial start) (hrun : Reaches step (fun _ _ => True) start db)
    (ho : db.trading.orders.find id = some o) (hopen : o.state ∈ [.pending, .accepted, .opened])
    (hd : db.trading.routingDecisions.find id = some d) (hdivides : Divides fills db.ledger o.quantity) :
    FillsThrough id d.referencePrice db fills ↔ fills.length ≤ 2 := by
  have hinv := hinit.inv.run hrun
  obtain ⟨r, hr, hb⟩ := hinv.backed id o ho
  obtain ⟨hprice, hp⟩ := hinv.provides ho hr hd hopen
  exact ⟨hinv.at_most_two_fills, hinv.fills_through ho hr hp hprice (workingState_of_open hopen)
    (hb.untouched hopen).1 hdivides⟩

end Deliveries

end Beyvra
