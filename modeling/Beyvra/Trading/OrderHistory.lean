import Beyvra.Trading.FinishedOrders

namespace Beyvra

open Relational

structure Recorded (t : TradingTables) (id : Uuid) (o : TradingOrder) : Prop where
  filled : o.filledQuantity = t.tradedQuantity id
  bounded : o.filledQuantity ≤ o.quantity
  complete : o.state = .filled ↔ o.filledQuantity = o.quantity
  average : 0 < o.filledQuantity → ∃ price, o.averageFillPrice = some price ∧
    price * o.filledQuantity = t.tradedNotional id

structure Succeeds (o o' : TradingOrder) : Prop where
  filled : o.filledQuantity ≤ o'.filledQuantity
  settled : o.state.terminal = true → o' = o

def Later (t t' : TradingTables) : Prop :=
  ∀ id o, t.orders.find id = some o → ∃ o', t'.orders.find id = some o' ∧ Succeeds o o'

theorem Succeeds.refl (o : TradingOrder) : Succeeds o o := ⟨le_rfl, fun _ => rfl⟩

theorem Succeeds.trans {o o' o'' : TradingOrder} (h : Succeeds o o') (h' : Succeeds o' o'') :
    Succeeds o o'' := by
  refine ⟨h.filled.trans h'.filled, ?_⟩
  intro hterminal
  have hsame := h.settled hterminal
  exact (h'.settled (hsame ▸ hterminal)).trans hsame

theorem Succeeds.of_open {o o' : TradingOrder} (hopen : o.state.terminal = false)
    (hfilled : o.filledQuantity ≤ o'.filledQuantity) : Succeeds o o' :=
  ⟨hfilled, fun hterminal => by simp [hopen] at hterminal⟩

namespace Later

variable {t t' t'' : TradingTables} {id : Uuid} {o o' : TradingOrder}

theorem of_orders (h : t'.orders = t.orders) : Later t t' := by
  intro id o ho
  exact ⟨o, h ▸ ho, .refl o⟩

theorem trans (h : Later t t') (h' : Later t' t'') : Later t t'' := by
  intro id o ho
  obtain ⟨o', ho', hs⟩ := h id o ho
  obtain ⟨o'', ho'', hs'⟩ := h' id o' ho'
  exact ⟨o'', ho'', hs.trans hs'⟩

theorem of_put (id : Uuid) (h : t'.orders = t.orders.put id o')
    (hs : ∀ o, t.orders.find id = some o → Succeeds o o') : Later t t' := by
  intro k x hx
  by_cases hk : k = id
  · subst hk
    exact ⟨o', by rw [h, Table.find_put_self], hs x hx⟩
  · exact ⟨x, by rw [h, Table.find_put_of_ne _ _ hk, hx], .refl x⟩

theorem of_put_some (id : Uuid) (h : t'.orders = t.orders.put id o') (ho : t.orders.find id = some o)
    (hs : Succeeds o o') : Later t t' := by
  refine of_put id h ?_
  intro x hx
  rw [ho] at hx
  exact Option.some.inj hx ▸ hs

end Later

section Steps

variable {F : Regime} {l l' : Ledger} {id : Uuid} {o o' : TradingOrder} {r r' : SimulatedReservation}
  {e : SimulatedExecution}

theorem OrderMove.opening (h : OrderMove o r o' r') : o.state.terminal = false := by
  have hworking {state : OrderState} (hs : workingState state = .opened) : state.terminal = false := by
    cases state <;> simp [workingState] at hs <;> rfl
  have hcancellable {state : OrderState} (hs : state ∈ cancellable) : state.terminal = false := by
    cases state <;> simp [cancellable] at hs <;> rfl
  cases h with
  | accept now hs => rw [hs]; rfl
  | opened now hs => rw [hs]; rfl
  | reject now hs => rw [hs]; rfl
  | expire now hs => exact hworking hs
  | cancel now hs => exact hcancellable hs

theorem OrderMove.succeeds (h : OrderMove o r o' r') : Succeeds o o' :=
  .of_open h.opening h.terms.2.1.ge

theorem AcceptsFill.opening (h : AcceptsFill o r e) : o.state.terminal = false := by
  have hstate := h.state
  simp only [List.mem_cons, List.not_mem_nil, or_false] at hstate
  rcases hstate with hs | hs | hs | hs <;> rw [hs] <;> rfl

theorem AcceptsFill.succeeds (h : AcceptsFill o r e) (now : Timestamp) : Succeeds o (filledOrder o e now) := by
  refine .of_open h.opening ?_
  have hquantity := h.quantity
  change o.filledQuantity ≤ o.filledQuantity + e.quantity
  linarith

theorem invalidateIf_succeeds (env : Env) (change : ProfileChange) (o : TradingOrder) :
    Succeeds o (invalidateIf env change o) := by
  rcases invalidateIf_cases env change o with h | ⟨hs, h⟩
  · rw [h]
    exact .refl o
  · rw [h]
    exact .of_open (by rw [hs]; rfl) le_rfl

theorem Inv.effect_later (h : Inv l) (he : Effect F l l') : Later l.trading l'.trading := by
  cases he with
  | enrolled ref a hn => exact .of_orders rfl
  | identified ref i a ha hm => exact .of_orders rfl
  | placed o r a d hp hF =>
    refine .of_put o.id rfl ?_
    intro x hx
    rw [hp.free] at hx
    cases hx
  | moved id o o' r r' ho hr hm => exact .of_put_some id rfl ho hm.succeeds
  | closed id o o' r r' e event ho hr hm hnone => exact .of_put_some id rfl ho hm.succeeds
  | filled id o r a e now event l' ho hr ha hnone hf hF hbooks htrading hprocessed =>
    have hkeyed := (h.backing ho hr).keyed
    rw [← hkeyed] at ho
    rw [htrading]
    exact .of_put_some o.id rfl ho (hf.succeeds now)
  | invalidated env change hF =>
    intro k x hx
    exact ⟨_, (relabelled_invalidate env change l.trading).forth hx, invalidateIf_succeeds env change x⟩
  | consumed key event hne => exact .of_orders rfl

theorem Inv.effects_later (h : Inv l) (he : Effects F l l') : Later l.trading l'.trading := by
  induction he with
  | refl => exact .of_orders rfl
  | tail hprefix hlast ih => exact ih.trans ((h.effects hprefix).effect_later hlast)

theorem Inv.recorded (h : Inv l) (ho : l.trading.orders.find id = some o) : Recorded l.trading id o := by
  obtain ⟨r, hr, hb⟩ := h.backed id o ho
  have htraded := h.traded id o ho
  refine ⟨htraded.quantity.symm, hb.filled.2, hb.complete, ?_⟩
  intro hpos
  have hprice := htraded.average hpos
  cases haverage : o.averageFillPrice with
  | none => simp [haverage] at hprice
  | some price =>
    refine ⟨price, rfl, ?_⟩
    rw [htraded.notional, haverage, Option.getD_some, mul_comm]

end Steps

theorem order_history {db db' db'' : Database} (hinit : Initial db)
    (hrun : Reaches step (fun _ _ => True) db db') (hlater : Reaches step (fun _ _ => True) db' db'') :
    (∀ id o, db'.trading.orders.find id = some o → Recorded db'.trading id o) ∧
      Later db'.trading db''.trading := by
  have hinv := hinit.inv.run hrun
  refine ⟨?_, hinv.effects_later (hinv.run_effects (fun d call _ => meets_any d call) hlater)⟩
  intro id o ho
  obtain ⟨hfilled, hbounded, hcomplete, haverage⟩ := hinv.recorded ho
  exact ⟨hfilled, hbounded, hcomplete, haverage⟩

def createdThenFilled : Database := step (step freshDatabase createTen) (fillTen 90)

theorem order_history_of_one_fill :
    (∃ o, createdThenFilled.trading.orders.find "TradingOrder" = some o ∧ o.filledQuantity = 10 ∧
      Recorded createdThenFilled.trading "TradingOrder" o) ∧
    Later createdThenFilled.trading (step createdThenFilled (fillTen 100)).trading := by
  have hrow : (createdThenFilled.trading.orders.find "TradingOrder").map (·.filledQuantity) = some 10 := by
    decide +kernel
  obtain ⟨o, ho, hfilled⟩ := Option.map_eq_some_iff.mp hrow
  have hhistory := order_history freshDatabase_initial
    (.tail (.single ⟨createTen, trivial, rfl⟩) ⟨fillTen 90, trivial, rfl⟩)
    (.single ⟨fillTen 100, trivial, rfl⟩)
  exact ⟨⟨o, ho, hfilled, hhistory.1 "TradingOrder" o ho⟩, hhistory.2⟩

end Beyvra
