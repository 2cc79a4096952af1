import Beyvra.Trading.FinishedOrders

namespace Beyvra

open Relational

def Trade.effectOn (trade : Trade) (ref instrument : String) : ℚ :=
  if trade.accountRef = ref ∧ trade.instrumentId = instrument then trade.effectQuantity else 0

def effectQuantity (trades : Table String Trade) (ref instrument : String) : ℚ :=
  trades.sum fun _ trade => trade.effectOn ref instrument

def ValuationTables.costBasisQuantity (v : ValuationTables) (ref instrument : String) : ℚ :=
  ((v.costBasis.find (defaultTenant, ref, instrument)).map (·.quantity)).getD 0

-- The lots already follow the position in every reachable ledger; the other two books follow here.
structure Agrees (l : Ledger) : Prop where
  effects : ∀ ref instrument,
    effectQuantity l.booked ref instrument = (l.trading.positionAt ref instrument).quantity
  costBasis : ∀ ref instrument,
    l.valuation.costBasisQuantity ref instrument = l.valuation.held ⟨defaultTenant, ref, instrument⟩

structure BooksKept (l l' : Ledger) : Prop where
  booked : l'.booked = l.booked
  valuation : l'.valuation = l.valuation
  positions : l'.trading.positions = l.trading.positions

theorem Agrees.kept {l l' : Ledger} (h : Agrees l) (hk : BooksKept l l') : Agrees l' := by
  refine ⟨?_, ?_⟩
  · intro ref instrument
    have hposition : l'.trading.positionAt ref instrument = l.trading.positionAt ref instrument := by
      unfold TradingTables.positionAt
      rw [hk.positions]
    rw [hk.booked, hposition]
    exact h.effects ref instrument
  · intro ref instrument
    rw [hk.valuation]
    exact h.costBasis ref instrument

section Fill

variable {F : Regime} {l l' : Ledger} {id : Uuid} {o : TradingOrder} {r : SimulatedReservation}
  {a : SimulatedAccount} {e : SimulatedExecution} {now : Timestamp}

theorem effectQuantity_put {trades : Table String Trade} {key : String} {trade : Trade}
    (hnone : trades.find key = none) (haccount : trade.accountRef = o.accountRef)
    (hinstrument : trade.instrumentId = o.instrumentId) (ref instrument : String) :
    effectQuantity (trades.put key trade) ref instrument = effectQuantity trades ref instrument +
      if (o.accountRef, o.instrumentId) = (ref, instrument) then trade.effectQuantity else 0 := by
  unfold effectQuantity
  rw [Table.sum_put_of_none hnone]
  simp only [Trade.effectOn, haccount, hinstrument, Prod.mk.injEq]

theorem Agrees.fill (h : Agrees l) (hbooks : BooksMoved l l' o e) (htenant : o.tenantRef = defaultTenant)
    (hnone : l.booked.find e.executionId = none)
    (htrading : l'.trading = settledTables l.trading o r a e now) : Agrees l' := by
  refine ⟨?_, ?_⟩
  · intro ref instrument
    obtain ⟨row, hbooked, haccount, hinstrument, hquantity⟩ := hbooks.posted.effect
    rw [hbooked, effectQuantity_put hnone haccount hinstrument, h.effects, htrading,
      positionAt_settled, hquantity]
  · intro ref instrument
    obtain ⟨position, hcost, hquantity⟩ := hbooks.posted.costBasis
    unfold ValuationTables.costBasisQuantity
    rw [hcost, Table.find_put]
    rw [htenant] at hquantity ⊢
    split
    · rename_i hkey
      obtain ⟨rfl, rfl⟩ : ref = o.accountRef ∧ instrument = o.instrumentId := by
        simpa using hkey
      exact hquantity
    · rename_i hkey
      have hother : ¬(⟨o.tenantRef, o.accountRef, o.instrumentId⟩ : Holding) =
          ⟨defaultTenant, ref, instrument⟩ := by
        rintro heq
        obtain ⟨-, rfl, rfl⟩ := Holding.mk.inj heq
        exact hkey rfl
      rw [hbooks.held, if_neg hother, add_zero]
      exact h.costBasis ref instrument

theorem Inv.effect_agrees (h : Inv l) (hagrees : Agrees l) (he : Effect F l l') : Agrees l' := by
  cases he with
  | enrolled => exact hagrees.kept ⟨rfl, rfl, rfl⟩
  | identified => exact hagrees.kept ⟨rfl, rfl, rfl⟩
  | placed => exact hagrees.kept ⟨rfl, rfl, rfl⟩
  | moved => exact hagrees.kept ⟨rfl, rfl, rfl⟩
  | closed => exact hagrees.kept ⟨rfl, rfl, rfl⟩
  | filled id o r a e now event l' ho hr ha hnone hf hF hbooks htrading hprocessed =>
    exact hagrees.fill hbooks (h.backing ho hr).tenant (h.fresh _ hnone).2.1 htrading
  | invalidated env change =>
    have hrest := (relabelled_invalidate env change l.trading).rest
    exact hagrees.kept ⟨rfl, rfl, congrArg (·.positions) hrest⟩
  | consumed => exact hagrees.kept ⟨rfl, rfl, rfl⟩

theorem Inv.effects_agrees (h : Inv l) (hagrees : Agrees l) (he : Effects F l l') : Agrees l' := by
  induction he with
  | refl => exact hagrees
  | tail hbefore hstep ih => exact (h.effects hbefore).effect_agrees ih hstep

end Fill

section Run

variable {env : Env} {db db' : Database} {id : Uuid}

theorem Inv.applyExecution_inv {e : SimulatedExecution} {consumed : Bool} (h : Inv db.ledger)
    (hok : applyExecution env id e db = .ok (consumed, db')) : Inv db'.ledger :=
  h.effects (h.applyExecution_effects (F := Regime.any) hok fun _ => trivial)

theorem Inv.run_agrees {allowed : Database → Call → Prop} (h : Inv db.ledger) (hagrees : Agrees db.ledger)
    (hrun : Reaches step allowed db db') : Agrees db'.ledger :=
  h.effects_agrees hagrees (h.run_effects (fun d c _ => meets_any d c) hrun)

theorem Initial.agrees (h : Initial db) (hcost : db.valuation.costBasis = Table.empty) :
    Agrees db.ledger := by
  have hposition (ref instrument : String) :
      (db.ledger.trading.positionAt ref instrument).quantity = 0 := by
    change ((db.trading.positions.find _).getD {}).quantity = 0
    rw [h.positions]
    rfl
  refine ⟨?_, ?_⟩
  · intro ref instrument
    rw [hposition, show db.ledger.booked = Table.empty from h.booked]
    exact Table.sum_empty _
  · intro ref instrument
    rw [← h.inv.lots, hposition]
    unfold ValuationTables.costBasisQuantity
    rw [show db.ledger.valuation.costBasis = Table.empty from hcost]
    rfl

end Run

section Disposal

variable {l : Ledger} {id : Uuid} {e : SimulatedExecution}

-- What settle_trade lets through of a sale, the lots can deliver.
def NeverShort (l : Ledger) (id : Uuid) (e : SimulatedExecution) : Prop :=
  ∀ o reservationId settled t trade, l.trading.orders.find id = some o →
    o.reservationId = some reservationId → o.side = .sell →
    settleTrade reservationId (settlementOf o e) l.trading = .ok (settled, t) →
    trade.holding = ⟨o.tenantRef, o.accountRef, o.instrumentId⟩ → trade.quantity = e.quantity →
    disposeFifo trade l.valuation ≠ .error (.valueError "TAX_LOT_INSUFFICIENT_QUANTITY")

def Regime.disposable : Regime := { Regime.any with fill := NeverShort }

theorem disposeFifo_enough {trade : Trade} {v : ValuationTables} (hk : LotsKept v.lots)
    (henough : trade.quantity ≤ v.held trade.holding) :
    disposeFifo trade v ≠ .error (.valueError "TAX_LOT_INSUFFICIENT_QUANTITY") := by
  intro hfailed
  unfold disposeFifo at hfailed
  split at hfailed
  · cases hfailed
  · have hlots : trade.quantity ≤ ((v.lotsInOrder trade.holding).map (·.remainingQuantity)).sum :=
      (ValuationTables.sum_lotsInOrder hk).symm ▸ henough
    dsimp only at hfailed
    rw [bind_of_ok (require_of hlots)] at hfailed
    unfold feeOf at hfailed
    cases hfee : trade.feeSnapshot with
    | none =>
      rw [hfee] at hfailed
      cases hfailed
    | some snapshot =>
      rw [hfee] at hfailed
      cases hfailed

theorem Inv.neverShort (h : Inv l) (id : Uuid) (e : SimulatedExecution) : NeverShort l id e := by
  intro o reservationId settled t trade ho hid hside hsettle hholding hquantity
  obtain ⟨r, a, hr, ha, hguards, -⟩ := settleTrade_eq_ok.mp hsettle
  obtain ⟨r', hr', hb⟩ := h.backed id o ho
  obtain rfl : reservationId = id := Option.some.inj (hid.symm.trans hb.reservation)
  obtain rfl : r = r' := Option.some.inj (hr.symm.trans hr')
  have hkey : a.accountRef = o.accountRef := (h.solvent _ a ha).keyed.trans hb.account
  have hposition := ((Settlement.guards_sell hside).mp hguards).1
  apply disposeFifo_enough h.kept
  rw [hkey, show (settlementOf o e).instrumentId = o.instrumentId from rfl, h.lots] at hposition
  rw [hholding, hquantity, hb.tenant]
  exact hposition

-- Each fill is judged in the state its transaction finds, with the fills before it applied.
theorem Inv.fillsIn {F : Regime} {env : Env} {db : Database} (hF : ∀ l e, Inv l → F.fill l id e)
    (es : List SimulatedExecution) (h : Inv db.ledger) : FillsIn F env id es db := by
  induction es generalizing db with
  | nil => trivial
  | cons e es ih =>
    exact ⟨fun _ => hF _ e h, fun consumed db' hok => ih (h.applyExecution_inv hok)⟩

theorem Inv.processFills {F : Regime} {env : Env} {db : Database} {scenario : Option Scenario}
    (hF : ∀ l e, Inv l → F.fill l id e) (h : Inv db.ledger) : ProcessFills F env id scenario db := by
  intro o order db' executions hfetch haccept _
  have haccepted := h.acceptCreated_effects (F := Regime.any) (fetchOrder_eq_ok.mp hfetch).1 haccept
  exact (h.effects haccepted).fillsIn hF executions

theorem Inv.meets_disposable {db : Database} (h : Inv db.ledger) (call : Call) :
    call.meets Regime.disposable db := by
  have hshort (id : Uuid) (l : Ledger) (e : SimulatedExecution) (hl : Inv l) : NeverShort l id e :=
    hl.neverShort id e
  obtain ⟨env, op⟩ := call
  cases op with
  | createAllowed user data key correlationId recordGiven => exact fun _ _ => trivial
  | createTransaction user data key correlationId => exact fun _ _ => trivial
  | process orderId scenario => exact h.processFills (hshort orderId)
  | consume eventId orderId => exact fun _ => h.processFills (hshort orderId)
  | execute orderId execution => exact fun _ => h.neverShort orderId execution
  | comply mutation => exact fun _ _ => trivial
  | _ => trivial

end Disposal

theorem cross_book_agreement {start db : Database} {allowed : Database → Call → Prop}
    (hinit : Initial start) (hcost : start.valuation.costBasis = Table.empty)
    (hrun : Reaches step allowed start db) :
    (∀ ref instrument,
      (db.trading.positionAt ref instrument).quantity =
          effectQuantity db.postTrade.trades ref instrument ∧
        effectQuantity db.postTrade.trades ref instrument =
          db.valuation.held ⟨defaultTenant, ref, instrument⟩ ∧
        db.valuation.held ⟨defaultTenant, ref, instrument⟩ =
          db.valuation.costBasisQuantity ref instrument) ∧
    ∀ call : Call, call.meets Regime.disposable db := by
  have hinv := hinit.inv.run hrun
  have hagrees := hinit.inv.run_agrees (hinit.agrees hcost) hrun
  refine ⟨?_, hinv.meets_disposable⟩
  intro ref instrument
  have heffects := hagrees.effects ref instrument
  exact ⟨heffects.symm, heffects.trans (hinv.lots ref instrument),
    (hagrees.costBasis ref instrument).symm⟩

def secondEnv : Env :=
  { fixtureEnv [("BTC-USD", 100)] with uuid4 := fun name => "second-" ++ name }

def sellFour : Call :=
  ⟨secondEnv, .createAllowed "alice" { buyOrder 4 with side := "SELL" } "second-key" none false⟩

def fillFour : Call :=
  ⟨secondEnv,
    .execute "second-TradingOrder" { executionId := "second-execution", quantity := 4, price := 120 }⟩

def boughtThenSold : Database := [createTen, fillTen 90, sellFour, fillFour].foldl step freshDatabase

theorem cross_book_agreement_after_sale :
    (boughtThenSold.trading.positionAt "sim:alice" "BTC-USD").quantity = 6 ∧
      effectQuantity boughtThenSold.postTrade.trades "sim:alice" "BTC-USD" = 6 ∧
      boughtThenSold.valuation.held ⟨defaultTenant, "sim:alice", "BTC-USD"⟩ = 6 ∧
      boughtThenSold.valuation.costBasisQuantity "sim:alice" "BTC-USD" = 6 := by
  have hrun : Reaches step (fun _ _ => True) freshDatabase boughtThenSold :=
    Reaches.of_foldl fun _ _ _ => trivial
  obtain ⟨hposition, heffects, hlots⟩ :=
    (cross_book_agreement freshDatabase_initial rfl hrun).1 "sim:alice" "BTC-USD"
  have hsix : (boughtThenSold.trading.positionAt "sim:alice" "BTC-USD").quantity = 6 := by
    decide +kernel
  have heffectsSix := hposition.symm.trans hsix
  have hlotsSix := heffects.symm.trans heffectsSix
  exact ⟨hsix, heffectsSix, hlotsSix, hlots.symm.trans hlotsSix⟩

end Beyvra
