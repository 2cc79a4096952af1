import Beyvra.Trading.CrossBook

namespace Beyvra

open Relational

def ObligationType.cash : ObligationType → Bool
  | .cashDebit | .cashCredit | .feeDebit | .rebateCredit => true
  | .assetDelivery | .assetReceipt => false

def Direction.signed (direction : Direction) (amount : ℚ) : ℚ :=
  match direction with
  | .debit => -amount
  | .credit => amount

def TradeConfirmation.signedNet (c : TradeConfirmation) : ℚ :=
  match c.side with
  | .buy => -c.netAmount
  | .sell => c.netAmount

namespace SettlementInstruction

def cashNet (i : SettlementInstruction) (side : OrderSide) : ℚ :=
  match side with
  | .buy => -i.deliverQuantity
  | .sell => i.receiveQuantity

def securityNet (i : SettlementInstruction) (side : OrderSide) : ℚ :=
  match side with
  | .buy => i.receiveQuantity
  | .sell => -i.deliverQuantity

def legs (i : SettlementInstruction) (side : OrderSide) : String × String :=
  match side with
  | .buy => (i.deliverAsset, i.receiveAsset)
  | .sell => (i.receiveAsset, i.deliverAsset)

end SettlementInstruction

namespace Trade

def cashObligations (trade : Trade) : ℚ :=
  ((trade.obligations.filter (·.obligationType.cash)).map fun o => o.direction.signed o.amount).sum

def securityObligations (trade : Trade) : ℚ :=
  ((trade.obligations.filter (!·.obligationType.cash)).map fun o => o.direction.signed o.quantity).sum

structure Consistent (trade : Trade) : Prop where
  confirmed : ∃ confirmation, trade.confirmations = [confirmation] ∧
    confirmation.signedNet = trade.cashObligations
  instructed : ∃ instruction, trade.settlementInstruction = some instruction ∧
    instruction.legs trade.side = (trade.tradeCurrency, baseAsset trade.instrumentId) ∧
    instruction.cashNet trade.side = trade.cashObligations ∧
    instruction.securityNet trade.side = trade.securityObligations

end Trade

def cashBooked (trades : Table String Trade) (ref : String) : ℚ :=
  trades.sum fun _ trade => if trade.accountRef = ref then trade.cashObligations else 0

def securitiesBooked (trades : Table String Trade) (ref instrument : String) : ℚ :=
  trades.sum fun _ trade =>
    if (trade.accountRef, trade.instrumentId) = (ref, instrument) then trade.securityObligations else 0

structure FillSettles (db db' : Database) (e : SimulatedExecution) (o : TradingOrder) (trade : Trade) :
    Prop where
  booked : db'.postTrade.trades = db.postTrade.trades.put e.executionId trade
  unbooked : db.postTrade.trades.find e.executionId = none
  side : trade.side = o.side
  fee : ∃ snapshot, trade.feeSnapshot = some snapshot ∧
    snapshot.totalFee = e.quantity * e.price * feeRate
  consistent : trade.Consistent
  cash : ∀ ref a, db.trading.accounts.find ref = some a →
    ∃ a', db'.trading.accounts.find ref = some a' ∧
      a'.totalBalance = a.totalBalance + if o.accountRef = ref then trade.cashObligations else 0
  position : ∀ ref instrument, (db'.trading.positionAt ref instrument).quantity =
    (db.trading.positionAt ref instrument).quantity +
      if (o.accountRef, o.instrumentId) = (ref, instrument) then trade.securityObligations else 0

-- The trades booked by the start of a run stay as they are, so the totals differ by what the run books.
structure SettledSince (s l : Ledger) : Prop where
  kept : ∀ key trade, s.booked.find key = some trade → l.booked.find key = some trade
  cash : ∀ ref a, s.trading.accounts.find ref = some a →
    ∃ a', l.trading.accounts.find ref = some a' ∧
      a'.totalBalance = a.totalBalance + (cashBooked l.booked ref - cashBooked s.booked ref)
  position : ∀ ref instrument, (l.trading.positionAt ref instrument).quantity =
    (s.trading.positionAt ref instrument).quantity +
      (securitiesBooked l.booked ref instrument - securitiesBooked s.booked ref instrument)

section Row

variable {o : TradingOrder} {executionId : String} {quantity price fee : ℚ} {trade : Trade}
  {instruction : SettlementInstruction}

structure RowTerms (o : TradingOrder) (quantity price fee : ℚ) (trade : Trade) : Prop where
  account : trade.accountRef = o.accountRef
  instrument : trade.instrumentId = o.instrumentId
  side : trade.side = o.side
  amount : trade.quantity = quantity
  notional : trade.grossNotional = quantity * price
  obligations : trade.obligations = obligationsOf trade fee
  confirmations : trade.confirmations = [confirmationOf trade fee]
  charged : ∃ snapshot, trade.feeSnapshot = some snapshot ∧ snapshot.totalFee = fee

theorem TradeRecorded.terms (h : TradeRecorded o executionId quantity price fee trade) :
    RowTerms o quantity price fee trade := by
  obtain ⟨env, executedAt, instruction, -, rfl⟩ := h.settled
  exact ⟨rfl, rfl, rfl, rfl, rfl, rfl, rfl, _, rfl, rfl⟩

theorem RowTerms.cashObligations (h : RowTerms o quantity price fee trade) :
    trade.cashObligations = match o.side with
      | .buy => -(quantity * price + fee)
      | .sell => quantity * price - fee := by
  unfold Trade.cashObligations
  rw [h.obligations, ← h.side, ← h.notional]
  cases hs : trade.side with
  | buy =>
    simp only [obligationsOf, hs, ObligationType.cash, Direction.signed, List.filter, List.map_cons,
      List.map_nil, List.sum_cons, List.sum_nil]
    ring
  | sell =>
    simp only [obligationsOf, hs, ObligationType.cash, Direction.signed, List.filter, List.map_cons,
      List.map_nil, List.sum_cons, List.sum_nil]
    ring

theorem RowTerms.securityObligations (h : RowTerms o quantity price fee trade) :
    trade.securityObligations = o.side.signed quantity := by
  unfold Trade.securityObligations
  rw [h.obligations, ← h.side, ← h.amount]
  cases hs : trade.side with
  | buy => simp [obligationsOf, hs, ObligationType.cash, Direction.signed, OrderSide.signed]
  | sell => simp [obligationsOf, hs, ObligationType.cash, Direction.signed, OrderSide.signed]

theorem RowTerms.signedNet (h : RowTerms o quantity price fee trade) :
    (confirmationOf trade fee).signedNet = trade.cashObligations := by
  rw [h.cashObligations]
  unfold TradeConfirmation.signedNet confirmationOf
  rw [← h.side, ← h.notional]
  cases trade.side <;> rfl

structure Nets (trade : Trade) (fee : ℚ) (instruction : SettlementInstruction) : Prop where
  legs : instruction.legs trade.side = (trade.tradeCurrency, baseAsset trade.instrumentId)
  cash : instruction.cashNet trade.side = match trade.side with
    | .buy => -(trade.grossNotional + fee)
    | .sell => trade.grossNotional - fee
  security : instruction.securityNet trade.side = trade.side.signed trade.quantity

theorem instructionOf_nets (h : instructionOf trade (obligationsOf trade fee) = .ok instruction) :
    Nets trade fee instruction := by
  cases hs : trade.side with
  | buy =>
    simp only [instructionOf, obligationsOf, hs] at h
    obtain rfl := Except.ok.inj h
    exact ⟨by rw [hs]; rfl, by rw [hs]; rfl, by rw [hs]; rfl⟩
  | sell =>
    simp only [instructionOf, obligationsOf, hs] at h
    obtain rfl := Except.ok.inj h
    exact ⟨by rw [hs]; rfl, by rw [hs]; rfl, by rw [hs]; rfl⟩

theorem TradeRecorded.consistent (h : TradeRecorded o executionId quantity price fee trade) :
    trade.Consistent := by
  have hterms := h.terms
  refine ⟨⟨_, hterms.confirmations, hterms.signedNet⟩, ?_⟩
  obtain ⟨env, executedAt, instruction, hmade, hrow⟩ := h.settled
  have hnets := instructionOf_nets hmade
  refine ⟨{ instruction with state := .settled }, by rw [hrow]; rfl, hnets.legs, ?_, ?_⟩
  · rw [hterms.cashObligations, ← hterms.side, ← hterms.notional]
    exact hnets.cash
  · rw [hterms.securityObligations, ← hterms.side, ← hterms.amount]
    exact hnets.security

end Row

section Fill

variable {F : Regime} {l l' l'' s : Ledger} {id : Uuid} {o : TradingOrder} {r : SimulatedReservation}
  {a : SimulatedAccount} {e : SimulatedExecution} {now : Timestamp} {trade : Trade}

theorem TradeRecorded.balanceAfter
    (h : TradeRecorded o e.executionId e.quantity e.price (settlementOf o e).fee trade) (balance : ℚ) :
    (settlementOf o e).balanceAfter balance = balance + trade.cashObligations := by
  rw [h.terms.cashObligations]
  unfold Settlement.balanceAfter
  change (match o.side with
    | .buy => balance - (e.quantity * e.price + (settlementOf o e).fee)
    | .sell => balance + (e.quantity * e.price - (settlementOf o e).fee)) = _
  cases o.side with
  | buy => exact sub_eq_add_neg _ _
  | sell => rfl

theorem TradeRecorded.accounts
    (h : TradeRecorded o e.executionId e.quantity e.price (settlementOf o e).fee trade) (now : Timestamp)
    (ha : l.trading.accounts.find o.accountRef = some a) {ref : String} {b : SimulatedAccount}
    (hb : l.trading.accounts.find ref = some b) :
    ∃ b', (settledTables l.trading o r a e now).accounts.find ref = some b' ∧
      b'.totalBalance = b.totalBalance + if o.accountRef = ref then trade.cashObligations else 0 := by
  by_cases hk : o.accountRef = ref
  · subst hk
    obtain rfl := Option.some.inj (ha.symm.trans hb)
    rw [if_pos rfl]
    exact ⟨_, Table.find_put_self _ _ _, h.balanceAfter _⟩
  · rw [if_neg hk, add_zero]
    exact ⟨b, (Table.find_put_of_ne _ _ (Ne.symm hk)).trans hb, rfl⟩

theorem SettledSince.refl (l : Ledger) : SettledSince l l where
  kept _ _ h := h
  cash ref a ha := ⟨a, ha, by rw [sub_self, add_zero]⟩
  position ref instrument := by rw [sub_self, add_zero]

theorem SettledSince.trans (h : SettledSince s l) (h' : SettledSince l l') : SettledSince s l' := by
  refine ⟨fun key trade hfind => h'.kept key trade (h.kept key trade hfind), ?_, ?_⟩
  · intro ref a ha
    obtain ⟨b, hb, hbalance⟩ := h.cash ref a ha
    obtain ⟨c, hc, hbalance'⟩ := h'.cash ref b hb
    exact ⟨c, hc, by rw [hbalance', hbalance]; ring⟩
  · intro ref instrument
    rw [h'.position, h.position]
    ring

theorem SettledSince.of_quiet (hk : BooksKept l l')
    (haccounts : ∀ ref a, l.trading.accounts.find ref = some a → l'.trading.accounts.find ref = some a) :
    SettledSince l l' := by
  refine ⟨fun key trade hfind => hk.booked ▸ hfind, ?_, ?_⟩
  · intro ref a ha
    exact ⟨a, haccounts ref a ha, by rw [hk.booked, sub_self, add_zero]⟩
  · intro ref instrument
    unfold TradingTables.positionAt
    rw [hk.booked, hk.positions, sub_self, add_zero]

theorem SettledSince.of_fill (hbooks : BooksMoved l l' o e) (hnone : l.booked.find e.executionId = none)
    (ha : l.trading.accounts.find o.accountRef = some a)
    (htrading : l'.trading = settledTables l.trading o r a e now) : SettledSince l l' := by
  obtain ⟨trade, hrecorded, hbooked⟩ := hbooks.recorded
  have hterms := hrecorded.terms
  refine ⟨?_, ?_, ?_⟩
  · intro key row hfind
    have hne : key ≠ e.executionId := by
      rintro rfl
      rw [hnone] at hfind
      cases hfind
    rw [hbooked, Table.find_put_of_ne _ _ hne, hfind]
  · intro ref b hb
    obtain ⟨b', hb', hbalance⟩ := hrecorded.accounts (r := r) now ha hb
    refine ⟨b', htrading ▸ hb', ?_⟩
    unfold cashBooked
    rw [hbalance, hbooked, Table.sum_put_of_none hnone, add_sub_cancel_left, hterms.account]
  · intro ref instrument
    unfold securitiesBooked
    rw [htrading, positionAt_settled, hbooked, Table.sum_put_of_none hnone, add_sub_cancel_left,
      hterms.account, hterms.instrument, hterms.securityObligations]

theorem Inv.effect_settled (h : Inv l) (he : Effect F l l') : SettledSince l l' := by
  cases he with
  | enrolled ref a hn =>
    refine .of_quiet ⟨rfl, rfl, rfl⟩ fun ref' b hb => ?_
    have hne : ref' ≠ ref := by
      rintro rfl
      rw [hn.free] at hb
      cases hb
    exact (Table.find_put_of_ne _ _ hne).trans hb
  | identified => exact .of_quiet ⟨rfl, rfl, rfl⟩ fun _ _ hb => hb
  | placed => exact .of_quiet ⟨rfl, rfl, rfl⟩ fun _ _ hb => hb
  | moved => exact .of_quiet ⟨rfl, rfl, rfl⟩ fun _ _ hb => hb
  | closed => exact .of_quiet ⟨rfl, rfl, rfl⟩ fun _ _ hb => hb
  | filled id o r a e now event l' ho hr ha hnone hf hF hbooks htrading hprocessed =>
    exact .of_fill hbooks (h.fresh _ hnone).2.1 ha htrading
  | invalidated env change =>
    have hrest := relabelled_invalidate env change l.trading
    refine .of_quiet ⟨rfl, rfl, congrArg (·.positions) hrest.rest⟩ fun _ _ hb => ?_
    exact hrest.accounts ▸ hb
  | consumed => exact .of_quiet ⟨rfl, rfl, rfl⟩ fun _ _ hb => hb

theorem Inv.effects_settled (h : Inv l) (he : Effects F l l') : SettledSince l l' := by
  induction he with
  | refl => exact .refl l
  | tail hbefore hstep ih => exact ih.trans ((h.effects hbefore).effect_settled hstep)

end Fill

theorem Inv.fill_settles {env : Env} {db db' : Database} {id : Uuid} {e : SimulatedExecution}
    (h : Inv db.ledger) (he : e.outcome = .fill) (hok : applyExecution env id e db = .ok (true, db')) :
    ∃ o trade, db.trading.orders.find id = some o ∧ FillSettles db db' e o trade := by
  obtain ⟨o, r, a, ho, hr, ha, hnone, hacc⟩ := h.applyExecution_accepts hok
  have hf : AcceptsFill o r e := by
    unfold Accepts at hacc
    rwa [he] at hacc
  obtain ⟨d, l', i, happly, -, hbooks, htrading, -, hledger⟩ := h.applyExecution_fill env ho hr ha hnone he hf
  rw [hok] at happly
  obtain rfl := (Prod.mk.inj (Except.ok.inj happly)).2
  obtain ⟨trade, hrecorded, hbooked⟩ := hbooks.recorded
  have hterms := hrecorded.terms
  have hsame : db'.ledger.trading.accounts = l'.trading.accounts ∧
      db'.ledger.trading.positions = l'.trading.positions ∧ db'.ledger.booked = l'.booked := by
    rw [hledger]
    exact ⟨rfl, rfl, rfl⟩
  obtain ⟨haccounts, hpositions, hrows⟩ := hsame
  refine ⟨o, trade, ho, hrows.trans hbooked, (h.fresh _ hnone).2.1, hterms.side, hterms.charged,
    hrecorded.consistent, ?_, ?_⟩
  · intro ref b hb
    obtain ⟨b', hb', hbalance⟩ := hrecorded.accounts (l := db.ledger) (r := r) env.now ha hb
    refine ⟨b', ?_, hbalance⟩
    change db'.ledger.trading.accounts.find ref = some b'
    rw [haccounts, htrading]
    exact hb'
  · intro ref instrument
    have hposition := positionAt_settled (o := o) (r := r) (a := a) (e := e) env.now
      db.ledger.trading ref instrument
    rw [← htrading] at hposition
    rw [hterms.securityObligations]
    unfold TradingTables.positionAt at hposition ⊢
    rw [← hpositions] at hposition
    exact hposition

theorem settlement_agreement {start db : Database} {allowed : Database → Call → Prop}
    (hinit : Initial start) (hrun : Reaches step allowed start db) :
    (∀ env id e db', e.outcome = .fill → applyExecution env id e db = .ok (true, db') →
      ∃ o trade, db.trading.orders.find id = some o ∧ FillSettles db db' e o trade) ∧
    ∀ db', Reaches step allowed db db' → SettledSince db.ledger db'.ledger := by
  have hinv := hinit.inv.run hrun
  refine ⟨fun env id e db' he hok => hinv.fill_settles he hok, fun db' hlater => ?_⟩
  exact hinv.effects_settled (hinv.run_effects (F := .any) (fun d c _ => meets_any d c) hlater)

def createdTen : Database := step freshDatabase createTen

def tenAtNinety : SimulatedExecution where
  executionId := "execution"
  quantity := 10
  price := 90

theorem tenAtNinety_applies : ∃ db',
    applyExecution (fixtureEnv [("BTC-USD", 100)]) "TradingOrder" tenAtNinety createdTen = .ok (true, db') := by
  have hruns : (applyExecution (fixtureEnv [("BTC-USD", 100)]) "TradingOrder" tenAtNinety createdTen).map
      Prod.fst = .ok true := by
    decide +kernel
  cases happly : applyExecution (fixtureEnv [("BTC-USD", 100)]) "TradingOrder" tenAtNinety createdTen with
  | error e =>
    rw [happly] at hruns
    cases hruns
  | ok p =>
    obtain ⟨consumed, db'⟩ := p
    rw [happly] at hruns
    obtain rfl : consumed = true := Except.ok.inj hruns
    exact ⟨db', rfl⟩

theorem settlement_agreement_after_sale :
    (∃ db' o trade, createdTen.trading.orders.find "TradingOrder" = some o ∧
      FillSettles createdTen db' tenAtNinety o trade) ∧
    cashBooked boughtThenSold.postTrade.trades "sim:alice" = -(42138 / 100) ∧
    ∃ a, boughtThenSold.trading.accounts.find "sim:alice" = some a ∧
      a.totalBalance = 10000 - 42138 / 100 := by
  have hcreated : Reaches step (fun _ _ => True) freshDatabase createdTen :=
    .single ⟨createTen, trivial, rfl⟩
  have hlater : Reaches step (fun _ _ => True) createdTen boughtThenSold :=
    show Reaches step (fun _ _ => True) createdTen ([fillTen 90, sellFour, fillFour].foldl step createdTen) from
      .of_foldl fun _ _ _ => trivial
  obtain ⟨hfill, hrun⟩ := settlement_agreement freshDatabase_initial hcreated
  obtain ⟨db', happly⟩ := tenAtNinety_applies
  obtain ⟨o, trade, ho, hsettles⟩ := hfill _ _ _ _ rfl happly
  have hopening : (createdTen.trading.accounts.find "sim:alice").map (·.totalBalance) = some 10000 := by
    decide +kernel
  have hbefore : cashBooked createdTen.postTrade.trades "sim:alice" = 0 := by
    decide +kernel
  have hafter : cashBooked boughtThenSold.postTrade.trades "sim:alice" = -(42138 / 100) := by
    decide +kernel
  obtain ⟨opened, hopened, hbalance⟩ := Option.map_eq_some_iff.mp hopening
  obtain ⟨a, ha, htotal⟩ := (hrun boughtThenSold hlater).cash "sim:alice" opened hopened
  refine ⟨⟨db', o, trade, ho, hsettles⟩, hafter, a, ha, ?_⟩
  calc a.totalBalance = opened.totalBalance + (cashBooked boughtThenSold.postTrade.trades "sim:alice" -
        cashBooked createdTen.postTrade.trades "sim:alice") := htotal
    _ = 10000 - 42138 / 100 := by rw [hbalance, hbefore, hafter]; norm_num

end Beyvra
