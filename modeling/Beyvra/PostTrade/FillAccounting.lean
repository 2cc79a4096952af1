import Beyvra.PostTrade.Processor

namespace Beyvra

open Relational

structure Wrote (b b' : Books) (row : Trade) : Prop where
  trades : b'.postTrade.trades = b.postTrade.trades.put row.executionId row
  calendars : b'.postTrade.calendars = b.postTrade.calendars
  valuation : b'.valuation = b.valuation
  audits : b.postTrade.audits <+: b'.postTrade.audits

abbrev Books.Holds (b : Books) (row : Trade) : Prop :=
  b.postTrade.trades.find row.executionId = some row

namespace Wrote

variable {b b' b'' : Books} {row row' : Trade}

theorem holds (h : Wrote b b' row) : b'.Holds row := by
  unfold Books.Holds
  rw [h.trades, Table.find_put_self]

theorem trans (h : Wrote b b' row) (h' : Wrote b' b'' row') (hid : row'.executionId = row.executionId) :
    Wrote b b'' row' where
  trades := by rw [h'.trades, h.trades, hid, Table.put_put]
  calendars := h'.calendars.trans h.calendars
  valuation := h'.valuation.trans h.valuation
  audits := h.audits.trans h'.audits

end Wrote

-- The columns of a trade that its settlement writes; every other column is fixed at capture.
structure Progress where
  tradeState : TradeState
  version : Nat
  allocations : List TradeAllocation
  obligations : List SettlementObligation
  positionEffects : List TradePositionEffect
  settlementInstruction : Option SettlementInstruction
  confirmations : List TradeConfirmation

def Trade.at (trade : Trade) (p : Progress) : Trade :=
  { trade with
    tradeState := p.tradeState
    version := p.version
    allocations := p.allocations
    obligations := p.obligations
    positionEffects := p.positionEffects
    settlementInstruction := p.settlementInstruction
    confirmations := p.confirmations }

def Trade.captured (trade : Trade) : Trade := trade.at ⟨.captured, 1, [], [], [], none, []⟩

def Trade.settledWith (trade : Trade) (env : Env) (fee : ℚ) (instruction : SettlementInstruction) : Trade :=
  trade.at ⟨.settled, 8, [(directAccount trade).allocationOf trade], obligationsOf trade fee,
    [positionEffectOf env trade], some instruction, [confirmationOf trade fee]⟩

section Steps

variable {env : Env} {b : Books} {trade : Trade} {p row next : Progress} {snapshot : FeeSnapshot}

theorem tradeRow_of (h : b.Holds (trade.at row)) : b.tradeRow trade.executionId = .ok (trade.at row) :=
  fetch_of_some h

theorem tradeRow_at (p : Progress) (h : b.Holds (trade.at row)) :
    b.tradeRow (trade.at p).executionId = .ok (trade.at row) :=
  fetch_of_some h

theorem transitionTrade_of (env : Env) (target : TradeState) (next : Progress) (h : b.Holds (trade.at row))
    (ht : target ∈ postTradeTransitions row.tradeState)
    (hnext : next = { row with tradeState := target, version := row.version + 1 }) :
    ∃ b', transitionTrade env trade.executionId target b = .ok (trade.at next, b') ∧
      Wrote b b' (trade.at next) := by
  subst hnext
  have ht' : target ∈ postTradeTransitions (trade.at row).tradeState := ht
  refine ⟨?_, ?_, ?_⟩
  rotate_left
  · unfold transitionTrade
    rw [bind_of_ok (tradeRow_of h), bind_of_ok (require_of ht')]
    rfl
  · exact ⟨rfl, rfl, rfl, List.prefix_append _ _⟩

theorem allocate_of (env : Env) (p next : Progress) (h : b.Holds (trade.at row)) (ha : row.allocations = [])
    (hnext : next = { row with allocations := [(directAccount trade).allocationOf trade] }) :
    ∃ b', allocate env (trade.at p) [] b = .ok b' ∧ Wrote b b' (trade.at next) := by
  subst hnext
  have hone : (([directAccount (trade.at p)]).map (·.quantity)).sum = (trade.at p).quantity := by
    simp [directAccount]
  have hadd : addAllocation (trade.at p) [] (directAccount (trade.at p)) =
      .ok [(directAccount trade).allocationOf trade] := by
    have hown : (directAccount (trade.at p)).accountRef = (trade.at p).accountRef := rfl
    unfold addAllocation
    rw [bind_of_ok (require_of hown)]
    rfl
  have hrows : [directAccount (trade.at p)].foldlM (addAllocation (trade.at p))
      (trade.at row).allocations = .ok [(directAccount trade).allocationOf trade] := by
    rw [show (trade.at row).allocations = [] from ha, List.foldlM_cons, bind_of_ok hadd]
    rfl
  have hsum : ([(directAccount trade).allocationOf trade].map (·.allocationQuantity)).sum =
      (trade.at p).quantity := by
    simp [directAccount, AllocationRow.allocationOf, Trade.at]
  refine ⟨?_, ?_, ?_⟩
  rotate_left
  · simp only [allocate, requestedRows, if_true]
    rw [bind_of_ok (require_of hone), bind_of_ok (tradeRow_at p h), bind_of_ok hrows,
      bind_of_ok (require_of hsum)]
    rfl
  · exact ⟨rfl, rfl, rfl, List.prefix_append _ _⟩

theorem feeOf_at (p : Progress) (hfee : trade.feeSnapshot = some snapshot) :
    feeOf (trade.at p) = .ok snapshot.totalFee :=
  feeOf_of hfee

theorem obligations_fresh (trade : Trade) (fee : ℚ) :
    (obligationsOf trade fee).foldl addObligation [] = obligationsOf trade fee := by
  cases hs : trade.side <;> simp [obligationsOf, hs, addObligation]

theorem obligations_valid (hpos : 0 ≤ snapshot.totalFee) (hg : 0 ≤ trade.grossNotional)
    (hq : 0 ≤ trade.quantity) :
    (obligationsOf trade snapshot.totalFee).length = 3 ∧
      ∀ o ∈ obligationsOf trade snapshot.totalFee, 0 ≤ o.amount ∧ 0 ≤ o.quantity := by
  cases hs : trade.side <;> simp [obligationsOf, hs, hpos, hg, hq]

theorem calculateObligations_of (env : Env) (p next : Progress) (h : b.Holds (trade.at row))
    (ho : row.obligations = [])
    (hfee : trade.feeSnapshot = some snapshot) (hpos : 0 ≤ snapshot.totalFee)
    (hg : 0 ≤ trade.grossNotional) (hq : 0 ≤ trade.quantity)
    (hnext : next = { row with obligations := obligationsOf trade snapshot.totalFee }) :
    ∃ b', calculateObligations env (trade.at p) b = .ok b' ∧ Wrote b b' (trade.at next) := by
  subst hnext
  have hrows : (obligationsOf (trade.at p) snapshot.totalFee).foldl addObligation
      (trade.at row).obligations = obligationsOf trade snapshot.totalFee := by
    rw [show (trade.at row).obligations = [] from ho]
    exact obligations_fresh trade snapshot.totalFee
  refine ⟨?_, ?_, ?_⟩
  rotate_left
  · unfold calculateObligations
    rw [bind_of_ok (feeOf_at p hfee), bind_of_ok (tradeRow_at p h)]
    simp only [hrows]
    rw [bind_of_ok (require_of (obligations_valid hpos hg hq))]
    rfl
  · exact ⟨rfl, rfl, rfl, List.prefix_append _ _⟩

theorem createPositionEffect_of (env : Env) (p next : Progress) (h : b.Holds (trade.at row))
    (he : row.positionEffects = [])
    (hnext : next = { row with positionEffects := [positionEffectOf env trade] }) :
    ∃ b', createPositionEffect env (trade.at p) b = .ok b' ∧ Wrote b b' (trade.at next) := by
  subst hnext
  have hnone : (trade.at row).positionEffects = [] := he
  refine ⟨?_, ?_, ?_⟩
  rotate_left
  · unfold createPositionEffect
    rw [bind_of_ok (tradeRow_at p h), bind_of_ok (require_of (by simp [hnone])), hnone]
    rfl
  · exact ⟨rfl, rfl, rfl, List.prefix_rfl⟩

theorem instructionOf_obligations (hpos : 0 ≤ snapshot.totalFee) (hq : 0 ≤ trade.quantity)
    (hnet : snapshot.totalFee ≤ trade.grossNotional) :
    ∃ instruction, instructionOf trade (obligationsOf trade snapshot.totalFee) = .ok instruction ∧
      validateInstruction instruction = .ok () := by
  cases hs : trade.side with
  | buy =>
    refine ⟨_, by simp only [instructionOf, obligationsOf, hs]; rfl, ?_⟩
    have hsum : 0 ≤ trade.grossNotional + snapshot.totalFee := by linarith
    exact require_of ⟨rfl, hsum, hq⟩
  | sell =>
    refine ⟨_, by simp only [instructionOf, obligationsOf, hs]; rfl, ?_⟩
    exact require_of ⟨rfl, hq, sub_nonneg.mpr hnet⟩

theorem createFromTrade_of (env : Env) (p next : Progress) (h : b.Holds (trade.at row))
    (hi : row.settlementInstruction = none)
    {instruction : SettlementInstruction} (hmade : instructionOf trade row.obligations = .ok instruction)
    (hvalid : validateInstruction instruction = .ok ())
    (hnext : next = { row with settlementInstruction := some instruction }) :
    ∃ b', createFromTrade env (trade.at p) b = .ok b' ∧ Wrote b b' (trade.at next) := by
  subst hnext
  have hnone : (trade.at row).settlementInstruction = none := hi
  have hmade' : instructionOf (trade.at p) (trade.at row).obligations = .ok instruction := hmade
  refine ⟨?_, ?_, ?_⟩
  rotate_left
  · unfold createFromTrade
    rw [bind_of_ok (tradeRow_at p h), bind_of_ok hmade']
    simp only [hnone, hvalid]
    rfl
  · exact ⟨rfl, rfl, rfl, List.prefix_append _ _⟩

theorem generateConfirmation_of (env : Env) (p next : Progress) (h : b.Holds (trade.at row))
    (hc : row.confirmations = [])
    (hfee : trade.feeSnapshot = some snapshot)
    (hnext : next = { row with confirmations := [confirmationOf trade snapshot.totalFee] }) :
    ∃ b', generateConfirmation env (trade.at p) b = .ok b' ∧ Wrote b b' (trade.at next) := by
  subst hnext
  have hnone : (trade.at row).confirmations = [] := hc
  refine ⟨?_, ?_, ?_⟩
  rotate_left
  · unfold generateConfirmation
    rw [bind_of_ok (feeOf_at p hfee), bind_of_ok (tradeRow_at p h), hnone]
    rfl
  · exact ⟨rfl, rfl, rfl, List.prefix_append _ _⟩

theorem settleInstruction_of (p next : Progress) (h : b.Holds (trade.at row))
    (hnext : next = { row with
      settlementInstruction := row.settlementInstruction.map ({ · with state := .settled }) }) :
    ∃ b', settleInstruction (trade.at p) b = .ok b' ∧ Wrote b b' (trade.at next) := by
  subst hnext
  refine ⟨?_, ?_, ?_⟩
  rotate_left
  · unfold settleInstruction
    rw [bind_of_ok (tradeRow_at p h)]
    rfl
  · exact ⟨rfl, rfl, rfl, List.prefix_rfl⟩

theorem settleCaptured_of (env : Env) (h : b.Holds trade.captured) (hfee : trade.feeSnapshot = some snapshot)
    (hpos : 0 ≤ snapshot.totalFee) (hnet : snapshot.totalFee ≤ trade.grossNotional)
    (hq : 0 ≤ trade.quantity) :
    ∃ instruction b', instructionOf trade (obligationsOf trade snapshot.totalFee) = .ok instruction ∧
      settleCaptured env trade.captured b =
        .ok (trade.settledWith env snapshot.totalFee instruction, b') ∧
      Wrote b b' (trade.settledWith env snapshot.totalFee { instruction with state := .settled }) := by
  obtain ⟨instruction, hmade, hvalid⟩ := instructionOf_obligations hpos hq hnet
  have hgross : 0 ≤ trade.grossNotional := hpos.trans hnet
  let a := [(directAccount trade).allocationOf trade]
  let o := obligationsOf trade snapshot.totalFee
  let e := [positionEffectOf env trade]
  let c := [confirmationOf trade snapshot.totalFee]
  let i : SettlementInstruction := { instruction with state := .settled }
  obtain ⟨b₁, e₁, w₁⟩ := transitionTrade_of env .validating
    ⟨.validating, 2, [], [], [], none, []⟩ h (by simp [postTradeTransitions]) rfl
  obtain ⟨b₂, e₂, w₂⟩ := transitionTrade_of env .validated
    ⟨.validated, 3, [], [], [], none, []⟩ w₁.holds (by simp [postTradeTransitions]) rfl
  obtain ⟨b₃, e₃, w₃⟩ := allocate_of env ⟨.validated, 3, [], [], [], none, []⟩
    ⟨.validated, 3, a, [], [], none, []⟩ w₂.holds rfl rfl
  obtain ⟨b₄, e₄, w₄⟩ := transitionTrade_of env .allocated
    ⟨.allocated, 4, a, [], [], none, []⟩ w₃.holds (by simp [postTradeTransitions]) rfl
  obtain ⟨b₅, e₅, w₅⟩ := calculateObligations_of env ⟨.allocated, 4, a, [], [], none, []⟩
    ⟨.allocated, 4, a, o, [], none, []⟩ w₄.holds rfl hfee hpos hgross hq rfl
  obtain ⟨b₆, e₆, w₆⟩ := createPositionEffect_of env ⟨.allocated, 4, a, [], [], none, []⟩
    ⟨.allocated, 4, a, o, e, none, []⟩ w₅.holds rfl rfl
  obtain ⟨b₇, e₇, w₇⟩ := transitionTrade_of env .settlementPending
    ⟨.settlementPending, 5, a, o, e, none, []⟩ w₆.holds (by simp [postTradeTransitions]) rfl
  obtain ⟨b₈, e₈, w₈⟩ := createFromTrade_of env ⟨.settlementPending, 5, a, o, e, none, []⟩
    ⟨.settlementPending, 5, a, o, e, some instruction, []⟩ w₇.holds rfl hmade hvalid rfl
  obtain ⟨b₉, e₉, w₉⟩ := transitionTrade_of env .settlementInstructed
    ⟨.settlementInstructed, 6, a, o, e, some instruction, []⟩ w₈.holds (by simp [postTradeTransitions]) rfl
  obtain ⟨b₁₀, e₁₀, w₁₀⟩ := generateConfirmation_of env
    ⟨.settlementInstructed, 6, a, o, e, some instruction, []⟩
    ⟨.settlementInstructed, 6, a, o, e, some instruction, c⟩ w₉.holds rfl hfee rfl
  obtain ⟨b₁₁, e₁₁, w₁₁⟩ := transitionTrade_of env .settlementProcessing
    ⟨.settlementProcessing, 7, a, o, e, some instruction, c⟩ w₁₀.holds (by simp [postTradeTransitions]) rfl
  obtain ⟨b₁₂, e₁₂, w₁₂⟩ := transitionTrade_of env .settled
    ⟨.settled, 8, a, o, e, some instruction, c⟩ w₁₁.holds (by simp [postTradeTransitions]) rfl
  obtain ⟨b₁₃, e₁₃, w₁₃⟩ := settleInstruction_of ⟨.settled, 8, a, o, e, some instruction, c⟩
    ⟨.settled, 8, a, o, e, some i, c⟩ w₁₂.holds rfl
  refine ⟨instruction, b₁₃, hmade, ?_, ?_⟩
  · unfold settleCaptured
    refine (bind_of_ok e₁).trans ?_
    refine (bind_of_ok e₂).trans ?_
    refine (bind_of_ok e₃).trans ?_
    refine (bind_of_ok e₄).trans ?_
    refine (bind_of_ok e₅).trans ?_
    refine (bind_of_ok e₆).trans ?_
    refine (bind_of_ok e₇).trans ?_
    refine (bind_of_ok e₈).trans ?_
    refine (bind_of_ok e₉).trans ?_
    refine (bind_of_ok e₁₀).trans ?_
    refine (bind_of_ok e₁₁).trans ?_
    refine (bind_of_ok e₁₂).trans ?_
    exact bind_of_ok e₁₃
  · have hw := w₁.trans w₂ rfl |>.trans w₃ rfl |>.trans w₄ rfl |>.trans w₅ rfl |>.trans w₆ rfl
      |>.trans w₇ rfl |>.trans w₈ rfl |>.trans w₉ rfl |>.trans w₁₀ rfl |>.trans w₁₁ rfl
      |>.trans w₁₂ rfl |>.trans w₁₃ rfl
    exact hw

end Steps

def Audited (audits : List PostTradeAudit) (tenantRef executionId : String) : Prop :=
  ∃ a ∈ audits, a.tenantRef = tenantRef ∧ a.resourceType = "trade" ∧ a.resourceRef = executionId

structure Filed (order : TradingOrder) (executionId : String) (quantity : ℚ) (b b' : Books) : Prop where
  calendars : b'.postTrade.calendars = b.postTrade.calendars
  audits : b.postTrade.audits <+: b'.postTrade.audits
  audited : Audited b'.postTrade.audits order.tenantRef executionId
  trades : ∀ key, key ≠ executionId → b'.postTrade.trades.find key = b.postTrade.trades.find key
  kept : LotsKept b'.valuation.lots
  held : ∀ h, b'.valuation.held h = b.valuation.held h +
    if (⟨order.tenantRef, order.accountRef, order.instrumentId⟩ : Holding) = h then
      order.side.signed quantity
    else 0
  unbooked : ∀ key, key ≠ executionId → b.valuation.Unbooked key → b'.valuation.Unbooked key

def Trade.effectQuantity (trade : Trade) : ℚ := (trade.positionEffects.map (·.quantityDelta)).sum

structure Posted (order : TradingOrder) (executionId : String) (quantity : ℚ)
    (booked booked' : Table String Trade) (v v' : ValuationTables) : Prop where
  effect : ∃ row, booked' = booked.put executionId row ∧ row.accountRef = order.accountRef ∧
    row.instrumentId = order.instrumentId ∧ row.effectQuantity = order.side.signed quantity
  costBasis : ∃ position, v'.costBasis =
      v.costBasis.put (order.tenantRef, order.accountRef, order.instrumentId) position ∧
    position.quantity = v'.held ⟨order.tenantRef, order.accountRef, order.instrumentId⟩

-- The trade a fill captures, as the settlement of the trade leaves it.
def settledTrade (env : Env) (order : TradingOrder) (executionId : String) (quantity price fee : ℚ)
    (executedAt : Timestamp) (instruction : SettlementInstruction) : Trade :=
  (tradeOf order executionId quantity price fee executedAt (Timestamp.date executedAt)).settledWith env
    fee instruction

structure TradeRecorded (order : TradingOrder) (executionId : String) (quantity price fee : ℚ)
    (row : Trade) : Prop where
  settled : ∃ env executedAt instruction,
    instructionOf row (obligationsOf row fee) = .ok instruction ∧
      row = settledTrade env order executionId quantity price fee executedAt
        { instruction with state := .settled }

section Fill

variable {env : Env} {order : TradingOrder} {executionId : String} {quantity price fee : ℚ}
  {executedAt : Timestamp} {b b' : Books}

theorem processSimulatedFill_positive
    (h : processSimulatedFill env order executionId quantity price fee executedAt b = .ok b') :
    0 < quantity ∧ 0 < price := by
  obtain ⟨⟨⟨_, _⟩, _⟩, hcapture, _⟩ := bind_eq_ok.mp h
  obtain ⟨_, hpos, _⟩ := bind_eq_ok.mp hcapture
  exact require_eq_ok.mp hpos

theorem captureFill_of (env : Env) (fee : ℚ) (hpos : 0 < quantity ∧ 0 < price)
    (hscope : order.tenantRef = "default" ∧ order.simulation)
    (hcal : b.postTrade.calendars = seededCalendars)
    (hdate : calendarSeedDate ≤ Timestamp.date executedAt)
    (hnone : b.postTrade.trades.find executionId = none) :
    ∃ trade b', captureFill env order executionId quantity price fee executedAt b =
        .ok ((trade, true), b') ∧
      trade = tradeOf order executionId quantity price fee executedAt (Timestamp.date executedAt) ∧
      Wrote b b' trade ∧ Audited b'.postTrade.audits order.tenantRef executionId := by
  refine ⟨_, ?_, ?_, rfl, ?_, ?_⟩
  rotate_left
  · unfold captureFill
    rw [bind_of_ok (require_of hpos), bind_of_ok (require_of hscope), hcal,
      bind_of_ok (calculateSettlementDate_seeded hdate)]
    simp only [hnone]
    rfl
  · exact ⟨rfl, rfl, rfl, List.prefix_append _ _⟩
  · exact ⟨_, List.mem_append_right _ (List.mem_singleton_self _), rfl, rfl, rfl⟩

theorem processSimulatedFill_eq (env : Env) (hpos : 0 < quantity ∧ 0 < price)
    (hscope : order.tenantRef = "default" ∧ order.simulation)
    (hcal : b.postTrade.calendars = seededCalendars)
    (hdate : calendarSeedDate ≤ Timestamp.date executedAt)
    (hnone : b.postTrade.trades.find executionId = none)
    (hfee : 0 ≤ fee) (hnet : fee ≤ quantity * price) :
    ∃ trade settled b₁,
      (∃ instruction,
        trade = settledTrade env order executionId quantity price fee executedAt instruction) ∧
      (∃ instruction, instructionOf settled (obligationsOf settled fee) = .ok instruction ∧
        settled = settledTrade env order executionId quantity price fee executedAt
          { instruction with state := .settled }) ∧
      Wrote b b₁ settled ∧ Audited b₁.postTrade.audits order.tenantRef executionId ∧
      processSimulatedFill env order executionId quantity price fee executedAt b =
        (processTradeAccounting env trade b.valuation >>= fun valuation =>
          pure { b₁ with valuation }) := by
  obtain ⟨trade, b₁, e₁, htrade, w₁, a, ha, haudit⟩ :=
    captureFill_of env fee hpos hscope hcal hdate hnone
  have hcaptured : trade.captured = trade := by rw [htrade]; rfl
  have hholds : b₁.Holds trade.captured := by rw [hcaptured]; exact w₁.holds
  have hsnapshot : trade.feeSnapshot = some
      { totalFee := fee, commission := fee, currency := "USD"
        pricingPolicyVersion := "simulation-fee-v1" } := by rw [htrade]; rfl
  have hquantity : 0 ≤ trade.quantity := by rw [htrade]; exact hpos.1.le
  have hgross : fee ≤ trade.grossNotional := by rw [htrade]; exact hnet
  obtain ⟨instruction, b₂, hmade, e₂, w₂⟩ := settleCaptured_of env hholds hsnapshot hfee hgross hquantity
  refine ⟨trade.settledWith env fee instruction,
    trade.settledWith env fee { instruction with state := .settled }, b₂,
    ⟨instruction, by rw [htrade]; rfl⟩, ⟨instruction, hmade, by rw [htrade]; rfl⟩, w₁.trans w₂ rfl,
    ⟨a, w₂.audits.subset ha, haudit⟩, ?_⟩
  rw [hcaptured] at e₂
  unfold processSimulatedFill
  refine (bind_of_ok e₁).trans ?_
  refine (bind_of_ok e₂).trans ?_
  dsimp only
  rw [w₂.valuation, w₁.valuation]

theorem processSimulatedFill_of (hpos : 0 < quantity ∧ 0 < price)
    (hscope : order.tenantRef = "default" ∧ order.simulation)
    (hcal : b.postTrade.calendars = seededCalendars)
    (hdate : calendarSeedDate ≤ Timestamp.date executedAt)
    (hnone : b.postTrade.trades.find executionId = none)
    (hfee : 0 ≤ fee) (hnet : fee ≤ quantity * price)
    (hk : LotsKept b.valuation.lots) (hunbooked : b.valuation.Unbooked executionId)
    (hheld : order.side = .sell →
      quantity ≤ b.valuation.held ⟨order.tenantRef, order.accountRef, order.instrumentId⟩) :
    ∃ b', processSimulatedFill env order executionId quantity price fee executedAt b = .ok b' ∧
      Filed order executionId quantity b b' ∧
      Posted order executionId quantity b.postTrade.trades b'.postTrade.trades b.valuation
        b'.valuation ∧
      ∃ row, TradeRecorded order executionId quantity price fee row ∧
        b'.postTrade.trades = b.postTrade.trades.put executionId row := by
  obtain ⟨trade, settled, b₁, ⟨instruction, rfl⟩, ⟨made, hmade, hsettled⟩, w, haudited, hfill⟩ :=
    processSimulatedFill_eq env hpos hscope hcal hdate hnone hfee hnet
  obtain ⟨v, haccount, hbooked⟩ := processTradeAccounting_booked env b.valuation
    (settledTrade env order executionId quantity price fee executedAt instruction) rfl hpos.1.le hk
    hunbooked hheld
  have hrow : settled.executionId = executionId := by rw [hsettled]; rfl
  refine ⟨{ b₁ with valuation := v }, hfill.trans (bind_of_ok haccount),
    ⟨w.calendars, w.audits, haudited, ?_, hbooked.kept, hbooked.held, hbooked.unbooked⟩, ⟨?_, ?_⟩, settled,
    ⟨⟨env, executedAt, made, hmade, hsettled⟩⟩, hrow ▸ w.trades⟩
  · intro key hne
    have hfind : b₁.postTrade.trades.find key = b.postTrade.trades.find key := by
      rw [w.trades, Table.find_put_of_ne _ _ (hrow ▸ hne)]
    exact hfind
  · refine ⟨settled, hrow ▸ w.trades, by rw [hsettled]; rfl, by rw [hsettled]; rfl, ?_⟩
    rw [hsettled]
    exact List.sum_singleton
  · exact processTradeAccounting_costBasis haccount hbooked.kept

end Fill

end Beyvra
