import Beyvra.PostTrade.FillAccounting

namespace Beyvra

open Relational

-- Only the row of the trade changes, in what its settlement writes, and no valuation.
structure Rewritten (trade : Trade) (effects : List TradePositionEffect) (b b' : Books) : Prop where
  row : ∃ p, b'.postTrade.trades = b.postTrade.trades.put trade.executionId (trade.at p) ∧ p.positionEffects = effects
  valuation : b'.valuation = b.valuation

section Steps

variable {env : Env} {b b' b'' : Books} {trade t : Trade} {p : Progress} {effects effects' : List TradePositionEffect}

theorem Rewritten.same (h : b.Holds (trade.at p)) : Rewritten trade p.positionEffects b b :=
  ⟨⟨p, (Table.put_self _ h).symm, rfl⟩, rfl⟩

theorem Rewritten.saved (p' : Progress)
    (htrades : b'.postTrade.trades = b.postTrade.trades.put trade.executionId (trade.at p'))
    (hvaluation : b'.valuation = b.valuation) : Rewritten trade p'.positionEffects b b' :=
  ⟨⟨p', htrades, rfl⟩, hvaluation⟩

theorem Rewritten.holds (h : Rewritten trade effects b b') : ∃ p, b'.Holds (trade.at p) ∧ p.positionEffects = effects := by
  obtain ⟨p, htrades, heffects⟩ := h.row
  refine ⟨p, ?_, heffects⟩
  rw [Books.Holds, htrades]
  exact Table.find_put_self _ _ _

theorem Rewritten.trans (h : Rewritten trade effects b b') (h' : Rewritten trade effects' b' b'') :
    Rewritten trade effects' b b'' := by
  obtain ⟨p, htrades, -⟩ := h.row
  obtain ⟨p', htrades', heffects⟩ := h'.row
  exact ⟨⟨p', by rw [htrades', htrades, Table.put_put], heffects⟩, h'.valuation.trans h.valuation⟩

theorem transitionTrade_at {target : TradeState} (h : b.Holds (trade.at p))
    (hok : transitionTrade env trade.executionId target b = .ok (t, b')) :
    (∃ q, t = trade.at q) ∧ Rewritten trade p.positionEffects b b' := by
  unfold transitionTrade at hok
  rw [bind_of_ok (tradeRow_of h)] at hok
  simp only [bind_eq_ok, pure_eq_ok, Prod.mk.injEq] at hok
  obtain ⟨_, -, rfl, rfl⟩ := hok
  exact ⟨⟨{ p with tradeState := target, version := p.version + 1 }, rfl⟩,
    .saved { p with tradeState := target, version := p.version + 1 } rfl rfl⟩

theorem allocate_at {q : Progress} {requested : List AllocationRow} (h : b.Holds (trade.at p))
    (hok : allocate env (trade.at q) requested b = .ok b') : Rewritten trade p.positionEffects b b' := by
  simp only [allocate, bind_eq_ok, pure_eq_ok] at hok
  obtain ⟨_, -, row, hrow, rows, -, _, -, rfl⟩ := hok
  obtain rfl := Except.ok.inj ((tradeRow_of h).symm.trans hrow)
  exact .saved { p with allocations := rows } rfl rfl

theorem calculateObligations_at {q : Progress} (h : b.Holds (trade.at p))
    (hok : calculateObligations env (trade.at q) b = .ok b') : Rewritten trade p.positionEffects b b' := by
  simp only [calculateObligations, bind_eq_ok, pure_eq_ok] at hok
  obtain ⟨fee, -, row, hrow, _, -, rfl⟩ := hok
  obtain rfl := Except.ok.inj ((tradeRow_of h).symm.trans hrow)
  exact .saved { p with obligations := (obligationsOf trade fee).foldl addObligation p.obligations } rfl rfl

theorem createPositionEffect_at {q : Progress} (h : b.Holds (trade.at p))
    (hok : createPositionEffect env (trade.at q) b = .ok b') :
    Rewritten trade (p.positionEffects ++ [positionEffectOf env trade]) b b' := by
  simp only [createPositionEffect, bind_eq_ok, pure_eq_ok] at hok
  obtain ⟨row, hrow, _, -, rfl⟩ := hok
  obtain rfl := Except.ok.inj ((tradeRow_of h).symm.trans hrow)
  exact .saved { p with positionEffects := p.positionEffects ++ [positionEffectOf env trade] } rfl rfl

theorem createFromTrade_at {q : Progress} (h : b.Holds (trade.at p))
    (hok : createFromTrade env (trade.at q) b = .ok b') : Rewritten trade p.positionEffects b b' := by
  simp only [createFromTrade, bind_eq_ok] at hok
  obtain ⟨row, hrow, created, -, hok⟩ := hok
  obtain rfl := Except.ok.inj ((tradeRow_of h).symm.trans hrow)
  split at hok
  · obtain ⟨_, -, hok⟩ := bind_eq_ok.mp hok
    obtain rfl := pure_eq_ok.mp hok
    exact .same h
  · obtain ⟨_, -, hok⟩ := bind_eq_ok.mp hok
    obtain rfl := pure_eq_ok.mp hok
    exact .saved { p with settlementInstruction := some created } rfl rfl

theorem generateConfirmation_at {q : Progress} (h : b.Holds (trade.at p))
    (hok : generateConfirmation env (trade.at q) b = .ok b') : Rewritten trade p.positionEffects b b' := by
  simp only [generateConfirmation, bind_eq_ok] at hok
  obtain ⟨fee, -, row, hrow, hok⟩ := hok
  obtain rfl := Except.ok.inj ((tradeRow_of h).symm.trans hrow)
  split at hok
  · obtain rfl := pure_eq_ok.mp hok
    exact .same h
  · obtain rfl := pure_eq_ok.mp hok
    exact .saved { p with confirmations := p.confirmations ++ [confirmationOf trade fee] } rfl rfl

theorem settleInstruction_at {q : Progress} (h : b.Holds (trade.at p))
    (hok : settleInstruction (trade.at q) b = .ok b') : Rewritten trade p.positionEffects b b' := by
  simp only [settleInstruction, bind_eq_ok, pure_eq_ok] at hok
  obtain ⟨row, hrow, rfl⟩ := hok
  obtain rfl := Except.ok.inj ((tradeRow_of h).symm.trans hrow)
  exact .saved { p with
    settlementInstruction := p.settlementInstruction.map ({ · with state := .settled }) } rfl rfl

theorem Rewritten.of_saved (h : Rewritten trade effects b' b'') (start : Progress)
    (htrades : b'.postTrade.trades = b.postTrade.trades.put trade.executionId (trade.at start))
    (hvaluation : b'.valuation = b.valuation) : Rewritten trade effects b b'' :=
  (Rewritten.saved start htrades hvaluation).trans h

-- Thirteen statements: the position effect is written by one of them, and kept by the others.
theorem settleCaptured_at (h : b.Holds (trade.at p)) (hok : settleCaptured env (trade.at p) b = .ok (t, b')) :
    (∃ q, t = trade.at q) ∧ Rewritten trade (p.positionEffects ++ [positionEffectOf env trade]) b b' := by
  simp only [settleCaptured, bind_eq_ok, pure_eq_ok, Prod.mk.injEq, Prod.exists] at hok
  obtain ⟨_, b₁, e₁, t₂, b₂, e₂, b₃, e₃, t₄, b₄, e₄, b₅, e₅, b₆, e₆, t₇, b₇, e₇, b₈, e₈, t₉, b₉, e₉, b₁₀, e₁₀,
    t₁₁, b₁₁, e₁₁, t₁₂, b₁₂, e₁₂, b₁₃, e₁₃, rfl, rfl⟩ := hok
  have r₁ := (transitionTrade_at h e₁).2
  obtain ⟨p₁, h₁, hp₁⟩ := r₁.holds
  obtain ⟨⟨q₂, rfl⟩, r₂⟩ := transitionTrade_at h₁ e₂
  obtain ⟨p₂, h₂, hp₂⟩ := r₂.holds
  have r₃ := allocate_at h₂ e₃
  obtain ⟨p₃, h₃, hp₃⟩ := r₃.holds
  obtain ⟨⟨q₄, rfl⟩, r₄⟩ := transitionTrade_at h₃ e₄
  obtain ⟨p₄, h₄, hp₄⟩ := r₄.holds
  have r₅ := calculateObligations_at h₄ e₅
  obtain ⟨p₅, h₅, hp₅⟩ := r₅.holds
  have r₆ := createPositionEffect_at h₅ e₆
  obtain ⟨p₆, h₆, hp₆⟩ := r₆.holds
  obtain ⟨⟨q₇, rfl⟩, r₇⟩ := transitionTrade_at h₆ e₇
  obtain ⟨p₇, h₇, hp₇⟩ := r₇.holds
  have r₈ := createFromTrade_at h₇ e₈
  obtain ⟨p₈, h₈, hp₈⟩ := r₈.holds
  obtain ⟨⟨q₉, rfl⟩, r₉⟩ := transitionTrade_at h₈ e₉
  obtain ⟨p₉, h₉, hp₉⟩ := r₉.holds
  have r₁₀ := generateConfirmation_at h₉ e₁₀
  obtain ⟨p₁₀, h₁₀, hp₁₀⟩ := r₁₀.holds
  obtain ⟨⟨q₁₁, rfl⟩, r₁₁⟩ := transitionTrade_at h₁₀ e₁₁
  obtain ⟨p₁₁, h₁₁, hp₁₁⟩ := r₁₁.holds
  obtain ⟨hrow, r₁₂⟩ := transitionTrade_at h₁₁ e₁₂
  obtain ⟨p₁₂, h₁₂, hp₁₂⟩ := r₁₂.holds
  obtain ⟨q₁₂, rfl⟩ := hrow
  have r₁₃ := settleInstruction_at h₁₂ e₁₃
  have heffects : p₁₂.positionEffects = p.positionEffects ++ [positionEffectOf env trade] := by
    rw [hp₁₂, hp₁₁, hp₁₀, hp₉, hp₈, hp₇, hp₆, hp₅, hp₄, hp₃, hp₂, hp₁]
  rw [heffects] at r₁₃
  exact ⟨⟨q₁₂, rfl⟩, r₁.trans r₂ |>.trans r₃ |>.trans r₄ |>.trans r₅ |>.trans r₆ |>.trans r₇ |>.trans r₈
    |>.trans r₉ |>.trans r₁₀ |>.trans r₁₁ |>.trans r₁₂ |>.trans r₁₃⟩

end Steps

theorem processTradeAccounting_ok {env : Env} {trade : Trade} {v v' : ValuationTables} {snapshot : FeeSnapshot}
    (hok : processTradeAccounting env trade v = .ok v') (hfee : trade.feeSnapshot = some snapshot)
    (hq : 0 ≤ trade.quantity) (hk : LotsKept v.lots) (hnone : v.Unbooked trade.executionId) : Booked trade v v' := by
  have hheld : trade.side = .sell → trade.quantity ≤ v.held trade.holding := by
    intro hs
    obtain ⟨v₁, hbook, -⟩ := bind_eq_ok.mp hok
    simp only [bookLots, hs, disposeFifo, hnone.2] at hbook
    obtain ⟨_, henough, -⟩ := bind_eq_ok.mp hbook
    exact (require_eq_ok.mp henough).trans (ValuationTables.sum_lotsInOrder hk).le
  obtain ⟨v'', hok', hbooked⟩ := processTradeAccounting_booked env v trade hfee hq hk hnone hheld
  obtain rfl := Except.ok.inj (hok.symm.trans hok')
  exact hbooked

-- A fill that is new: its trade with the one position effect, and its lots.
structure NewFill (env : Env) (trade : Trade) (b b' : Books) : Prop where
  fresh : b.postTrade.trades.find trade.executionId = none
  positive : 0 < trade.quantity
  row : ∃ p, b'.postTrade.trades = b.postTrade.trades.put trade.executionId (trade.at p) ∧
    p.positionEffects = [positionEffectOf env trade]
  accounted : ∃ q, processTradeAccounting env (trade.at q) b.valuation = .ok b'.valuation
  fee : ∃ snapshot, trade.feeSnapshot = some snapshot

theorem processSimulatedFill_cases {env : Env} {order : TradingOrder} {executionId : String} {quantity price fee : ℚ}
    {executedAt : Timestamp} {b b' : Books}
    (h : processSimulatedFill env order executionId quantity price fee executedAt b = .ok b') :
    b' = b ∨ ∃ trade, NewFill env trade b b' := by
  obtain ⟨⟨⟨captured, created⟩, b₀⟩, hcapture, h⟩ := bind_eq_ok.mp h
  simp only [captureFill, bind_eq_ok, require_eq_ok] at hcapture
  obtain ⟨_, hpositive, _, -, date, -, hcapture⟩ := hcapture
  cases hfound : b.postTrade.trades.find executionId with
  | some row =>
    rw [hfound] at hcapture
    cases hcapture
    exact .inl (pure_eq_ok.mp h).symm
  | none =>
    rw [hfound] at hcapture
    cases hcapture
    obtain ⟨⟨t, b₁⟩, hsettle, h⟩ := bind_eq_ok.mp h
    obtain ⟨v, haccount, h⟩ := bind_eq_ok.mp h
    obtain rfl := pure_eq_ok.mp h
    set trade := tradeOf order executionId quantity price fee executedAt date
    have hsettled : settleCaptured env (trade.at ⟨.captured, 1, [], [], [], none, []⟩) _ = _ := hsettle
    obtain ⟨⟨q, rfl⟩, hrewritten⟩ := settleCaptured_at (Table.find_put_self _ _ _) hsettled
    have hall := hrewritten.of_saved (b := b) ⟨.captured, 1, [], [], [], none, []⟩ rfl rfl
    refine .inr ⟨trade, hfound, hpositive.1, hall.row, ⟨q, ?_⟩, ⟨_, rfl⟩⟩
    rw [← hall.valuation]
    exact haccount

end Beyvra
