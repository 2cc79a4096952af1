import Beyvra.PostTrade.FillAccounting
import Beyvra.Relational.Latest

namespace Beyvra

open Relational

def CorrectionType.effectType : CorrectionType → EffectType
  | .reversal => .reversal
  | .correction => .correction
  | .cancelAndRebook => .cancelAndRebook

def correctionEffect (env : Env) (correction : TradeCorrection) (trade : Trade) : TradePositionEffect where
  quantityDelta := match trade.side with
    | .buy => -trade.quantity
    | .sell => trade.quantity
  costBasisDelta := -trade.grossNotional
  effectType := correction.correctionType.effectType
  appliedAt := env.now

def correctedTrade (env : Env) (correction : TradeCorrection) (trade : Trade) : Trade :=
  (trade.withEffects (trade.positionEffects ++ [correctionEffect env correction trade])).moved .reversed

def latestConfirmation (trade : Trade) : Option TradeConfirmation :=
  latest (fun c c' : TradeConfirmation => c'.version ≤ c.version) trade.confirmations

def TradeConfirmation.reversal (c : TradeConfirmation) : TradeConfirmation :=
  { c with
    version := c.version + 1
    netAmount := -c.netAmount
    supersedes := some c.version
    status := .reversed }

namespace Books

def saveCorrection (b : Books) (id : Uuid) (correction : TradeCorrection) : Books :=
  { b with postTrade.corrections := b.postTrade.corrections.put id correction }

def updateTrade (b : Books) (key : String) (trade : Trade) : Books :=
  { b with postTrade.trades := b.postTrade.trades.put key trade }

def recordApproval (b : Books) (env : Env) (id : Uuid) (actorRef : String) (correction : TradeCorrection)
    (row : Trade) : Books :=
  let b := b.saveCorrection id
    { correction with status := .approved, approvedBy := actorRef, approvedAt := some env.now }
  (b.updateTrade correction.originalTrade row).audit env row.tenantRef "trade.reversed" "trade"
    correction.originalTrade actorRef

end Books

def createConfirmation (trade : Trade) (row : TradeConfirmation) : Outcome Trade := do
  require (∀ c ∈ trade.confirmations, c.version ≠ row.version)
    (.integrityError "post_trade_confirmation_version_unique")
  pure (trade.withConfirmations (trade.confirmations ++ [row]))

def reverseConfirmation (trade : Trade) : Outcome Trade :=
  match latestConfirmation trade with
  | some c => createConfirmation trade c.reversal
  | none => pure trade

structure CorrectionRequest where
  trade : String
  correctionType : CorrectionType
  reasonCode : String
  actorRef : String

def requestCorrection (env : Env) (request : CorrectionRequest) (b : Books) : Outcome Books := do
  let id := env.uuid4 "TradeCorrection"
  let _ ← b.tradeRow request.trade
  require (b.postTrade.corrections.find id = none) (.integrityError "TradeCorrection.id")
  pure (b.saveCorrection id
    { originalTrade := request.trade, correctionType := request.correctionType
      reasonCode := request.reasonCode, requestedBy := request.actorRef })

def approveCorrection (env : Env) (id : Uuid) (actorRef : String) (b : Books) : Outcome Books := do
  let correction ← fetch b.postTrade.corrections id (.doesNotExist "TradeCorrection")
  require (correction.requestedBy ≠ actorRef) (.valueError "SELF_APPROVAL_FORBIDDEN")
  require (correction.status = .pending) (.valueError "CORRECTION_INVALID_STATE")
  let trade ← b.tradeRow correction.originalTrade
  require (∀ e ∈ trade.positionEffects, e.effectType ≠ correction.correctionType.effectType)
    (.integrityError "post_trade_position_effect_unique")
  let row ← reverseConfirmation (correctedTrade env correction trade)
  pure (b.recordApproval env id actorRef correction row)

inductive CorrectionOp where
  | request (request : CorrectionRequest)
  | approve (correctionId : Uuid) (actorRef : String)

structure CorrectionCall where
  env : Env
  op : CorrectionOp

def correctionStep (b : Books) (call : CorrectionCall) : Books :=
  match call.op with
  | .request request => commitState (requestCorrection call.env request) b
  | .approve correctionId actorRef => commitState (approveCorrection call.env correctionId actorRef) b

section Confirmation

variable {trade : Trade}

instance : Std.Total fun c c' : TradeConfirmation => c'.version ≤ c.version :=
  ⟨fun c c' => Nat.le_total c'.version c.version⟩

instance : IsTrans TradeConfirmation fun c c' => c'.version ≤ c.version :=
  ⟨fun _ _ _ h h' => h'.trans h⟩

-- The version of a reversal is above every version there is, so no constraint refuses it.
theorem reverseConfirmation_of (trade : Trade) :
    ∃ confirmations, reverseConfirmation trade = .ok (trade.withConfirmations confirmations) := by
  unfold reverseConfirmation
  cases hlatest : latestConfirmation trade with
  | none => exact ⟨trade.confirmations, rfl⟩
  | some last =>
    have hfresh : ∀ c ∈ trade.confirmations, c.version ≠ last.reversal.version := by
      intro c hc
      have hle : c.version ≤ last.version := by
        rcases latest_before hlatest hc with rfl | hle
        · exact le_rfl
        · exact hle
      exact (Nat.lt_succ_of_le hle).ne
    exact ⟨_, bind_of_ok (require_of hfresh)⟩

end Confirmation

def Trade.costBasis (trade : Trade) : ℚ := (trade.positionEffects.map (·.costBasisDelta)).sum

def Neutral (b : Books) (key : String) : Prop :=
  ∃ trade, b.postTrade.trades.find key = some trade ∧ trade.effectQuantity = 0 ∧ trade.costBasis = 0

def Reversed (b : Books) (key : String) : Prop :=
  ∃ trade, b.postTrade.trades.find key = some trade ∧ trade.tradeState = .reversed

def TakesEffect (key : String) (b : Books) (call : CorrectionCall) : Prop :=
  ∃ id actorRef correction b', call.op = .approve id actorRef ∧
    b.postTrade.corrections.find id = some correction ∧ correction.originalTrade = key ∧
    approveCorrection call.env id actorRef b = .ok b'

def CorrectionNeutral (key : String) (calls : List CorrectionCall) (b : Books) : Prop :=
  Throughout correctionStep (fun b call => TakesEffect key b call → ¬Reversed b key) calls b ∧
    ∀ before after, calls = before ++ after →
      ¬Throughout correctionStep (fun b call => ¬TakesEffect key b call) before b →
      Neutral (before.foldl correctionStep b) key

structure Approvable (b : Books) (call : CorrectionCall) (trade : Trade) (id : Uuid) (actorRef : String)
    (correction : TradeCorrection) : Prop where
  call : call.op = .approve id actorRef
  found : b.postTrade.corrections.find id = some correction
  other : correction.requestedBy ≠ actorRef
  pending : correction.status = .pending
  held : b.postTrade.trades.find correction.originalTrade = some trade
  unused : ∀ e ∈ trade.positionEffects, e.effectType ≠ correction.correctionType.effectType

-- An approval that the guards let through finds a bought trade that is not reversed.
def ReversesPurchase (key : String) (b : Books) (call : CorrectionCall) : Prop :=
  ∀ trade id actorRef correction, Approvable b call trade id actorRef correction →
    correction.originalTrade = key → trade.side = .buy ∧ trade.tradeState ≠ .reversed

structure SettledRow (trade : Trade) : Prop where
  state : trade.tradeState = .settled
  effects : ∃ env, trade.positionEffects = [positionEffectOf env trade]
  notional : 0 < trade.grossNotional

theorem settledTrade_settled (env : Env) (order : TradingOrder) (executionId : String)
    {quantity price : ℚ} (fee : ℚ) (executedAt : Timestamp) (instruction : SettlementInstruction)
    (hquantity : 0 < quantity) (hprice : 0 < price) :
    SettledRow (settledTrade env order executionId quantity price fee executedAt instruction) :=
  ⟨rfl, ⟨env, rfl⟩, mul_pos hquantity hprice⟩

section Step

variable {env : Env} {b b' : Books} {key : String} {call : CorrectionCall} {id : Uuid} {actorRef : String}
  {correction : TradeCorrection} {trade : Trade}

theorem approveCorrection_eq_ok :
    approveCorrection env id actorRef b = .ok b' ↔ ∃ correction trade row,
      Approvable b ⟨env, .approve id actorRef⟩ trade id actorRef correction ∧
      reverseConfirmation (correctedTrade env correction trade) = .ok row ∧
      b' = b.recordApproval env id actorRef correction row := by
  simp only [approveCorrection, Books.tradeRow, bind_eq_ok, fetch_eq_ok, require_eq_ok, pure_eq_ok]
  constructor
  · rintro ⟨correction, hfound, _, hother, _, hpending, trade, htrade, _, hunused, row, hrow, rfl⟩
    exact ⟨correction, trade, row, ⟨rfl, hfound, hother, hpending, htrade, hunused⟩, hrow, rfl⟩
  · rintro ⟨correction, trade, row, happrovable, hrow, rfl⟩
    exact ⟨correction, happrovable.found, (), happrovable.other, (), happrovable.pending, trade,
      happrovable.held, (), happrovable.unused, row, hrow, rfl⟩

structure Corrected (env : Env) (correction : TradeCorrection) (trade trade' : Trade) : Prop where
  effects : trade'.positionEffects = trade.positionEffects ++ [correctionEffect env correction trade]
  state : trade'.tradeState = .reversed

theorem Approvable.approves (h : Approvable b ⟨env, .approve id actorRef⟩ trade id actorRef correction) :
    ∃ trade', Corrected env correction trade trade' ∧ approveCorrection env id actorRef b =
      .ok (b.recordApproval env id actorRef correction trade') := by
  obtain ⟨confirmations, hrow⟩ := reverseConfirmation_of (correctedTrade env correction trade)
  exact ⟨_, ⟨rfl, rfl⟩, approveCorrection_eq_ok.mpr ⟨correction, trade, _, h, hrow, rfl⟩⟩

theorem takesEffect_iff : TakesEffect key b call ↔
    ∃ trade id actorRef correction, Approvable b call trade id actorRef correction ∧
      correction.originalTrade = key := by
  obtain ⟨env, op⟩ := call
  constructor
  · rintro ⟨id, actorRef, correction, b', rfl, hfound, hkey, hok⟩
    obtain ⟨correction', trade, _, happrovable, -⟩ := approveCorrection_eq_ok.mp hok
    obtain rfl := Option.some.inj (hfound.symm.trans happrovable.found)
    exact ⟨trade, id, actorRef, correction, happrovable, hkey⟩
  · rintro ⟨trade, id, actorRef, correction, happrovable, hkey⟩
    obtain rfl := happrovable.call
    obtain ⟨trade', -, hok⟩ := happrovable.approves
    exact ⟨id, actorRef, correction, _, rfl, happrovable.found, hkey, hok⟩

theorem correctionStep_approved (h : Approvable b call trade id actorRef correction) :
    ∃ trade', (correctionStep b call).postTrade.trades.find correction.originalTrade = some trade' ∧
      Corrected call.env correction trade trade' := by
  obtain ⟨env, op⟩ := call
  obtain rfl := h.call
  obtain ⟨trade', hcorrected, hok⟩ := h.approves
  unfold correctionStep
  dsimp only
  rw [commitState_of_ok hok]
  exact ⟨trade', Table.find_put_self _ _ _, hcorrected⟩

-- Every other call leaves the row of the trade as it is.
theorem correctionStep_other (h : ¬TakesEffect key b call) :
    (correctionStep b call).postTrade.trades.find key = b.postTrade.trades.find key := by
  obtain ⟨env, op⟩ := call
  cases op with
  | request request =>
    change (commitState (requestCorrection env request) b).postTrade.trades.find key = _
    rcases commitState_cases (requestCorrection env request) b with ⟨b', hok, hstep⟩ | ⟨-, hstep⟩
    · simp only [requestCorrection, bind_eq_ok, pure_eq_ok] at hok
      obtain ⟨_, -, _, -, rfl⟩ := hok
      rw [hstep]
      rfl
    · rw [hstep]
  | approve id actorRef =>
    change (commitState (approveCorrection env id actorRef) b).postTrade.trades.find key = _
    rcases commitState_cases (approveCorrection env id actorRef) b with ⟨b', hok, hstep⟩ | ⟨-, hstep⟩
    · obtain ⟨correction, trade, row, happrovable, -, rfl⟩ := approveCorrection_eq_ok.mp hok
      have hne : key ≠ correction.originalTrade := by
        rintro rfl
        exact h (takesEffect_iff.mpr ⟨trade, id, actorRef, correction, happrovable, rfl⟩)
      rw [hstep]
      exact Table.find_put_of_ne _ _ hne
    · rw [hstep]

theorem Corrected.neutral_iff (h : SettledRow trade) {trade' : Trade}
    (hc : Corrected env correction trade trade') :
    (trade'.effectQuantity = 0 ∧ trade'.costBasis = 0) ↔ trade.side = .buy := by
  obtain ⟨settledEnv, heffects⟩ := h.effects
  unfold Trade.effectQuantity Trade.costBasis
  rw [hc.effects, heffects]
  cases hs : trade.side with
  | buy => simp [positionEffectOf, correctionEffect, hs]
  | sell =>
    have hnotional := h.notional
    simp only [positionEffectOf, correctionEffect, hs, List.map_append, List.map_cons, List.map_nil,
      List.sum_append, List.sum_cons, List.sum_nil, add_zero, reduceCtorEq, iff_false, not_and]
    intro _ hcost
    linarith

end Step

section Run

variable {b : Books} {key : String} {trade : Trade} {calls : List CorrectionCall}

-- A trade stays as it was settled until an approval takes effect, and is reversed from then on.
theorem correction_run (hrow : b.postTrade.trades.find key = some trade) (calls : List CorrectionCall) :
    (Throughout correctionStep (fun b call => ¬TakesEffect key b call) calls b ∧
      (calls.foldl correctionStep b).postTrade.trades.find key = some trade) ∨
    Reversed (calls.foldl correctionStep b) key := by
  induction calls using List.reverseRecOn with
  | nil => exact .inl ⟨trivial, hrow⟩
  | append_singleton calls call ih =>
    rw [List.foldl_append, List.foldl_cons, List.foldl_nil]
    by_cases heffect : TakesEffect key (calls.foldl correctionStep b) call
    · obtain ⟨trade, id, actorRef, correction, happrovable, rfl⟩ := takesEffect_iff.mp heffect
      obtain ⟨trade', hfind, hcorrected⟩ := correctionStep_approved happrovable
      exact .inr ⟨trade', hfind, hcorrected.state⟩
    · have hsame := correctionStep_other heffect
      rcases ih with ⟨hquiet, hfind⟩ | ⟨trade', hfind, hstate⟩
      · exact .inl ⟨throughout_append.mpr ⟨hquiet, heffect, trivial⟩, hsame.trans hfind⟩
      · exact .inr ⟨trade', hsame.trans hfind, hstate⟩

theorem neutral_of_run (hrow : b.postTrade.trades.find key = some trade) (hsettled : SettledRow trade)
    (hthroughout : Throughout correctionStep (ReversesPurchase key) calls b) :
    Throughout correctionStep (fun b call => ¬TakesEffect key b call) calls b ∨
      Neutral (calls.foldl correctionStep b) key := by
  induction calls using List.reverseRecOn with
  | nil => exact .inl trivial
  | append_singleton calls call ih =>
    obtain ⟨hbefore, hcall, -⟩ := throughout_append.mp hthroughout
    rw [List.foldl_append, List.foldl_cons, List.foldl_nil]
    by_cases heffect : TakesEffect key (calls.foldl correctionStep b) call
    · obtain ⟨found, id, actorRef, correction, happrovable, rfl⟩ := takesEffect_iff.mp heffect
      obtain ⟨hside, hstate⟩ := hcall found id actorRef correction happrovable rfl
      obtain ⟨trade', hfind, hcorrected⟩ := correctionStep_approved happrovable
      rcases correction_run hrow calls with ⟨-, hsame⟩ | ⟨reversed, hreversed, hnot⟩
      · obtain rfl := Option.some.inj (hsame.symm.trans happrovable.held)
        exact .inr ⟨trade', hfind, (hcorrected.neutral_iff hsettled).mpr hside⟩
      · obtain rfl := Option.some.inj (hreversed.symm.trans happrovable.held)
        exact absurd hnot hstate
    · rcases ih hbefore with hquiet | ⟨trade', hfind, hneutral⟩
      · exact .inl (throughout_append.mpr ⟨hquiet, heffect, trivial⟩)
      · exact .inr ⟨trade', (correctionStep_other heffect).trans hfind, hneutral⟩

end Run

theorem correction_neutral_iff {b : Books} {key : String} {trade : Trade} (calls : List CorrectionCall)
    (hrow : b.postTrade.trades.find key = some trade) (hsettled : SettledRow trade) :
    CorrectionNeutral key calls b ↔ Throughout correctionStep (ReversesPurchase key) calls b := by
  constructor
  · rintro ⟨honce, hneutral⟩
    rw [throughout_iff]
    rintro before call after rfl found id actorRef correction happrovable rfl
    have heffect := takesEffect_iff.mpr ⟨found, id, actorRef, correction, happrovable, rfl⟩
    have hnot := throughout_iff.mp honce before call after rfl heffect
    refine ⟨?_, fun hstate => hnot ⟨found, happrovable.held, hstate⟩⟩
    rcases correction_run hrow before with ⟨-, hsame⟩ | hreversed
    · obtain rfl := Option.some.inj (hsame.symm.trans happrovable.held)
      obtain ⟨trade', hfind, hcorrected⟩ := correctionStep_approved happrovable
      have hafter := hneutral (before ++ [call]) after (by simp) fun hquiet =>
        (throughout_append.mp hquiet).2.1 heffect
      obtain ⟨trade'', hfind', hzero⟩ := hafter
      rw [List.foldl_append, List.foldl_cons, List.foldl_nil] at hfind'
      obtain rfl := Option.some.inj (hfind.symm.trans hfind')
      exact (hcorrected.neutral_iff hsettled).mp hzero
    · exact absurd hreversed hnot
  · intro hthroughout
    refine ⟨?_, ?_⟩
    · rw [throughout_iff]
      rintro before call after rfl heffect ⟨found, hfound, hstate⟩
      obtain ⟨found', id, actorRef, correction, happrovable, rfl⟩ := takesEffect_iff.mp heffect
      obtain rfl := Option.some.inj (hfound.symm.trans happrovable.held)
      have hcall := throughout_iff.mp hthroughout before call after rfl
      exact (hcall found id actorRef correction happrovable rfl).2 hstate
    · rintro before after rfl heffect
      exact (neutral_of_run hrow hsettled (throughout_append.mp hthroughout).1).resolve_left heffect

theorem deskTime_seeded : calendarSeedDate ≤ Timestamp.date (calendarSeedDate * microsecondsPerDay) := by
  decide

def deskEnv : Env where
  now := calendarSeedDate * microsecondsPerDay
  settings := { simulatedExecutionPrices := [] }
  uuid4 := id
  seeded := deskTime_seeded

def deskOrder (side : OrderSide) : TradingOrder where
  id := "order"
  tenantRef := "default"
  subjectRef := "alice"
  accountRef := "sim:alice"
  instrumentId := "BTC-USD"
  orderType := .market
  side := side
  quantity := 10
  limitPrice := none
  updatedAt := deskEnv.now

def deskInstruction : SettlementInstruction where
  settlementDate := calendarSeedDate
  deliverAsset := "USD"
  deliverQuantity := 1001
  receiveAsset := "BTC"
  receiveQuantity := 10
  currency := "USD"
  cashAmount := 1000
  feeAmount := 1

def deskTrade (side : OrderSide) : Trade :=
  settledTrade deskEnv (deskOrder side) "execution" 10 100 1 deskEnv.now deskInstruction

theorem deskTrade_settled (side : OrderSide) : SettledRow (deskTrade side) :=
  settledTrade_settled deskEnv (deskOrder side) "execution" 1 deskEnv.now deskInstruction (by decide)
    (by decide)

def deskBooks (side : OrderSide) : Books :=
  ⟨{ trades := Table.empty.put "execution" (deskTrade side) }, {}, []⟩

def requestReversal : CorrectionCall :=
  ⟨deskEnv, .request ⟨"execution", .reversal, "INPUT_ERROR", "maker"⟩⟩

def approveReversal : CorrectionCall := ⟨deskEnv, .approve "TradeCorrection" "checker"⟩

theorem reversal_approvable (side : OrderSide) :
    Approvable (correctionStep (deskBooks side) requestReversal) approveReversal (deskTrade side)
      "TradeCorrection" "checker"
      { originalTrade := "execution", correctionType := .reversal, reasonCode := "INPUT_ERROR"
        requestedBy := "maker" } where
  call := rfl
  found := rfl
  other := by decide
  pending := rfl
  held := rfl
  unused := by simp [deskTrade, settledTrade, Trade.settledWith, Trade.at, positionEffectOf,
    CorrectionType.effectType]

theorem correction_neutral_of_purchase :
    CorrectionNeutral "execution" [requestReversal, approveReversal] (deskBooks .buy) := by
  have hrow : (deskBooks .buy).postTrade.trades.find "execution" = some (deskTrade .buy) := rfl
  refine (correction_neutral_iff _ hrow (deskTrade_settled .buy)).mpr ⟨?_, ?_, trivial⟩
  · rintro trade id actorRef correction happrovable -
    cases happrovable.call
  · rintro trade id actorRef correction happrovable -
    obtain ⟨rfl, rfl⟩ := CorrectionOp.approve.inj happrovable.call
    have happroves := reversal_approvable .buy
    obtain rfl := Option.some.inj (happroves.found.symm.trans happrovable.found)
    obtain rfl := Option.some.inj (happroves.held.symm.trans happrovable.held)
    exact ⟨rfl, by decide⟩

theorem sold_trade_doubled :
    ¬∀ b key trade calls, b.postTrade.trades.find key = some trade → SettledRow trade →
      CorrectionNeutral key calls b := by
  intro hclaim
  have hneutral := hclaim (deskBooks .sell) "execution" (deskTrade .sell)
    [requestReversal, approveReversal] rfl (deskTrade_settled .sell)
  have heffect := takesEffect_iff.mpr ⟨_, _, _, _, reversal_approvable .sell, rfl⟩
  obtain ⟨trade, hfind, -, hcost⟩ := hneutral.2 [requestReversal, approveReversal] []
    (List.append_nil _).symm fun hquiet => hquiet.2.1 heffect
  have hdoubled : (([requestReversal, approveReversal].foldl correctionStep
      (deskBooks .sell)).postTrade.trades.find "execution").map (·.costBasis) = some (-2000) := by
    decide +kernel
  rw [hfind, Option.map_some, hcost] at hdoubled
  exact absurd hdoubled (by decide)

end Beyvra
