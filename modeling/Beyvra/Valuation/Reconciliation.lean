import Beyvra.PostTrade.Corrections
import Beyvra.PostTrade.FillEffects

namespace Beyvra

open Relational

namespace ValuationReconciler

structure PortfolioNavSnapshot where
  tenantRef : String
  totalAssets : ℚ
  totalLiabilities : ℚ
  nav : ℚ
  deriving DecidableEq

structure ValuationAudit where
  tenantRef : String
  resourceRef : String
  deriving DecidableEq

-- The rows that run reads beside the books of the trades
structure NavRecords where
  snapshots : Table Uuid PortfolioNavSnapshot := Table.empty
  audits : List ValuationAudit := []

inductive ValuationCheck where
  | positionQuantityMismatch | taxLotQuantityMismatch | navComponentMismatch | auditGap
  deriving DecidableEq

inductive ValuationSubject where
  | instrument (instrumentId : String)
  | snapshot (snapshotId : Uuid)
  deriving DecidableEq

structure ValuationViolation where
  check : ValuationCheck
  subject : ValuationSubject
  deriving DecidableEq

structure ValuationReport where
  status : ReconciliationStatus
  checks : List (ValuationCheck × Nat)
  violations : List ValuationViolation

def allChecks : List ValuationCheck :=
  [.positionQuantityMismatch, .taxLotQuantityMismatch, .navComponentMismatch, .auditGap]

def summedEffects (trades : Table String Trade) (h : Holding) : ℚ :=
  trades.sum fun _ trade => if trade.holding = h then trade.effectQuantity else 0

def report (p : Prop) [Decidable p] (check : ValuationCheck) (subject : ValuationSubject) : List ValuationViolation :=
  if p then [⟨check, subject⟩] else []

def basisViolations (tenantRef : String) (b : Books) : List ValuationViolation :=
  b.valuation.costBasis.rows.flatMap fun row =>
    let h : Holding := ⟨row.1.1, row.1.2.1, row.1.2.2⟩
    if h.tenantRef = tenantRef then
      report (b.valuation.held h ≠ row.2.quantity) .taxLotQuantityMismatch (.instrument h.instrumentId) ++
        report (summedEffects b.postTrade.trades h ≠ row.2.quantity) .positionQuantityMismatch (.instrument h.instrumentId)
    else []

def navViolations (tenantRef : String) (records : NavRecords) : List ValuationViolation :=
  records.snapshots.rows.flatMap fun row =>
    if row.2.tenantRef = tenantRef then
      report (row.2.totalAssets - row.2.totalLiabilities ≠ row.2.nav) .navComponentMismatch (.snapshot row.1) ++
        report (⟨tenantRef, row.1⟩ ∉ records.audits) .auditGap (.snapshot row.1)
    else []

def run (tenantRef : String) (records : NavRecords) (b : Books) : ValuationReport :=
  let violations := basisViolations tenantRef b ++ navViolations tenantRef records
  { status := if violations = [] then .pass else .fail
    checks := allChecks.map fun check => (check, violations.countP (·.check = check))
    violations }

theorem mem_report {p : Prop} [Decidable p] {check : ValuationCheck} {subject : ValuationSubject}
    {v : ValuationViolation} : v ∈ report p check subject ↔ p ∧ v = ⟨check, subject⟩ := by
  unfold report
  split
  · rename_i hp
    simp [hp]
  · rename_i hp
    simp [hp]

theorem mem_navViolations {tenantRef : String} {records : NavRecords} {v : ValuationViolation}
    (h : v ∈ navViolations tenantRef records) : v.check = .navComponentMismatch ∨ v.check = .auditGap := by
  obtain ⟨row, -, hrow⟩ := List.mem_flatMap.mp h
  split at hrow
  · simp only [List.mem_append, mem_report] at hrow
    rcases hrow with ⟨-, rfl⟩ | ⟨-, rfl⟩
    · exact .inl rfl
    · exact .inr rfl
  · cases hrow

def Reports (tenantRef : String) (records : NavRecords) (b : Books) (check : ValuationCheck) : Prop :=
  ∃ v ∈ (run tenantRef records b).violations, v.check = check

variable {tenantRef : String} {records : NavRecords} {b : Books}

theorem reports_basis {check : ValuationCheck} (hcheck : check ≠ .navComponentMismatch ∧ check ≠ .auditGap) :
    Reports tenantRef records b check ↔ ∃ h position,
      b.valuation.costBasis.find (h.tenantRef, h.accountRef, h.instrumentId) = some position ∧ h.tenantRef = tenantRef ∧
      (b.valuation.held h ≠ position.quantity ∧ check = .taxLotQuantityMismatch ∨
        summedEffects b.postTrade.trades h ≠ position.quantity ∧ check = .positionQuantityMismatch) := by
  constructor
  · rintro ⟨v, hv, rfl⟩
    rcases List.mem_append.mp hv with hbasis | hnav
    · obtain ⟨⟨⟨tenant, account, instrument⟩, position⟩, hmem, hrow⟩ := List.mem_flatMap.mp hbasis
      refine ⟨⟨tenant, account, instrument⟩, position, Table.mem_rows_iff.mp hmem, ?_⟩
      dsimp only at hrow
      split at hrow
      · rename_i htenant
        simp only [List.mem_append, mem_report] at hrow
        rcases hrow with ⟨hdiffers, rfl⟩ | ⟨hdiffers, rfl⟩
        · exact ⟨htenant, .inl ⟨hdiffers, rfl⟩⟩
        · exact ⟨htenant, .inr ⟨hdiffers, rfl⟩⟩
      · cases hrow
    · rcases mem_navViolations hnav with heq | heq
      · exact absurd heq hcheck.1
      · exact absurd heq hcheck.2
  · rintro ⟨h, position, hfind, htenant, hdiffers⟩
    have hmem : ∀ v, v ∈ report (b.valuation.held h ≠ position.quantity) .taxLotQuantityMismatch
          (.instrument h.instrumentId) ++
        report (summedEffects b.postTrade.trades h ≠ position.quantity) .positionQuantityMismatch
          (.instrument h.instrumentId) → v ∈ (run tenantRef records b).violations := by
      intro v hv
      refine List.mem_append_left _ (List.mem_flatMap.mpr ⟨_, Table.mem_rows_iff.mpr hfind, ?_⟩)
      dsimp only
      rwa [if_pos htenant]
    rcases hdiffers with ⟨hdiffers, rfl⟩ | ⟨hdiffers, rfl⟩
    · exact ⟨_, hmem _ (List.mem_append_left _ (mem_report.mpr ⟨hdiffers, rfl⟩)), rfl⟩
    · exact ⟨_, hmem _ (List.mem_append_right _ (mem_report.mpr ⟨hdiffers, rfl⟩)), rfl⟩

structure FillCall where
  env : Env
  order : TradingOrder
  executionId : String
  quantity : ℚ
  price : ℚ
  fee : ℚ
  executedAt : Timestamp

inductive BookOp where
  | fill (call : FillCall)
  | correct (call : CorrectionCall)

def bookStep (b : Books) : BookOp → Books
  | .fill call => commitState (processSimulatedFill call.env call.order call.executionId call.quantity call.price
      call.fee call.executedAt) b
  | .correct call => correctionStep b call

-- The approval finds a pending correction of another actor whose trade has no effect of its type.
def Approves (b : Books) (op : BookOp) : Prop :=
  ∃ call trade id actorRef correction, op = .correct call ∧ Approvable b call trade id actorRef correction

def basisQuantity (v : ValuationTables) (h : Holding) : ℚ :=
  ((v.costBasis.find (h.tenantRef, h.accountRef, h.instrumentId)).map (·.quantity)).getD 0

structure Propagated (b : Books) : Prop where
  unreported : ∀ tenantRef records, ¬Reports tenantRef records b .positionQuantityMismatch ∧
    ¬Reports tenantRef records b .taxLotQuantityMismatch
  agree : ∀ h, summedEffects b.postTrade.trades h = b.valuation.held h ∧
    basisQuantity b.valuation h = b.valuation.held h

-- What fills and corrections keep alike
structure Bookkept (b : Books) : Prop where
  traded : ∀ key trade, b.postTrade.trades.find key = some trade → trade.executionId = key ∧ 0 < trade.quantity ∧
    b.valuation.costBasis.find (trade.tenantRef, trade.accountRef, trade.instrumentId) ≠ none
  kept : LotsKept b.valuation.lots
  unbooked : ∀ key, b.postTrade.trades.find key = none → b.valuation.Unbooked key
  basis : ∀ h, basisQuantity b.valuation h = b.valuation.held h

variable {b b' : Books} {h : Holding} {key : String}

theorem basisQuantity_of {v : ValuationTables} {position : CostBasisPosition}
    (hfind : v.costBasis.find (h.tenantRef, h.accountRef, h.instrumentId) = some position) :
    basisQuantity v h = position.quantity := by
  simp [basisQuantity, hfind]

theorem Bookkept.propagated_iff (hkept : Bookkept b) :
    Propagated b ↔ ∀ h, summedEffects b.postTrade.trades h = b.valuation.held h := by
  constructor
  · exact fun hpropagated h => (hpropagated.agree h).1
  · intro heffects
    refine ⟨fun tenantRef records => ⟨?_, ?_⟩, fun h => ⟨heffects h, hkept.basis h⟩⟩
    · rw [reports_basis (by decide)]
      rintro ⟨h, position, hfind, -, ⟨-, hcheck⟩ | ⟨hdiffers, -⟩⟩
      · cases hcheck
      · rw [heffects, ← hkept.basis, basisQuantity_of hfind] at hdiffers
        exact hdiffers rfl
    · rw [reports_basis (by decide)]
      rintro ⟨h, position, hfind, -, ⟨hdiffers, -⟩ | ⟨-, hcheck⟩⟩
      · rw [← hkept.basis, basisQuantity_of hfind] at hdiffers
        exact hdiffers rfl
      · cases hcheck

section Fill

variable {env : Env} {trade : Trade}

theorem NewFill.booked (hfill : NewFill env trade b b') (hkept : Bookkept b) :
    Booked trade b.valuation b'.valuation ∧ ∃ position,
      b'.valuation.costBasis = b.valuation.costBasis.put (trade.tenantRef, trade.accountRef, trade.instrumentId) position ∧
      position.quantity = b'.valuation.held trade.holding := by
  obtain ⟨q, haccounted⟩ := hfill.accounted
  obtain ⟨snapshot, hfee⟩ := hfill.fee
  have hbooked : Booked (trade.at q) b.valuation b'.valuation :=
    processTradeAccounting_ok haccounted hfee hfill.positive.le hkept.kept (hkept.unbooked _ hfill.fresh)
  exact ⟨⟨hbooked.kept, hbooked.held, hbooked.unbooked⟩, processTradeAccounting_costBasis haccounted hbooked.kept⟩

theorem Bookkept.fill (hkept : Bookkept b) (hfill : NewFill env trade b b') : Bookkept b' := by
  obtain ⟨hbooked, position, hbasis, hquantity⟩ := NewFill.booked hfill hkept
  obtain ⟨p, htrades, -⟩ := hfill.row
  refine ⟨fun key row hrow => ?_, hbooked.kept, fun key hnone => ?_, fun h => ?_⟩
  · rw [htrades] at hrow
    rcases Table.find_put_cases hrow with ⟨rfl, rfl⟩ | ⟨-, hold⟩
    · refine ⟨rfl, hfill.positive, ?_⟩
      rw [hbasis]
      simp [Trade.at]
    · obtain ⟨hkey, hpositive, hfound⟩ := hkept.traded key row hold
      refine ⟨hkey, hpositive, fun hnone => hfound ?_⟩
      rw [hbasis] at hnone
      exact (Table.find_put_none hnone).2
  · rw [htrades] at hnone
    obtain ⟨hne, hold⟩ := Table.find_put_none hnone
    exact hbooked.unbooked key hne (hkept.unbooked key hold)
  · by_cases hh : trade.holding = h
    · subst hh
      have hfind : b'.valuation.costBasis.find (trade.tenantRef, trade.accountRef, trade.instrumentId) = some position := by
        rw [hbasis]
        exact Table.find_put_self _ _ _
      exact (basisQuantity_of hfind).trans hquantity
    · have hne : (h.tenantRef, h.accountRef, h.instrumentId) ≠ (trade.tenantRef, trade.accountRef, trade.instrumentId) := by
        intro heq
        obtain ⟨htenant, haccount, hinstrument⟩ : h.tenantRef = trade.tenantRef ∧ h.accountRef = trade.accountRef ∧
            h.instrumentId = trade.instrumentId := by simpa using heq
        exact hh (by rw [Trade.holding, ← htenant, ← haccount, ← hinstrument])
      rw [hbooked.held, if_neg hh, add_zero, ← hkept.basis h]
      unfold basisQuantity
      rw [hbasis, Table.find_put_of_ne _ _ hne]

theorem summedEffects_fill (hkept : Bookkept b) (hfill : NewFill env trade b b')
    (heffects : ∀ h, summedEffects b.postTrade.trades h = b.valuation.held h) (h : Holding) :
    summedEffects b'.postTrade.trades h = b'.valuation.held h := by
  obtain ⟨p, htrades, hp⟩ := hfill.row
  have hquantity : (trade.at p).effectQuantity = trade.signedQuantity := by
    have hown : (trade.at p).positionEffects = [positionEffectOf env trade] := hp
    cases hside : trade.side with
    | buy => simp [Trade.effectQuantity, hown, positionEffectOf, Trade.signedQuantity, OrderSide.signed, hside]
    | sell => simp [Trade.effectQuantity, hown, positionEffectOf, Trade.signedQuantity, OrderSide.signed, hside]
  rw [(NewFill.booked hfill hkept).1.held h, ← heffects h, summedEffects, summedEffects, htrades,
    Table.sum_put_of_none hfill.fresh, hquantity]
  rfl

end Fill

section Approval

variable {call : CorrectionCall} {trade : Trade} {id : Uuid} {actorRef : String} {correction : TradeCorrection}

theorem correctionStep_trades (happrovable : Approvable b call trade id actorRef correction) :
    ∃ confirmations, (correctionStep b call).postTrade.trades = b.postTrade.trades.put correction.originalTrade
        ((correctedTrade call.env correction trade).withConfirmations confirmations) ∧
      (correctionStep b call).valuation = b.valuation := by
  obtain ⟨env, op⟩ := call
  obtain rfl := happrovable.call
  obtain ⟨confirmations, hrow⟩ := reverseConfirmation_of (correctedTrade env correction trade)
  have hok := approveCorrection_eq_ok.mpr ⟨correction, trade, _, happrovable, hrow, rfl⟩
  have hstep : correctionStep b ⟨env, .approve id actorRef⟩ = _ := commitState_of_ok hok
  exact ⟨confirmations, by rw [hstep]; rfl, by rw [hstep]; rfl⟩

theorem correctionStep_unapproved (h : ¬Approves b (.correct call)) :
    (correctionStep b call).postTrade.trades = b.postTrade.trades ∧ (correctionStep b call).valuation = b.valuation := by
  obtain ⟨env, op⟩ := call
  cases op with
  | request request =>
    change (commitState (requestCorrection env request) b).postTrade.trades = _ ∧
      (commitState (requestCorrection env request) b).valuation = _
    rcases commitState_cases (requestCorrection env request) b with ⟨b', hok, hstep⟩ | ⟨-, hstep⟩
    · simp only [requestCorrection, bind_eq_ok, pure_eq_ok] at hok
      obtain ⟨_, -, _, -, rfl⟩ := hok
      rw [hstep]
      exact ⟨rfl, rfl⟩
    · rw [hstep]
      exact ⟨rfl, rfl⟩
  | approve id actorRef =>
    change (commitState (approveCorrection env id actorRef) b).postTrade.trades = _ ∧
      (commitState (approveCorrection env id actorRef) b).valuation = _
    rcases commitState_cases (approveCorrection env id actorRef) b with ⟨b', hok, -⟩ | ⟨-, hstep⟩
    · obtain ⟨correction, trade, row, happrovable, -⟩ := approveCorrection_eq_ok.mp hok
      exact absurd ⟨_, trade, id, actorRef, correction, rfl, happrovable⟩ h
    · rw [hstep]
      exact ⟨rfl, rfl⟩

theorem Bookkept.approved (hkept : Bookkept b) (happrovable : Approvable b call trade id actorRef correction) :
    Bookkept (correctionStep b call) := by
  obtain ⟨confirmations, htrades, hvaluation⟩ := correctionStep_trades happrovable
  refine ⟨fun key row hrow => ?_, ?_, fun key hnone => ?_, ?_⟩
  · rw [htrades] at hrow
    rw [hvaluation]
    rcases Table.find_put_cases hrow with ⟨rfl, rfl⟩ | ⟨-, hold⟩
    · exact hkept.traded _ trade happrovable.held
    · exact hkept.traded key row hold
  · rw [hvaluation]
    exact hkept.kept
  · rw [htrades] at hnone
    rw [hvaluation]
    exact hkept.unbooked key (Table.find_put_none hnone).2
  · rw [hvaluation]
    exact hkept.basis

-- The reversal is the one effect that has no lot to go with it.
theorem summedEffects_approved (hkept : Bookkept b) (happrovable : Approvable b call trade id actorRef correction)
    (heffects : ∀ h, summedEffects b.postTrade.trades h = b.valuation.held h) :
    summedEffects (correctionStep b call).postTrade.trades trade.holding ≠
      (correctionStep b call).valuation.held trade.holding := by
  obtain ⟨confirmations, htrades, hvaluation⟩ := correctionStep_trades happrovable
  obtain ⟨-, hpositive, -⟩ := hkept.traded _ trade happrovable.held
  have hholding : ((correctedTrade call.env correction trade).withConfirmations confirmations).holding = trade.holding := rfl
  have hquantity : ((correctedTrade call.env correction trade).withConfirmations confirmations).effectQuantity =
      trade.effectQuantity + (correctionEffect call.env correction trade).quantityDelta := by
    simp [Trade.effectQuantity, correctedTrade, Trade.withConfirmations, Trade.moved, Trade.withEffects]
  have hdelta : (correctionEffect call.env correction trade).quantityDelta ≠ 0 := by
    cases hs : trade.side with
    | buy => simp [correctionEffect, hs, hpositive.ne']
    | sell => simp [correctionEffect, hs, hpositive.ne']
  rw [hvaluation, ← heffects trade.holding, summedEffects, summedEffects, htrades,
    Table.sum_put_of_some happrovable.held, if_pos rfl, if_pos hholding, hquantity]
  intro hsame
  exact hdelta (by linarith)

end Approval

theorem Bookkept.step (hkept : Bookkept b) (op : BookOp) : Bookkept (bookStep b op) := by
  cases op with
  | fill call =>
    rcases commitState_cases (processSimulatedFill call.env call.order call.executionId call.quantity call.price
      call.fee call.executedAt) b with ⟨b', hok, hstep⟩ | ⟨-, hstep⟩
    · rw [bookStep, hstep]
      rcases processSimulatedFill_cases hok with rfl | ⟨trade, hfill⟩
      · exact hkept
      · exact hkept.fill hfill
    · rw [bookStep, hstep]
      exact hkept
  | correct call =>
    by_cases happroves : Approves b (.correct call)
    · obtain ⟨_, trade, id, actorRef, correction, heq, happrovable⟩ := happroves
      cases heq
      exact hkept.approved happrovable
    · obtain ⟨htrades, hvaluation⟩ := correctionStep_unapproved happroves
      refine ⟨?_, ?_, ?_, ?_⟩
      · rw [bookStep, htrades, hvaluation]
        exact hkept.traded
      · rw [bookStep, hvaluation]
        exact hkept.kept
      · rw [bookStep, htrades, hvaluation]
        exact hkept.unbooked
      · rw [bookStep, hvaluation]
        exact hkept.basis

theorem Bookkept.propagates_iff (hkept : Bookkept b) (op : BookOp) (hpropagated : Propagated b) :
    Propagated (bookStep b op) ↔ ¬Approves b op := by
  have heffects := hkept.propagated_iff.mp hpropagated
  rw [(hkept.step op).propagated_iff]
  constructor
  · rintro hafter ⟨call, trade, id, actorRef, correction, rfl, happrovable⟩
    exact summedEffects_approved hkept happrovable heffects (hafter trade.holding)
  · intro hunapproved
    cases op with
    | fill call =>
      rcases commitState_cases (processSimulatedFill call.env call.order call.executionId call.quantity call.price
        call.fee call.executedAt) b with ⟨b', hok, hstep⟩ | ⟨-, hstep⟩
      · rw [bookStep, hstep]
        rcases processSimulatedFill_cases hok with rfl | ⟨trade, hfill⟩
        · exact heffects
        · exact summedEffects_fill hkept hfill heffects
      · rw [bookStep, hstep]
        exact heffects
    | correct call =>
      obtain ⟨htrades, hvaluation⟩ := correctionStep_unapproved hunapproved
      rw [bookStep, htrades, hvaluation]
      exact heffects

def openBooks (calendars : List SettlementCalendar) (adjustments : List CostBasisAdjustment) : Books :=
  ⟨{ calendars }, { adjustments }, []⟩

theorem openBooks_kept (calendars : List SettlementCalendar) (adjustments : List CostBasisAdjustment) :
    Bookkept (openBooks calendars adjustments) where
  traded := by simp [openBooks]
  kept := ⟨by simp [openBooks], by simp [openBooks]⟩
  unbooked := by simp [openBooks, ValuationTables.Unbooked]
  basis h := by simp [openBooks, basisQuantity, ValuationTables.held, ValuationTables.heldIn]

theorem openBooks_propagated (calendars : List SettlementCalendar) (adjustments : List CostBasisAdjustment) :
    Propagated (openBooks calendars adjustments) :=
  (openBooks_kept calendars adjustments).propagated_iff.mpr fun h => by
    simp [openBooks, summedEffects, ValuationTables.held, ValuationTables.heldIn]

theorem corrections_propagate_iff (calendars : List SettlementCalendar) (adjustments : List CostBasisAdjustment)
    (ops : List BookOp) :
    (∀ before after, ops = before ++ after → Propagated (before.foldl bookStep (openBooks calendars adjustments))) ↔
      Throughout bookStep (fun b op => ¬Approves b op) ops (openBooks calendars adjustments) :=
  always_iff_throughout (fun _ op hkept => hkept.step op) (fun _ op hkept => hkept.propagates_iff op)
    (openBooks_kept calendars adjustments) (openBooks_propagated calendars adjustments)

def buyTen : BookOp := .fill ⟨deskEnv, deskOrder .buy, "execution", 10, 100, 1, deskEnv.now⟩

theorem reversed_purchase_reported :
    ¬∀ calendars adjustments (ops before after : List BookOp), ops = before ++ after →
      Propagated (before.foldl bookStep (openBooks calendars adjustments)) := by
  intro hclaim
  have hpropagated := hclaim seededCalendars [] [buyTen, .correct requestReversal, .correct approveReversal] _ []
    (List.append_nil _).symm
  have hbooks : summedEffects ([buyTen, .correct requestReversal, .correct approveReversal].foldl bookStep
        (openBooks seededCalendars [])).postTrade.trades ⟨"default", "sim:alice", "BTC-USD"⟩ = 0 ∧
      ([buyTen, .correct requestReversal, .correct approveReversal].foldl bookStep
        (openBooks seededCalendars [])).valuation.held ⟨"default", "sim:alice", "BTC-USD"⟩ = 10 := by
    decide +kernel
  have hsame := (hpropagated.agree ⟨"default", "sim:alice", "BTC-USD"⟩).1
  rw [hbooks.1, hbooks.2] at hsame
  exact absurd hsame (by decide)

end ValuationReconciler

end Beyvra
