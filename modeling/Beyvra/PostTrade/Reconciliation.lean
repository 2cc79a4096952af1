import Beyvra.Trading.FinishedOrders

namespace Beyvra

open Relational

def ReconciliationStatus.value : ReconciliationStatus → String
  | .pass => "PASS"
  | .fail => "FAIL"

structure PostTradeReport where
  status : ReconciliationStatus
  checks : List (PostTradeCheck × Nat)
  violations : List PostTradeViolation
  runId : Option Uuid := none
  deriving DecidableEq

namespace PositionReconciler

def checks : List PostTradeCheck :=
  [.fillWithoutTrade, .tradeWithoutFill, .tradeWithoutPositionEffect, .positionWithoutTradeBasis,
    .quantityMismatch, .sideMismatch, .instrumentMismatch, .accountMismatch, .duplicatePositionEffect,
    .reservationNotReleased, .settlementObligationMissing, .settlementInstructionMissing,
    .confirmationMissing, .auditGap, .outboxGap]

def tenantTrades (tenantRef : String) (db : Database) : List (String × Trade) :=
  db.postTrade.trades.rows.filter fun p => p.2.tenantRef = tenantRef

def tenantFills (tenantRef : String) (db : Database) : List (String × SimulatedTrade) :=
  db.trading.trades.rows.filter fun p =>
    (db.trading.orders.find p.2.orderId).any (·.tenantRef = tenantRef)

def report (p : Prop) [Decidable p] (check : PostTradeCheck) : List PostTradeCheck :=
  if p then [check] else []

def fillChecks (trade : Trade) (fill : Option SimulatedTrade) : List PostTradeCheck :=
  match fill with
  | none => [.tradeWithoutFill]
  | some fill => report (fill.quantity ≠ trade.quantity) .quantityMismatch

def auditExists (tenantRef tradeId : String) (audits : List PostTradeAudit) : Bool :=
  audits.any fun a => a.tenantRef = tenantRef && a.resourceType = "trade" && a.resourceRef = tradeId

-- The sum over no allocations is NULL, which differs from every quantity.
def tradeChecks (tenantRef : String) (db : Database) (tradeId : String) (trade : Trade) :
    List PostTradeCheck :=
  fillChecks trade (db.trading.trades.find tradeId) ++
  report ((trade.positionEffects.filter (·.effectType = .trade)).length ≠ 1) .tradeWithoutPositionEffect ++
  report (trade.allocations = [] ∨ (trade.allocations.map (·.allocationQuantity)).sum ≠ trade.quantity)
    .allocationMismatch ++
  report (trade.obligations.length ≠ 3) .settlementObligationMissing ++
  report (trade.settlementInstruction = none) .settlementInstructionMissing ++
  report (trade.confirmations = []) .confirmationMissing ++
  report (auditExists tenantRef tradeId db.postTrade.audits = false) .auditGap

def tradeViolations (tenantRef : String) (db : Database) : List PostTradeViolation :=
  (tenantTrades tenantRef db).flatMap fun p =>
    (tradeChecks tenantRef db p.1 p.2).map fun check => ⟨check, .trade p.1⟩

def fillViolations (tenantRef : String) (db : Database) : List PostTradeViolation :=
  ((tenantFills tenantRef db).filter fun p => db.postTrade.trades.find p.1 |>.isNone).map fun p =>
    ⟨.fillWithoutTrade, .execution p.1⟩

-- A reservation is stored under the id of its order.
def activeForFinal (tenantRef : String) (db : Database) : List (Uuid × SimulatedReservation) :=
  db.trading.reservations.rows.filter fun p =>
    (db.trading.accounts.find p.2.account).any (·.tenantRef = tenantRef) && p.2.state = .active &&
      p.1 ∈ (tenantTrades tenantRef db).map (·.2.orderId)

def violations (tenantRef : String) (db : Database) : List PostTradeViolation :=
  tradeViolations tenantRef db ++ fillViolations tenantRef db ++
    (activeForFinal tenantRef db).map fun p => ⟨.reservationNotReleased, .reservation p.1⟩

def evaluate (tenantRef : String) (db : Database) : PostTradeReport :=
  let violations := violations tenantRef db
  { status := if violations = [] then .pass else .fail
    checks := checks.map fun name => (name, (violations.filter (·.check = name)).length)
    violations }

def record (env : Env) (started : Timestamp) (tenantRef : String) (report : PostTradeReport)
    (first : Option Trade) (b : Books) : Books :=
  let runId := env.uuid4 "PostTradeReconciliationRun"
  let run : PostTradeReconciliationRun :=
    { tenantRef, startedAt := started, completedAt := env.now, status := report.status
      checks := report.checks, violations := report.violations }
  let b := { b with postTrade.reconciliationRuns := b.postTrade.reconciliationRuns.put runId run }
  let b := b.audit env tenantRef "post_trade.reconciliation.run" "post_trade_reconciliation" runId
  match first with
  | none => b
  | some trade => b.publish env trade "post_trade.reconciliation.completed.v1"
    [("run_id", .str runId), ("status", .str report.status.value)]

def run (env : Env) (started : Timestamp) (tenantRef : String) (persist : Bool) (db : Database) :
    PostTradeReport × Database :=
  let report := evaluate tenantRef db
  if persist then
    ({ report with runId := some (env.uuid4 "PostTradeReconciliationRun") },
      db.withBooks (record env started tenantRef report
        ((tenantTrades tenantRef db).head?.map Prod.snd) db.books))
  else (report, db)

def requiredObligations : OrderSide → List ObligationType
  | .buy => [.cashDebit, .assetReceipt, .feeDebit]
  | .sell => [.cashCredit, .assetDelivery, .feeDebit]

def tradeEffects (trade : Trade) : List TradePositionEffect :=
  trade.positionEffects.filter (·.effectType = .trade)

-- What each check that is named after a trade is meant to find.
def Violated (db : Database) (tradeId : String) (trade : Trade) : PostTradeCheck → Prop
  | .tradeWithoutFill => db.trading.trades.find tradeId = none
  | .quantityMismatch => ∃ fill, db.trading.trades.find tradeId = some fill ∧ fill.quantity ≠ trade.quantity
  | .sideMismatch => ∃ fill, db.trading.trades.find tradeId = some fill ∧ fill.side ≠ trade.side
  | .instrumentMismatch =>
    ∃ fill, db.trading.trades.find tradeId = some fill ∧ fill.instrumentId ≠ trade.instrumentId
  | .accountMismatch => ∃ fill order, db.trading.trades.find tradeId = some fill ∧
    db.trading.orders.find fill.orderId = some order ∧ order.accountRef ≠ trade.accountRef
  | .tradeWithoutPositionEffect => tradeEffects trade = []
  | .duplicatePositionEffect => 2 ≤ (tradeEffects trade).length
  | .settlementObligationMissing =>
    ∃ kind ∈ requiredObligations trade.side, ∀ o ∈ trade.obligations, o.obligationType ≠ kind
  | .settlementInstructionMissing => trade.settlementInstruction = none
  | .confirmationMissing => trade.confirmations = []
  | .auditGap => ¬Audited db.postTrade.audits trade.tenantRef tradeId
  | _ => False

structure TenantTrade (tenantRef : String) (db : Database) (tradeId : String) (trade : Trade) : Prop where
  found : db.postTrade.trades.find tradeId = some trade
  tenant : trade.tenantRef = tenantRef

structure Reports (report : PostTradeReport) (check : PostTradeCheck) : Prop where
  status : report.status = .fail
  counted : ∃ n, (check, n) ∈ report.checks ∧ 0 < n

structure Complete (tenantRef : String) (db : Database) (report : PostTradeReport) : Prop where
  trades : ∀ tradeId trade check, TenantTrade tenantRef db tradeId trade →
    Violated db tradeId trade check → Reports report check
  fills : ∀ executionId fill order, db.trading.trades.find executionId = some fill →
    db.trading.orders.find fill.orderId = some order → order.tenantRef = tenantRef →
    db.postTrade.trades.find executionId = none → Reports report .fillWithoutTrade

def blind : List PostTradeCheck :=
  [.sideMismatch, .instrumentMismatch, .accountMismatch, .duplicatePositionEffect]

-- No trade shows a difference that run never looks at, and none hides a lost obligation behind its count.
structure Visible (tenantRef : String) (db : Database) : Prop where
  agree : ∀ tradeId trade, TenantTrade tenantRef db tradeId trade →
    ∀ check ∈ blind, ¬Violated db tradeId trade check
  counted : (∃ tradeId trade, TenantTrade tenantRef db tradeId trade ∧
      Violated db tradeId trade .settlementObligationMissing) →
    ∃ tradeId trade, TenantTrade tenantRef db tradeId trade ∧ trade.obligations.length ≠ 3

def ReservedAfterTrade (tenantRef : String) (db : Database) : Prop :=
  ∃ tradeId trade r, TenantTrade tenantRef db tradeId trade ∧
    db.trading.reservations.find trade.orderId = some r ∧ r.state = .active

section Evaluate

variable {tenantRef tradeId : String} {db : Database} {trade : Trade} {check check' : PostTradeCheck}
  {v : PostTradeViolation}

theorem mem_report {p : Prop} [Decidable p] : check' ∈ report p check ↔ p ∧ check' = check := by
  unfold report
  split
  · rename_i hp
    simp [hp]
  · rename_i hp
    simp [hp]

theorem mem_fillChecks {fill : Option SimulatedTrade} : check ∈ fillChecks trade fill ↔
    (fill = none ∧ check = .tradeWithoutFill) ∨
      (∃ row, fill = some row ∧ row.quantity ≠ trade.quantity) ∧ check = .quantityMismatch := by
  cases fill with
  | none => simp [fillChecks]
  | some row => simp [fillChecks, mem_report]

theorem auditExists_iff {audits : List PostTradeAudit} :
    auditExists tenantRef tradeId audits = true ↔ Audited audits tenantRef tradeId := by
  simp [auditExists, Audited, and_assoc]

theorem mem_tradeViolations : v ∈ tradeViolations tenantRef db ↔
    ∃ tradeId trade, TenantTrade tenantRef db tradeId trade ∧
      v.check ∈ tradeChecks tenantRef db tradeId trade ∧ v.subject = .trade tradeId := by
  simp only [tradeViolations, tenantTrades, List.mem_flatMap, List.mem_filter, List.mem_map, Prod.exists,
    Table.mem_rows_iff, decide_eq_true_eq]
  constructor
  · rintro ⟨tradeId, trade, ⟨hfind, htenant⟩, check, hcheck, rfl⟩
    exact ⟨tradeId, trade, ⟨hfind, htenant⟩, hcheck, rfl⟩
  · rintro ⟨tradeId, trade, ⟨hfind, htenant⟩, hcheck, hsubject⟩
    exact ⟨tradeId, trade, ⟨hfind, htenant⟩, v.check, hcheck, by rw [← hsubject]⟩

theorem mem_fillViolations : v ∈ fillViolations tenantRef db ↔
    ∃ executionId fill order, db.trading.trades.find executionId = some fill ∧
      db.trading.orders.find fill.orderId = some order ∧ order.tenantRef = tenantRef ∧
      db.postTrade.trades.find executionId = none ∧ v = ⟨.fillWithoutTrade, .execution executionId⟩ := by
  simp only [fillViolations, tenantFills, List.mem_map, List.mem_filter, Prod.exists, Table.mem_rows_iff,
    Option.isNone_iff_eq_none, Option.any_eq_true, decide_eq_true_eq]
  constructor
  · rintro ⟨executionId, fill, ⟨⟨hfind, order, horder, htenant⟩, hnone⟩, rfl⟩
    exact ⟨executionId, fill, order, hfind, horder, htenant, hnone, rfl⟩
  · rintro ⟨executionId, fill, order, hfind, horder, htenant, hnone, rfl⟩
    exact ⟨executionId, fill, ⟨⟨hfind, order, horder, htenant⟩, hnone⟩, rfl⟩

theorem mem_violations : v ∈ violations tenantRef db ↔
    v ∈ tradeViolations tenantRef db ∨ v ∈ fillViolations tenantRef db ∨
      ∃ p ∈ activeForFinal tenantRef db, v = ⟨.reservationNotReleased, .reservation p.1⟩ := by
  simp only [violations, List.mem_append, List.mem_map, or_assoc, eq_comm]

-- The record that a persistent run keeps adds nothing to what it reports.
theorem run_report (env : Env) (started : Timestamp) (tenantRef : String) (persist : Bool)
    (db : Database) : ∃ runId, (run env started tenantRef persist db).1 =
      { evaluate tenantRef db with runId } := by
  cases persist with
  | true => exact ⟨_, rfl⟩
  | false => exact ⟨none, rfl⟩

theorem reports_iff {runId : Option Uuid} :
    Reports { evaluate tenantRef db with runId } check ↔
    check ∈ checks ∧ ∃ v ∈ violations tenantRef db, v.check = check := by
  constructor
  · rintro ⟨-, n, hmem, hn⟩
    obtain ⟨name, hname, heq⟩ := List.mem_map.mp hmem
    obtain ⟨rfl, rfl⟩ := Prod.mk.inj heq
    obtain ⟨v, hv⟩ := List.exists_mem_of_length_pos hn
    obtain ⟨hv, hcheck⟩ := List.mem_filter.mp hv
    exact ⟨hname, v, hv, by simpa using hcheck⟩
  · rintro ⟨hname, v, hv, rfl⟩
    refine ⟨?_, _, List.mem_map.mpr ⟨v.check, hname, rfl⟩, ?_⟩
    · exact if_neg (List.ne_nil_of_mem hv)
    · exact List.length_pos_of_mem (List.mem_filter.mpr ⟨hv, decide_eq_true rfl⟩)

theorem reports_trade_iff {runId : Option Uuid} (hfill : check ≠ .fillWithoutTrade)
    (hactive : check ≠ .reservationNotReleased) :
    Reports { evaluate tenantRef db with runId } check ↔ check ∈ checks ∧
      ∃ tradeId trade, TenantTrade tenantRef db tradeId trade ∧
        check ∈ tradeChecks tenantRef db tradeId trade := by
  rw [reports_iff]
  refine and_congr_right fun _ => ?_
  constructor
  · rintro ⟨v, hv, rfl⟩
    rcases mem_violations.mp hv with htrade | hrest | ⟨p, -, rfl⟩
    · obtain ⟨tradeId, trade, hheld, hcheck, -⟩ := mem_tradeViolations.mp htrade
      exact ⟨tradeId, trade, hheld, hcheck⟩
    · obtain ⟨_, _, _, _, _, _, _, rfl⟩ := mem_fillViolations.mp hrest
      exact absurd rfl hfill
    · exact absurd rfl hactive
  · rintro ⟨tradeId, trade, hheld, hcheck⟩
    exact ⟨⟨check, .trade tradeId⟩, mem_violations.mpr (.inl (mem_tradeViolations.mpr
      ⟨tradeId, trade, hheld, hcheck, rfl⟩)), rfl⟩

theorem mem_tradeChecks : check ∈ tradeChecks tenantRef db tradeId trade ↔
    check ∈ fillChecks trade (db.trading.trades.find tradeId) ∨
    ((tradeEffects trade).length ≠ 1 ∧ check = .tradeWithoutPositionEffect) ∨
    ((trade.allocations = [] ∨ (trade.allocations.map (·.allocationQuantity)).sum ≠ trade.quantity) ∧
      check = .allocationMismatch) ∨
    (trade.obligations.length ≠ 3 ∧ check = .settlementObligationMissing) ∨
    (trade.settlementInstruction = none ∧ check = .settlementInstructionMissing) ∨
    (trade.confirmations = [] ∧ check = .confirmationMissing) ∨
    (¬Audited db.postTrade.audits tenantRef tradeId ∧ check = .auditGap) := by
  simp only [tradeChecks, List.mem_append, mem_report, or_assoc, ← auditExists_iff, Bool.not_eq_true,
    tradeEffects]

theorem blind_unreported (h : check ∈ blind) : check ∉ tradeChecks tenantRef db tradeId trade := by
  rw [mem_tradeChecks, mem_fillChecks]
  simp only [blind, List.mem_cons, List.not_mem_nil, or_false] at h
  rcases h with rfl | rfl | rfl | rfl <;> simp

theorem violated_reported (hheld : TenantTrade tenantRef db tradeId trade) (hsees : check ∉ blind)
    (hcount : check ≠ .settlementObligationMissing) (h : Violated db tradeId trade check) :
    check ∈ tradeChecks tenantRef db tradeId trade ∧ check ∈ checks ∧ check ≠ .fillWithoutTrade ∧
      check ≠ .reservationNotReleased := by
  rw [mem_tradeChecks, mem_fillChecks]
  cases check with
  | tradeWithoutFill => exact ⟨.inl (.inl ⟨h, rfl⟩), by decide, by decide, by decide⟩
  | quantityMismatch => exact ⟨.inl (.inr ⟨h, rfl⟩), by decide, by decide, by decide⟩
  | tradeWithoutPositionEffect =>
    have hnone : (tradeEffects trade).length ≠ 1 := by
      rw [show tradeEffects trade = [] from h]
      decide
    exact ⟨.inr (.inl ⟨hnone, rfl⟩), by decide, by decide, by decide⟩
  | settlementInstructionMissing =>
    exact ⟨.inr (.inr (.inr (.inr (.inl ⟨h, rfl⟩)))), by decide, by decide, by decide⟩
  | confirmationMissing =>
    exact ⟨.inr (.inr (.inr (.inr (.inr (.inl ⟨h, rfl⟩))))), by decide, by decide, by decide⟩
  | auditGap =>
    have hgap : ¬Audited db.postTrade.audits tenantRef tradeId := hheld.tenant ▸ h
    exact ⟨.inr (.inr (.inr (.inr (.inr (.inr ⟨hgap, rfl⟩))))), by decide, by decide, by decide⟩
  | settlementObligationMissing => exact absurd rfl hcount
  | sideMismatch => exact absurd (by decide) hsees
  | instrumentMismatch => exact absurd (by decide) hsees
  | accountMismatch => exact absurd (by decide) hsees
  | duplicatePositionEffect => exact absurd (by decide) hsees
  | fillWithoutTrade => exact h.elim
  | positionWithoutTradeBasis => exact h.elim
  | reservationNotReleased => exact h.elim
  | outboxGap => exact h.elim
  | allocationMismatch => exact h.elim

theorem obligation_reports_iff {runId : Option Uuid} :
    Reports { evaluate tenantRef db with runId } .settlementObligationMissing ↔
    ∃ tradeId trade, TenantTrade tenantRef db tradeId trade ∧ trade.obligations.length ≠ 3 := by
  rw [reports_trade_iff (by decide) (by decide), and_iff_right (by decide)]
  simp only [mem_tradeChecks, mem_fillChecks, reduceCtorEq, and_false, false_or, or_false, and_true]

theorem complete_iff_visible (env : Env) (started : Timestamp) (tenantRef : String) (persist : Bool)
    (db : Database) :
    Complete tenantRef db (run env started tenantRef persist db).1 ↔ Visible tenantRef db := by
  obtain ⟨runId, hrun⟩ := run_report env started tenantRef persist db
  rw [hrun]
  constructor
  · intro hcomplete
    refine ⟨?_, ?_⟩
    · intro tradeId trade hheld check hblind hviolated
      have hkinds : check ≠ .fillWithoutTrade ∧ check ≠ .reservationNotReleased := by
        refine ⟨?_, ?_⟩ <;> rintro rfl <;> exact absurd hblind (by decide)
      have hreports := hcomplete.trades tradeId trade check hheld hviolated
      obtain ⟨-, _, _, -, hcheck⟩ := (reports_trade_iff hkinds.1 hkinds.2).mp hreports
      exact blind_unreported hblind hcheck
    · rintro ⟨tradeId, trade, hheld, hviolated⟩
      exact obligation_reports_iff.mp (hcomplete.trades tradeId trade _ hheld hviolated)
  · intro hvisible
    refine ⟨?_, ?_⟩
    · intro tradeId trade check hheld hviolated
      by_cases hblind : check ∈ blind
      · exact absurd hviolated (hvisible.agree tradeId trade hheld check hblind)
      · by_cases hcount : check = .settlementObligationMissing
        · subst hcount
          exact obligation_reports_iff.mpr (hvisible.counted ⟨tradeId, trade, hheld, hviolated⟩)
        · obtain ⟨hcheck, hname, hfill, hactive⟩ := violated_reported hheld hblind hcount hviolated
          exact (reports_trade_iff hfill hactive).mpr ⟨hname, tradeId, trade, hheld, hcheck⟩
    · intro executionId fill order hfind horder htenant hnone
      exact reports_iff.mpr ⟨by decide, _, mem_violations.mpr (.inr (.inl (mem_fillViolations.mpr
        ⟨executionId, fill, order, hfind, horder, htenant, hnone, rfl⟩))), rfl⟩

end Evaluate

section Reachable

-- What the settlement of a fill leaves for each trade, as the checks of run ask for it.
structure Reconciled (l : Ledger) (tradeId : String) (trade : Trade) : Prop where
  tenant : trade.tenantRef = defaultTenant
  fill : ∃ fill, l.trading.trades.find tradeId = some fill ∧ fill.quantity = trade.quantity
  effects : (tradeEffects trade).length = 1
  allocated : trade.allocations ≠ [] ∧ (trade.allocations.map (·.allocationQuantity)).sum = trade.quantity
  obligations : trade.obligations.length = 3
  instructed : trade.settlementInstruction ≠ none
  confirmed : trade.confirmations ≠ []
  audited : Audited l.audits trade.tenantRef tradeId

structure AllReconciled (l : Ledger) : Prop where
  booked : ∀ tradeId trade, l.booked.find tradeId = some trade → Reconciled l tradeId trade
  filled : ∀ executionId fill, l.trading.trades.find executionId = some fill →
    ∃ trade, l.booked.find executionId = some trade

structure RowsKept (l l' : Ledger) : Prop where
  booked : l'.booked = l.booked
  audits : l'.audits = l.audits
  trades : l'.trading.trades = l.trading.trades

variable {F : Regime} {l l' : Ledger} {o : TradingOrder} {r : SimulatedReservation} {a : SimulatedAccount}
  {e : SimulatedExecution} {now : Timestamp} {trade : Trade}

theorem Reconciled.mono {tradeId : String} (h : Reconciled l tradeId trade)
    (htrades : l'.trading.trades.find tradeId = l.trading.trades.find tradeId)
    (haudits : l.audits <+: l'.audits) : Reconciled l' tradeId trade := by
  obtain ⟨a, ha, hkeyed⟩ := h.audited
  exact ⟨h.tenant, htrades ▸ h.fill, h.effects, h.allocated, h.obligations, h.instructed, h.confirmed, a,
    haudits.subset ha, hkeyed⟩

theorem AllReconciled.kept (h : AllReconciled l) (hk : RowsKept l l') : AllReconciled l' := by
  refine ⟨?_, ?_⟩
  · intro tradeId trade hfind
    rw [hk.booked] at hfind
    exact (h.booked tradeId trade hfind).mono (by rw [hk.trades]) (by rw [hk.audits])
  · intro executionId fill hfind
    rw [hk.trades] at hfind
    rw [hk.booked]
    exact h.filled executionId fill hfind

theorem reconciled_of_recorded {fee : ℚ} (htenant : o.tenantRef = defaultTenant)
    (h : TradeRecorded o e.executionId e.quantity e.price fee trade)
    (hfill : ∃ fill, l.trading.trades.find e.executionId = some fill ∧ fill.quantity = e.quantity)
    (haudited : Audited l.audits o.tenantRef e.executionId) : Reconciled l e.executionId trade := by
  obtain ⟨env, executedAt, instruction, -, rfl⟩ := h.settled
  refine ⟨htenant, hfill, rfl, ⟨List.cons_ne_nil _ _, List.sum_singleton⟩, ?_, Option.some_ne_none _,
    List.cons_ne_nil _ _, haudited⟩
  change (obligationsOf _ fee).length = 3
  unfold obligationsOf
  rfl

theorem AllReconciled.fill (h : AllReconciled l) (htenant : o.tenantRef = defaultTenant)
    (hbooks : BooksMoved l l' o e) (htrading : l'.trading = settledTables l.trading o r a e now) :
    AllReconciled l' := by
  obtain ⟨row, hrecorded, hbooked⟩ := hbooks.recorded
  have htrades : l'.trading.trades = l.trading.trades.put e.executionId
      { orderId := o.id, instrumentId := o.instrumentId, side := o.side, quantity := e.quantity
        price := e.price, fee := (settlementOf o e).fee, executedAt := now } := by
    rw [htrading]
    rfl
  refine ⟨?_, ?_⟩
  · intro tradeId trade hfind
    rw [hbooked] at hfind
    rcases Table.find_put_cases hfind with ⟨rfl, rfl⟩ | ⟨hne, hold⟩
    · refine reconciled_of_recorded htenant hrecorded ?_ hbooks.audited
      rw [htrades, Table.find_put_self]
      exact ⟨_, rfl, rfl⟩
    · refine (h.booked tradeId trade hold).mono ?_ hbooks.audits
      rw [htrades, Table.find_put_of_ne _ _ hne]
  · intro executionId fill hfind
    rw [htrades] at hfind
    rcases Table.find_put_cases hfind with ⟨rfl, rfl⟩ | ⟨hne, hold⟩
    · exact ⟨row, by rw [hbooked, Table.find_put_self]⟩
    · obtain ⟨trade, htrade⟩ := h.filled executionId fill hold
      exact ⟨trade, by rw [hbooked, Table.find_put_of_ne _ _ hne, htrade]⟩

theorem effect_reconciled (hinv : Inv l) (h : AllReconciled l) (he : Effect F l l') : AllReconciled l' := by
  cases he with
  | enrolled => exact h.kept ⟨rfl, rfl, rfl⟩
  | identified => exact h.kept ⟨rfl, rfl, rfl⟩
  | placed => exact h.kept ⟨rfl, rfl, rfl⟩
  | moved => exact h.kept ⟨rfl, rfl, rfl⟩
  | closed => exact h.kept ⟨rfl, rfl, rfl⟩
  | filled id o r a e now event l' ho hr ha hnone hf hF hbooks htrading hprocessed =>
    exact h.fill (hinv.backing ho hr).tenant hbooks htrading
  | invalidated env change =>
    exact h.kept ⟨rfl, rfl, (relabelled_invalidate env change l.trading).trades⟩
  | consumed => exact h.kept ⟨rfl, rfl, rfl⟩

theorem effects_reconciled (hinv : Inv l) (h : AllReconciled l) (he : Effects F l l') :
    AllReconciled l' := by
  induction he with
  | refl => exact h
  | tail hbefore hstep ih => exact effect_reconciled (hinv.effects hbefore) ih hstep

theorem initial_reconciled {db : Database} (h : Initial db) : AllReconciled db.ledger := by
  refine ⟨?_, ?_⟩
  · intro tradeId trade hfind
    rw [show db.ledger.booked = Table.empty from h.booked] at hfind
    cases hfind
  · intro executionId fill hfind
    rw [show db.ledger.trading.trades = Table.empty from h.trades] at hfind
    cases hfind

end Reachable

section Sound

variable {tenantRef : String} {db : Database}

theorem tradeViolations_nil (h : AllReconciled db.ledger) : tradeViolations tenantRef db = [] := by
  rw [List.eq_nil_iff_forall_not_mem]
  intro v hv
  obtain ⟨tradeId, trade, hheld, hcheck, -⟩ := mem_tradeViolations.mp hv
  have hrow := h.booked tradeId trade hheld.found
  obtain ⟨fill, hfill, hquantity⟩ := hrow.fill
  have haudited : Audited db.postTrade.audits tenantRef tradeId := hheld.tenant ▸ hrow.audited
  rw [mem_tradeChecks, mem_fillChecks, show db.trading.trades.find tradeId = some fill from hfill] at hcheck
  simp [hquantity, hrow.effects, hrow.allocated, hrow.obligations, hrow.instructed, hrow.confirmed,
    haudited] at hcheck

theorem fillViolations_nil (h : AllReconciled db.ledger) : fillViolations tenantRef db = [] := by
  rw [List.eq_nil_iff_forall_not_mem]
  intro v hv
  obtain ⟨executionId, fill, _, hfind, -, -, hnone, -⟩ := mem_fillViolations.mp hv
  obtain ⟨trade, htrade⟩ := h.filled executionId fill hfind
  rw [show db.postTrade.trades.find executionId = some trade from htrade] at hnone
  cases hnone

theorem mem_activeForFinal (hinv : Inv db.ledger) (h : AllReconciled db.ledger) {id : Uuid}
    {r : SimulatedReservation} : (id, r) ∈ activeForFinal tenantRef db ↔
      ∃ tradeId trade, TenantTrade tenantRef db tradeId trade ∧ trade.orderId = id ∧
        db.trading.reservations.find id = some r ∧ r.state = .active := by
  simp only [activeForFinal, List.mem_filter, Table.mem_rows_iff, Bool.and_eq_true, decide_eq_true_eq,
    Option.any_eq_true]
  simp only [tenantTrades, List.mem_map, List.mem_filter, Prod.exists, Table.mem_rows_iff,
    decide_eq_true_eq]
  constructor
  · rintro ⟨hfind, ⟨-, hactive⟩, tradeId, trade, ⟨hrow, htenant⟩, horder⟩
    exact ⟨tradeId, trade, ⟨hrow, htenant⟩, horder, hfind, hactive⟩
  · rintro ⟨tradeId, trade, hheld, horder, hfind, hactive⟩
    obtain ⟨o, ho⟩ := hinv.owned id r hfind
    obtain ⟨a, ha, -⟩ := hinv.funded id o r ho hfind
    have hb := hinv.backing ho hfind
    have htenant : a.tenantRef = tenantRef := by
      rw [(hinv.solvent _ a ha).tenant, ← hheld.tenant, (h.booked tradeId trade hheld.found).tenant]
    refine ⟨hfind, ⟨⟨a, ?_, htenant⟩, hactive⟩, tradeId, trade, ⟨hheld.found, hheld.tenant⟩, horder⟩
    rw [hb.account]
    exact ha

theorem status_pass_iff (hinv : Inv db.ledger) (h : AllReconciled db.ledger) :
    (evaluate tenantRef db).status = .pass ↔ ¬ReservedAfterTrade tenantRef db := by
  have hpass : (evaluate tenantRef db).status = .pass ↔ violations tenantRef db = [] := by
    change (if violations tenantRef db = [] then ReconciliationStatus.pass else .fail) = .pass ↔ _
    split <;> simp_all
  rw [hpass]
  unfold violations
  rw [tradeViolations_nil h, fillViolations_nil h, List.nil_append, List.nil_append, List.map_eq_nil_iff,
    List.eq_nil_iff_forall_not_mem]
  constructor
  · rintro hnone ⟨tradeId, trade, r, hheld, hfind, hactive⟩
    exact hnone _ ((mem_activeForFinal hinv h).mpr ⟨tradeId, trade, hheld, rfl, hfind, hactive⟩)
  · rintro hnone ⟨id, r⟩ hmem
    obtain ⟨tradeId, trade, hheld, rfl, hfind, hactive⟩ := (mem_activeForFinal hinv h).mp hmem
    exact hnone ⟨tradeId, trade, r, hheld, hfind, hactive⟩

end Sound

end PositionReconciler

open PositionReconciler in
theorem position_reconciler_iff {start db : Database} {allowed : Database → Call → Prop}
    (hinit : Initial start) (hrun : Reaches step allowed start db) :
    (∀ env started tenantRef persist, (run env started tenantRef persist db).1.status = .pass ↔
      ¬ReservedAfterTrade tenantRef db) ∧
    ∀ env started tenantRef persist state,
      Complete tenantRef state (run env started tenantRef persist state).1 ↔ Visible tenantRef state := by
  have hinv := hinit.inv.run hrun
  have hreconciled := effects_reconciled hinit.inv (initial_reconciled hinit)
    (hinit.inv.run_effects (F := .any) (fun d c _ => meets_any d c) hrun)
  refine ⟨?_, complete_iff_visible⟩
  intro env started tenantRef persist
  obtain ⟨runId, hreport⟩ := run_report env started tenantRef persist db
  rw [hreport]
  exact status_pass_iff hinv hreconciled

def deskDay : Env := fixtureEnv [("BTC-USD", 100)]

def filledTen : Database := step (step freshDatabase createTen) (fillTen 100)

theorem position_reconciler_of_filled : ¬PositionReconciler.ReservedAfterTrade "default" filledTen := by
  have hrun : Reaches step (fun _ _ => True) freshDatabase filledTen :=
    show Reaches step (fun _ _ => True) freshDatabase ([createTen, fillTen 100].foldl step freshDatabase) from
      .of_foldl fun _ _ _ => trivial
  refine ((position_reconciler_iff freshDatabase_initial hrun).1 deskDay seedTime "default" false).mp ?_
  decide +kernel

def fillPart : Call :=
  ⟨deskDay, .execute "TradingOrder" { executionId := "execution", quantity := 4, price := 100 }⟩

def partlyFilled : Database := step (step freshDatabase createTen) fillPart

def flipSide (fill : SimulatedTrade) : SimulatedTrade := { fill with side := .sell }

def sideFlipped : Database :=
  { filledTen with trading.trades := filledTen.trading.trades.mapRows fun _ fill => flipSide fill }

open PositionReconciler in
theorem reconciler_misjudges :
    ¬((∀ start db, Initial start → Reaches step (fun _ _ => True) start db →
        (run deskDay seedTime "default" false db).1.status = .pass) ∧
      ∀ db, Complete "default" db (run deskDay seedTime "default" false db).1) ∧
    (run deskDay seedTime "default" false partlyFilled).1.status = .fail ∧
    (run deskDay seedTime "default" false sideFlipped).1.status = .pass ∧
    ¬Complete "default" sideFlipped (run deskDay seedTime "default" false sideFlipped).1 := by
  have hpart : (run deskDay seedTime "default" false partlyFilled).1.status = .fail := by
    decide +kernel
  have hflipped : (run deskDay seedTime "default" false sideFlipped).1.status = .pass := by
    decide +kernel
  have hsides : (sideFlipped.trading.trades.find "execution").map (·.side) = some .sell ∧
      (sideFlipped.postTrade.trades.find "execution").map (fun t => (t.side, t.tenantRef)) =
        some (.buy, "default") := by
    decide +kernel
  have hincomplete : ¬Complete "default" sideFlipped
      (run deskDay seedTime "default" false sideFlipped).1 := by
    intro hcomplete
    obtain ⟨fill, hfill, hsell⟩ := Option.map_eq_some_iff.mp hsides.1
    obtain ⟨trade, htrade, hbuy⟩ := Option.map_eq_some_iff.mp hsides.2
    obtain ⟨hbuy, htenant⟩ := Prod.mk.inj hbuy
    have hreports := hcomplete.trades "execution" trade .sideMismatch ⟨htrade, htenant⟩
      ⟨fill, hfill, by rw [hsell, hbuy]; decide⟩
    rw [hreports.status] at hflipped
    cases hflipped
  refine ⟨?_, hpart, hflipped, hincomplete⟩
  rintro ⟨-, hcomplete⟩
  exact hincomplete (hcomplete sideFlipped)

end Beyvra
