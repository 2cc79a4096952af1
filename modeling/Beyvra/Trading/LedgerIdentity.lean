import Beyvra.Trading.Financial

namespace Beyvra

open Relational

namespace TradingTables

def positionSum (t : TradingTables) (ref : String) (f : SimulatedPosition → ℚ) : ℚ :=
  t.positions.sum fun key position => if key.1 = ref then f position else 0

def costBasis (t : TradingTables) (ref : String) : ℚ :=
  t.positionSum ref fun position => position.quantity * position.averagePrice

def realizedPnl (t : TradingTables) (ref : String) : ℚ := t.positionSum ref (·.realizedPnl)

end TradingTables

-- One call finds the reservations as the transactions before it left them.
structure SettleCall where
  reservations : Table Uuid SimulatedReservation
  reservationId : Uuid
  settlement : Settlement

structure SettleRun where
  tables : TradingTables
  buyFees : String → ℚ

def SettleCall.buyFee (call : SettleCall) (settled : Settled) (ref : String) : ℚ :=
  if settled.account.accountRef = ref ∧ call.settlement.side = .buy then call.settlement.fee else 0

def SettleRun.settle (run : SettleRun) (call : SettleCall) : SettleRun :=
  match settleTrade call.reservationId call.settlement
    { run.tables with reservations := call.reservations } with
  | .error _ => run
  | .ok (settled, tables) =>
    { tables, buyFees := fun ref => run.buyFees ref + call.buyFee settled ref }

section Sums

variable {t t' : TradingTables} {ref : String} {f : SimulatedPosition → ℚ}

theorem positionSum_put {key : String × String} {position : SimulatedPosition} (hf : f {} = 0)
    (ht : t'.positions = t.positions.put key position) (ref : String) :
    t'.positionSum ref f = t.positionSum ref f +
      if key.1 = ref then f position - f (t.positionAt key.1 key.2) else 0 := by
  have hold : t.positions.contribution (fun key position => if key.1 = ref then f position else 0) key =
      if key.1 = ref then f (t.positionAt key.1 key.2) else 0 := by
    unfold Table.contribution TradingTables.positionAt
    cases t.positions.find key <;> simp [hf]
  unfold TradingTables.positionSum
  rw [ht, Table.sum_put, hold]
  split <;> ring

end Sums

section Settlement

variable {s : Settlement} {position : SimulatedPosition}

def Settlement.charged (s : Settlement) : ℚ :=
  match s.side with
  | .buy => s.fee
  | .sell => 0

structure Sound (position : SimulatedPosition) : Prop where
  quantity : 0 ≤ position.quantity
  closed : position.quantity = 0 → position.averagePrice = 0

theorem Sound.applyTo {r : SimulatedReservation} (h : Sound position) (hq : 0 < s.quantity)
    (hg : s.guards position r = .ok ()) : Sound (s.applyTo position) := by
  have hquantity := h.quantity
  cases hs : s.side with
  | buy =>
    simp only [Settlement.applyTo, hs]
    have hpos : 0 < position.quantity + s.quantity := by linarith
    exact ⟨hpos.le, fun hzero => absurd hzero hpos.ne'⟩
  | sell =>
    have hle := ((Settlement.guards_sell hs).mp hg).1
    simp only [Settlement.applyTo, hs]
    exact ⟨sub_nonneg.mpr hle, fun hzero => if_pos hzero⟩

-- What a settlement adds to cash and cost it takes from realized profit and the fee of a buy.
theorem Settlement.applyTo_identity (balance : ℚ) (h : Sound position) (hq : 0 < s.quantity) :
    s.balanceAfter balance + ((s.applyTo position).quantity * (s.applyTo position).averagePrice -
        position.quantity * position.averagePrice) =
      balance + ((s.applyTo position).realizedPnl - position.realizedPnl) - s.charged := by
  cases hs : s.side with
  | buy =>
    have hquantity := h.quantity
    have hne : position.quantity + s.quantity ≠ 0 := by
      have hpos : 0 < position.quantity + s.quantity := by linarith
      exact hpos.ne'
    simp only [Settlement.applyTo, Settlement.balanceAfter, Settlement.charged, Settlement.debit, hs]
    rw [mul_div_cancel₀ _ hne]
    ring
  | sell =>
    simp only [Settlement.applyTo, Settlement.balanceAfter, Settlement.charged, hs]
    split
    · rename_i hzero
      have hall : s.quantity = position.quantity := by linarith
      rw [hall]
      ring
    · ring

end Settlement

structure Balanced (initial : String → ℚ) (run : SettleRun) : Prop where
  keyed : ∀ ref a, run.tables.accounts.find ref = some a → a.accountRef = ref
  sound : ∀ key position, run.tables.positions.find key = some position → Sound position
  identity : ∀ ref a, run.tables.accounts.find ref = some a →
    a.totalBalance + run.tables.costBasis ref =
      initial ref + run.tables.realizedPnl ref - run.buyFees ref

section Run

variable {initial : String → ℚ} {run : SettleRun} {call : SettleCall}

theorem Balanced.positionAt (h : Balanced initial run) (ref instrument : String) :
    Sound (run.tables.positionAt ref instrument) := by
  unfold TradingTables.positionAt
  cases hfind : run.tables.positions.find (ref, instrument) with
  | none => exact ⟨le_rfl, fun _ => rfl⟩
  | some position => exact h.sound _ position hfind

theorem Balanced.settle (h : Balanced initial run) (hq : 0 < call.settlement.quantity) :
    Balanced initial (run.settle call) := by
  unfold SettleRun.settle
  cases hsettle : settleTrade call.reservationId call.settlement
      { run.tables with reservations := call.reservations } with
  | error error => exact h
  | ok p =>
    obtain ⟨settled, t⟩ := p
    obtain ⟨reservation, account, -, ha, hguards, hsettled, ht⟩ := settleTrade_eq_ok.mp hsettle
    have hkey : account.accountRef = reservation.account := h.keyed _ account ha
    have hsound : Sound (run.tables.positionAt account.accountRef call.settlement.instrumentId) :=
      h.positionAt _ _
    have hposition : settled.position = call.settlement.applyTo
        (run.tables.positionAt account.accountRef call.settlement.instrumentId) := by
      rw [hsettled]
      rfl
    have hholder : settled.account.accountRef = reservation.account := by
      rw [hsettled]
      exact hkey
    have hbalance : settled.account.totalBalance = call.settlement.balanceAfter account.totalBalance := by
      rw [hsettled]
    have hpositions : t.positions = run.tables.positions.put
        (account.accountRef, call.settlement.instrumentId) settled.position := by rw [ht]
    have haccounts : t.accounts = run.tables.accounts.put reservation.account settled.account := by rw [ht]
    refine ⟨?_, ?_, ?_⟩
    · intro ref a' ha'
      rw [haccounts] at ha'
      rcases Table.find_put_cases ha' with ⟨rfl, rfl⟩ | ⟨_, ha''⟩
      · exact hholder
      · exact h.keyed ref a' ha''
    · intro key position hfind
      rw [hpositions] at hfind
      rcases Table.find_put_cases hfind with ⟨-, rfl⟩ | ⟨_, hfind'⟩
      · rw [hposition]
        exact hsound.applyTo hq hguards
      · exact h.sound key position hfind'
    · intro ref a' ha'
      have hcost := positionSum_put (f := fun p => p.quantity * p.averagePrice) (by simp) hpositions ref
      have hrealized := positionSum_put (f := (·.realizedPnl)) rfl hpositions ref
      change a'.totalBalance + t.costBasis ref =
        initial ref + t.realizedPnl ref - (run.buyFees ref + call.buyFee settled ref)
      rw [show t.costBasis ref = _ from hcost, show t.realizedPnl ref = _ from hrealized]
      rw [haccounts] at ha'
      rcases Table.find_put_cases ha' with ⟨rfl, rfl⟩ | ⟨hne, ha''⟩
      · have hbefore := h.identity _ account ha
        have hstep := Settlement.applyTo_identity account.totalBalance hsound hq
        have hfee : call.buyFee settled reservation.account = call.settlement.charged := by
          unfold SettleCall.buyFee Settlement.charged
          cases hs : call.settlement.side <;> simp [hholder]
        rw [if_pos hkey, if_pos hkey, hfee, hbalance, hposition]
        unfold TradingTables.costBasis TradingTables.realizedPnl at hbefore
        linarith
      · have hbefore := h.identity ref a' ha''
        have hother : account.accountRef ≠ ref := fun heq => hne (heq.symm.trans hkey)
        have hfee : call.buyFee settled ref = 0 := by
          unfold SettleCall.buyFee
          rw [hholder, ← hkey, if_neg fun hboth => hother hboth.1]
        rw [if_neg hother, if_neg hother, hfee]
        unfold TradingTables.costBasis TradingTables.realizedPnl at hbefore
        linarith

theorem Balanced.settles {calls : List SettleCall} (h : Balanced initial run)
    (hq : ∀ call ∈ calls, 0 < call.settlement.quantity) :
    Balanced initial (calls.foldl SettleRun.settle run) := by
  induction calls generalizing run with
  | nil => exact h
  | cons call calls ih =>
    exact ih (h.settle (hq call List.mem_cons_self)) fun c hmem => hq c (List.mem_cons_of_mem _ hmem)

end Run

def SettleRun.start (t : TradingTables) : SettleRun := ⟨t, fun _ => 0⟩

def initialBalance (t : TradingTables) (ref : String) : ℚ :=
  ((t.accounts.find ref).map (·.totalBalance)).getD 0

theorem ledger_identity {t : TradingTables} {calls : List SettleCall}
    (hkeyed : ∀ ref a, t.accounts.find ref = some a → a.accountRef = ref)
    (hflat : t.positions = Table.empty)
    (hpositive : ∀ call ∈ calls, 0 < call.settlement.quantity ∧ 0 < call.settlement.price) :
    let run := calls.foldl SettleRun.settle (.start t)
    (∀ ref a, run.tables.accounts.find ref = some a →
      a.totalBalance + run.tables.costBasis ref =
        initialBalance t ref + run.tables.realizedPnl ref - run.buyFees ref) ∧
    ∀ key position, run.tables.positions.find key = some position → position.quantity = 0 →
      position.averagePrice = 0 := by
  have hstart : Balanced (initialBalance t) (.start t) := by
    refine ⟨hkeyed, ?_, ?_⟩
    · intro key position hfind
      change t.positions.find key = some position at hfind
      rw [hflat] at hfind
      simp at hfind
    · intro ref a ha
      have hsum (f : SimulatedPosition → ℚ) : t.positionSum ref f = 0 := by
        unfold TradingTables.positionSum
        rw [hflat, Table.sum_empty]
      have hinitial : initialBalance t ref = a.totalBalance := by
        unfold initialBalance
        rw [show t.accounts.find ref = some a from ha]
        rfl
      change a.totalBalance + t.positionSum ref _ = _ + t.positionSum ref _ - 0
      rw [hsum, hsum, hinitial]
      ring
  have hend := hstart.settles fun call hmem => (hpositive call hmem).1
  exact ⟨hend.identity, fun key position hfind => (hend.sound key position hfind).closed⟩

def openAccount : TradingTables where
  accounts := Table.empty.put "sim:alice"
    { tenantRef := "default", subjectRef := "alice", accountRef := "sim:alice" }

def roundTrip : List SettleCall :=
  let held (asset : String) (amount : ℚ) : Table Uuid SimulatedReservation :=
    Table.empty.put "order" { account := "sim:alice", asset, originalAmount := amount, remainingAmount := amount }
  [⟨held "USD" 1001, "order", ⟨.buy, "BTC-USD", 10, 100, 1⟩⟩,
    ⟨held "BTC" 10, "order", ⟨.sell, "BTC-USD", 10, 120, 2⟩⟩]

theorem ledger_identity_of_round_trip :
    ∃ a, (roundTrip.foldl SettleRun.settle (.start openAccount)).tables.accounts.find "sim:alice" = some a ∧
      a.totalBalance = 10197 ∧
      a.totalBalance + (roundTrip.foldl SettleRun.settle (.start openAccount)).tables.costBasis "sim:alice" =
        initialBalance openAccount "sim:alice" +
          (roundTrip.foldl SettleRun.settle (.start openAccount)).tables.realizedPnl "sim:alice" -
          (roundTrip.foldl SettleRun.settle (.start openAccount)).buyFees "sim:alice" := by
  have hkeyed : ∀ ref a, openAccount.accounts.find ref = some a → a.accountRef = ref := by
    intro ref a ha
    rcases Table.find_put_cases ha with ⟨rfl, rfl⟩ | ⟨_, hnone⟩
    · rfl
    · simp at hnone
  have hpositive : ∀ call ∈ roundTrip, 0 < call.settlement.quantity ∧ 0 < call.settlement.price := by
    decide +kernel
  have hbalance : ((roundTrip.foldl SettleRun.settle (.start openAccount)).tables.accounts.find
      "sim:alice").map (·.totalBalance) = some 10197 := by
    decide +kernel
  obtain ⟨a, ha, htotal⟩ := Option.map_eq_some_iff.mp hbalance
  exact ⟨a, ha, htotal, (ledger_identity hkeyed rfl hpositive).1 "sim:alice" a ha⟩

end Beyvra
