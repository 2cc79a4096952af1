import Beyvra.Foundation.Services

namespace Beyvra

open Relational

def feeRate : ℚ := 1 / 1000

def baseAsset (instrumentId : String) : String :=
  String.ofList (instrumentId.toList.takeWhile (· ≠ '-'))

namespace TradingTables

def activeReserved (t : TradingTables) (accountRef asset : String) : ℚ :=
  t.reservations.sum fun _ r =>
    if r.account = accountRef ∧ r.asset = asset ∧ r.state = .active then r.remainingAmount else 0

def availableQuote (t : TradingTables) (account : SimulatedAccount) : ℚ :=
  account.totalBalance - account.pendingBalance -
    t.activeReserved account.accountRef account.quoteCurrency

def positionAt (t : TradingTables) (accountRef instrumentId : String) : SimulatedPosition :=
  (t.positions.find (accountRef, instrumentId)).getD {}

end TradingTables

def reservationTerms (t : TradingTables) (account : SimulatedAccount) (instrumentId : String)
    (side : OrderSide) (quantity price : ℚ) : Outcome (ℚ × String) :=
  match side with
  | .buy => do
    let amount := quantity * price * (1 + feeRate)
    require (amount ≤ t.availableQuote account)
      (.simulationFinancialError "INSUFFICIENT_AVAILABLE_BALANCE")
    pure (amount, account.quoteCurrency)
  | .sell => do
    let asset := baseAsset instrumentId
    let position ← demand (t.positions.find (account.accountRef, instrumentId))
      (.simulationFinancialError "INSUFFICIENT_AVAILABLE_POSITION")
    require (quantity ≤ position.quantity - t.activeReserved account.accountRef asset)
      (.simulationFinancialError "INSUFFICIENT_AVAILABLE_POSITION")
    pure (quantity, asset)

def reserveFunds (account : SimulatedAccount) (orderId : Uuid) (instrumentId : String)
    (side : OrderSide) (quantity price : ℚ) (t : TradingTables) :
    Outcome (SimulatedReservation × TradingTables) := do
  let account ← fetch t.accounts account.accountRef (.doesNotExist "SimulatedAccount")
  let (amount, asset) ← reservationTerms t account instrumentId side quantity price
  require (t.reservations.find orderId = none) (.simulationFinancialError "DUPLICATE_RESERVATION")
  let reservation : SimulatedReservation :=
    { account := account.accountRef, asset, originalAmount := amount, remainingAmount := amount }
  pure (reservation, { t with reservations := t.reservations.put orderId reservation })

def SimulatedReservation.release (reservation : SimulatedReservation) : SimulatedReservation :=
  if reservation.state = .active then { reservation with remainingAmount := 0, state := .released }
  else reservation

def releaseReservation (reservationId : Uuid) (t : TradingTables) : Outcome TradingTables := do
  let reservation ← fetch t.reservations reservationId (.doesNotExist "SimulatedReservation")
  pure { t with reservations := t.reservations.put reservationId reservation.release }

structure Settlement where
  side : OrderSide
  instrumentId : String
  quantity : ℚ
  price : ℚ
  fee : ℚ
  deriving DecidableEq

namespace Settlement

def debit (s : Settlement) : ℚ := s.quantity * s.price + s.fee

def spent (s : Settlement) : ℚ :=
  match s.side with
  | .buy => s.debit
  | .sell => s.quantity

def balanceAfter (s : Settlement) (balance : ℚ) : ℚ :=
  match s.side with
  | .buy => balance - s.debit
  | .sell => balance + (s.quantity * s.price - s.fee)

def guards (s : Settlement) (position : SimulatedPosition) (reservation : SimulatedReservation) :
    Outcome Unit :=
  match s.side with
  | .buy => do
    require (s.debit ≤ reservation.remainingAmount) (.simulationFinancialError "RESERVATION_UNDERFUNDED")
    require (position.quantity + s.quantity ≠ 0) .invalidOperation
  | .sell =>
    require (s.quantity ≤ position.quantity ∧ s.quantity ≤ reservation.remainingAmount)
      (.simulationFinancialError "INSUFFICIENT_AVAILABLE_POSITION")

def applyTo (s : Settlement) (position : SimulatedPosition) : SimulatedPosition :=
  match s.side with
  | .buy =>
    let newQuantity := position.quantity + s.quantity
    { position with
      averagePrice := (position.quantity * position.averagePrice + s.quantity * s.price) / newQuantity
      quantity := newQuantity }
  | .sell =>
    let newQuantity := position.quantity - s.quantity
    { position with
      realizedPnl := position.realizedPnl + ((s.price - position.averagePrice) * s.quantity - s.fee)
      quantity := newQuantity
      averagePrice := if newQuantity = 0 then 0 else position.averagePrice }

def draw (s : Settlement) (reservation : SimulatedReservation) : SimulatedReservation :=
  let remaining := reservation.remainingAmount - s.spent
  { reservation with
    remainingAmount := remaining
    state := if remaining = 0 then .consumed else reservation.state }

end Settlement

structure Settled where
  account : SimulatedAccount
  position : SimulatedPosition
  reservation : SimulatedReservation

def settleTrade (reservationId : Uuid) (s : Settlement) (t : TradingTables) :
    Outcome (Settled × TradingTables) := do
  let reservation ← fetch t.reservations reservationId (.doesNotExist "SimulatedReservation")
  let account ← fetch t.accounts reservation.account (.doesNotExist "SimulatedAccount")
  let position := t.positionAt account.accountRef s.instrumentId
  s.guards position reservation
  let settled : Settled :=
    { account := { account with totalBalance := s.balanceAfter account.totalBalance }
      position := s.applyTo position
      reservation := s.draw reservation }
  pure (settled,
    { t with
      positions := t.positions.put (account.accountRef, s.instrumentId) settled.position
      accounts := t.accounts.put reservation.account settled.account
      reservations := t.reservations.put reservationId settled.reservation })

section Inversion

variable {t t' : TradingTables} {s : Settlement} {side : OrderSide} {instrumentId : String}
  {quantity price amount : ℚ} {asset : String} {orderId reservationId : Uuid}
  {account : SimulatedAccount} {reservation : SimulatedReservation} {position : SimulatedPosition}

theorem reservationTerms_buy :
    reservationTerms t account instrumentId .buy quantity price = .ok (amount, asset) ↔
      quantity * price * (1 + feeRate) ≤ t.availableQuote account ∧
        amount = quantity * price * (1 + feeRate) ∧ asset = account.quoteCurrency := by
  simp only [reservationTerms, bind_eq_ok, require_eq_ok, pure_eq_ok, Prod.mk.injEq, exists_const]
  constructor
  · rintro ⟨h, rfl, rfl⟩
    exact ⟨h, rfl, rfl⟩
  · rintro ⟨h, rfl, rfl⟩
    exact ⟨h, rfl, rfl⟩

theorem reservationTerms_sell :
    reservationTerms t account instrumentId .sell quantity price = .ok (amount, asset) ↔
      (∃ position, t.positions.find (account.accountRef, instrumentId) = some position ∧
        quantity ≤ position.quantity - t.activeReserved account.accountRef (baseAsset instrumentId)) ∧
      amount = quantity ∧ asset = baseAsset instrumentId := by
  simp only [reservationTerms, bind_eq_ok, demand_eq_ok, require_eq_ok, pure_eq_ok, Prod.mk.injEq,
    exists_const]
  constructor
  · rintro ⟨position, hp, hq, rfl, rfl⟩
    exact ⟨⟨position, hp, hq⟩, rfl, rfl⟩
  · rintro ⟨⟨position, hp, hq⟩, rfl, rfl⟩
    exact ⟨position, hp, hq, rfl, rfl⟩

theorem reserveFunds_eq_ok :
    reserveFunds account orderId instrumentId side quantity price t = .ok (reservation, t') ↔
      ∃ row amount asset, t.accounts.find account.accountRef = some row ∧
        reservationTerms t row instrumentId side quantity price = .ok (amount, asset) ∧
        t.reservations.find orderId = none ∧
        reservation =
          { account := row.accountRef, asset, originalAmount := amount, remainingAmount := amount } ∧
        t' = { t with reservations := t.reservations.put orderId reservation } := by
  simp only [reserveFunds, bind_eq_ok, fetch_eq_ok, require_eq_ok, pure_eq_ok, Prod.mk.injEq]
  constructor
  · rintro ⟨row, hrow, ⟨amount, asset⟩, hterms, _, hfree, rfl, rfl⟩
    exact ⟨row, amount, asset, hrow, hterms, hfree, rfl, rfl⟩
  · rintro ⟨row, amount, asset, hrow, hterms, hfree, rfl, rfl⟩
    exact ⟨row, hrow, ⟨amount, asset⟩, hterms, (), hfree, rfl, rfl⟩

theorem releaseReservation_eq_ok :
    releaseReservation reservationId t = .ok t' ↔
      ∃ reservation, t.reservations.find reservationId = some reservation ∧
        t' = { t with reservations := t.reservations.put reservationId reservation.release } := by
  simp only [releaseReservation, bind_eq_ok, fetch_eq_ok, pure_eq_ok]
  exact exists_congr fun _ => and_congr_right fun _ => eq_comm

theorem SimulatedReservation.release_account (r : SimulatedReservation) : r.release.account = r.account := by
  unfold release
  split <;> rfl

theorem SimulatedReservation.release_asset (r : SimulatedReservation) : r.release.asset = r.asset := by
  unfold release
  split <;> rfl

theorem SimulatedReservation.release_original (r : SimulatedReservation) :
    r.release.originalAmount = r.originalAmount := by
  unfold release
  split <;> rfl

theorem SimulatedReservation.release_state (r : SimulatedReservation) : r.release.state ≠ .active := by
  unfold release
  split <;> simp_all

theorem Settlement.guards_buy (hs : s.side = .buy) {u : Unit} :
    s.guards position reservation = .ok u ↔
      s.debit ≤ reservation.remainingAmount ∧ position.quantity + s.quantity ≠ 0 := by
  simp only [guards, hs, bind_eq_ok, require_eq_ok, exists_const]

theorem Settlement.guards_sell (hs : s.side = .sell) {u : Unit} :
    s.guards position reservation = .ok u ↔
      s.quantity ≤ position.quantity ∧ s.quantity ≤ reservation.remainingAmount := by
  simp only [guards, hs, require_eq_ok]

theorem Settlement.spent_le {u : Unit} (h : s.guards position reservation = .ok u) :
    s.spent ≤ reservation.remainingAmount := by
  cases hs : s.side with
  | buy => simpa [spent, hs] using ((guards_buy hs).mp h).1
  | sell => simpa [spent, hs] using ((guards_sell hs).mp h).2

theorem settleTrade_eq_ok {settled : Settled} :
    settleTrade reservationId s t = .ok (settled, t') ↔
      ∃ reservation account, t.reservations.find reservationId = some reservation ∧
        t.accounts.find reservation.account = some account ∧
        s.guards (t.positionAt account.accountRef s.instrumentId) reservation = .ok () ∧
        settled =
          { account := { account with totalBalance := s.balanceAfter account.totalBalance }
            position := s.applyTo (t.positionAt account.accountRef s.instrumentId)
            reservation := s.draw reservation } ∧
        t' = { t with
          positions := t.positions.put (account.accountRef, s.instrumentId) settled.position
          accounts := t.accounts.put reservation.account settled.account
          reservations := t.reservations.put reservationId settled.reservation } := by
  simp only [settleTrade, bind_eq_ok, fetch_eq_ok, pure_eq_ok, Prod.mk.injEq]
  constructor
  · rintro ⟨reservation, hr, account, ha, _, hg, rfl, rfl⟩
    exact ⟨reservation, account, hr, ha, hg, rfl, rfl⟩
  · rintro ⟨reservation, account, hr, ha, hg, rfl, rfl⟩
    exact ⟨reservation, hr, account, ha, (), hg, rfl, rfl⟩

end Inversion

end Beyvra
