import Beyvra.Trading.PartialFills

namespace Beyvra.StoredFills

open Numeric Relational

variable {quantity price : ℚ}

-- What the Decimal context keeps of a number, and what the columns keep. Neither overflows here: an
-- order is of 100 units and of 1000000 in value at the most.
def rounded (x : ℚ) : ℚ := defaultContext.round x

def kept (x : ℚ) : ℚ := roundTo halfUp orderColumn.unit x

-- The exponent of the last digit that the context has
def lastDigit : Int := defaultContext.emin - defaultContext.prec + 1

def grossOf (quantity price : ℚ) : ℚ := rounded (quantity * price)

def feeOf (quantity price : ℚ) : ℚ := rounded (grossOf quantity price * feeRate)

def debitOf (quantity price : ℚ) : ℚ := rounded (grossOf quantity price + feeOf quantity price)

def spentOf : OrderSide → ℚ → ℚ → ℚ
  | .buy, quantity, price => debitOf quantity price
  | .sell, quantity, _ => quantity

-- The reservation is made of the quantity that was asked for, and its row keeps 18 decimals.
def amountOf : OrderSide → ℚ → ℚ → ℚ
  | .buy, quantity, price => rounded (grossOf quantity price * rounded (1 + feeRate))
  | .sell, quantity, _ => quantity

def reservedAmount (side : OrderSide) (quantity price : ℚ) : ℚ := kept (amountOf side quantity price)

section Rounding

variable {x y : ℚ} {e : Int}

theorem lastDigit_eq : lastDigit = -1000026 := by decide

theorem rounded_nonneg (h : 0 ≤ x) : 0 ≤ rounded x := Context.round_nonneg h

theorem rounded_of_isMultiple (he : lastDigit ≤ e) (hmultiple : IsMultiple (10 ^ e) x) (hx : |x| < 10 ^ (e + 28)) :
    rounded x = x :=
  Context.round_of_isMultiple he hmultiple hx

theorem rounded_isMultiple : IsMultiple (10 ^ lastDigit) (rounded x) := Context.round_isMultiple

theorem eq_zero_of_rounded (hmultiple : IsMultiple (10 ^ lastDigit) x) (h : rounded x = 0) : x = 0 :=
  Context.eq_zero_of_round le_rfl (by decide) hmultiple h

theorem kept_isMultiple : IsMultiple orderColumn.unit (kept x) := roundTo_isMultiple

theorem kept_of_isMultiple (h : IsMultiple orderColumn.unit x) : kept x = x :=
  roundTo_of_isMultiple Column.unit_pos.ne' halfUp_intCast h

theorem decimal_of_isMultiple (h : IsMultiple orderColumn.unit x) : IsMultiple (10 ^ lastDigit) x := by
  have hle : lastDigit ≤ -18 := lastDigit_eq.trans_le (by norm_num)
  exact_mod_cast IsMultiple.zpow (b := 10) (by norm_num) hle (by exact_mod_cast h)

theorem kept_mono (h : x ≤ y) : kept x ≤ kept y := roundTo_halfUp_mono Column.unit_pos h

theorem kept_zero : kept 0 = 0 := kept_of_isMultiple ⟨0, by simp⟩

theorem kept_nonneg (h : 0 ≤ x) : 0 ≤ kept x := kept_zero.symm.trans_le (kept_mono h)

theorem le_kept (hy : IsMultiple orderColumn.unit y) (h : y ≤ x) : y ≤ kept x :=
  (kept_of_isMultiple hy).symm.trans_le (kept_mono h)

-- A quantity of an order has 18 decimals and two digits or three before them.
theorem rounded_of_whole (h : IsMultiple orderColumn.unit x) (hx : |x| < 10 ^ 10) : rounded x = x :=
  rounded_of_isMultiple (e := -18) (lastDigit_eq.trans_le (by norm_num)) h (by exact_mod_cast hx)

theorem rounded_zero : rounded 0 = 0 := rounded_of_whole ⟨0, by simp⟩ (by norm_num)

end Rounding

structure FillRows where
  order : TradingOrder
  reservation : SimulatedReservation
  account : SimulatedAccount
  position : SimulatedPosition
  lotsHeld : ℚ
  deriving DecidableEq

namespace FillRows

def nextFilled (rows : FillRows) (quantity : ℚ) : ℚ := rounded (rows.order.filledQuantity + quantity)

def remainingAfter (rows : FillRows) (quantity price : ℚ) : ℚ :=
  rounded (rows.reservation.remainingAmount - spentOf rows.order.side quantity price)

def targetState (rows : FillRows) (quantity : ℚ) : OrderState :=
  if rows.nextFilled quantity = rows.order.quantity then .filled else .partiallyFilled

def positionAfter (rows : FillRows) (quantity price : ℚ) : SimulatedPosition :=
  let held := rows.position
  match rows.order.side with
  | .buy =>
    let newQuantity := rounded (held.quantity + quantity)
    let cost := rounded (rounded (held.quantity * held.averagePrice) + grossOf quantity price)
    { held with averagePrice := kept (rounded (cost / newQuantity)), quantity := kept newQuantity }
  | .sell =>
    let newQuantity := rounded (held.quantity - quantity)
    let gain := rounded (rounded (rounded (price - held.averagePrice) * quantity) - feeOf quantity price)
    { quantity := kept newQuantity
      averagePrice := if newQuantity = 0 then 0 else held.averagePrice
      realizedPnl := kept (rounded (held.realizedPnl + gain)) }

def balanceAfter (rows : FillRows) (quantity price : ℚ) : ℚ :=
  match rows.order.side with
  | .buy => kept (rounded (rows.account.totalBalance - debitOf quantity price))
  | .sell =>
    kept (rounded (rows.account.totalBalance + rounded (grossOf quantity price - feeOf quantity price)))

-- The reservation is consumed when nothing remains of it before its row is rounded.
def settled (rows : FillRows) (quantity price : ℚ) : FillRows :=
  { rows with
    account := { rows.account with totalBalance := rows.balanceAfter quantity price }
    position := rows.positionAfter quantity price
    reservation := { rows.reservation with
      remainingAmount := kept (rows.remainingAfter quantity price)
      state := if rows.remainingAfter quantity price = 0 then .consumed else rows.reservation.state } }

def booked (rows : FillRows) (quantity : ℚ) : FillRows :=
  { rows with lotsHeld := match rows.order.side with
    | .buy => rows.lotsHeld + kept quantity
    | .sell => rows.lotsHeld - kept quantity }

def filled (rows : FillRows) (quantity price : ℚ) : FillRows :=
  let value := rounded (rows.order.filledQuantity * rows.order.averageFillPrice.getD 0)
  { rows with order := { rows.order with
      filledQuantity := kept (rows.nextFilled quantity)
      averageFillPrice :=
        some (kept (rounded (rounded (value + grossOf quantity price) / rows.nextFilled quantity)))
      state := rows.targetState quantity } }

end FillRows

-- What other active reservations hold of the asset is a sum of the database.
def reserveGuards (order : TradingOrder) (account : SimulatedAccount) (position : SimulatedPosition)
    (reserved asked price : ℚ) : Outcome Unit :=
  match order.side with
  | .buy =>
    require (amountOf .buy asked price ≤ rounded (rounded (account.totalBalance - account.pendingBalance) - reserved))
      (.simulationFinancialError "INSUFFICIENT_AVAILABLE_BALANCE")
  | .sell =>
    require (asked ≤ rounded (position.quantity - reserved))
      (.simulationFinancialError "INSUFFICIENT_AVAILABLE_POSITION")

-- For an order that has no reservation; a position that is missing is one of quantity 0.
def reserveFunds (order : TradingOrder) (account : SimulatedAccount) (position : SimulatedPosition)
    (lotsHeld reserved asked price : ℚ) : Outcome FillRows := do
  reserveGuards order account position reserved asked price
  let amount := reservedAmount order.side asked price
  let reservation : SimulatedReservation :=
    { account := account.accountRef, asset := assetOf order account, originalAmount := amount, remainingAmount := amount }
  pure { order, reservation, account, position, lotsHeld }

def FillRows.guards (rows : FillRows) (quantity price : ℚ) : Outcome Unit :=
  match rows.order.side with
  | .buy => do
    require (debitOf quantity price ≤ rows.reservation.remainingAmount)
      (.simulationFinancialError "RESERVATION_UNDERFUNDED")
    require (rounded (rows.position.quantity + quantity) ≠ 0) .invalidOperation
  | .sell =>
    require (quantity ≤ rows.position.quantity ∧ quantity ≤ rows.reservation.remainingAmount)
      (.simulationFinancialError "INSUFFICIENT_AVAILABLE_POSITION")

def settleTrade (rows : FillRows) (quantity price : ℚ) : Outcome FillRows := do
  rows.guards quantity price
  pure (rows.settled quantity price)

def FillRows.lotGuards (rows : FillRows) (quantity : ℚ) : Outcome Unit :=
  match rows.order.side with
  | .buy => require (kept quantity ≠ 0) .invalidOperation
  | .sell => require (kept quantity ≤ rows.lotsHeld) (.valueError "TAX_LOT_INSUFFICIENT_QUANTITY")

-- Of the post-trade chain the checks that a fill of a simulated order can fail: those of the capture,
-- and of the lots, which read the quantity of the trade's row.
def processSimulatedFill (rows : FillRows) (quantity price : ℚ) : Outcome FillRows := do
  require (0 < quantity ∧ 0 < price) (.valueError "INVALID_FILL")
  rows.lotGuards quantity
  pure (rows.booked quantity)

-- The fill branch, for an execution that has not been consumed before
def applyExecution (rows : FillRows) (quantity price : ℚ) : Outcome FillRows := do
  let state ← openForExecution rows.order.state
  require (rows.nextFilled quantity ≤ rows.order.quantity) (.valueError "EXECUTION_OVERFILL")
  let rows ← settleTrade rows quantity price
  let rows ← processSimulatedFill rows quantity price
  require (rows.nextFilled quantity ≠ 0) .invalidOperation
  let _ ← transitionOrder state (rows.targetState quantity)
  pure (rows.filled quantity price)

namespace FillRows

variable {rows rows' : FillRows}

def Funds (rows : FillRows) (quantity price : ℚ) : Prop :=
  match rows.order.side with
  | .buy => debitOf quantity price ≤ rows.reservation.remainingAmount ∧
      rounded (rows.position.quantity + quantity) ≠ 0
  | .sell => quantity ≤ rows.position.quantity ∧ quantity ≤ rows.reservation.remainingAmount

def Books (rows : FillRows) (quantity : ℚ) : Prop :=
  match rows.order.side with
  | .buy => kept quantity ≠ 0
  | .sell => kept quantity ≤ rows.lotsHeld

structure Takes (rows : FillRows) (quantity price : ℚ) : Prop where
  positive : 0 < quantity ∧ 0 < price
  fits : rows.nextFilled quantity ≤ rows.order.quantity
  moves : rows.nextFilled quantity ≠ 0
  funded : rows.Funds quantity price
  booked : rows.Books quantity
  transition : rows.targetState quantity ∈ transitions (workingState rows.order.state)

def after (rows : FillRows) (quantity price : ℚ) : FillRows :=
  ((rows.settled quantity price).booked quantity).filled quantity price

theorem guards_eq_ok {u : Unit} : rows.guards quantity price = .ok u ↔ rows.Funds quantity price := by
  unfold guards Funds
  cases rows.order.side with
  | buy => simp only [bind_eq_ok, require_eq_ok, exists_const]
  | sell => exact require_eq_ok

theorem lotGuards_eq_ok {u : Unit} : rows.lotGuards quantity = .ok u ↔ rows.Books quantity := by
  unfold lotGuards Books
  cases rows.order.side <;> exact require_eq_ok

end FillRows

section Fill

variable {rows rows' : FillRows}

theorem applyExecution_eq_ok :
    applyExecution rows quantity price = .ok rows' ↔ rows.Takes quantity price ∧ rows' = rows.after quantity price := by
  unfold applyExecution
  rw [openForExecution_eq]
  simp only [settleTrade, processSimulatedFill, bind_eq_ok, require_eq_ok, FillRows.guards_eq_ok,
    FillRows.lotGuards_eq_ok, transitionOrder_eq_ok, pure_eq_ok, Except.ok.injEq, exists_eq_left', exists_const]
  constructor
  · rintro ⟨hfits, settled, ⟨hfunds, rfl⟩, booked, ⟨hpositive, hbooks, rfl⟩, hmoves, state, ⟨htransition, -⟩, rfl⟩
    exact ⟨⟨hpositive, hfits, hmoves, hfunds, hbooks, htransition⟩, rfl⟩
  · rintro ⟨h, rfl⟩
    exact ⟨h.fits, _, ⟨h.funded, rfl⟩, _, ⟨h.positive, h.booked, rfl⟩, h.moves, _, ⟨h.transition, rfl⟩, rfl⟩

end Fill

def FillsThrough (price : ℚ) : FillRows → List ℚ → Prop
  | rows, [] => rows.order.state = .filled ∧ rows.reservation.state = .consumed ∧
      rows.reservation.remainingAmount = 0
  | rows, quantity :: fills => ∃ rows', applyExecution rows quantity price = .ok rows' ∧
      (fills ≠ [] → rows'.order.state = .partiallyFilled) ∧ FillsThrough price rows' fills

-- The rows when the order has been placed
structure Placed (rows : FillRows) (quantity price : ℚ) : Prop where
  opened : rows.order.state ∈ [.pending, .accepted, .opened]
  unfilled : rows.order.filledQuantity = 0
  stored : rows.order.quantity = kept quantity
  limit : rows.order.quantity ≤ 100
  active : rows.reservation.state = .active
  reserved : rows.reservation.remainingAmount = reservedAmount rows.order.side quantity price
  price : 0 < price
  held : 0 ≤ rows.position.quantity ∧ IsMultiple orderColumn.unit rows.position.quantity
  covered : rows.order.side = .sell → rows.order.quantity ≤ rows.position.quantity

structure Divides (fills : List ℚ) (amount : ℚ) : Prop where
  some : fills ≠ []
  positive : ∀ quantity ∈ fills, 0 < quantity
  decimal : ∀ quantity ∈ fills, IsMultiple (10 ^ lastDigit) quantity
  total : fills.sum = amount

-- What holds of the rows between two fills
structure Resting (rows : FillRows) : Prop where
  remaining : IsMultiple orderColumn.unit rows.reservation.remainingAmount
  active : rows.reservation.state = .active ∨ rows.reservation.remainingAmount = 0
  filled : 0 ≤ rows.order.filledQuantity
  held : 0 ≤ rows.position.quantity ∧ IsMultiple orderColumn.unit rows.position.quantity
  quantity : 0 < rows.order.quantity

-- What a BUY reserved is used up by one debit, or by two of which the second is what the rows keep of
-- the rest.
def BuyCloses (price amount reserved : ℚ) : List ℚ → Prop
  | [quantity] => debitOf quantity price = reserved
  | [first, last] => (rounded first ≠ amount ∧ rounded (kept (rounded first) + last) = amount) ∧
      (kept first ≠ 0 ∧ kept last ≠ 0) ∧
      debitOf first price ≤ reserved ∧ debitOf last price = kept (rounded (reserved - debitOf first price))
  | _ => False

structure SellCloses (amount lotsHeld : ℚ) (fills : List ℚ) : Prop where
  short : fills.length ≤ 2
  whole : ∀ quantity ∈ fills, IsMultiple orderColumn.unit quantity
  covered : amount ≤ lotsHeld

def FillRows.Closes (rows : FillRows) (price : ℚ) (fills : List ℚ) : Prop :=
  match rows.order.side with
  | .buy => BuyCloses price rows.order.quantity rows.reservation.remainingAmount fills
  | .sell => SellCloses rows.order.quantity rows.lotsHeld fills

section Step

variable {rows : FillRows}

theorem spentOf_nonneg (side : OrderSide) (hquantity : 0 < quantity) (hprice : 0 < price) :
    0 ≤ spentOf side quantity price := by
  cases side with
  | buy =>
    have hgross : 0 ≤ grossOf quantity price := rounded_nonneg (mul_pos hquantity hprice).le
    have hfee : 0 ≤ feeOf quantity price := rounded_nonneg (mul_nonneg hgross (by norm_num [feeRate]))
    exact rounded_nonneg (add_nonneg hgross hfee)
  | sell => exact hquantity.le

theorem spentOf_isMultiple (side : OrderSide) (price : ℚ) (hquantity : IsMultiple (10 ^ lastDigit) quantity) :
    IsMultiple (10 ^ lastDigit) (spentOf side quantity price) := by
  cases side with
  | buy => exact rounded_isMultiple
  | sell => exact hquantity

theorem Resting.consumed_iff (h : Resting rows) (hquantity : 0 < quantity) (hprice : 0 < price)
    (hdecimal : IsMultiple (10 ^ lastDigit) quantity)
    (hle : spentOf rows.order.side quantity price ≤ rows.reservation.remainingAmount) :
    (rows.after quantity price).reservation.state = .consumed ∧
      (rows.after quantity price).reservation.remainingAmount = 0 ↔
      spentOf rows.order.side quantity price = rows.reservation.remainingAmount := by
  have hspent := spentOf_nonneg rows.order.side hquantity hprice
  have hdigits := (decimal_of_isMultiple h.remaining).sub (spentOf_isMultiple rows.order.side price hdecimal)
  change (if rows.remainingAfter quantity price = 0 then ReservationState.consumed else rows.reservation.state) = _ ∧
    kept (rows.remainingAfter quantity price) = 0 ↔ _
  constructor
  · rintro ⟨hstate, -⟩
    split_ifs at hstate with hzero
    · exact (sub_eq_zero.mp (eq_zero_of_rounded hdigits hzero)).symm
    · rcases h.active with hactive | hnone
      · rw [hactive] at hstate
        cases hstate
      · exact le_antisymm hle (hnone.trans_le hspent)
  · intro heq
    have hzero : rows.remainingAfter quantity price = 0 := by
      rw [FillRows.remainingAfter, heq, sub_self]
      exact rounded_zero
    rw [if_pos hzero, hzero]
    exact ⟨rfl, kept_zero⟩

theorem Resting.funds_iff (h : Resting rows) (hquantity : 0 < quantity)
    (hdecimal : IsMultiple (10 ^ lastDigit) quantity) :
    rows.Funds quantity price ↔ spentOf rows.order.side quantity price ≤ rows.reservation.remainingAmount ∧
      (rows.order.side = .sell → quantity ≤ rows.position.quantity) := by
  have hgrows : rounded (rows.position.quantity + quantity) ≠ 0 := by
    intro hzero
    have hsum := eq_zero_of_rounded ((decimal_of_isMultiple h.held.2).add hdecimal) hzero
    linarith [h.held.1]
  unfold FillRows.Funds
  cases hside : rows.order.side with
  | buy => simp [spentOf, hgrows]
  | sell => simp [spentOf, and_comm]

theorem Resting.last_fill_iff (h : Resting rows) (hstate : .filled ∈ transitions (workingState rows.order.state))
    (hquantity : 0 < quantity) (hprice : 0 < price) (hdecimal : IsMultiple (10 ^ lastDigit) quantity) :
    FillsThrough price rows [quantity] ↔ rows.nextFilled quantity = rows.order.quantity ∧
      spentOf rows.order.side quantity price = rows.reservation.remainingAmount ∧ rows.Books quantity ∧
      (rows.order.side = .sell → quantity ≤ rows.position.quantity) := by
  constructor
  · rintro ⟨rows', hok, -, hfilled, hconsumed⟩
    obtain ⟨htakes, rfl⟩ := applyExecution_eq_ok.mp hok
    obtain ⟨hle, hcovered⟩ := (h.funds_iff hquantity hdecimal).mp htakes.funded
    refine ⟨?_, (h.consumed_iff hquantity hprice hdecimal hle).mp hconsumed, htakes.booked, hcovered⟩
    by_contra hne
    have htarget : rows.targetState quantity = .partiallyFilled := if_neg hne
    rw [show (rows.after quantity price).order.state = rows.targetState quantity from rfl, htarget] at hfilled
    cases hfilled
  · rintro ⟨hdone, hspent, hbooks, hcovered⟩
    have htarget : rows.targetState quantity = .filled := if_pos hdone
    refine ⟨_, applyExecution_eq_ok.mpr ⟨⟨⟨hquantity, hprice⟩, hdone.le, ?_, ?_, hbooks, ?_⟩, rfl⟩, ?_, ?_, ?_⟩
    · exact hdone.trans_ne h.quantity.ne'
    · exact (h.funds_iff hquantity hdecimal).mpr ⟨hspent.le, hcovered⟩
    · rwa [htarget]
    · exact fun hne => absurd rfl hne
    · exact htarget
    · exact (h.consumed_iff hquantity hprice hdecimal hspent.le).mpr hspent

theorem Resting.fill (h : Resting rows) (hquantity : 0 < quantity) (hprice : 0 < price)
    (hdecimal : IsMultiple (10 ^ lastDigit) quantity) (hfunds : rows.Funds quantity price) :
    Resting (rows.after quantity price) := by
  obtain ⟨hle, hcovered⟩ := (h.funds_iff hquantity hdecimal).mp hfunds
  refine ⟨kept_isMultiple, ?_, kept_nonneg (rounded_nonneg (add_nonneg h.filled hquantity.le)), ?_, h.quantity⟩
  · change (if rows.remainingAfter quantity price = 0 then ReservationState.consumed else rows.reservation.state) = _ ∨
      kept (rows.remainingAfter quantity price) = 0
    by_cases hzero : rows.remainingAfter quantity price = 0
    · rw [hzero]
      exact .inr kept_zero
    · rw [if_neg hzero]
      refine h.active.imp_right fun hnone => absurd ?_ hzero
      have hspent := le_antisymm (hnone ▸ hle) (spentOf_nonneg rows.order.side hquantity hprice)
      rw [FillRows.remainingAfter, hspent, hnone, sub_self]
      exact rounded_zero
  · change 0 ≤ (rows.positionAfter quantity price).quantity ∧
      IsMultiple orderColumn.unit (rows.positionAfter quantity price).quantity
    unfold FillRows.positionAfter
    cases hside : rows.order.side with
    | buy => exact ⟨kept_nonneg (rounded_nonneg (add_nonneg h.held.1 hquantity.le)), kept_isMultiple⟩
    | sell => exact ⟨kept_nonneg (rounded_nonneg (sub_nonneg.mpr (hcovered hside))), kept_isMultiple⟩

end Step

section Run

variable {rows : FillRows} {asked : ℚ} {fills : List ℚ}

-- A second fill finds a partly filled order, which only a completing fill can leave.
theorem partly_filled_once (hpartly : rows.order.state = .partiallyFilled) (htakes : rows.Takes quantity price) :
    rows.targetState quantity = .filled := by
  have htransition := htakes.transition
  rw [hpartly] at htransition
  unfold FillRows.targetState at htransition ⊢
  split_ifs at htransition ⊢ with hdone
  · rfl
  · simp [workingState, transitions] at htransition

theorem at_most_two_fills (h : FillsThrough price rows fills) : fills.length ≤ 2 := by
  rcases fills with _ | ⟨first, _ | ⟨second, _ | ⟨third, rest⟩⟩⟩
  · simp
  · simp
  · simp
  · obtain ⟨rows₁, hfirst, hpartly, rows₂, hsecond, hagain, -⟩ := h
    obtain ⟨htakes, rfl⟩ := applyExecution_eq_ok.mp hsecond
    have htarget : rows₁.targetState second = .filled :=
      partly_filled_once (hpartly (List.cons_ne_nil _ _)) htakes
    rw [show rows₁.targetState second = .partiallyFilled from hagain (List.cons_ne_nil _ _)] at htarget
    cases htarget

theorem Divides.quantity_pos {amount : ℚ} (h : Divides fills amount) : 0 < amount :=
  h.total ▸ List.sum_pos fills h.positive h.some

theorem Placed.resting (h : Placed rows asked price) (hdivides : Divides fills rows.order.quantity) : Resting rows where
  remaining := h.reserved ▸ kept_isMultiple
  active := .inl h.active
  filled := h.unfilled.ge
  held := h.held
  quantity := hdivides.quantity_pos

theorem rounded_le {x y : ℚ} (hy : IsMultiple orderColumn.unit y) (hlt : y < 10 ^ 10) (hx : 0 ≤ x) (h : x ≤ y) :
    rounded x ≤ y :=
  Context.round_le (e := -18) (by decide) (by decide) hy (by exact_mod_cast hlt) hx h

-- A SELL is checked against what the reservations leave of the position.
theorem le_position_of_rounded {held reserved : ℚ} (hheld : IsMultiple orderColumn.unit held) (hreserved : 0 ≤ reserved)
    (hpos : 0 < asked) (hlimit : kept asked ≤ 100) (h : asked ≤ rounded (held - reserved)) : kept asked ≤ held := by
  rcases lt_or_ge held (10 ^ 10) with hsmall | hlarge
  · have hrest : 0 ≤ held - reserved := by
      by_contra hneg
      have hnonneg : 0 ≤ rounded (-(held - reserved)) := rounded_nonneg (by linarith)
      rw [rounded, Context.round_neg] at hnonneg
      have hround : rounded (held - reserved) ≤ 0 := Left.nonneg_neg_iff.mp hnonneg
      linarith
    have hle : asked ≤ held := h.trans (rounded_le hheld hsmall hrest (by linarith))
    exact (kept_mono hle).trans_eq (kept_of_isMultiple hheld)
  · linarith

theorem reserveFunds_placed {order : TradingOrder} {account : SimulatedAccount} {position : SimulatedPosition}
    {lotsHeld reserved : ℚ} (hopened : order.state ∈ [.pending, .accepted, .opened]) (hunfilled : order.filledQuantity = 0)
    (hstored : order.quantity = kept asked) (hlimit : order.quantity ≤ 100) (hpos : 0 < asked) (hprice : 0 < price)
    (hheld : 0 ≤ position.quantity ∧ IsMultiple orderColumn.unit position.quantity) (hreserved : 0 ≤ reserved)
    (hok : reserveFunds order account position lotsHeld reserved asked price = .ok rows) : Placed rows asked price := by
  obtain ⟨_, hguards, hrows⟩ := bind_eq_ok.mp hok
  obtain rfl := pure_eq_ok.mp hrows
  refine ⟨hopened, hunfilled, hstored, hlimit, rfl, rfl, hprice, hheld, fun hside => ?_⟩
  unfold reserveGuards at hguards
  rw [hside] at hguards
  exact hstored.trans_le
    (le_position_of_rounded hheld.2 hreserved hpos (hstored.symm.trans_le hlimit) (require_eq_ok.mp hguards))

theorem Resting.two_fills_iff {first last : ℚ} (h : Resting rows) (hopened : workingState rows.order.state = .opened)
    (hfirst : 0 < first) (hlast : 0 < last) (hprice : 0 < price) (hdecimal : IsMultiple (10 ^ lastDigit) first)
    (hdecimal' : IsMultiple (10 ^ lastDigit) last) (hfits : rows.nextFilled first ≤ rows.order.quantity)
    (hmoves : rows.nextFilled first ≠ 0) :
    FillsThrough price rows [first, last] ↔
      (rows.nextFilled first ≠ rows.order.quantity ∧ rows.Funds first price ∧ rows.Books first) ∧
        rounded (kept (rows.nextFilled first) + last) = rows.order.quantity ∧
        spentOf rows.order.side last price = kept (rows.remainingAfter first price) ∧
        (rows.booked first).Books last ∧
        (rows.order.side = .sell → last ≤ (rows.positionAfter first price).quantity) := by
  have hpartly : rows.targetState first = .partiallyFilled →
      .filled ∈ transitions (workingState (rows.after first price).order.state) := by
    intro htarget
    change .filled ∈ transitions (workingState (rows.targetState first))
    rw [htarget]
    decide
  constructor
  · rintro ⟨rows', hok, hstate, hthrough⟩
    obtain ⟨htakes, rfl⟩ := applyExecution_eq_ok.mp hok
    have htarget : rows.targetState first = .partiallyFilled := hstate (List.cons_ne_nil _ _)
    have hne : rows.nextFilled first ≠ rows.order.quantity := by
      intro hdone
      rw [FillRows.targetState, if_pos hdone] at htarget
      cases htarget
    have hrest := h.fill hfirst hprice hdecimal htakes.funded
    exact ⟨⟨hne, htakes.funded, htakes.booked⟩,
      (hrest.last_fill_iff (hpartly htarget) hlast hprice hdecimal').mp hthrough⟩
  · rintro ⟨⟨hne, hfunds, hbooks⟩, hdone⟩
    have htarget : rows.targetState first = .partiallyFilled := if_neg hne
    refine ⟨_, applyExecution_eq_ok.mpr ⟨⟨⟨hfirst, hprice⟩, hfits, hmoves, hfunds, hbooks, ?_⟩, rfl⟩,
      fun _ => htarget, ?_⟩
    · rw [htarget, hopened]
      decide
    · exact ((h.fill hfirst hprice hdecimal hfunds).last_fill_iff (hpartly htarget) hlast hprice hdecimal').mpr hdone

theorem Placed.nextFilled (h : Placed rows asked price) (quantity : ℚ) :
    rows.nextFilled quantity = rounded quantity := by
  rw [FillRows.nextFilled, h.unfilled, zero_add]

theorem Placed.whole (h : Placed rows asked price) : IsMultiple orderColumn.unit rows.order.quantity :=
  h.stored ▸ kept_isMultiple

theorem Placed.rounded_quantity (h : Placed rows asked price) (hpos : 0 < rows.order.quantity) :
    rounded rows.order.quantity = rows.order.quantity :=
  rounded_of_whole h.whole (by rw [abs_of_pos hpos]; linarith [h.limit])

theorem Divides.single {quantity amount : ℚ} (h : Divides [quantity] amount) : quantity = amount := by
  simpa using h.total

theorem Divides.pair {first last amount : ℚ} (h : Divides [first, last] amount) :
    0 < first ∧ 0 < last ∧ first + last = amount :=
  ⟨h.positive _ (by simp), h.positive _ (by simp), by simpa using h.total⟩

theorem Placed.one_fill_iff (h : Placed rows asked price) (hdivides : Divides [quantity] rows.order.quantity) :
    FillsThrough price rows [quantity] ↔ rows.Closes price [quantity] := by
  have hpos := hdivides.quantity_pos
  have hwhole := h.whole
  have hrounded := h.rounded_quantity hpos
  have hreserved := h.reserved
  have hcovered := h.covered
  obtain rfl := hdivides.single
  rw [(h.resting hdivides).last_fill_iff (by rw [workingState_of_open h.opened]; decide) hpos h.price
    (decimal_of_isMultiple hwhole), h.nextFilled, hrounded]
  unfold FillRows.Closes FillRows.Books
  cases hside : rows.order.side with
  | buy => simp [spentOf, BuyCloses, kept_of_isMultiple hwhole, hpos.ne']
  | sell =>
    rw [hside] at hreserved
    have hfull : rows.reservation.remainingAmount = rows.order.quantity := hreserved.trans h.stored.symm
    have hlots : SellCloses rows.order.quantity rows.lotsHeld [rows.order.quantity] ↔
        rows.order.quantity ≤ rows.lotsHeld :=
      ⟨fun hcloses => hcloses.covered, fun hle => ⟨by simp, by simpa using hwhole, hle⟩⟩
    simp [spentOf, hlots, kept_of_isMultiple hwhole, hfull, hcovered hside]

section Pair

variable {first last : ℚ}

theorem Placed.pair_iff (h : Placed rows asked price) (hdivides : Divides [first, last] rows.order.quantity) :
    FillsThrough price rows [first, last] ↔
      (rounded first ≠ rows.order.quantity ∧ rows.Funds first price ∧ rows.Books first) ∧
        rounded (kept (rounded first) + last) = rows.order.quantity ∧
        spentOf rows.order.side last price = kept (rows.remainingAfter first price) ∧
        (rows.booked first).Books last ∧
        (rows.order.side = .sell → last ≤ (rows.positionAfter first price).quantity) := by
  obtain ⟨hfirst, hlast, hsum⟩ := hdivides.pair
  have hdecimal := hdivides.decimal first (by simp)
  have hfits : rounded first ≤ rows.order.quantity :=
    rounded_le h.whole (by linarith [h.limit]) hfirst.le (by linarith)
  have hmoves : rounded first ≠ 0 := fun hzero => hfirst.ne' (eq_zero_of_rounded hdecimal hzero)
  rw [(h.resting hdivides).two_fills_iff (workingState_of_open h.opened) hfirst hlast h.price hdecimal
    (hdivides.decimal last (by simp)) (by rwa [h.nextFilled]) (by rwa [h.nextFilled]), h.nextFilled]

theorem Placed.buy_pair_iff (h : Placed rows asked price) (hside : rows.order.side = .buy)
    (hdivides : Divides [first, last] rows.order.quantity) :
    FillsThrough price rows [first, last] ↔
      BuyCloses price rows.order.quantity rows.reservation.remainingAmount [first, last] := by
  have hfunds : rows.Funds first price ↔ _ :=
    (h.resting hdivides).funds_iff hdivides.pair.1 (hdivides.decimal first (by simp))
  have hbooks (quantity : ℚ) : rows.Books quantity ↔ kept quantity ≠ 0 := by simp [FillRows.Books, hside]
  have hbooked : (rows.booked first).Books last ↔ kept last ≠ 0 := by simp [FillRows.Books, FillRows.booked, hside]
  rw [h.pair_iff hdivides, hfunds, hbooks, hbooked]
  simp only [hside, spentOf, FillRows.remainingAfter, BuyCloses, reduceCtorEq, false_implies, and_true]
  constructor
  · rintro ⟨⟨hpartly, hle, hkept⟩, hdone, hrest, hkept'⟩
    exact ⟨⟨hpartly, hdone⟩, ⟨hkept, hkept'⟩, hle, hrest⟩
  · rintro ⟨⟨hpartly, hdone⟩, ⟨hkept, hkept'⟩, hle, hrest⟩
    exact ⟨⟨hpartly, hle, hkept⟩, hdone, hrest, hkept'⟩

theorem Placed.sell_pair_iff (h : Placed rows asked price) (hside : rows.order.side = .sell)
    (hdivides : Divides [first, last] rows.order.quantity) :
    FillsThrough price rows [first, last] ↔ SellCloses rows.order.quantity rows.lotsHeld [first, last] := by
  obtain ⟨hfirst, hlast, hsum⟩ := hdivides.pair
  have hfunds : rows.Funds first price ↔ _ :=
    (h.resting hdivides).funds_iff hfirst (hdivides.decimal first (by simp))
  have hfull : rows.reservation.remainingAmount = rows.order.quantity := by
    rw [h.reserved, hside, h.stored]
    rfl
  have hbooks : rows.Books first ↔ kept first ≤ rows.lotsHeld := by simp [FillRows.Books, hside]
  have hbooked : (rows.booked first).Books last ↔ kept last ≤ rows.lotsHeld - kept first := by
    simp [FillRows.Books, FillRows.booked, hside]
  rw [h.pair_iff hdivides, hfunds, hbooks, hbooked]
  simp only [hside, spentOf, FillRows.remainingAfter, FillRows.positionAfter, hfull, forall_const]
  constructor
  · rintro ⟨⟨-, -, hlots⟩, -, hrest, hlots', -⟩
    have hwhole : IsMultiple orderColumn.unit last := hrest ▸ kept_isMultiple
    have hwhole' : IsMultiple orderColumn.unit first := by
      rw [eq_sub_of_add_eq hsum]
      exact h.whole.sub hwhole
    rw [kept_of_isMultiple hwhole, kept_of_isMultiple hwhole'] at hlots'
    exact ⟨le_rfl, by simp [hwhole, hwhole'], by linarith⟩
  · intro hcloses
    have hwhole : IsMultiple orderColumn.unit first := hcloses.whole first (by simp)
    have hwhole' : IsMultiple orderColumn.unit last := hcloses.whole last (by simp)
    have hlimit := h.limit
    have hcovered := h.covered hside
    have hlots := hcloses.covered
    have hrounded : rounded first = first := rounded_of_whole hwhole (by rw [abs_of_pos hfirst]; linarith)
    have hrest : kept (rounded (rows.order.quantity - first)) = last := by
      rw [sub_eq_of_eq_add' hsum.symm, rounded_of_whole hwhole' (by rw [abs_of_pos hlast]; linarith),
        kept_of_isMultiple hwhole']
    have hposition : last ≤ kept (rounded (rows.position.quantity - first)) :=
      le_kept hwhole' (Context.le_round (e := -18) (by decide) (by decide) hwhole' hlast
        (by norm_num [defaultContext]; linarith) (by linarith))
    rw [hrounded, kept_of_isMultiple hwhole, kept_of_isMultiple hwhole', hsum,
      h.rounded_quantity hdivides.quantity_pos]
    exact ⟨⟨by linarith, ⟨by linarith, by linarith⟩, by linarith⟩, rfl, hrest.symm, by linarith, hposition⟩

end Pair

theorem fills_through_iff_closes (h : Placed rows asked price) (hdivides : Divides fills rows.order.quantity) :
    FillsThrough price rows fills ↔ rows.Closes price fills := by
  rcases fills with _ | ⟨first, _ | ⟨last, _ | ⟨third, rest⟩⟩⟩
  · exact absurd rfl hdivides.some
  · exact h.one_fill_iff hdivides
  · unfold FillRows.Closes
    cases hside : rows.order.side with
    | buy => exact h.buy_pair_iff hside hdivides
    | sell => exact h.sell_pair_iff hside hdivides
  · have hmany : ¬(first :: last :: third :: rest).length ≤ 2 := by simp
    refine iff_of_false (fun hthrough => hmany (at_most_two_fills hthrough)) ?_
    unfold FillRows.Closes
    cases rows.order.side with
    | buy => exact id
    | sell => exact fun hcloses => hmany hcloses.short

end Run

def costOf (quantity price : ℚ) : ℚ := quantity * price * (1 + feeRate)

-- Quantities of 18 decimals and notionals of d, whose costs the context does not round
structure Plain (d : Nat) (price amount : ℚ) (fills : List ℚ) : Prop where
  decimals : 15 ≤ d ∧ d ≤ 24
  whole : ∀ quantity ∈ fills, IsMultiple orderColumn.unit quantity
  notional : ∀ quantity ∈ fills, IsMultiple (10 ^ (-d : Int)) (quantity * price)
  bounded : costOf amount price < 10 ^ (25 - d : Int)

section Plain

variable {d : Nat}

theorem costOf_eq (quantity price : ℚ) : costOf quantity price = quantity * price + quantity * price * feeRate := by
  rw [costOf, mul_one_add]

theorem fee_isMultiple (h : IsMultiple (10 ^ (-d : Int)) (quantity * price)) :
    IsMultiple (10 ^ (-d - 3 : Int)) (quantity * price * feeRate) := by
  obtain ⟨n, hn⟩ := h
  refine ⟨n, ?_⟩
  rw [hn, zpow_sub₀ (by norm_num), feeRate]
  ring

theorem costOf_isMultiple (h : IsMultiple (10 ^ (-d : Int)) (quantity * price)) :
    IsMultiple (10 ^ (-d - 3 : Int)) (costOf quantity price) := by
  rw [costOf_eq]
  have hnotional : IsMultiple (10 ^ (-d - 3 : Int)) (quantity * price) :=
    IsMultiple.zpow (b := 10) (e := -d) (by norm_num) (by omega) (by exact_mod_cast h)
  exact hnotional.add (fee_isMultiple h)

theorem grossOf_plain (hd : d ≤ 24) (hpos : 0 < quantity * price) (h : IsMultiple (10 ^ (-d : Int)) (quantity * price))
    (hlt : costOf quantity price < 10 ^ (25 - d : Int)) : grossOf quantity price = quantity * price := by
  have hleast : lastDigit ≤ -d := by
    rw [lastDigit_eq]
    omega
  have hpow : (10 : ℚ) ^ (25 - d : Int) ≤ 10 ^ (-d + 28 : Int) := zpow_le_zpow_right₀ (by norm_num) (by omega)
  have hfee : 0 < quantity * price * feeRate := mul_pos hpos (by norm_num [feeRate])
  rw [costOf_eq] at hlt
  exact rounded_of_isMultiple hleast h (by rw [abs_of_pos hpos]; linarith)

theorem rounded_cost {x : ℚ} (hd : d ≤ 24) (h : IsMultiple (10 ^ (-d - 3 : Int)) x) (hlt : |x| < 10 ^ (25 - d : Int)) :
    rounded x = x := by
  have hleast : lastDigit ≤ -d - 3 := by
    rw [lastDigit_eq]
    omega
  exact rounded_of_isMultiple hleast h (by rwa [show (-d - 3 + 28 : Int) = 25 - d by ring])

theorem debitOf_plain (hd : d ≤ 24) (hpos : 0 < quantity * price) (h : IsMultiple (10 ^ (-d : Int)) (quantity * price))
    (hlt : costOf quantity price < 10 ^ (25 - d : Int)) : debitOf quantity price = costOf quantity price := by
  have hfee : 0 < quantity * price * feeRate := mul_pos hpos (by norm_num [feeRate])
  have hcost := costOf_eq quantity price
  have hrounded : feeOf quantity price = quantity * price * feeRate := by
    rw [feeOf, grossOf_plain hd hpos h hlt]
    exact rounded_cost hd (fee_isMultiple h) ((abs_of_pos hfee).trans_lt (by linarith))
  rw [debitOf, hrounded, grossOf_plain hd hpos h hlt, ← hcost]
  exact rounded_cost hd (costOf_isMultiple h) ((abs_of_pos (by linarith)).trans_lt hlt)

theorem reservedAmount_plain (hd : d ≤ 24) (hpos : 0 < quantity * price)
    (h : IsMultiple (10 ^ (-d : Int)) (quantity * price)) (hlt : costOf quantity price < 10 ^ (25 - d : Int)) :
    reservedAmount .buy quantity price = kept (costOf quantity price) := by
  have hrate : rounded (1 + feeRate) = 1 + feeRate :=
    rounded_of_isMultiple (e := -3) (lastDigit_eq.trans_le (by norm_num)) ⟨1001, by norm_num [feeRate]⟩ (by norm_num [feeRate])
  have hcost : 0 < costOf quantity price := mul_pos hpos (by norm_num [feeRate])
  rw [reservedAmount, amountOf, hrate, grossOf_plain hd hpos h hlt]
  exact congrArg kept (rounded_cost hd (costOf_isMultiple h) ((abs_of_pos hcost).trans_lt hlt))

-- The factor 1001 / 1000 of a cost takes up three more decimals.
theorem costOf_whole_iff (h : IsMultiple (10 ^ (-d : Int)) (quantity * price)) :
    IsMultiple orderColumn.unit (costOf quantity price) ↔ IsMultiple (10 ^ (-15 : Int)) (quantity * price) := by
  constructor
  · rintro ⟨n, hn⟩
    refine IsMultiple.of_mul (b := 10) (k := 1001) (d := -d) (by norm_num) (by norm_num) (by exact_mod_cast h) ⟨n, ?_⟩
    have hthousand : ((10 : Nat) : ℚ) ^ (-15 : Int) = 1000 * orderColumn.unit := by norm_num [Column.unit, orderColumn]
    rw [hthousand]
    calc ((1001 : Nat) : ℚ) * (quantity * price) = 1000 * costOf quantity price := by
          rw [costOf, feeRate]
          push_cast
          ring
      _ = n * (1000 * orderColumn.unit) := by rw [hn]; ring
  · rintro ⟨n, hn⟩
    refine ⟨1001 * n, ?_⟩
    rw [costOf, hn, feeRate]
    norm_num [Column.unit, orderColumn]
    ring

theorem kept_error (x : ℚ) : |kept x - x| ≤ orderColumn.unit / 2 := roundTo_error Column.unit_pos halfUp_error

-- The second debit meets a rest that is off by what the reservation gained when it was rounded.
theorem rest_plain {first last : ℚ} (hd : 15 ≤ d ∧ d ≤ 24) (hfirst : 0 < costOf first price)
    (hlast : 0 < costOf last price) (hdigits : IsMultiple (10 ^ (-d - 3 : Int)) (costOf first price))
    (hlt : costOf (first + last) price < 10 ^ (25 - d : Int)) :
    rounded (kept (costOf (first + last) price) - costOf first price) =
      costOf last price + (kept (costOf (first + last) price) - costOf (first + last) price) := by
  have hsum : costOf (first + last) price = costOf first price + costOf last price := by
    simp only [costOf]
    ring
  have hrest : kept (costOf (first + last) price) - costOf first price =
      costOf last price + (kept (costOf (first + last) price) - costOf (first + last) price) := by
    rw [hsum]
    ring
  have hwhole : IsMultiple (10 ^ (-d - 3 : Int)) (kept (costOf (first + last) price)) :=
    IsMultiple.zpow (b := 10) (e := -18) (by norm_num) (by omega) kept_isMultiple
  have hbound : kept (costOf (first + last) price) ≤ 10 ^ (25 - d : Int) := by
    have hpower : IsMultiple orderColumn.unit (10 ^ (25 - d : Int)) :=
      IsMultiple.zpow (b := 10) (by norm_num) (by change (-18 : Int) ≤ 25 - d; omega) ⟨1, by simp⟩
    exact (kept_mono hlt.le).trans_eq (kept_of_isMultiple hpower)
  have hnonneg : 0 ≤ kept (costOf (first + last) price) := kept_nonneg (by linarith)
  rw [← hrest]
  exact rounded_cost hd.2 (hwhole.sub hdigits) (by rw [abs_lt]; constructor <;> linarith)

structure BuyClosesPlainly (price amount : ℚ) (fills : List ℚ) : Prop where
  short : fills.length ≤ 2
  last : ∀ last ∈ fills.getLast?, IsMultiple (10 ^ (-15 : Int)) (last * price)
  gained : fills.length = 2 → ¬IsMultiple orderColumn.unit (costOf amount price - orderColumn.unit / 2)

theorem costOf_pos (hquantity : 0 < quantity) (hprice : 0 < price) : 0 < costOf quantity price :=
  mul_pos (mul_pos hquantity hprice) (by norm_num [feeRate])

variable {amount : ℚ} {fills : List ℚ}

theorem Plain.one_closes_iff (h : Plain d price amount [quantity]) (hdivides : Divides [quantity] amount)
    (hprice : 0 < price) :
    BuyCloses price amount (kept (costOf amount price)) [quantity] ↔ BuyClosesPlainly price amount [quantity] := by
  have hpos := hdivides.quantity_pos
  have hnotional := h.notional quantity (by simp)
  have hbounded := h.bounded
  obtain rfl := hdivides.single
  have hplain : BuyClosesPlainly price quantity [quantity] ↔ IsMultiple (10 ^ (-15 : Int)) (quantity * price) :=
    ⟨fun hcloses => hcloses.last quantity (by simp), fun hwhole => ⟨by simp, by simpa using hwhole, by simp⟩⟩
  rw [hplain, BuyCloses, debitOf_plain h.decimals.2 (mul_pos hpos hprice) hnotional hbounded,
    ← costOf_whole_iff hnotional]
  exact ⟨fun heq => heq ▸ kept_isMultiple, fun hwhole => (kept_of_isMultiple hwhole).symm⟩

theorem Plain.pair_closes_iff {first last : ℚ} (h : Plain d price amount [first, last])
    (hdivides : Divides [first, last] amount) (hprice : 0 < price) (hlimit : amount ≤ 100) :
    BuyCloses price amount (kept (costOf amount price)) [first, last] ↔
      BuyClosesPlainly price amount [first, last] := by
  obtain ⟨hfirst, hlast, hsum⟩ := hdivides.pair
  have hwhole := h.whole first (by simp)
  have hwhole' := h.whole last (by simp)
  have hnotional := h.notional first (by simp)
  have hnotional' := h.notional last (by simp)
  have hcost := costOf_pos hfirst hprice
  have hcost' := costOf_pos hlast hprice
  have hcosts : costOf amount price = costOf first price + costOf last price := by
    rw [← hsum]
    simp only [costOf]
    ring
  have hbounded := h.bounded
  have hdebit := debitOf_plain h.decimals.2 (mul_pos hfirst hprice) hnotional (by linarith)
  have hdebit' := debitOf_plain h.decimals.2 (mul_pos hlast hprice) hnotional' (by linarith)
  have hrest := rest_plain h.decimals hcost hcost' (costOf_isMultiple hnotional) (hsum ▸ hbounded)
  rw [hsum] at hrest
  have hrounded : rounded first = first := rounded_of_whole hwhole (by rw [abs_of_pos hfirst]; linarith)
  have htotal : rounded amount = amount :=
    rounded_of_whole (hsum ▸ hwhole.add hwhole') (by rw [abs_of_pos (by linarith)]; linarith)
  have hquantities : rounded first ≠ amount ∧ rounded (kept (rounded first) + last) = amount := by
    rw [hrounded, kept_of_isMultiple hwhole, hsum]
    exact ⟨by linarith, htotal⟩
  have hkept : kept first ≠ 0 ∧ kept last ≠ 0 := by
    rw [kept_of_isMultiple hwhole, kept_of_isMultiple hwhole']
    exact ⟨hfirst.ne', hlast.ne'⟩
  have hgain (hmultiple : IsMultiple orderColumn.unit (costOf last price)) :
      kept (costOf last price + (kept (costOf amount price) - costOf amount price)) = costOf last price ↔
        ¬IsMultiple orderColumn.unit (costOf amount price - orderColumn.unit / 2) :=
    roundTo_halfUp_add_gain_iff Column.unit_pos (by linarith) hcost' hmultiple
  rw [BuyCloses, hdebit, hdebit', hrest]
  constructor
  · rintro ⟨-, -, -, hclosed⟩
    have hmultiple : IsMultiple orderColumn.unit (costOf last price) := hclosed ▸ kept_isMultiple
    have hdecimals := (costOf_whole_iff hnotional').mp hmultiple
    exact ⟨le_rfl, by simpa using hdecimals, fun _ => (hgain hmultiple).mp hclosed.symm⟩
  · rintro ⟨-, hdecimals, hgained⟩
    have hmultiple := (costOf_whole_iff hnotional').mpr (hdecimals last (by simp))
    refine ⟨hquantities, hkept, ?_, ((hgain hmultiple).mpr (hgained rfl)).symm⟩
    have hone : orderColumn.unit ≤ costOf last price := by
      obtain ⟨n, hn⟩ := hmultiple
      have hn' : 0 < n := by
        exact_mod_cast (mul_pos_iff_of_pos_right (Column.unit_pos (c := orderColumn))).mp (hn ▸ hcost')
      rw [hn]
      exact le_mul_of_one_le_left Column.unit_pos.le (by exact_mod_cast hn')
    have hlow := (abs_le.mp (kept_error (costOf amount price))).1
    have hunit : 0 < orderColumn.unit := Column.unit_pos
    linarith

def FillRows.ClosesPlainly (rows : FillRows) (price : ℚ) (fills : List ℚ) : Prop :=
  match rows.order.side with
  | .buy => BuyClosesPlainly price rows.order.quantity fills
  | .sell => fills.length ≤ 2 ∧ rows.order.quantity ≤ rows.lotsHeld

theorem Placed.closes_plainly_iff {rows : FillRows} (h : Placed rows rows.order.quantity price)
    (hdivides : Divides fills rows.order.quantity) (hplain : Plain d price rows.order.quantity fills) :
    rows.Closes price fills ↔ rows.ClosesPlainly price fills := by
  unfold FillRows.Closes FillRows.ClosesPlainly
  cases hside : rows.order.side with
  | sell =>
    exact ⟨fun hcloses => ⟨hcloses.short, hcloses.covered⟩,
      fun ⟨hshort, hcovered⟩ => ⟨hshort, hplain.whole, hcovered⟩⟩
  | buy =>
    have hnotional : IsMultiple (10 ^ (-d : Int)) (rows.order.quantity * price) := by
      have hsum : (fills.map (· * price)).sum = fills.sum * price := by
        simpa using List.sum_map_mul_right fills id price
      rw [← hdivides.total, ← hsum]
      exact IsMultiple.sum (List.forall_mem_map.mpr hplain.notional)
    have hreserved : rows.reservation.remainingAmount = kept (costOf rows.order.quantity price) := by
      rw [h.reserved, hside]
      exact reservedAmount_plain hplain.decimals.2 (mul_pos hdivides.quantity_pos h.price) hnotional hplain.bounded
    simp only [hreserved]
    rcases fills with _ | ⟨first, _ | ⟨last, _ | ⟨third, rest⟩⟩⟩
    · exact absurd rfl hdivides.some
    · exact hplain.one_closes_iff hdivides h.price
    · exact hplain.pair_closes_iff hdivides h.price h.limit
    · exact iff_of_false id fun hcloses => by simpa using hcloses.short

end Plain

-- A fill that is nowhere rounded
structure Unrounded (rows : FillRows) (quantity price : ℚ) : Prop where
  filled : rows.nextFilled quantity = rows.order.filledQuantity + quantity
  stored : kept (rows.order.filledQuantity + quantity) = rows.order.filledQuantity + quantity
  spent : spentOf rows.order.side quantity price = quantity * unitCost rows.order.side price
  rest : rows.remainingAfter quantity price =
    rows.reservation.remainingAmount - quantity * unitCost rows.order.side price
  kept : StoredFills.kept (rows.remainingAfter quantity price) = rows.remainingAfter quantity price

section Exact

variable {rows : FillRows} {executionId : String}

theorem Resting.unrounded (h : Resting rows) (hquantity : 0 < quantity) (hprice : 0 < price)
    (hwhole : IsMultiple orderColumn.unit rows.order.filledQuantity ∧ IsMultiple orderColumn.unit quantity)
    (hfits : rows.order.filledQuantity + quantity ≤ 100)
    (hspent : spentOf rows.order.side quantity price = quantity * unitCost rows.order.side price)
    (hcost : IsMultiple orderColumn.unit (quantity * unitCost rows.order.side price))
    (hfunded : quantity * unitCost rows.order.side price ≤ rows.reservation.remainingAmount)
    (hlimit : rows.reservation.remainingAmount < 10 ^ 10) : Unrounded rows quantity price := by
  have hfilled := hwhole.1.add hwhole.2
  have hnonneg := add_nonneg h.filled hquantity.le
  have hrest := h.remaining.sub hcost
  have hspends := mul_nonneg hquantity.le (unitCost_nonneg rows.order.side hprice)
  have hremaining : rows.remainingAfter quantity price =
      rows.reservation.remainingAmount - quantity * unitCost rows.order.side price := by
    rw [FillRows.remainingAfter, hspent]
    exact rounded_of_whole hrest (by rw [abs_of_nonneg (sub_nonneg.mpr hfunded)]; linarith)
  exact ⟨rounded_of_whole hfilled (by rw [abs_of_nonneg hnonneg]; linarith), kept_of_isMultiple hfilled, hspent,
    hremaining, hremaining ▸ kept_of_isMultiple hrest⟩

def fillOf (executionId : String) (quantity price : ℚ) : SimulatedExecution := { executionId, quantity, price }

theorem Unrounded.target (h : Unrounded rows quantity price) :
    rows.targetState quantity = fillTarget rows.order (fillOf executionId quantity price) := by
  rw [FillRows.targetState, h.filled]
  rfl

theorem Unrounded.spent_eq (h : Unrounded rows quantity price) :
    spentOf rows.order.side quantity price = (settlementOf rows.order (fillOf executionId quantity price)).spent :=
  h.spent.trans (Beyvra.spent_eq rows.order (fillOf executionId quantity price)).symm

theorem Unrounded.acceptsFill (h : Unrounded rows quantity price) (htakes : rows.Takes quantity price) :
    AcceptsFill rows.order rows.reservation (fillOf executionId quantity price) where
  quantity := htakes.positive.1
  price := htakes.positive.2
  fits := h.filled.symm.trans_le htakes.fits
  transition := h.target ▸ htakes.transition
  funded := by
    rw [← h.spent_eq]
    have hfunded := htakes.funded
    unfold FillRows.Funds at hfunded
    unfold spentOf
    cases hside : rows.order.side with
    | buy => rw [hside] at hfunded; exact hfunded.1
    | sell => rw [hside] at hfunded; exact hfunded.2

-- Without rounding the rows change as the exact model's do.
theorem Unrounded.refines (h : Unrounded rows quantity price) (now : Timestamp) :
    (rows.after quantity price).reservation =
        (settlementOf rows.order (fillOf executionId quantity price)).draw rows.reservation ∧
      (rows.after quantity price).order.state = (filledOrder rows.order (fillOf executionId quantity price) now).state ∧
      (rows.after quantity price).order.filledQuantity =
        (filledOrder rows.order (fillOf executionId quantity price) now).filledQuantity := by
  have hspent : rows.remainingAfter quantity price = rows.reservation.remainingAmount -
      (settlementOf rows.order (fillOf executionId quantity price)).spent := by
    rw [h.rest, Beyvra.spent_eq]
    rfl
  refine ⟨?_, h.target, ?_⟩
  · change { rows.reservation with
        remainingAmount := StoredFills.kept (rows.remainingAfter quantity price)
        state := if rows.remainingAfter quantity price = 0 then .consumed else rows.reservation.state } = _
    rw [h.kept, hspent]
    rfl
  · change StoredFills.kept (rows.nextFilled quantity) = rows.order.filledQuantity + quantity
    rw [h.filled, h.stored]

end Exact

theorem stored_fills_through_iff {rows : FillRows} {asked : ℚ} {fills : List ℚ} (h : Placed rows asked price)
    (hdivides : Divides fills rows.order.quantity) :
    (FillsThrough price rows fills ↔ rows.Closes price fills) ∧
      ∀ d, asked = rows.order.quantity → Plain d price rows.order.quantity fills →
        (FillsThrough price rows fills ↔ rows.ClosesPlainly price fills) := by
  refine ⟨fills_through_iff_closes h hdivides, fun d hasked hplain => ?_⟩
  subst hasked
  exact (fills_through_iff_closes h hdivides).trans (h.closes_plainly_iff hdivides hplain)

def restingRows (quantity remaining : ℚ) : FillRows where
  order :=
    { id := "TradingOrder", tenantRef := defaultTenant, subjectRef := "user", accountRef := accountRefOf "user"
      instrumentId := "BTC-USD", orderType := .market, side := .buy, quantity, limitPrice := none
      state := .pending, updatedAt := 0 }
  reservation :=
    { account := accountRefOf "user", asset := "USD", originalAmount := remaining, remainingAmount := remaining }
  account := { tenantRef := defaultTenant, subjectRef := "user", accountRef := accountRefOf "user" }
  position := {}
  lotsHeld := 0

theorem restingRows_placed {quantity remaining : ℚ} (hprice : 0 < price) (hwhole : kept quantity = quantity)
    (hlimit : quantity ≤ 100) (hreserved : reservedAmount .buy quantity price = remaining) :
    Placed (restingRows quantity remaining) quantity price where
  opened := by simp [restingRows]
  unfilled := rfl
  stored := hwhole.symm
  limit := hlimit
  active := rfl
  reserved := hreserved.symm
  price := hprice
  held := ⟨le_rfl, 0, by simp [restingRows]⟩
  covered := nofun

theorem restingRows_ten : Placed (restingRows 10 1001) 10 100 :=
  restingRows_placed (by norm_num) (by decide +kernel) (by norm_num) (by decide +kernel)

theorem natCast_whole (n : Nat) : IsMultiple orderColumn.unit n :=
  ⟨n * 10 ^ 18, by norm_num [Column.unit, orderColumn, mul_assoc]⟩

theorem divides_ten {counts : List Nat} (hsome : counts ≠ []) (hpositive : ∀ count ∈ counts, 0 < count)
    (htotal : counts.sum = 10) : Divides (counts.map (↑)) (restingRows 10 1001).order.quantity where
  some := by simpa using hsome
  positive := by simpa using hpositive
  decimal := by simpa using fun count _ => decimal_of_isMultiple (natCast_whole count)
  total := by
    rw [← Nat.cast_list_sum, htotal]
    rfl

theorem plain_ten : Plain 15 100 (restingRows 10 1001).order.quantity ([4, 6].map Nat.cast) where
  decimals := by decide
  whole := by simpa using ⟨natCast_whole 4, natCast_whole 6⟩
  notional := by simpa using ⟨⟨400 * 10 ^ 15, by norm_num⟩, ⟨600 * 10 ^ 15, by norm_num⟩⟩
  bounded := by norm_num [costOf, restingRows, feeRate]

theorem cost_of_ten_not_halfway :
    ¬IsMultiple orderColumn.unit (costOf (restingRows 10 1001).order.quantity 100 - orderColumn.unit / 2) := by
  rintro ⟨n, hn⟩
  norm_num [costOf, restingRows, feeRate, Column.unit, orderColumn] at hn
  have htwice : (2 * n : ℚ) = 2002 * 10 ^ 18 - 1 := by linarith
  have hparity : 2 * n = 2002 * 10 ^ 18 - 1 := by exact_mod_cast htwice
  omega

theorem stored_fills_through_of_two : FillsThrough 100 (restingRows 10 1001) [4, 6] := by
  have hdivides : Divides ([4, 6].map Nat.cast) (restingRows 10 1001).order.quantity :=
    divides_ten (by simp) (by simp) rfl
  have hlast : ∀ last ∈ ([4, 6].map Nat.cast : List ℚ).getLast?, IsMultiple (10 ^ (-15 : Int)) (last * 100) := by
    simpa using ⟨600 * 10 ^ 15, by norm_num⟩
  exact ((stored_fills_through_iff restingRows_ten hdivides).2 15 rfl plain_ten).mpr
    ⟨by simp, hlast, fun _ => cost_of_ten_not_halfway⟩

def third : ℚ := 333333333333333333 / 10 ^ 18

-- Three fills never go through, and the cost of a third is reserved with a digit too few for its debit.
theorem stored_fills_fail :
    (¬∀ rows asked price fills, Placed rows asked price → Divides fills rows.order.quantity →
      FillsThrough price rows fills) ∧
    Placed (restingRows third (reservedAmount .buy third 100)) third 100 ∧
    applyExecution (restingRows third (reservedAmount .buy third 100)) third 100 =
      .error (.simulationFinancialError "RESERVATION_UNDERFUNDED") := by
  refine ⟨fun hclaim => ?_, ?_, by decide +kernel⟩
  · have hdivides : Divides ([4, 4, 2].map Nat.cast) (restingRows 10 1001).order.quantity :=
      divides_ten (by simp) (by simp) rfl
    simpa using at_most_two_fills (hclaim _ _ _ _ restingRows_ten hdivides)
  · exact restingRows_placed (by norm_num) (by decide +kernel) (by norm_num [third]) rfl

end Beyvra.StoredFills
