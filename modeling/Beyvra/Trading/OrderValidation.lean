import Beyvra.Foundation.Decimals

namespace Beyvra

open Numeric

namespace OrderValidation

-- A scalar of the request body, a float as the text that `str` gives of it
inductive Field where
  | null
  | flag (value : Bool)
  | int (value : Int)
  | float (text : String)
  | str (text : String)

def Field.text : Field → String
  | .null => "None"
  | .flag value => if value then "True" else "False"
  | .int value => toString value
  | .float text => text
  | .str text => text

def Field.truthy : Field → Bool
  | .null => false
  | .flag value => value
  | .int value => value ≠ 0
  | .float text => text ≠ "0.0" && text ≠ "-0.0"
  | .str text => text ≠ ""

def Field.orElse (a b : Field) : Field := if a.truthy then a else b

structure OrderData where
  instrument : Field := .null
  instrumentId : Field := .null
  side : Field := .null
  orderType : Field := .null
  quantity : Field := .null
  limitPrice : Field := .null

inductive Raised where
  | valueError (code : String)
  | invalidOperation
  deriving DecidableEq

structure OrderPayload where
  instrumentId : String
  side : String
  orderType : String
  quantity : Decimal
  price : Decimal
  limitPrice : Option Decimal
  deriving DecidableEq

section Normalize

variable (upper : String → String) (prices : String → Option String) (data : OrderData)

def instrumentOf : String :=
  let instrument := upper (data.instrument.orElse (data.instrumentId.orElse (.str ""))).text
  let chars := instrument.toList
  if '-' ∉ chars ∧ ['U', 'S', 'D'] <:+ chars then String.ofList (chars.take (chars.length - 3)) ++ "-USD"
  else instrument

def sideOf : String := upper (data.side.orElse (.str "")).text

def orderTypeOf : String := upper (data.orderType.orElse (.str "MARKET")).text

def limitPriceOf : Option (Option Decimal) :=
  if orderTypeOf upper data = "LIMIT" then (decimalOf data.limitPrice.text).map some else some none

-- The guarded block, in which every exception becomes a validation error
def readOrder : Option OrderPayload := do
  let quantity ← decimalOf data.quantity.text
  let price ← (prices (instrumentOf upper data)).bind decimalOf
  let limitPrice ← limitPriceOf upper data
  return ⟨instrumentOf upper data, sideOf upper data, orderTypeOf upper data, quantity, price, limitPrice⟩

def checkAboveZero (amount : Decimal) : Except Raised Unit :=
  match amount.leZero with
  | none => .error .invalidOperation
  | some true => .error (.valueError "VALIDATION_ERROR")
  | some false => .ok ()

def checkLimitPrice (order : OrderPayload) : Except Raised Unit :=
  if order.orderType = "LIMIT" then
    match order.limitPrice with
    | none => .error (.valueError "VALIDATION_ERROR")
    | some limitPrice => checkAboveZero limitPrice
  else .ok ()

def Supported (side orderType : String) : Prop := side ∈ ["BUY", "SELL"] ∧ orderType ∈ ["MARKET", "LIMIT"]

instance (side orderType : String) : Decidable (Supported side orderType) := inferInstanceAs (Decidable (_ ∧ _))

def normalizedPayload : Except Raised OrderPayload :=
  match readOrder upper prices data with
  | none => .error (.valueError "VALIDATION_ERROR")
  | some order =>
    if Supported order.side order.orderType then do
      checkAboveZero order.quantity
      checkLimitPrice order
      return order
    else .error (.valueError "VALIDATION_ERROR")

end Normalize

def FinitePositive : Decimal → Prop
  | .finite d => 0 < d.value
  | _ => False

structure OrderPayload.Valid (order : OrderPayload) : Prop where
  quantity : FinitePositive order.quantity
  limitPrice : order.orderType = "LIMIT" → ∃ limitPrice, order.limitPrice = some limitPrice ∧ FinitePositive limitPrice

def Handled : Except Raised OrderPayload → Prop
  | .ok order => order.Valid
  | .error error => error = .valueError "VALIDATION_ERROR"

-- A NaN, which no ordering accepts
def Signals (amount : Decimal) : Prop := amount.leZero = none

def Above (amount : Decimal) : Prop := amount.leZero = some false

section Conditions

variable (upper : String → String) (prices : String → Option String) (data : OrderData)

structure Quotable : Prop where
  price : ((prices (instrumentOf upper data)).bind decimalOf).isSome
  supported : Supported (sideOf upper data) (orderTypeOf upper data)

structure Ordinary : Prop where
  market : orderTypeOf upper data = "MARKET" → ∀ quantity, decimalOf data.quantity.text = some quantity →
    ¬Signals quantity ∧ quantity ≠ .infinity false
  limit : orderTypeOf upper data = "LIMIT" → ∀ quantity, decimalOf data.quantity.text = some quantity →
    ∀ limitPrice, decimalOf data.limitPrice.text = some limitPrice → ¬Signals quantity ∧ (Above quantity →
      ¬Signals limitPrice ∧ (Above limitPrice → quantity ≠ .infinity false ∧ limitPrice ≠ .infinity false))

end Conditions

variable {upper : String → String} {prices : String → Option String} {data : OrderData} {amount : Decimal}
  {order : OrderPayload}

theorem finitePositive_iff : FinitePositive amount ↔ Above amount ∧ amount ≠ .infinity false := by
  cases amount with
  | finite d => simp [FinitePositive, Above, Decimal.leZero]
  | infinity negative => simp [FinitePositive, Above, Decimal.leZero]
  | nan signaling => simp [FinitePositive, Above, Decimal.leZero]

theorem handled_check {rest : Except Raised OrderPayload} :
    Handled (checkAboveZero amount >>= fun _ => rest) ↔ ¬Signals amount ∧ (Above amount → Handled rest) := by
  unfold checkAboveZero Signals Above
  cases amount.leZero with
  | none => simp [Handled, bind, Except.bind]
  | some low => cases low <;> simp [Handled, bind, Except.bind]

theorem valid_market (htype : order.orderType = "MARKET") : order.Valid ↔ FinitePositive order.quantity := by
  refine ⟨fun h => h.quantity, fun h => ⟨h, fun hlimit => ?_⟩⟩
  rw [htype] at hlimit
  exact absurd hlimit (by decide)

theorem valid_limit {limitPrice : Decimal} (htype : order.orderType = "LIMIT")
    (hlimit : order.limitPrice = some limitPrice) :
    order.Valid ↔ FinitePositive order.quantity ∧ FinitePositive limitPrice := by
  constructor
  · intro h
    obtain ⟨price, hprice, hpositive⟩ := h.limitPrice htype
    obtain rfl := Option.some.inj (hlimit.symm.trans hprice)
    exact ⟨h.quantity, hpositive⟩
  · exact fun ⟨hquantity, hpositive⟩ => ⟨hquantity, fun _ => ⟨limitPrice, hlimit, hpositive⟩⟩

theorem normalizedPayload_of_not_quotable (h : ¬Quotable upper prices data) :
    normalizedPayload upper prices data = .error (.valueError "VALIDATION_ERROR") := by
  unfold normalizedPayload
  cases hread : readOrder upper prices data with
  | none => rfl
  | some order =>
    obtain ⟨quantity, -, hrest⟩ := Option.bind_eq_some_iff.mp hread
    obtain ⟨price, hprice, hrest⟩ := Option.bind_eq_some_iff.mp hrest
    obtain ⟨limitPrice, -, hrest⟩ := Option.bind_eq_some_iff.mp hrest
    obtain rfl := Option.some.inj hrest
    exact if_neg fun hsupported => h ⟨Option.isSome_iff_exists.mpr ⟨price, hprice⟩, hsupported⟩

theorem handled_of_read (h : Supported order.side order.orderType) (hread : readOrder upper prices data = some order) :
    Handled (normalizedPayload upper prices data) ↔ ¬Signals order.quantity ∧
      (Above order.quantity → Handled (checkLimitPrice order >>= fun _ => .ok order)) := by
  rw [normalizedPayload, hread]
  dsimp only
  rw [if_pos h]
  exact handled_check

theorem handled_market (h : Quotable upper prices data) (htype : orderTypeOf upper data = "MARKET") :
    Handled (normalizedPayload upper prices data) ↔ ∀ quantity, decimalOf data.quantity.text = some quantity →
      ¬Signals quantity ∧ quantity ≠ .infinity false := by
  obtain ⟨price, hprice⟩ := Option.isSome_iff_exists.mp h.price
  cases hquantity : decimalOf data.quantity.text with
  | none =>
    have hread : readOrder upper prices data = none := by simp [readOrder, hquantity]
    simp [normalizedPayload, hread, Handled]
  | some quantity =>
    have hread : readOrder upper prices data = some ⟨instrumentOf upper data, sideOf upper data, orderTypeOf upper data,
        quantity, price, none⟩ := by simp [readOrder, hquantity, hprice, limitPriceOf, htype]
    have hskip : checkLimitPrice ⟨instrumentOf upper data, sideOf upper data, orderTypeOf upper data, quantity, price,
        none⟩ = .ok () := by simp [checkLimitPrice, htype]
    rw [handled_of_read h.supported hread, hskip]
    show (¬Signals quantity ∧ (Above quantity → OrderPayload.Valid _)) ↔ _
    rw [valid_market htype]
    simp only [finitePositive_iff, Option.some.injEq, forall_eq']
    refine and_congr_right fun _ => ⟨fun hvalid => ?_, fun hfinite habove => ⟨habove, hfinite⟩⟩
    rintro rfl
    exact (hvalid rfl).2 rfl

theorem handled_limit (h : Quotable upper prices data) (htype : orderTypeOf upper data = "LIMIT") :
    Handled (normalizedPayload upper prices data) ↔ ∀ quantity, decimalOf data.quantity.text = some quantity →
      ∀ limitPrice, decimalOf data.limitPrice.text = some limitPrice → ¬Signals quantity ∧ (Above quantity →
        ¬Signals limitPrice ∧ (Above limitPrice → quantity ≠ .infinity false ∧ limitPrice ≠ .infinity false)) := by
  obtain ⟨price, hprice⟩ := Option.isSome_iff_exists.mp h.price
  cases hquantity : decimalOf data.quantity.text with
  | none =>
    have hread : readOrder upper prices data = none := by simp [readOrder, hquantity]
    simp [normalizedPayload, hread, Handled]
  | some quantity =>
    cases hlimit : decimalOf data.limitPrice.text with
    | none =>
      have hread : readOrder upper prices data = none := by simp [readOrder, limitPriceOf, htype, hlimit]
      simp [normalizedPayload, hread, Handled]
    | some limitPrice =>
      have hread : readOrder upper prices data = some ⟨instrumentOf upper data, sideOf upper data,
          orderTypeOf upper data, quantity, price, some limitPrice⟩ := by
        simp [readOrder, hquantity, hprice, limitPriceOf, htype, hlimit]
      have hcheck : checkLimitPrice ⟨instrumentOf upper data, sideOf upper data, orderTypeOf upper data, quantity, price,
          some limitPrice⟩ = checkAboveZero limitPrice := if_pos htype
      rw [handled_of_read h.supported hread, hcheck, handled_check]
      show (¬Signals quantity ∧ (Above quantity → ¬Signals limitPrice ∧ (Above limitPrice → OrderPayload.Valid _))) ↔ _
      rw [valid_limit htype rfl]
      simp only [finitePositive_iff, Option.some.injEq, forall_eq']
      refine and_congr_right fun _ => forall_congr' fun habove => and_congr_right fun _ => forall_congr' fun hlow => ?_
      exact ⟨fun ⟨hfirst, hsecond⟩ => ⟨hfirst.2, hsecond.2⟩, fun ⟨hfirst, hsecond⟩ => ⟨⟨habove, hfirst⟩, hlow, hsecond⟩⟩

theorem order_handled (upper : String → String) (prices : String → Option String) (data : OrderData) :
    Handled (normalizedPayload upper prices data) ↔ (Quotable upper prices data → Ordinary upper data) := by
  by_cases h : Quotable upper prices data
  · rcases List.mem_cons.mp h.supported.2 with htype | hrest
    · have hother : orderTypeOf upper data ≠ "LIMIT" := by simp [htype]
      rw [handled_market h htype]
      exact ⟨fun hmarket _ => ⟨fun _ => hmarket, fun hlimit => absurd hlimit hother⟩,
        fun hordinary => (hordinary h).market htype⟩
    · have htype : orderTypeOf upper data = "LIMIT" := List.mem_singleton.mp hrest
      have hother : orderTypeOf upper data ≠ "MARKET" := by simp [htype]
      rw [handled_limit h htype]
      exact ⟨fun hlimit _ => ⟨fun hmarket => absurd hmarket hother, fun _ => hlimit⟩,
        fun hordinary => (hordinary h).limit htype⟩
  · rw [normalizedPayload_of_not_quotable h]
    exact iff_of_true rfl fun hquotable => absurd hquotable h

def asciiUpper (text : String) : String := String.ofList (text.toList.map Char.toUpper)

def listedPrices (instrument : String) : Option String :=
  if instrument = "BTC-USD" then some "50000.00" else if instrument = "ETH-USD" then some "3000.00" else none

def btcOrder (quantity : String) : OrderData where
  instrument := .str "BTC-USD"
  side := .str "BUY"
  quantity := .str quantity

-- One order ends in an exception that is not caught, another one is accepted with an infinite quantity.
theorem special_quantities : normalizedPayload asciiUpper listedPrices (btcOrder "NaN") = .error .invalidOperation ∧
    normalizedPayload asciiUpper listedPrices (btcOrder "Infinity") = .ok ⟨"BTC-USD", "BUY", "MARKET",
      .infinity false, .finite ⟨false, 5000000, -2⟩, none⟩ ∧
    ¬Handled (normalizedPayload asciiUpper listedPrices (btcOrder "NaN")) ∧
    ¬Handled (normalizedPayload asciiUpper listedPrices (btcOrder "Infinity")) := by
  have hnan : normalizedPayload asciiUpper listedPrices (btcOrder "NaN") = .error .invalidOperation := by decide +kernel
  have hinfinite : normalizedPayload asciiUpper listedPrices (btcOrder "Infinity") = .ok ⟨"BTC-USD", "BUY", "MARKET",
      .infinity false, .finite ⟨false, 5000000, -2⟩, none⟩ := by decide +kernel
  refine ⟨hnan, hinfinite, ?_, ?_⟩
  · rw [hnan]
    exact fun h => nomatch h
  · rw [hinfinite]
    exact fun h => h.quantity

end OrderValidation

end Beyvra
