import Beyvra.Numeric.Column
import Beyvra.Pricing.Entitlements
import Beyvra.Relational.SortedBy

namespace Beyvra

open Relational Numeric

namespace Pricing

inductive FeeType where
  | tradingCommission | maker | taker | withdrawal | deposit | transfer | exchangePassThrough | brokerPassThrough
  | regulatory | subscription | other
  deriving DecidableEq

inductive RateType where
  | flat | percent | basisPoints | perShare | perContract | perUnit | tiered
  deriving DecidableEq

structure FeeSchedule where
  feeType : FeeType
  status : String
  priority : Int
  deriving DecidableEq

structure FeeRule where
  schedule : FeeSchedule
  assetClass : String
  minNotional : Option ℚ
  maxNotional : Option ℚ
  rateType : RateType
  rateValue : ℚ
  minFee : Option ℚ
  maxFee : Option ℚ
  currency : String
  effectiveFrom : Timestamp
  effectiveTo : Option Timestamp
  ruleVersion : Nat
  isRebate : Bool
  deriving DecidableEq

structure FeeWaiver where
  account : Nat
  feeType : FeeType
  effectiveFrom : Timestamp
  effectiveTo : Option Timestamp

structure PricingRoundingPolicy where
  currency : String
  decimalPlaces : Nat
  effectiveFrom : Timestamp
  effectiveTo : Option Timestamp

structure FeeTables where
  rules : List FeeRule
  waivers : List FeeWaiver
  policies : List PricingRoundingPolicy

structure FeeContext where
  account : Nat
  feeType : FeeType
  notional : ℚ
  quantity : ℚ
  assetClass : String
  atTime : Timestamp

structure FeeQuote where
  amount : ℚ
  currency : Option String
  ruleVersion : Option Nat
  waiver : Bool
  deriving DecidableEq

inductive FeeRaised where
  | valueError (code : String)
  | decimalException
  deriving DecidableEq

section Calculate

variable (tables : FeeTables) (request : FeeContext)

def waived : Bool :=
  tables.waivers.any fun w => w.account = request.account && w.feeType = request.feeType &&
    within w.effectiveFrom w.effectiveTo request.atTime

-- order_by("schedule__priority", "-rule_version")
def chosenRule : Option FeeRule :=
  (sortedBy (fun r => toLex (r.schedule.priority, -(r.ruleVersion : Int))) (tables.rules.filter fun r =>
    r.schedule.feeType = request.feeType && r.schedule.status = "ACTIVE" &&
      within r.effectiveFrom r.effectiveTo request.atTime &&
      (r.assetClass = "" || r.assetClass = request.assetClass))).head?

def baseOf : RateType → Option (Option ℚ)
  | .flat => some (some 1)
  | .percent => some (defaultContext.finalize (request.notional / 100))
  | .basisPoints => some (defaultContext.finalize (request.notional / 10000))
  | .perShare => some (some request.quantity)
  | .perContract => some (some request.quantity)
  | .perUnit => some (some request.quantity)
  | .tiered => none

def clampFee (rule : FeeRule) (amount : ℚ) : ℚ :=
  let raised := (rule.minFee.map (max amount)).getD amount
  (rule.maxFee.map (min raised)).getD raised

def decimalPlaces (currency : String) : Nat :=
  ((sortedBy (fun p => -p.effectiveFrom) (tables.policies.filter fun p => p.currency = currency &&
    within p.effectiveFrom p.effectiveTo request.atTime)).head?.map (·.decimalPlaces)).getD 2

def calculateFee : Except FeeRaised FeeQuote := do
  require (¬(request.notional < 0 ∨ request.quantity < 0)) (.valueError "Negative context values are invalid")
  if waived tables request then return ⟨0, none, none, true⟩
  else
    let rule ← demand (chosenRule tables request) (.valueError "FEE_POLICY_UNAVAILABLE")
    let base ← demand (baseOf request rule.rateType) (.valueError "TIER_SOURCE_UNAVAILABLE")
    let base ← demand base .decimalException
    let amount ← demand (defaultContext.mul base rule.rateValue) .decimalException
    let places := decimalPlaces tables request rule.currency
    let amount ← demand (defaultContext.quantize halfUp (-places) (clampFee rule amount)) .decimalException
    require (¬(amount < 0 ∧ rule.isRebate = false)) (.valueError "UNEXPECTED_NEGATIVE_FEE")
    return ⟨amount, some rule.currency, some rule.ruleVersion, false⟩

end Calculate

def NotionalInRange (rule : FeeRule) (notional : ℚ) : Prop :=
  (∀ m ∈ rule.minNotional, m ≤ notional) ∧ ∀ m ∈ rule.maxNotional, notional ≤ m

structure FeeSound (rule : FeeRule) (notional : ℚ) (quote : FeeQuote) : Prop where
  notBelow : ∀ m ∈ rule.minFee, m ≤ quote.amount
  notAbove : ∀ m ∈ rule.maxFee, quote.amount ≤ m
  nonnegative : rule.isRebate = false → 0 ≤ quote.amount
  range : NotionalInRange rule notional

def feeUnit (places : Nat) : ℚ := 10 ^ (-places : Int)

-- The fee of the rate, to 28 digits
def rateFee (request : FeeContext) (rule : FeeRule) : ℚ :=
  defaultContext.round (rule.rateValue * match rule.rateType with
    | .flat => 1
    | .percent => defaultContext.round (request.notional / 100)
    | .basisPoints => defaultContext.round (request.notional / 10000)
    | .tiered => 0
    | _ => request.quantity)

-- A fee is not rounded past its bounds: it is at least half a unit below the first multiple of the unit from the
-- minimum on, and less than half a unit above the last one up to the maximum; below zero, ties count the other way.
structure RoundsWithin (rule : FeeRule) (unit fee : ℚ) : Prop where
  lower : ∀ m ∈ rule.minFee,
    if 0 < ⌈m / unit⌉ then (⌈m / unit⌉ - 1 / 2) * unit ≤ fee else (⌈m / unit⌉ - 1 / 2) * unit < fee
  upper : ∀ m ∈ rule.maxFee,
    if ⌊m / unit⌋ < 0 then fee ≤ (⌊m / unit⌋ + 1 / 2) * unit else fee < (⌊m / unit⌋ + 1 / 2) * unit

variable {tables : FeeTables} {request : FeeContext} {rule : FeeRule} {quote : FeeQuote} {base amount : ℚ}

theorem feeUnit_pos (places : Nat) : 0 < feeUnit places := zpow_pos (by norm_num) _

theorem rateFee_of_base (hbase : baseOf request rule.rateType = some (some base))
    (hamount : defaultContext.mul base rule.rateValue = some amount) : rateFee request rule = amount := by
  have hround := Context.round_of_finalize hamount
  unfold rateFee
  cases htype : rule.rateType with
  | flat =>
    rw [htype] at hbase
    obtain rfl := Option.some.inj (Option.some.inj hbase)
    rwa [mul_comm] at hround
  | percent =>
    rw [htype] at hbase
    rw [← Context.round_of_finalize (Option.some.inj hbase), mul_comm] at hround
    exact hround
  | basisPoints =>
    rw [htype] at hbase
    rw [← Context.round_of_finalize (Option.some.inj hbase), mul_comm] at hround
    exact hround
  | tiered =>
    rw [htype] at hbase
    cases hbase
  | _ =>
    rw [htype] at hbase
    obtain rfl := Option.some.inj (Option.some.inj hbase)
    rwa [mul_comm] at hround

theorem quantize_eq {c : Context} {mode : ℚ → Int} {e : Int} {x r : ℚ} (h : c.quantize mode e x = some r) :
    r = roundTo mode (10 ^ e) x := by
  rw [Context.quantize] at h
  split_ifs at h
  exact (Option.some.inj h).symm

theorem calculateFee_charged (h : calculateFee tables request = .ok quote) (hwaiver : quote.waiver = false) :
    ∃ rule, chosenRule tables request = some rule ∧
      quote.amount = roundTo halfUp (feeUnit (decimalPlaces tables request rule.currency))
        (clampFee rule (rateFee request rule)) ∧ (rule.isRebate = false → 0 ≤ quote.amount) := by
  obtain ⟨_, -, h⟩ := bind_eq_ok.mp h
  split_ifs at h with hwaived
  · rw [← pure_eq_ok.mp h] at hwaiver
    cases hwaiver
  · obtain ⟨rule, hrule, h⟩ := bind_eq_ok.mp h
    obtain ⟨found, hfound, h⟩ := bind_eq_ok.mp h
    obtain ⟨base, hbase, h⟩ := bind_eq_ok.mp h
    obtain ⟨raw, hraw, h⟩ := bind_eq_ok.mp h
    obtain ⟨amount, hamount, h⟩ := bind_eq_ok.mp h
    obtain ⟨_, hsign, h⟩ := bind_eq_ok.mp h
    rw [demand_eq_ok.mp hbase] at hfound
    rw [← pure_eq_ok.mp h]
    refine ⟨rule, demand_eq_ok.mp hrule, ?_, fun hrebate => ?_⟩
    · rw [rateFee_of_base (demand_eq_ok.mp hfound) (demand_eq_ok.mp hraw)]
      exact quantize_eq (demand_eq_ok.mp hamount)
    · exact not_lt.mp fun hneg => require_eq_ok.mp hsign ⟨hneg, hrebate⟩

theorem fee_sound_iff (h : calculateFee tables request = .ok quote) (hwaiver : quote.waiver = false) :
    ∃ rule, chosenRule tables request = some rule ∧ (FeeSound rule request.notional quote ↔
      NotionalInRange rule request.notional ∧ RoundsWithin rule
        (feeUnit (decimalPlaces tables request rule.currency)) (clampFee rule (rateFee request rule))) := by
  obtain ⟨rule, hrule, hamount, hsign⟩ := calculateFee_charged h hwaiver
  refine ⟨rule, hrule, ?_⟩
  constructor
  · rintro ⟨hbelow, habove, -, hrange⟩
    rw [hamount] at hbelow habove
    exact ⟨hrange, fun m hm => (le_roundTo_halfUp_iff (feeUnit_pos _)).mp (hbelow m hm),
      fun m hm => (roundTo_halfUp_le_iff (feeUnit_pos _)).mp (habove m hm)⟩
  · rintro ⟨hrange, hlower, hupper⟩
    refine ⟨fun m hm => ?_, fun m hm => ?_, hsign, hrange⟩
    · rw [hamount]
      exact (le_roundTo_halfUp_iff (feeUnit_pos _)).mpr (hlower m hm)
    · rw [hamount]
      exact (roundTo_halfUp_le_iff (feeUnit_pos _)).mpr (hupper m hm)

def commission (minNotional : Option ℚ) (maxFee : ℚ) : FeeRule :=
  ⟨⟨.tradingCommission, "ACTIVE", 100⟩, "", minNotional, none, .basisPoints, 10, some 1, some maxFee, "USD", 0, none, 1, false⟩

def tradingRequest (notional : ℚ) : FeeContext := ⟨1, .tradingCommission, notional, 1, "EQUITY", 0⟩

def feeTables (minNotional : Option ℚ) (maxFee : ℚ) : FeeTables := ⟨[commission minNotional maxFee], [], []⟩

-- Ten basis points of 100 are 0.1, which the minimum raises to 1.
theorem commission_sound : ∃ rule, chosenRule (feeTables none 10) (tradingRequest 100) = some rule ∧
    (FeeSound rule 100 ⟨1, some "USD", some 1, false⟩ ↔ NotionalInRange rule 100 ∧
      RoundsWithin rule (feeUnit (decimalPlaces (feeTables none 10) (tradingRequest 100) rule.currency))
        (clampFee rule (rateFee (tradingRequest 100) rule))) :=
  fee_sound_iff (by decide +kernel) rfl

-- The rule declares that it is for a notional from 1000 on, and is charged on 100.
theorem commission_out_of_range :
    calculateFee (feeTables (some 1000) 10) (tradingRequest 100) = .ok ⟨1, some "USD", some 1, false⟩ ∧
      chosenRule (feeTables (some 1000) 10) (tradingRequest 100) = some (commission (some 1000) 10) ∧
      ¬FeeSound (commission (some 1000) 10) 100 ⟨1, some "USD", some 1, false⟩ := by
  refine ⟨by decide +kernel, by decide +kernel, fun h => ?_⟩
  exact absurd (h.range.1 1000 rfl) (by norm_num)

-- A maximum of 1.006 is itself rounded up to 1.01.
example : calculateFee (feeTables none (1006 / 1000)) (tradingRequest 10000) =
    .ok ⟨101 / 100, some "USD", some 1, false⟩ := by decide +kernel

end Pricing

end Beyvra
