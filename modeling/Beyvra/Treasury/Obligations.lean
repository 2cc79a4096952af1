import Beyvra.Numeric.RunningSum
import Beyvra.Relational.SortedBy
import Beyvra.Treasury.Records

namespace Beyvra

open Relational Numeric

namespace Treasury

inductive RequirementType where
  | settlement | margin | collateral | withdrawalSimulation | fee | custody | broker | clearing | liquidityBuffer | other
  deriving DecidableEq

inductive RequirementState where
  | forecast | confirmedSimulation | fundedSimulation | shortfall | cancelled | exception
  deriving DecidableEq

structure FundingRequirement where
  tenant : Uuid
  institutionId : Uuid
  requirementType : RequirementType
  currencyOrAsset : String
  amountOrQuantity : ℚ
  state : RequirementState
  holds : amountColumn.Holds amountOrQuantity
  positive : 0 < amountOrQuantity

structure LiquidityBufferPolicy where
  tenant : Uuid
  currency : String
  bufferType : String
  bufferValue : ℚ
  status : String
  effectiveFrom : Timestamp

structure LiquidityTables where
  positions : List TreasuryCashPosition
  requirements : List FundingRequirement
  policies : List LiquidityBufferPolicy

structure LiquiditySnapshot where
  grossCash : ℚ
  availableCash : ℚ
  settlementDue : ℚ
  marginDue : ℚ
  expectedInflows : ℚ
  expectedOutflows : ℚ
  netAvailableLiquidity : ℚ
  liquidityBuffer : ℚ
  liquiditySurplusDeficit : ℚ

structure LiquidityForecast where
  openingLiquidity : ℚ
  expectedInflows : ℚ
  expectedOutflows : ℚ
  expectedBuffer : ℚ
  projectedSurplusDeficit : ℚ

structure LiquidityStressResult where
  startingLiquidity : ℚ
  peakShortfall : ℚ
  minimumLiquidity : ℚ
  bufferBreach : Bool
  requiredFunding : ℚ

def rounded (x : ℚ) : ℚ := defaultContext.round x

def dueStates : List RequirementState := [.forecast, .confirmedSimulation, .shortfall]

section Services

variable (upper : String → String) (tables : LiquidityTables) (tenant institutionId : Uuid) (currency : String)

def cashTotal (amount : TreasuryCashPosition → ℚ) : ℚ := ((getPositions upper tenant currency tables.positions).map amount).sum

-- LiquidityBufferService.required_buffer
def requiredBuffer (outflows settlementDue grossExposure : ℚ) : ℚ :=
  match (sortedBy (fun p => -p.effectiveFrom) (tables.policies.filter fun p => p.tenant = tenant ∧ p.currency = currency ∧
    p.status = "SIMULATION")).head? with
  | none => 0
  | some policy =>
    if policy.bufferType = "PERCENT_OF_OUTFLOWS" then rounded (outflows * policy.bufferValue)
    else if policy.bufferType = "PERCENT_OF_SETTLEMENT_DUE" then rounded (settlementDue * policy.bufferValue)
    else if policy.bufferType = "PERCENT_OF_GROSS_EXPOSURE" then rounded (grossExposure * policy.bufferValue)
    else policy.bufferValue

def dueOf (requirementType : RequirementType) : ℚ :=
  ((tables.requirements.filter fun r => r.tenant = tenant ∧ r.institutionId = institutionId ∧
    r.currencyOrAsset = currency ∧ r.state ∈ dueStates ∧ r.requirementType = requirementType).map (·.amountOrQuantity)).sum

-- LiquidityService.calculate
def calculateLiquidity (inflows outflows : ℚ) : LiquiditySnapshot :=
  let gross := cashTotal upper tables tenant currency (·.grossAmount)
  let available := cashTotal upper tables tenant currency (·.availableAmount)
  let settlement := dueOf tables tenant institutionId currency .settlement
  let margin := dueOf tables tenant institutionId currency .margin
  let net := rounded (rounded (rounded (rounded (available + inflows) - outflows) - settlement) - margin)
  let buffer := requiredBuffer tables tenant currency outflows settlement gross
  ⟨gross, available, settlement, margin, inflows, outflows, net, buffer, rounded (net - buffer)⟩

-- FundingRequirementService.aggregate
def aggregateRequirements : ℚ :=
  ((tables.requirements.filter fun r => r.tenant = tenant ∧ r.currencyOrAsset = currency).map (·.amountOrQuantity)).sum

-- LiquidityForecastService.calculate, which knows the institution only to name it
def forecastLiquidity : LiquidityForecast :=
  let opening := cashTotal upper tables tenant currency (·.availableAmount)
  let outflows := aggregateRequirements tables tenant currency
  let buffer := requiredBuffer tables tenant currency outflows 0 0
  ⟨opening, 0, outflows, buffer, rounded (rounded (opening - outflows) - buffer)⟩

def stressObligations (outflowFactor : ℚ) : ℚ := rounded (aggregateRequirements tables tenant currency * outflowFactor)

-- LiquidityStressService.run
def runStress (cashFactor outflowFactor : ℚ) : LiquidityStressResult :=
  let available := cashTotal upper tables tenant currency (·.availableAmount)
  let stressed := rounded (rounded (available * cashFactor) - stressObligations tables tenant currency outflowFactor)
  ⟨available, max 0 (-stressed), stressed, stressed < 0, max 0 (-stressed)⟩

structure ObligationsAgree (inflows outflows : ℚ) : Prop where
  forecast : (forecastLiquidity upper tables tenant currency).expectedOutflows =
    (calculateLiquidity upper tables tenant institutionId currency inflows outflows).settlementDue +
      (calculateLiquidity upper tables tenant institutionId currency inflows outflows).marginDue
  stress : stressObligations tables tenant currency 1 =
    (calculateLiquidity upper tables tenant institutionId currency inflows outflows).settlementDue +
      (calculateLiquidity upper tables tenant institutionId currency inflows outflows).marginDue

-- The requirements of the tenant in the currency are those of one institution, for settlement or margin.
def SettlementOrMargin : Prop :=
  ∀ r ∈ tables.requirements, r.tenant = tenant → r.currencyOrAsset = currency →
    r.institutionId = institutionId ∧ (r.requirementType = .settlement ∨ r.requirementType = .margin)

structure AllDue : Prop where
  due : ∀ r ∈ tables.requirements, r.tenant = tenant → r.currencyOrAsset = currency → r.state ∈ dueStates
  unrounded : rounded (aggregateRequirements tables tenant currency) = aggregateRequirements tables tenant currency

end Services

variable {upper : String → String} {tables : LiquidityTables} {tenant institutionId : Uuid} {currency : String}
  {inflows outflows : ℚ}

def owed (tables : LiquidityTables) (tenant : Uuid) (currency : String) : List FundingRequirement :=
  tables.requirements.filter fun r => r.tenant = tenant ∧ r.currencyOrAsset = currency

theorem due_eq (h : SettlementOrMargin tables tenant institutionId currency) :
    dueOf tables tenant institutionId currency .settlement + dueOf tables tenant institutionId currency .margin =
      (((owed tables tenant currency).filter fun r => r.state ∈ dueStates).map (·.amountOrQuantity)).sum := by
  have howed : (owed tables tenant currency).filter (fun r => r.state ∈ dueStates) =
      tables.requirements.filter fun r => (r.tenant = tenant ∧ r.currencyOrAsset = currency) ∧ r.state ∈ dueStates := by
    rw [owed, List.filter_filter]
    refine List.filter_congr fun r _ => ?_
    rw [Bool.eq_iff_iff]
    simp only [Bool.and_eq_true, decide_eq_true_eq]
    exact and_comm
  rw [dueOf, dueOf, howed, sum_filter, sum_filter, sum_filter, ← List.sum_map_add]
  refine congrArg List.sum (List.map_congr_left fun r hr => ?_)
  by_cases hrow : r.tenant = tenant ∧ r.currencyOrAsset = currency
  · obtain ⟨hinstitution, hsettlement | hmargin⟩ := h r hr hrow.1 hrow.2
    · simp [hrow, hinstitution, hsettlement]
    · simp [hrow, hinstitution, hmargin]
  · have hnone (p : Prop) : ¬(r.tenant = tenant ∧ r.institutionId = institutionId ∧ r.currencyOrAsset = currency ∧ p) :=
      fun ⟨htenant, _, hcurrency, _⟩ => hrow ⟨htenant, hcurrency⟩
    rw [if_neg (hnone _), if_neg (hnone _), if_neg fun hdue => hrow hdue.1, add_zero]

theorem aggregate_eq_due_iff (h : SettlementOrMargin tables tenant institutionId currency) :
    aggregateRequirements tables tenant currency =
        dueOf tables tenant institutionId currency .settlement + dueOf tables tenant institutionId currency .margin ↔
      ∀ r ∈ owed tables tenant currency, r.state ∈ dueStates := by
  have hsplit := sum_filter_add_filter_not (fun r : FundingRequirement => r.state ∈ dueStates) (·.amountOrQuantity)
    (owed tables tenant currency)
  rw [due_eq h, aggregateRequirements, ← owed, ← hsplit, add_eq_left]
  constructor
  · intro hzero r hr
    by_contra hstate
    have hmem : r ∈ (owed tables tenant currency).filter fun r => ¬r.state ∈ dueStates :=
      List.mem_filter.mpr ⟨hr, decide_eq_true hstate⟩
    refine (List.sum_pos _ (List.forall_mem_map.mpr fun r _ => r.positive) ?_).ne' hzero
    exact List.ne_nil_of_mem (List.mem_map_of_mem hmem)
  · intro hdue
    rw [List.filter_eq_nil_iff.mpr fun r hr => by simpa using hdue r hr]
    rfl

theorem obligations_agree_iff (h : SettlementOrMargin tables tenant institutionId currency) :
    ObligationsAgree upper tables tenant institutionId currency inflows outflows ↔ AllDue tables tenant currency := by
  have hstates : (∀ r ∈ owed tables tenant currency, r.state ∈ dueStates) ↔
      ∀ r ∈ tables.requirements, r.tenant = tenant → r.currencyOrAsset = currency → r.state ∈ dueStates := by
    simp [owed]
  have hstress : stressObligations tables tenant currency 1 = rounded (aggregateRequirements tables tenant currency) := by
    rw [stressObligations, mul_one]
  constructor
  · rintro ⟨hforecast, hagree⟩
    refine ⟨hstates.mp ((aggregate_eq_due_iff h).mp hforecast), ?_⟩
    rw [← hstress, hagree]
    exact hforecast.symm
  · rintro ⟨hdue, hunrounded⟩
    have hforecast := (aggregate_eq_due_iff h).mpr (hstates.mpr hdue)
    exact ⟨hforecast, hstress.trans (hunrounded.trans hforecast)⟩

theorem amountColumn_holds_one : amountColumn.Holds 1 := by
  refine ⟨⟨10 ^ 10, ?_⟩, ?_⟩
  · norm_num [amountColumn, Column.unit]
  · norm_num [amountColumn, Column.bound]

def settlementOf (state : RequirementState) : FundingRequirement :=
  ⟨"tenant", "institution", .settlement, "USD", 1, state, amountColumn_holds_one, one_pos⟩

def requirementTables (state : RequirementState) : LiquidityTables := ⟨[], [settlementOf state], []⟩

theorem settlementOnly (state : RequirementState) :
    SettlementOrMargin (requirementTables state) "tenant" "institution" "USD" := by
  intro r hr _ _
  rw [List.mem_singleton.mp hr]
  exact ⟨rfl, .inl rfl⟩

def marginOf (state : RequirementState) : FundingRequirement :=
  ⟨"tenant", "institution", .margin, "USD", 1, state, amountColumn_holds_one, one_pos⟩

-- Requirements of both types, beside a cancelled one of another tenant
def mixedTables : LiquidityTables where
  positions := []
  requirements := [settlementOf .forecast, marginOf .shortfall, marginOf .confirmedSimulation,
    { settlementOf .cancelled with tenant := "other" }]
  policies := []

theorem forecast_obligations_agree : ObligationsAgree id mixedTables "tenant" "institution" "USD" 0 0 ∧
    (forecastLiquidity id mixedTables "tenant" "USD").expectedOutflows = 3 := by
  have hrows : ∀ r ∈ mixedTables.requirements, r.tenant = "tenant" →
      (r.institutionId = "institution" ∧ (r.requirementType = .settlement ∨ r.requirementType = .margin)) ∧
        r.state ∈ dueStates := by
    simp only [mixedTables, List.forall_mem_cons, List.not_mem_nil, false_imp_iff, implies_true, and_true]
    decide
  refine ⟨(obligations_agree_iff fun r hr htenant _ => (hrows r hr htenant).1).mpr ⟨?_, by decide +kernel⟩,
    by decide +kernel⟩
  exact fun r hr htenant _ => (hrows r hr htenant).2

-- A cancelled requirement is still an outflow of the forecast and of the stress test.
theorem cancelled_forecast : SettlementOrMargin (requirementTables .cancelled) "tenant" "institution" "USD" ∧
    (forecastLiquidity id (requirementTables .cancelled) "tenant" "USD").expectedOutflows = 1 ∧
    (calculateLiquidity id (requirementTables .cancelled) "tenant" "institution" "USD" 0 0).settlementDue = 0 ∧
    ¬ObligationsAgree id (requirementTables .cancelled) "tenant" "institution" "USD" 0 0 := by
  refine ⟨settlementOnly .cancelled, by decide +kernel, by decide +kernel, fun h => ?_⟩
  exact absurd h.forecast (by decide +kernel)

end Treasury

end Beyvra
