import Mathlib.Algebra.Order.Field.Rat
import Beyvra.Foundation.Records
import Beyvra.Relational.Latest

namespace Beyvra

open Relational

namespace ValuationSnapshots

def policyVersion : String := "SIMULATION_VALUATION_V1"

structure UnrealizedPnLSnapshot where
  tenantRef : String
  accountRef : String
  instrumentId : String
  quantity : ℚ
  remainingCostBasis : ℚ
  marketValue : ℚ
  unrealizedPnl : ℚ
  currency : String
  baseCurrencyPnl : ℚ
  valuationTime : Timestamp
  qualityState : String
  policyVersion : String
  deriving DecidableEq

structure RealizedPnLEvent where
  tenantRef : String
  accountRef : String
  realizedPnl : ℚ
  realizedAt : Timestamp

structure PositionValuation where
  quantity : ℚ
  priceCurrency : String
  marketValue : ℚ
  baseCurrencyValue : ℚ
  qualityState : String

structure PortfolioNavSnapshot where
  id : Uuid
  tenantRef : String
  accountRef : String
  baseCurrency : String
  cashValue : ℚ
  positionValue : ℚ
  nav : ℚ
  valuationTime : Timestamp
  qualityState : String

-- What the hash of a valuation snapshot is taken of
structure SnapshotEvidence where
  nav : Uuid
  marketDataCutoff : Timestamp
  policy : String

structure ValuationSnapshot where
  tenantRef : String
  scopeType : String
  scopeRef : String
  valuationTime : Timestamp
  baseCurrency : String
  marketDataCutoff : Timestamp
  policyVersions : List (String × String)
  positionCount : Nat
  cashValue : ℚ
  positionValue : ℚ
  nav : ℚ
  realizedPnl : ℚ
  unrealizedPnl : ℚ
  qualityState : String
  evidenceHash : SnapshotEvidence

structure PnLRecords where
  unrealized : List UnrealizedPnLSnapshot := []
  realized : List RealizedPnLEvent := []
  snapshots : List ValuationSnapshot := []

def unrealizedRow (tenantRef accountRef instrumentId : String) (totalCostBasis : ℚ) (value : PositionValuation)
    (time : Timestamp) : UnrealizedPnLSnapshot :=
  { tenantRef, accountRef, instrumentId
    quantity := value.quantity
    remainingCostBasis := totalCostBasis
    marketValue := value.marketValue
    unrealizedPnl := value.marketValue - totalCostBasis
    currency := value.priceCurrency
    baseCurrencyPnl := value.baseCurrencyValue - totalCostBasis
    valuationTime := time
    qualityState := value.qualityState
    policyVersion }

-- `UnrealizedPnLService.calculate`, from the position's valuation and its total cost basis
def calculate (tenantRef accountRef instrumentId : String) (totalCostBasis : ℚ) (value : PositionValuation)
    (time : Timestamp) (r : PnLRecords) : PnLRecords :=
  { r with unrealized := r.unrealized ++ [unrealizedRow tenantRef accountRef instrumentId totalCostBasis value time] }

-- `Sum` is null over no row.
def aggregateSum (values : List ℚ) : Option ℚ := if values = [] then none else some values.sum

def valued (nav : PortfolioNavSnapshot) (r : PnLRecords) : List UnrealizedPnLSnapshot :=
  r.unrealized.filter fun row =>
    row.tenantRef = nav.tenantRef ∧ row.accountRef = nav.accountRef ∧ row.valuationTime ≤ nav.valuationTime

def realizedBy (nav : PortfolioNavSnapshot) (r : PnLRecords) : List RealizedPnLEvent :=
  r.realized.filter fun event =>
    event.tenantRef = nav.tenantRef ∧ event.accountRef = nav.accountRef ∧ event.realizedAt ≤ nav.valuationTime

def create (nav : PortfolioNavSnapshot) (marketDataCutoff : Timestamp) (r : PnLRecords) :
    ValuationSnapshot × PnLRecords :=
  let unrealized := (aggregateSum ((valued nav r).map (·.unrealizedPnl))).getD 0
  let realized := (aggregateSum ((realizedBy nav r).map (·.realizedPnl))).getD 0
  let row : ValuationSnapshot :=
    { tenantRef := nav.tenantRef
      scopeType := "ACCOUNT"
      scopeRef := nav.accountRef
      valuationTime := nav.valuationTime
      baseCurrency := nav.baseCurrency
      marketDataCutoff
      policyVersions := [("valuation", policyVersion)]
      positionCount := 0
      cashValue := nav.cashValue
      positionValue := nav.positionValue
      nav := nav.nav
      realizedPnl := realized
      unrealizedPnl := unrealized
      qualityState := nav.qualityState
      evidenceHash := ⟨nav.id, marketDataCutoff, policyVersion⟩ }
  (row, { r with snapshots := r.snapshots ++ [row] })

def newer : UnrealizedPnLSnapshot → UnrealizedPnLSnapshot → Prop := descending (·.valuationTime)

instance : DecidableRel newer := inferInstanceAs (DecidableRel (descending _))

instance : Std.Total newer := inferInstanceAs (Std.Total (descending _))

instance : IsTrans UnrealizedPnLSnapshot newer := inferInstanceAs (IsTrans _ (descending _))

-- Of several rows with the newest valuation time the one recorded last is the latest.
def latestPnl (nav : PortfolioNavSnapshot) (r : PnLRecords) : ℚ :=
  latestSum (·.instrumentId) (·.unrealizedPnl) newer (valued nav r).reverse

def supersededPnl (nav : PortfolioNavSnapshot) (r : PnLRecords) : ℚ :=
  supersededSum (·.instrumentId) (·.unrealizedPnl) newer (valued nav r).reverse

def LaterValued (nav : PortfolioNavSnapshot) (r : PnLRecords) (instrumentId : String) (time : Timestamp) : Prop :=
  ∃ row ∈ valued nav r, row.instrumentId = instrumentId ∧ time < row.valuationTime

variable {nav : PortfolioNavSnapshot} {r : PnLRecords} {instrumentId : String} {totalCostBasis : ℚ}
  {value : PositionValuation} {time : Timestamp}

theorem aggregateSum_getD (values : List ℚ) : (aggregateSum values).getD 0 = values.sum := by
  unfold aggregateSum
  split_ifs with h
  · rw [h]
    rfl
  · rfl

theorem create_unrealizedPnl (marketDataCutoff : Timestamp) :
    (create nav marketDataCutoff r).1.unrealizedPnl = ((valued nav r).map (·.unrealizedPnl)).sum :=
  aggregateSum_getD _

theorem sum_valued : ((valued nav r).map (·.unrealizedPnl)).sum = latestPnl nav r + supersededPnl nav r := by
  rw [latestPnl, supersededPnl, ← sum_eq_latestSum_add]
  exact (((valued nav r).reverse_perm).map _).sum_eq.symm

theorem valued_calculate (h : time ≤ nav.valuationTime) :
    valued nav (calculate nav.tenantRef nav.accountRef instrumentId totalCostBasis value time r) =
      valued nav r ++ [unrealizedRow nav.tenantRef nav.accountRef instrumentId totalCostBasis value time] := by
  rw [valued, calculate, List.filter_append, valued, List.filter_cons_of_pos (by simpa [unrealizedRow] using h),
    List.filter_nil]

theorem LaterValued.le (h : LaterValued nav r instrumentId time) : time ≤ nav.valuationTime := by
  obtain ⟨row, hrow, -, hlt⟩ := h
  have hbound := (of_decide_eq_true (List.mem_filter.mp hrow).2).2.2
  exact hlt.le.trans hbound

-- What the latest valuations come to does not depend on an earlier one.
theorem latestPnl_calculate (h : LaterValued nav r instrumentId time) :
    latestPnl nav (calculate nav.tenantRef nav.accountRef instrumentId totalCostBasis value time r) =
      latestPnl nav r := by
  rw [latestPnl, valued_calculate h.le, List.reverse_append, List.reverse_singleton, List.singleton_append, latestPnl]
  obtain ⟨row, hrow, hinstrument, hlt⟩ := h
  have hmem : row ∈ ofKey (·.instrumentId) (valued nav r).reverse instrumentId :=
    List.mem_filter.mpr ⟨List.mem_reverse.mpr hrow, decide_eq_true hinstrument⟩
  obtain ⟨newest, hnewest⟩ : ∃ y, latest newer _ = some y := exists_latest hmem
  refine latestSum_cons hnewest fun hbefore => ?_
  have hle : newest.valuationTime ≤ time := hbefore
  rcases latest_before hnewest hmem with rfl | hrow'
  · exact absurd hlt (not_lt.mpr hle)
  · have hle' : row.valuationTime ≤ newest.valuationTime := hrow'
    exact absurd hlt (not_lt.mpr (hle'.trans hle))

theorem valuation_snapshot_iff (nav : PortfolioNavSnapshot) (marketDataCutoff : Timestamp) (r : PnLRecords) :
    ((create nav marketDataCutoff r).1.unrealizedPnl = latestPnl nav r ↔ supersededPnl nav r = 0) ∧
      ∀ instrumentId totalCostBasis value time, LaterValued nav r instrumentId time →
        ((create nav marketDataCutoff
          (calculate nav.tenantRef nav.accountRef instrumentId totalCostBasis value time r)).1.unrealizedPnl =
            (create nav marketDataCutoff r).1.unrealizedPnl ↔ value.marketValue - totalCostBasis = 0) := by
  refine ⟨?_, fun instrumentId totalCostBasis value time hlater => ?_⟩
  · rw [create_unrealizedPnl, sum_valued]
    exact add_eq_left
  · rw [create_unrealizedPnl, create_unrealizedPnl, valued_calculate hlater.le, List.map_append, List.sum_append,
      List.map_singleton, List.sum_singleton]
    exact add_eq_left

def navAt (valuationTime : Timestamp) : PortfolioNavSnapshot :=
  { id := "nav", tenantRef := "t", accountRef := "a", baseCurrency := "USD", cashValue := 0, positionValue := 120
    nav := 120, valuationTime, qualityState := "FRESH" }

def priced (marketValue : ℚ) : PositionValuation :=
  { quantity := 1, priceCurrency := "USD", marketValue, baseCurrencyValue := marketValue, qualityState := "FRESH" }

-- One position with a cost of 100, valued at 110 and then at 120
def valuedTwice : PnLRecords :=
  calculate "t" "a" "AAPL" 100 (priced 120) 2 (calculate "t" "a" "AAPL" 100 (priced 110) 1 {})

theorem valued_twice_counts_both :
    (create (navAt 3) 3 valuedTwice).1.unrealizedPnl ≠ latestPnl (navAt 3) valuedTwice ∧
      (create (navAt 3) 3 valuedTwice).1.unrealizedPnl = 30 ∧ latestPnl (navAt 3) valuedTwice = 20 := by
  decide +kernel

theorem valued_at_cost_before :
    (create (navAt 3) 3 (calculate "t" "a" "AAPL" 100 (priced 100) 0 valuedTwice)).1.unrealizedPnl =
      (create (navAt 3) 3 valuedTwice).1.unrealizedPnl := by
  have hlater : LaterValued (navAt 3) valuedTwice "AAPL" 0 :=
    ⟨unrealizedRow "t" "a" "AAPL" 100 (priced 110) 1, by decide +kernel, rfl, by decide⟩
  exact ((valuation_snapshot_iff (navAt 3) 3 valuedTwice).2 "AAPL" 100 (priced 100) 0 hlater).mpr (by decide +kernel)

end ValuationSnapshots

end Beyvra
