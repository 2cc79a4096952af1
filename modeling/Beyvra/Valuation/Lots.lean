import Mathlib.Data.List.Sort
import Beyvra.Database
import Beyvra.Numeric.Column

namespace Beyvra

open Relational Numeric

-- Quantities are NUMERIC(36, 18).
def lotColumn : Column := ⟨36, 18⟩

structure Holding where
  tenantRef : String
  accountRef : String
  instrumentId : String
  deriving DecidableEq

def TaxLot.holding (lot : TaxLot) : Holding := ⟨lot.tenantRef, lot.accountRef, lot.instrumentId⟩

def Trade.holding (trade : Trade) : Holding := ⟨trade.tenantRef, trade.accountRef, trade.instrumentId⟩

def TaxLot.acquiredBefore (a b : TaxLot) : Prop :=
  a.acquisitionDate < b.acquisitionDate ∨ a.acquisitionDate = b.acquisitionDate ∧
    (a.createdAt < b.createdAt ∨ a.createdAt = b.createdAt ∧ a.id ≤ b.id)

instance : DecidableRel TaxLot.acquiredBefore := fun a b => by
  unfold TaxLot.acquiredBefore
  infer_instance

namespace ValuationTables

def remainingLots (v : ValuationTables) (h : Holding) : List TaxLot :=
  v.lots.values.filter fun lot => lot.holding = h ∧ 0 < lot.remainingQuantity

def lotsInOrder (v : ValuationTables) (h : Holding) : List TaxLot :=
  (v.remainingLots h).insertionSort TaxLot.acquiredBefore

def heldIn (lots : Table String TaxLot) (h : Holding) : ℚ :=
  lots.sum fun _ lot => if lot.holding = h then lot.remainingQuantity else 0

def held (v : ValuationTables) (h : Holding) : ℚ := heldIn v.lots h

end ValuationTables

def feeOf (trade : Trade) : Outcome ℚ := do
  let snapshot ← demand trade.feeSnapshot (.doesNotExist "FeeSnapshot")
  pure snapshot.totalFee

theorem feeOf_of {trade : Trade} {snapshot : FeeSnapshot} (h : trade.feeSnapshot = some snapshot) :
    feeOf trade = .ok snapshot.totalFee := by
  unfold feeOf
  rw [bind_of_ok (demand_eq_ok.mpr h)]
  rfl

def openForTrade (env : Env) (trade : Trade) (v : ValuationTables) : Outcome ValuationTables := do
  require (trade.side = .buy) (.valueError "ACQUISITION_TRADE_REQUIRED")
  let fee ← feeOf trade
  let total := trade.grossNotional + fee
  match v.lots.find trade.executionId with
  | some _ => pure v
  | none =>
    let lot : TaxLot :=
      { id := env.uuid4 "TaxLot", tenantRef := trade.tenantRef, accountRef := trade.accountRef
        instrumentId := trade.instrumentId, acquisitionTrade := trade.executionId
        acquisitionDate := Timestamp.date trade.tradeTime, createdAt := env.now
        originalQuantity := trade.quantity, remainingQuantity := trade.quantity
        unitCost := total / trade.quantity, totalCost := total
        currency := trade.tradeCurrency, status := .opened }
    pure { v with lots := v.lots.put trade.executionId lot }

structure Disposal where
  needed : ℚ
  allocatedBasis : ℚ
  lots : Table String TaxLot

def TaxLot.dispose (lot : TaxLot) (trade : Trade) (quantity : ℚ) : TaxLot :=
  let basis := quantity * lot.unitCost
  let proceeds := trade.grossNotional * quantity / trade.quantity
  let remaining := lot.remainingQuantity - quantity
  { lot with
    remainingQuantity := remaining
    status := if remaining = 0 then .closed else .partiallyDisposed
    dispositions := lot.dispositions ++
      [{ disposalTrade := trade.executionId, quantity, allocatedBasis := basis, proceeds
         realizedGainLoss := proceeds - basis, disposedAt := trade.tradeTime }] }

def disposeLot (trade : Trade) (d : Disposal) (lot : TaxLot) : Disposal :=
  if d.needed ≤ 0 then d
  else
    let quantity := min d.needed lot.remainingQuantity
    { needed := d.needed - quantity
      allocatedBasis := d.allocatedBasis + quantity * lot.unitCost
      lots := d.lots.put lot.acquisitionTrade (lot.dispose trade quantity) }

def disposeFifo (trade : Trade) (v : ValuationTables) : Outcome ValuationTables :=
  match v.realizedPnl.find trade.executionId with
  | some _ => pure v
  | none => do
    let lots := v.lotsInOrder trade.holding
    require (trade.quantity ≤ (lots.map (·.remainingQuantity)).sum)
      (.valueError "TAX_LOT_INSUFFICIENT_QUANTITY")
    let d := lots.foldl (disposeLot trade)
      { needed := trade.quantity, allocatedBasis := 0, lots := v.lots }
    let fee ← feeOf trade
    let event : RealizedPnLEvent :=
      { tenantRef := trade.tenantRef, accountRef := trade.accountRef
        instrumentId := trade.instrumentId, quantity := trade.quantity
        proceeds := trade.grossNotional, allocatedCostBasis := d.allocatedBasis, fees := fee
        realizedPnl := trade.grossNotional - d.allocatedBasis - fee, realizedAt := trade.tradeTime }
    pure { v with lots := d.lots, realizedPnl := v.realizedPnl.put trade.executionId event }

def calculateCostBasis (env : Env) (h : Holding) (v : ValuationTables) : ValuationTables :=
  let lots := v.remainingLots h
  let quantity := (lots.map (·.remainingQuantity)).sum
  let gross := (lots.map fun lot => lot.remainingQuantity * lot.unitCost).sum
  let adjustments := ((v.adjustments.filter fun a =>
    (⟨a.tenantRef, a.accountRef, a.instrumentId⟩ : Holding) = h).map (·.basisDelta)).sum
  let total := gross + adjustments
  let position : CostBasisPosition :=
    { quantity, grossCost := gross, adjustments, totalCostBasis := total
      averageUnitCost := if quantity = 0 then 0 else total / quantity
      currency := ((lots.insertionSort fun a b => a.id ≤ b.id).head?.map (·.currency)).getD "USD"
      asOf := env.now }
  { v with costBasis := v.costBasis.put (h.tenantRef, h.accountRef, h.instrumentId) position }

def recordCommission (trade : Trade) (fee : ℚ) (v : ValuationTables) : ValuationTables :=
  if fee = 0 then v
  else match v.incomeExpense.find trade.executionId with
    | some _ => v
    | none =>
      let event : PortfolioIncomeExpenseEvent :=
        { tenantRef := trade.tenantRef, accountRef := trade.accountRef
          instrumentId := trade.instrumentId, amount := -fee
          currency := trade.tradeCurrency, effectiveAt := trade.tradeTime }
      { v with incomeExpense := v.incomeExpense.put trade.executionId event }

def bookLots (env : Env) (trade : Trade) (v : ValuationTables) : Outcome ValuationTables :=
  match trade.side with
  | .buy => openForTrade env trade v
  | .sell => disposeFifo trade v

def processTradeAccounting (env : Env) (trade : Trade) (v : ValuationTables) : Outcome ValuationTables := do
  let v ← bookLots env trade v
  let fee ← feeOf trade
  pure (calculateCostBasis env trade.holding (recordCommission trade fee v))

@[simp] theorem calculateCostBasis_lots (env : Env) (h : Holding) (v : ValuationTables) :
    (calculateCostBasis env h v).lots = v.lots := rfl

@[simp] theorem calculateCostBasis_realizedPnl (env : Env) (h : Holding) (v : ValuationTables) :
    (calculateCostBasis env h v).realizedPnl = v.realizedPnl := rfl

@[simp] theorem recordCommission_lots (trade : Trade) (fee : ℚ) (v : ValuationTables) :
    (recordCommission trade fee v).lots = v.lots := by
  unfold recordCommission
  split
  · rfl
  · split <;> rfl

@[simp] theorem recordCommission_realizedPnl (trade : Trade) (fee : ℚ) (v : ValuationTables) :
    (recordCommission trade fee v).realizedPnl = v.realizedPnl := by
  unfold recordCommission
  split
  · rfl
  · split <;> rfl

@[simp] theorem recordCommission_costBasis (trade : Trade) (fee : ℚ) (v : ValuationTables) :
    (recordCommission trade fee v).costBasis = v.costBasis := by
  unfold recordCommission
  split
  · rfl
  · split <;> rfl

structure LotsKept (lots : Table String TaxLot) : Prop where
  keyed : ∀ key lot, lots.find key = some lot → lot.acquisitionTrade = key
  nonneg : ∀ key lot, lots.find key = some lot → 0 ≤ lot.remainingQuantity

namespace ValuationTables

variable {v : ValuationTables} {lots : Table String TaxLot} {h : Holding}

theorem heldIn_put_of_some {key : String} {old lot : TaxLot} (hold : lots.find key = some old)
    (hsame : lot.holding = old.holding) (h : Holding) :
    heldIn (lots.put key lot) h =
      heldIn lots h + if old.holding = h then lot.remainingQuantity - old.remainingQuantity else 0 := by
  unfold heldIn
  rw [Table.sum_put_of_some hold]
  by_cases hh : old.holding = h
  · simp only [hsame, hh, if_true]
    ring
  · simp only [hsame, hh, if_false]
    ring

theorem mem_remainingLots {lot : TaxLot} :
    lot ∈ v.remainingLots h ↔
      (∃ key, v.lots.find key = some lot) ∧ lot.holding = h ∧ 0 < lot.remainingQuantity := by
  simp [remainingLots, Table.mem_values_iff]

theorem mem_lotsInOrder {lot : TaxLot} : lot ∈ v.lotsInOrder h ↔ lot ∈ v.remainingLots h :=
  List.mem_insertionSort _

theorem sum_remainingLots (hk : LotsKept v.lots) :
    ((v.remainingLots h).map (·.remainingQuantity)).sum = v.held h := by
  have hrows (rows : List (String × TaxLot)) (hn : ∀ p ∈ rows, 0 ≤ p.2.remainingQuantity) :
      (((rows.map Prod.snd).filter fun lot => lot.holding = h ∧ 0 < lot.remainingQuantity).map
        (·.remainingQuantity)).sum =
      (rows.map fun p => if p.2.holding = h then p.2.remainingQuantity else 0).sum := by
    induction rows with
    | nil => rfl
    | cons p rows ih =>
      have hp : 0 ≤ p.2.remainingQuantity := hn p List.mem_cons_self
      have hrest := ih fun q hq => hn q (List.mem_cons_of_mem _ hq)
      simp only [List.map_cons, List.sum_cons, List.filter_cons, ← hrest]
      by_cases hh : p.2.holding = h
      · rcases hp.lt_or_eq with hpos | hzero
        · simp [hh, hpos]
        · simp [← hzero]
      · simp [hh]
  exact hrows v.lots.rows fun p hp => hk.nonneg p.1 p.2 (Table.mem_rows_iff.mp hp)

theorem sum_lotsInOrder (hk : LotsKept v.lots) :
    ((v.lotsInOrder h).map (·.remainingQuantity)).sum = v.held h := by
  rw [← sum_remainingLots hk]
  exact ((List.perm_insertionSort _ _).map _).sum_eq

-- The sums over the lots of a holding are those of the 28-digit context while it stays below 10 ^ 10.
theorem lots_sum_exact (hk : LotsKept v.lots) (hlt : v.held h < 10 ^ 10)
    (hlots : ∀ lot ∈ v.remainingLots h, IsMultiple lotColumn.unit lot.remainingQuantity) :
    ((v.remainingLots h).map (·.remainingQuantity)).foldlM defaultContext.add 0 = some (v.held h) ∧
      ((v.lotsInOrder h).map (·.remainingQuantity)).foldlM defaultContext.add 0 = some (v.held h) := by
  have hterms : ∀ x ∈ (v.remainingLots h).map (·.remainingQuantity), 0 ≤ x ∧ IsMultiple lotColumn.unit x :=
    List.forall_mem_map.mpr fun lot hlot => ⟨(mem_remainingLots.mp hlot).2.2.le, hlots lot hlot⟩
  have hordered : ∀ x ∈ (v.lotsInOrder h).map (·.remainingQuantity), 0 ≤ x ∧ IsMultiple lotColumn.unit x :=
    List.forall_mem_map.mpr fun lot hlot => hterms _ (List.mem_map_of_mem (mem_lotsInOrder.mp hlot))
  have hsum := sum_remainingLots (h := h) hk
  have hsum' := sum_lotsInOrder (h := h) hk
  constructor
  · rw [Column.sum_exact (c := lotColumn) (by decide) hterms (hsum ▸ hlt), hsum]
  · rw [Column.sum_exact (c := lotColumn) (by decide) hordered (hsum' ▸ hlt), hsum']

theorem nodup_lotsInOrder (hk : LotsKept v.lots) :
    ((v.lotsInOrder h).map (·.acquisitionTrade)).Nodup := by
  have hkeys : v.lots.values.map (·.acquisitionTrade) = v.lots.rows.map Prod.fst := by
    unfold Table.values
    rw [List.map_map]
    exact List.map_congr_left fun p hp => hk.keyed p.1 p.2 (Table.mem_rows_iff.mp hp)
  have hvalues : (v.lots.values.map (·.acquisitionTrade)).Nodup := hkeys ▸ v.lots.nodup
  have hfiltered : ((v.remainingLots h).map (·.acquisitionTrade)).Nodup :=
    hvalues.sublist (List.Sublist.map _ List.filter_sublist)
  exact (((List.perm_insertionSort _ _).map _).nodup_iff).mpr hfiltered

end ValuationTables

section Disposal

open ValuationTables

variable {trade : Trade}

theorem TaxLot.dispose_holding (lot : TaxLot) (trade : Trade) (q : ℚ) :
    (lot.dispose trade q).holding = lot.holding := rfl

theorem disposeLot_find_of_ne (d : Disposal) (lot : TaxLot) {key : String}
    (h : key ≠ lot.acquisitionTrade) : (disposeLot trade d lot).lots.find key = d.lots.find key := by
  unfold disposeLot
  split
  · rfl
  · exact Table.find_put_of_ne _ _ h

theorem disposeLot_kept {d : Disposal} (hk : LotsKept d.lots) (lot : TaxLot) :
    LotsKept (disposeLot trade d lot).lots := by
  unfold disposeLot
  split
  · exact hk
  · refine ⟨?_, ?_⟩
    · intro key row hrow
      rw [Table.find_put] at hrow
      split at hrow
      · rename_i hkey
        cases hrow
        exact hkey.symm
      · exact hk.keyed key row hrow
    · intro key row hrow
      rw [Table.find_put] at hrow
      split at hrow
      · cases hrow
        have hle : min d.needed lot.remainingQuantity ≤ lot.remainingQuantity := min_le_right _ _
        simp only [TaxLot.dispose]
        linarith
      · exact hk.nonneg key row hrow

theorem disposeLot_held {d : Disposal} {lot : TaxLot}
    (hlot : d.lots.find lot.acquisitionTrade = some lot) (h : Holding) :
    heldIn (disposeLot trade d lot).lots h =
      heldIn d.lots h -
        if lot.holding = h then d.needed - (disposeLot trade d lot).needed else 0 := by
  by_cases hn : d.needed ≤ 0
  · simp [disposeLot, hn]
  · simp only [disposeLot, hn, if_false]
    rw [heldIn_put_of_some hlot (lot.dispose_holding trade _)]
    by_cases hh : lot.holding = h
    · simp only [hh, if_true, TaxLot.dispose]
      ring
    · simp [hh]

theorem disposeLot_needed (trade : Trade) {d : Disposal} (lot : TaxLot) (hd : 0 ≤ d.needed) :
    0 ≤ (disposeLot trade d lot).needed ∧
      (disposeLot trade d lot).needed ≤ max 0 (d.needed - lot.remainingQuantity) := by
  unfold disposeLot
  split
  · rename_i hn
    exact ⟨hd, hn.trans (le_max_left _ _)⟩
  · rcases le_total d.needed lot.remainingQuantity with hle | hle
    · simp [min_eq_left hle]
    · simp [hle]

theorem disposeLots_spec (trade : Trade) (h : Holding) (ls : List TaxLot) (d : Disposal) (hk : LotsKept d.lots)
    (hnd : (ls.map (·.acquisitionTrade)).Nodup)
    (hmem : ∀ lot ∈ ls, d.lots.find lot.acquisitionTrade = some lot ∧ lot.holding = h)
    (hd : 0 ≤ d.needed) :
    let d' := ls.foldl (disposeLot trade) d
    LotsKept d'.lots ∧ 0 ≤ d'.needed ∧
      d'.needed ≤ max 0 (d.needed - (ls.map (·.remainingQuantity)).sum) ∧
      (∀ h', heldIn d'.lots h' = heldIn d.lots h' - if h' = h then d.needed - d'.needed else 0) ∧
      ∀ key, d.lots.find key = none → d'.lots.find key = none := by
  induction ls generalizing d with
  | nil => exact ⟨hk, hd, by simp, by simp, fun _ hnone => hnone⟩
  | cons lot ls ih =>
    obtain ⟨hlot, hholding⟩ := hmem lot List.mem_cons_self
    obtain ⟨hfresh, hnd'⟩ := List.nodup_cons.mp hnd
    have hstep := disposeLot_needed trade lot hd
    obtain ⟨hk', hn', hle, hheld, hnone⟩ :=
      ih (disposeLot trade d lot) (disposeLot_kept hk lot) hnd' (by
        intro lot' hlot'
        have hne : lot'.acquisitionTrade ≠ lot.acquisitionTrade := fun heq =>
          hfresh (List.mem_map.mpr ⟨lot', hlot', heq⟩)
        rw [disposeLot_find_of_ne d lot hne]
        exact hmem lot' (List.mem_cons_of_mem _ hlot')) hstep.1
    refine ⟨hk', hn', ?_, ?_, ?_⟩
    · have hsum : 0 ≤ (ls.map (·.remainingQuantity)).sum := by
        apply List.sum_nonneg
        intro x hx
        obtain ⟨lot', hlot', rfl⟩ := List.mem_map.mp hx
        exact hk.nonneg _ _ (hmem lot' (List.mem_cons_of_mem _ hlot')).1
      have hmax : (disposeLot trade d lot).needed - (ls.map (·.remainingQuantity)).sum ≤
          max 0 (d.needed - (lot.remainingQuantity + (ls.map (·.remainingQuantity)).sum)) := by
        rcases le_max_iff.mp hstep.2 with hz | hz
        · exact le_max_of_le_left (by linarith)
        · exact le_max_of_le_right (by linarith)
      simp only [List.foldl_cons, List.map_cons, List.sum_cons]
      exact hle.trans (max_le (le_max_left _ _) hmax)
    · intro h'
      simp only [List.foldl_cons]
      rw [hheld h', disposeLot_held hlot h', hholding]
      by_cases hh : h' = h
      · subst hh
        simp only [if_true]
        ring
      · simp [hh, Ne.symm hh]
    · intro key hkey
      apply hnone
      have hne : key ≠ lot.acquisitionTrade := fun heq => by simp [heq, hlot] at hkey
      rw [disposeLot_find_of_ne d lot hne]
      exact hkey

end Disposal

def OrderSide.signed (side : OrderSide) (quantity : ℚ) : ℚ :=
  match side with
  | .buy => quantity
  | .sell => -quantity

def Trade.signedQuantity (trade : Trade) : ℚ := trade.side.signed trade.quantity

def ValuationTables.Unbooked (v : ValuationTables) (executionId : String) : Prop :=
  v.lots.find executionId = none ∧ v.realizedPnl.find executionId = none

structure Booked (trade : Trade) (v v' : ValuationTables) : Prop where
  kept : LotsKept v'.lots
  held : ∀ h, v'.held h = v.held h + if trade.holding = h then trade.signedQuantity else 0
  unbooked : ∀ key, key ≠ trade.executionId → v.Unbooked key → v'.Unbooked key

section Accounting

open ValuationTables

variable {env : Env} {trade : Trade} {v : ValuationTables} {snapshot : FeeSnapshot}

theorem openForTrade_booked (hs : trade.side = .buy) (hfee : trade.feeSnapshot = some snapshot)
    (hq : 0 ≤ trade.quantity) (hk : LotsKept v.lots) (hnone : v.lots.find trade.executionId = none) :
    ∃ v', openForTrade env trade v = .ok v' ∧ Booked trade v v' := by
  refine ⟨_, by simp only [openForTrade, hs, require, if_true, feeOf, demand, hfee, hnone]; rfl, ?_⟩
  refine ⟨⟨?_, ?_⟩, ?_, ?_⟩
  · intro key lot hlot
    rw [Table.find_put] at hlot
    split at hlot
    · rename_i hkey
      cases hlot
      exact hkey.symm
    · exact hk.keyed key lot hlot
  · intro key lot hlot
    rw [Table.find_put] at hlot
    split at hlot
    · cases hlot
      exact hq
    · exact hk.nonneg key lot hlot
  · intro h
    simp only [ValuationTables.held, heldIn, Table.sum_put_of_none hnone]
    by_cases hh : trade.holding = h
    · simp [TaxLot.holding, ← hh, Trade.holding, Trade.signedQuantity, OrderSide.signed, hs]
    · have hlot : ¬(⟨trade.tenantRef, trade.accountRef, trade.instrumentId⟩ : Holding) = h := hh
      simp [TaxLot.holding, hlot, hh]
  · rintro key hne ⟨hlots, hpnl⟩
    exact ⟨by rw [Table.find_put_of_ne _ _ hne]; exact hlots, hpnl⟩

theorem disposeFifo_booked (hs : trade.side = .sell) (hfee : trade.feeSnapshot = some snapshot)
    (hq : 0 ≤ trade.quantity) (hk : LotsKept v.lots) (hnone : v.realizedPnl.find trade.executionId = none)
    (hheld : trade.quantity ≤ v.held trade.holding) :
    ∃ v', disposeFifo trade v = .ok v' ∧ Booked trade v v' := by
  have hsum := sum_lotsInOrder (h := trade.holding) hk
  have henough : trade.quantity ≤ ((v.lotsInOrder trade.holding).map (·.remainingQuantity)).sum :=
    hsum ▸ hheld
  have hmem : ∀ lot ∈ v.lotsInOrder trade.holding,
      v.lots.find lot.acquisitionTrade = some lot ∧ lot.holding = trade.holding := by
    intro lot hlot
    obtain ⟨⟨key, hkey⟩, hholding, _⟩ := mem_remainingLots.mp (mem_lotsInOrder.mp hlot)
    rw [hk.keyed key lot hkey]
    exact ⟨hkey, hholding⟩
  obtain ⟨hkept, hn, hle, hdisposed, hfresh⟩ := disposeLots_spec trade trade.holding
    (v.lotsInOrder trade.holding) { needed := trade.quantity, allocatedBasis := 0, lots := v.lots }
    hk (nodup_lotsInOrder hk) hmem hq
  refine ⟨_, by simp only [disposeFifo, hnone, require_of henough, feeOf, demand, hfee]; rfl, ?_⟩
  refine ⟨hkept, ?_, ?_⟩
  · intro h
    have hdone : ((v.lotsInOrder trade.holding).foldl (disposeLot trade)
        { needed := trade.quantity, allocatedBasis := 0, lots := v.lots }).needed = 0 := by
      have hzero : max 0 (trade.quantity -
          ((v.lotsInOrder trade.holding).map (·.remainingQuantity)).sum) = 0 :=
        max_eq_left (by linarith)
      exact le_antisymm (hle.trans hzero.le) hn
    have hh := hdisposed h
    rw [hdone] at hh
    simp only [ValuationTables.held, hh, Trade.signedQuantity, OrderSide.signed, hs, eq_comm (a := h)]
    split <;> ring
  · rintro key hne ⟨hlots, hpnl⟩
    exact ⟨hfresh key hlots, by rw [Table.find_put_of_ne _ _ hne]; exact hpnl⟩

theorem processTradeAccounting_booked (env : Env) (v : ValuationTables) (trade : Trade)
    (hfee : trade.feeSnapshot = some snapshot)
    (hq : 0 ≤ trade.quantity) (hk : LotsKept v.lots) (hnone : v.Unbooked trade.executionId)
    (hheld : trade.side = .sell → trade.quantity ≤ v.held trade.holding) :
    ∃ v', processTradeAccounting env trade v = .ok v' ∧ Booked trade v v' := by
  have hlots : ∃ v₁, bookLots env trade v = .ok v₁ ∧ Booked trade v v₁ := by
    unfold bookLots
    cases hs : trade.side with
    | buy => exact openForTrade_booked hs hfee hq hk hnone.1
    | sell => exact disposeFifo_booked hs hfee hq hk hnone.2 (hheld hs)
  obtain ⟨v₁, hv₁, hb⟩ := hlots
  refine ⟨calculateCostBasis env trade.holding (recordCommission trade snapshot.totalFee v₁), ?_, ?_⟩
  · unfold processTradeAccounting
    rw [bind_of_ok hv₁]
    simp only [feeOf, demand, hfee]
    rfl
  · refine ⟨?_, ?_, ?_⟩
    · simpa using hb.kept
    · intro h
      simpa [ValuationTables.held] using hb.held h
    · intro key hne hkey
      simpa [ValuationTables.Unbooked] using hb.unbooked key hne hkey

theorem bookLots_costBasis {v' : ValuationTables} (h : bookLots env trade v = .ok v') :
    v'.costBasis = v.costBasis := by
  unfold bookLots at h
  cases hs : trade.side with
  | buy =>
    rw [hs] at h
    obtain ⟨_, -, h₁⟩ := bind_eq_ok.mp h
    obtain ⟨fee, -, h₂⟩ := bind_eq_ok.mp h₁
    dsimp only at h₂
    split at h₂ <;> exact congrArg (·.costBasis) (pure_eq_ok.mp h₂).symm
  | sell =>
    rw [hs] at h
    dsimp only [disposeFifo] at h
    split at h
    · exact congrArg (·.costBasis) (pure_eq_ok.mp h).symm
    · obtain ⟨_, -, h₁⟩ := bind_eq_ok.mp h
      obtain ⟨fee, -, h₂⟩ := bind_eq_ok.mp h₁
      exact congrArg (·.costBasis) (pure_eq_ok.mp h₂).symm

theorem processTradeAccounting_costBasis {v' : ValuationTables}
    (h : processTradeAccounting env trade v = .ok v') (hk : LotsKept v'.lots) :
    ∃ position, v'.costBasis =
        v.costBasis.put (trade.tenantRef, trade.accountRef, trade.instrumentId) position ∧
      position.quantity = v'.held trade.holding := by
  obtain ⟨v₁, hbook, h₁⟩ := bind_eq_ok.mp h
  obtain ⟨fee, -, h₂⟩ := bind_eq_ok.mp h₁
  obtain rfl := pure_eq_ok.mp h₂
  have hsum := sum_remainingLots (h := trade.holding) hk
  refine ⟨?_, ?_, ?_⟩
  rotate_left
  · unfold calculateCostBasis
    rw [recordCommission_costBasis, bookLots_costBasis hbook]
    rfl
  · exact hsum

end Accounting

end Beyvra
