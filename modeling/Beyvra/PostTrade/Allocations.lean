import Beyvra.Numeric.Column
import Beyvra.PostTrade.Processor
import Beyvra.Relational.Stability

namespace Beyvra

open Relational Numeric

namespace Allocations

-- max_digits=36, decimal_places=18
def quantityColumn : Column := ⟨36, 18⟩

inductive Raised where
  | valueError (code : String)
  | decimalException
  | dataError
  deriving DecidableEq

abbrev AllocationKey := String × String × String

instance : LawfulBEq AllocationKey := inferInstance

def allocationKey (a : TradeAllocation) : AllocationKey := (a.accountRef, a.subaccountRef, a.strategyRef)

def rowKey (row : AllocationRow) : AllocationKey := (row.accountRef, row.subaccountRef, row.strategyRef)

def createAllocation (row : AllocationRow) (notional : ℚ) : Except Raised TradeAllocation := do
  let quantity ← demand (quantityColumn.store row.quantity) .dataError
  let notional ← demand (quantityColumn.store notional) .dataError
  return ⟨row.accountRef, row.subaccountRef, row.strategyRef, quantity, notional, row.method⟩

-- get_or_create, whose defaults are computed before the row is looked for
def addRow (trade : Trade) (rows : List TradeAllocation) (row : AllocationRow) :
    Except Raised (List TradeAllocation) := do
  require (row.accountRef = trade.accountRef) (.valueError "CROSS_TENANT_ALLOCATION")
  let notional ← demand (defaultContext.mul row.quantity trade.price) .decimalException
  if rowKey row ∈ rows.map allocationKey then return rows
  else do
    let allocation ← createAllocation row notional
    return rows ++ [allocation]

-- TradeAllocationService.allocate on the stored allocations of the trade
def allocate (trade : Trade) (requested : List AllocationRow) (rows : List TradeAllocation) :
    Except Raised (List TradeAllocation) := do
  let total ← demand (((requestedRows trade requested).map (·.quantity)).foldlM defaultContext.add 0) .decimalException
  require (total = trade.quantity) (.valueError "ALLOCATION_QUANTITY_MISMATCH")
  let rows ← (requestedRows trade requested).foldlM (addRow trade) rows
  require ((rows.map (·.allocationQuantity)).sum = trade.quantity) (.valueError "ALLOCATION_QUANTITY_MISMATCH")
  return rows

def allocateStep (trade : Trade) (rows : List TradeAllocation) (requested : List AllocationRow) : List TradeAllocation :=
  commitState (allocate trade requested) rows

structure Agrees (trade : Trade) (requested : List AllocationRow) (rows : List TradeAllocation) : Prop where
  positive : ∀ a ∈ rows, 0 < a.allocationQuantity
  total : (rows.map (·.allocationQuantity)).sum = trade.quantity
  requested : (rows.map fun a => (allocationKey a, a.allocationQuantity)).Perm
    ((requestedRows trade requested).map fun row => (rowKey row, row.quantity))

def CallSound (trade : Trade) (rows : List TradeAllocation) (requested : List AllocationRow) : Prop :=
  match allocate trade requested rows with
  | .ok rows' => allocateStep trade rows requested = rows' ∧ Agrees trade requested rows'
  | .error _ => allocateStep trade rows requested = rows

structure Splits (trade : Trade) (rows : List TradeAllocation) (requested : List AllocationRow) : Prop where
  positive : ∀ row ∈ requestedRows trade requested, 0 < row.quantity
  decimals : ∀ row ∈ requestedRows trade requested, IsMultiple quantityColumn.unit row.quantity
  distinct : ((requestedRows trade requested).map rowKey).Nodup
  kept : ∀ a ∈ rows, (allocationKey a, a.allocationQuantity) ∈
    (requestedRows trade requested).map fun row => (rowKey row, row.quantity)

def Accepted (trade : Trade) (rows : List TradeAllocation) (requested : List AllocationRow) : Prop :=
  ∃ rows', allocate trade requested rows = .ok rows'

structure Stored (rows : List TradeAllocation) : Prop where
  distinct : (rows.map allocationKey).Nodup
  decimals : ∀ a ∈ rows, IsMultiple quantityColumn.unit a.allocationQuantity

variable {trade : Trade} {rows rows' : List TradeAllocation} {requested : List AllocationRow} {row : AllocationRow}
  {allocation : TradeAllocation} {notional : ℚ}

theorem createAllocation_ok (h : createAllocation row notional = .ok allocation) : allocationKey allocation = rowKey row ∧
    quantityColumn.store row.quantity = some allocation.allocationQuantity := by
  obtain ⟨quantity, hquantity, h⟩ := bind_eq_ok.mp h
  obtain ⟨_, -, h⟩ := bind_eq_ok.mp h
  rw [← pure_eq_ok.mp h]
  exact ⟨rfl, demand_eq_ok.mp hquantity⟩

theorem addRow_cases (h : addRow trade rows row = .ok rows') : rowKey row ∈ rows.map allocationKey ∧ rows' = rows ∨
    rowKey row ∉ rows.map allocationKey ∧ ∃ allocation, rows' = rows ++ [allocation] ∧
      allocationKey allocation = rowKey row ∧ quantityColumn.store row.quantity = some allocation.allocationQuantity := by
  obtain ⟨_, -, h⟩ := bind_eq_ok.mp h
  obtain ⟨notional, -, h⟩ := bind_eq_ok.mp h
  split_ifs at h with hkey
  · exact .inl ⟨hkey, (pure_eq_ok.mp h).symm⟩
  · obtain ⟨allocation, hallocation, h⟩ := bind_eq_ok.mp h
    exact .inr ⟨hkey, allocation, (pure_eq_ok.mp h).symm, createAllocation_ok hallocation⟩

-- What the rows of a list leave behind: nothing is lost, each key has a row, and each new row comes from the list.
structure Added (list : List AllocationRow) (rows rows' : List TradeAllocation) : Prop where
  kept : rows ⊆ rows'
  keys : ∀ row ∈ list, rowKey row ∈ rows'.map allocationKey
  origin : ∀ a ∈ rows', a ∈ rows ∨ ∃ row ∈ list, allocationKey a = rowKey row ∧
    quantityColumn.store row.quantity = some a.allocationQuantity
  stored : Stored rows → Stored rows'

theorem added_of_addRow (h : addRow trade rows row = .ok rows') : Added [row] rows rows' := by
  rcases addRow_cases h with ⟨hkey, rfl⟩ | ⟨hkey, allocation, rfl, hname, hstore⟩
  · exact ⟨List.Subset.refl _, by simpa using hkey, fun a ha => .inl ha, id⟩
  · refine ⟨List.subset_append_left _ _, ?_, ?_, fun hstored => ⟨?_, ?_⟩⟩
    · simp [hname]
    · intro a ha
      rcases List.mem_append.mp ha with hold | hnew
      · exact .inl hold
      · rw [List.mem_singleton.mp hnew]
        exact .inr ⟨row, List.mem_singleton_self _, hname, hstore⟩
    · rw [List.map_append, List.map_singleton, hname]
      exact hstored.distinct.append (List.nodup_singleton _) (by simpa using hkey)
    · intro a ha
      rcases List.mem_append.mp ha with hold | hnew
      · exact hstored.decimals a hold
      · rw [List.mem_singleton.mp hnew]
        exact (Column.holds_of_store hstore).multiple

theorem added_of_foldlM {list : List AllocationRow} (h : list.foldlM (addRow trade) rows = .ok rows') :
    Added list rows rows' := by
  induction list generalizing rows with
  | nil =>
    obtain rfl := pure_eq_ok.mp h
    exact ⟨List.Subset.refl _, by simp, fun a ha => .inl ha, id⟩
  | cons row list ih =>
    obtain ⟨next, hnext, h⟩ := bind_eq_ok.mp h
    have hrow := added_of_addRow hnext
    have hrest := ih h
    refine ⟨List.Subset.trans hrow.kept hrest.kept, ?_, ?_, hrest.stored ∘ hrow.stored⟩
    · intro x hx
      rcases List.mem_cons.mp hx with rfl | hx
      · exact List.map_subset _ hrest.kept (hrow.keys _ (List.mem_singleton_self _))
      · exact hrest.keys x hx
    · intro a ha
      rcases hrest.origin a ha with ha | ⟨x, hx, horigin⟩
      · rcases hrow.origin a ha with hold | ⟨x, hx, horigin⟩
        · exact .inl hold
        · exact .inr ⟨x, List.mem_cons.mpr (.inl (List.mem_singleton.mp hx)), horigin⟩
      · exact .inr ⟨x, List.mem_cons_of_mem _ hx, horigin⟩

theorem allocate_ok (h : allocate trade requested rows = .ok rows') :
    Added (requestedRows trade requested) rows rows' ∧ (rows'.map (·.allocationQuantity)).sum = trade.quantity := by
  obtain ⟨_, -, h⟩ := bind_eq_ok.mp h
  obtain ⟨_, -, h⟩ := bind_eq_ok.mp h
  obtain ⟨next, hnext, h⟩ := bind_eq_ok.mp h
  obtain ⟨_, htotal, h⟩ := bind_eq_ok.mp h
  rw [← pure_eq_ok.mp h]
  exact ⟨added_of_foldlM hnext, require_eq_ok.mp htotal⟩

theorem store_of_multiple {c : Column} {x y : ℚ} (hx : IsMultiple c.unit x) (h : c.store x = some y) : y = x := by
  have hsame : roundTo halfUp c.unit x = x := roundTo_of_isMultiple Column.unit_pos.ne' halfUp_intCast hx
  rw [Column.store, hsame] at h
  split_ifs at h
  exact (Option.some.inj h).symm

section Agreement

variable (hstored : Stored rows) (h : allocate trade requested rows = .ok rows')
include hstored h

theorem splits_of_agrees (hagrees : Agrees trade requested rows') : Splits trade rows requested := by
  obtain ⟨hadded, -⟩ := allocate_ok h
  have hstored' := hadded.stored hstored
  have hentry : ∀ row ∈ requestedRows trade requested, ∃ a ∈ rows', allocationKey a = rowKey row ∧
      a.allocationQuantity = row.quantity := by
    intro row hrow
    obtain ⟨a, ha, heq⟩ := List.mem_map.mp (hagrees.requested.mem_iff.mpr (List.mem_map_of_mem hrow))
    exact ⟨a, ha, congrArg Prod.fst heq, congrArg Prod.snd heq⟩
  refine ⟨?_, ?_, ?_, ?_⟩
  · intro row hrow
    obtain ⟨a, ha, -, hquantity⟩ := hentry row hrow
    rw [← hquantity]
    exact hagrees.positive a ha
  · intro row hrow
    obtain ⟨a, ha, -, hquantity⟩ := hentry row hrow
    rw [← hquantity]
    exact hstored'.decimals a ha
  · have hkeys := hagrees.requested.map Prod.fst
    rw [List.map_map, List.map_map] at hkeys
    exact hkeys.nodup_iff.mp hstored'.distinct
  · intro a ha
    exact hagrees.requested.mem_iff.mp (List.mem_map_of_mem (hadded.kept ha))

theorem agrees_of_splits (hsplits : Splits trade rows requested) : Agrees trade requested rows' := by
  obtain ⟨hadded, htotal⟩ := allocate_ok h
  have hstored' := hadded.stored hstored
  have hentry : ∀ a ∈ rows', ∃ row ∈ requestedRows trade requested, rowKey row = allocationKey a ∧
      row.quantity = a.allocationQuantity := by
    intro a ha
    rcases hadded.origin a ha with hold | ⟨row, hrow, hkey, hstore⟩
    · obtain ⟨row, hrow, heq⟩ := List.mem_map.mp (hsplits.kept a hold)
      exact ⟨row, hrow, congrArg Prod.fst heq, congrArg Prod.snd heq⟩
    · exact ⟨row, hrow, hkey.symm, (store_of_multiple (hsplits.decimals row hrow) hstore).symm⟩
  refine ⟨?_, htotal, ?_⟩
  · intro a ha
    obtain ⟨row, hrow, -, hquantity⟩ := hentry a ha
    rw [← hquantity]
    exact hsplits.positive row hrow
  · have hleft : (rows'.map fun a => (allocationKey a, a.allocationQuantity)).Nodup :=
      List.Nodup.of_map Prod.fst (by rw [List.map_map]; exact hstored'.distinct)
    have hright : ((requestedRows trade requested).map fun row => (rowKey row, row.quantity)).Nodup :=
      List.Nodup.of_map Prod.fst (by rw [List.map_map]; exact hsplits.distinct)
    refine (List.perm_ext_iff_of_nodup hleft hright).mpr fun entry => ?_
    constructor
    · intro hmem
      obtain ⟨a, ha, rfl⟩ := List.mem_map.mp hmem
      obtain ⟨row, hrow, hkey, hquantity⟩ := hentry a ha
      exact List.mem_map.mpr ⟨row, hrow, Prod.ext hkey hquantity⟩
    · intro hmem
      obtain ⟨row, hrow, rfl⟩ := List.mem_map.mp hmem
      obtain ⟨a, ha, hkey⟩ := List.mem_map.mp (hadded.keys row hrow)
      obtain ⟨row', hrow', hkey', hquantity⟩ := hentry a ha
      obtain rfl : row' = row := List.inj_on_of_nodup_map hsplits.distinct hrow' hrow (hkey'.trans hkey)
      exact List.mem_map.mpr ⟨a, ha, Prod.ext hkey hquantity.symm⟩

end Agreement

theorem stored_allocateStep (trade : Trade) (rows : List TradeAllocation) (requested : List AllocationRow)
    (hstored : Stored rows) : Stored (allocateStep trade rows requested) := by
  rcases commitState_cases (allocate trade requested) rows with ⟨rows', h, hstep⟩ | ⟨-, hstep⟩
  · rw [allocateStep, hstep]
    exact (allocate_ok h).1.stored hstored
  · rw [allocateStep, hstep]
    exact hstored

theorem callSound_iff (hstored : Stored rows) :
    CallSound trade rows requested ↔ (Accepted trade rows requested → Splits trade rows requested) := by
  unfold CallSound Accepted
  cases h : allocate trade requested rows with
  | error e => simp [allocateStep, commitState_of_error h]
  | ok rows' =>
    have hstep : allocateStep trade rows requested = rows' := commitState_of_ok h
    constructor
    · exact fun hsound _ => splits_of_agrees hstored h hsound.2
    · exact fun hsplits => ⟨hstep, agrees_of_splits hstored h (hsplits ⟨rows', rfl⟩)⟩

theorem allocations_sound_iff (trade : Trade) (calls : List (List AllocationRow)) :
    Throughout (allocateStep trade) (CallSound trade) calls [] ↔
      Throughout (allocateStep trade) (fun rows requested => Accepted trade rows requested → Splits trade rows requested)
        calls [] :=
  throughout_congr (fun rows requested hstored _ => stored_allocateStep trade rows requested hstored)
    (fun _ _ hstored => callSound_iff hstored) ⟨List.nodup_nil, by simp⟩

section Processed

variable {env : Env} {stored : Trade} {b b' : Books}

structure Fits (trade : Trade) (row : AllocationRow) : Prop where
  quantity : quantityColumn.Holds row.quantity
  notional : quantityColumn.Holds (row.quantity * trade.price)
  product : defaultContext.mul row.quantity trade.price = some (row.quantity * trade.price)

-- What fits its columns and the 28 digits is stored by the fill processing as it is here.
theorem addRow_iff_addAllocation (hfits : Fits trade row) :
    addRow trade rows row = .ok rows' ↔ addAllocation trade rows row = .ok rows' := by
  have hcreate : createAllocation row (row.quantity * trade.price) = .ok (row.allocationOf trade) := by
    rw [createAllocation, bind_of_ok (demand_eq_ok.mpr (Column.store_of_holds hfits.quantity)),
      bind_of_ok (demand_eq_ok.mpr (Column.store_of_holds hfits.notional))]
    rfl
  have hkey : rowKey row ∈ rows.map allocationKey ↔ (rows.any fun a => a.accountRef = row.accountRef ∧
      a.subaccountRef = row.subaccountRef ∧ a.strategyRef = row.strategyRef) = true := by
    simp [rowKey, allocationKey]
  unfold addRow addAllocation
  simp only [bind_eq_ok, require_eq_ok, demand_eq_ok.mpr hfits.product, Except.ok.injEq, exists_eq_left', hkey, hcreate]
  refine exists_congr fun _ => and_congr_right fun _ => ?_
  split_ifs
  · rw [pure_eq_ok, pure_eq_ok]
  · simp only [bind_eq_ok, Except.ok.injEq, exists_eq_left', pure_eq_ok]

theorem foldlM_addRow_iff (hfits : ∀ row ∈ requested, Fits trade row) :
    requested.foldlM (addRow trade) rows = .ok rows' ↔ requested.foldlM (addAllocation trade) rows = .ok rows' := by
  induction requested generalizing rows with
  | nil => simp only [List.foldlM_nil, pure_eq_ok]
  | cons row rest ih =>
    obtain ⟨hrow, hrest⟩ := List.forall_mem_cons.mp hfits
    simp only [List.foldlM_cons, bind_eq_ok]
    exact exists_congr fun added => and_congr (addRow_iff_addAllocation hrow) (ih hrest)

-- The fill processing sums without rounding: below 10 ^ 10 the 28 digits lose nothing, and the two allocate alike.
theorem allocate_iff_processed (hrow : b.tradeRow trade.executionId = .ok stored)
    (hfits : ∀ row ∈ requestedRows trade requested, 0 ≤ row.quantity ∧ Fits trade row)
    (hsum : ((requestedRows trade requested).map (·.quantity)).sum < 10 ^ 10) :
    Beyvra.allocate env trade requested b = .ok b' ↔
      ∃ rows, allocate trade requested stored.allocations = .ok rows ∧
        b' = b.saveAllocations env trade stored (requestedRows trade requested).length rows := by
  have htotal : ((requestedRows trade requested).map (·.quantity)).foldlM defaultContext.add 0 =
      some ((requestedRows trade requested).map (·.quantity)).sum := by
    refine Column.sum_exact (c := quantityColumn) (by decide) (List.forall_mem_map.mpr fun row hmem => ?_) hsum
    exact ⟨(hfits row hmem).1, (hfits row hmem).2.quantity.multiple⟩
  have hfold (rows : List TradeAllocation) :
      (requestedRows trade requested).foldlM (addRow trade) stored.allocations = .ok rows ↔
        (requestedRows trade requested).foldlM (addAllocation trade) stored.allocations = .ok rows :=
    foldlM_addRow_iff fun row hmem => (hfits row hmem).2
  simp only [Beyvra.allocate, allocate, hrow, htotal, bind_eq_ok, require_eq_ok, demand_eq_ok, pure_eq_ok, hfold,
    Option.some.injEq, Except.ok.injEq, exists_eq_left', @eq_comm _ _ b']
  constructor
  · rintro ⟨_, hmatches, rows, hrows, _, hstored, rfl⟩
    exact ⟨rows, ⟨(), hmatches, rows, hrows, (), hstored, rfl⟩, rfl⟩
  · rintro ⟨_, ⟨_, hmatches, rows, hrows, _, hstored, rfl⟩, rfl⟩
    exact ⟨(), hmatches, rows, hrows, (), hstored, rfl⟩

end Processed

def boughtTrade : Trade where
  executionId := "execution"
  tenantRef := "tenant"
  accountRef := "account"
  orderId := "order"
  instrumentId := "BTC-USD"
  side := .buy
  quantity := 10
  price := 1
  grossNotional := 10
  tradeCurrency := "USD"
  tradeTime := 0
  settlementDate := 0
  sourceEventId := "event"

def toSubaccount (subaccountRef : String) (quantity : ℚ) : AllocationRow where
  accountRef := "account"
  subaccountRef := subaccountRef
  quantity := quantity

-- A second split of the trade succeeds and leaves the first one in place; so does one with a short leg.
theorem resplit_disagrees :
    allocate boughtTrade [toSubaccount "a" 4, toSubaccount "a" 6] (allocateStep boughtTrade [] [toSubaccount "a" 10]) =
        .ok [(toSubaccount "a" 10).allocationOf boughtTrade] ∧
      allocate boughtTrade [toSubaccount "a" 15, toSubaccount "b" (-5)] [] =
        .ok [(toSubaccount "a" 15).allocationOf boughtTrade, (toSubaccount "b" (-5)).allocationOf boughtTrade] ∧
      ¬Throughout (allocateStep boughtTrade) (CallSound boughtTrade)
        [[toSubaccount "a" 10], [toSubaccount "a" 4, toSubaccount "a" 6]] [] := by
  refine ⟨by decide +kernel, by decide +kernel, fun h => ?_⟩
  have haccepted : Accepted boughtTrade (allocateStep boughtTrade [] [toSubaccount "a" 10])
      [toSubaccount "a" 4, toSubaccount "a" 6] :=
    ⟨[(toSubaccount "a" 10).allocationOf boughtTrade], by decide +kernel⟩
  have hsplits := ((allocations_sound_iff _ _).mp h).2.1 haccepted
  exact absurd hsplits.distinct (by decide +kernel)

end Allocations

end Beyvra
