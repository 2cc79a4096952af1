import Mathlib.Data.Prod.Lex
import Mathlib.Data.String.Basic
import Beyvra.Numeric.Greedy
import Beyvra.Relational.SortedBy
import Beyvra.Treasury.Records

namespace Beyvra

open Relational Numeric

namespace Treasury

inductive PlanState where
  | proposed | validated | approvedSimulation | simulated | rejected | cancelled
  deriving DecidableEq

structure TreasuryTransferPlanItem where
  sourceAccount : Uuid
  destinationAccount : Uuid
  currencyOrAsset : String
  amountOrQuantity : ℚ
  reason : String
  deriving DecidableEq

structure TreasuryTransferPlan where
  id : Uuid
  tenant : Uuid
  institutionId : Uuid
  planType : String
  state : PlanState
  currencyOrAsset : String
  requiredAmountOrQuantity : ℚ
  idempotencyKey : String
  items : List TreasuryTransferPlanItem
  deriving DecidableEq

structure CashPlanRequest where
  tenant : Uuid
  institutionId : Uuid
  currency : String
  required : ℚ
  destination : TreasuryAccount
  idempotencyKey : String

structure PlanTables where
  positions : List TreasuryCashPosition
  plans : List TreasuryTransferPlan

def storeAmount (x : ℚ) : Except Raised ℚ := demand (amountColumn.store x) .dataError

def sources (upper : String → String) (tenant : Uuid) (currency : String) (positions : List TreasuryCashPosition) :
    List TreasuryCashPosition :=
  sortedBy (fun p => toLex (-p.availableAmount, p.treasuryAccount.id))
    ((getPositions upper tenant currency positions).filter fun p => 0 < p.availableAmount ∧
      p.treasuryAccount.status = "ACTIVE" ∧ p.treasuryAccount.segregationClass ≠ .clientSegregated)

def createItem (destination : Uuid) (currency : String) (row : TreasuryCashPosition) (amount : ℚ) :
    TreasuryTransferPlanItem :=
  ⟨row.treasuryAccount.id, destination, currency, amount, "SIMULATED_FUNDING_GAP"⟩

def transferItems (destination : Uuid) (currency : String) :
    List TreasuryCashPosition → ℚ → Except Raised (List TreasuryTransferPlanItem × ℚ)
  | [], remaining => .ok ([], remaining)
  | row :: rows, remaining =>
    if remaining ≤ 0 then .ok ([], remaining)
    else
      let amount := min row.availableAmount remaining
      if row.treasuryAccount.id = destination then transferItems destination currency rows remaining
      else do
        let stored ← storeAmount amount
        let (items, left) ← transferItems destination currency rows (defaultContext.round (remaining - amount))
        return (createItem destination currency row stored :: items, left)

-- The plan created in this call is returned as it was built, not as it was stored.
def generateCashPlan (upper : String → String) (planId : Uuid) (request : CashPlanRequest) (tables : PlanTables) :
    Except Raised (PlanTables × TreasuryTransferPlan) :=
  match tables.plans.find? fun p => p.tenant = request.tenant ∧ p.idempotencyKey = request.idempotencyKey with
  | some plan => do
    require (plan.currencyOrAsset = request.currency ∧ plan.requiredAmountOrQuantity = request.required ∧
      plan.institutionId = request.institutionId) (.valueError "IDEMPOTENCY_CONFLICT")
    return (tables, plan)
  | none => do
    let stored ← storeAmount request.required
    let rows := sources upper request.tenant request.currency tables.positions
    let (items, remaining) ← transferItems request.destination.id request.currency rows request.required
    let state : PlanState := if remaining ≤ 0 then .validated else .rejected
    let plan : TreasuryTransferPlan := ⟨planId, request.tenant, request.institutionId, "CASH", state, request.currency,
      request.required, request.idempotencyKey, items⟩
    let row := { plan with requiredAmountOrQuantity := stored }
    return ({ tables with plans := tables.plans ++ [row] }, plan)

def eligible (upper : String → String) (request : CashPlanRequest) (positions : List TreasuryCashPosition) :
    List TreasuryCashPosition :=
  (getPositions upper request.tenant request.currency positions).filter fun p => 0 < p.availableAmount ∧
    p.treasuryAccount.status = "ACTIVE" ∧ p.treasuryAccount.segregationClass ≠ .clientSegregated ∧
    p.treasuryAccount.id ≠ request.destination.id

structure Funds (eligible : List TreasuryCashPosition) (required : ℚ) (items : List TreasuryTransferPlanItem) : Prop where
  positive : ∀ item ∈ items, 0 < item.amountOrQuantity
  total : (items.map (·.amountOrQuantity)).sum = required
  drawn : ∃ drawn : List TreasuryCashPosition, drawn.Subperm eligible ∧
    List.Forall₂ (fun item p => item.sourceAccount = p.treasuryAccount.id ∧ item.amountOrQuantity ≤ p.availableAmount)
      items drawn

-- The replay is asked for at any later time at which the plans are the same.
structure Answers (upper : String → String) (request : CashPlanRequest) (tables tables' : PlanTables)
    (plan : TreasuryTransferPlan) : Prop where
  validated : plan.state = .validated →
    0 < request.required ∧ Funds (eligible upper request tables.positions) request.required plan.items
  rejected : plan.state = .rejected ↔
    ((eligible upper request tables.positions).map (·.availableAmount)).sum < request.required
  replayed : ∀ later : PlanTables, later.plans = tables'.plans → ∀ planId, ∃ same,
    generateCashPlan upper planId request later = .ok (later, same) ∧ same.id = plan.id ∧ same.items = plan.items

def Answered (upper : String → String) (planId : Uuid) (request : CashPlanRequest) (tables : PlanTables) : Prop :=
  ∃ tables' plan, generateCashPlan upper planId request tables = .ok (tables', plan) ∧
    Answers upper request tables tables' plan

def FreshKey (request : CashPlanRequest) (tables : PlanTables) : Prop :=
  ∀ plan ∈ tables.plans, ¬(plan.tenant = request.tenant ∧ plan.idempotencyKey = request.idempotencyKey)

-- No difference of the loop needs more than the 28 digits of the context.
def Unrounded : List TreasuryCashPosition → ℚ → Prop
  | [], _ => True
  | row :: rows, remaining => 0 < remaining →
    defaultContext.round (remaining - min row.availableAmount remaining) = remaining - min row.availableAmount remaining ∧
      Unrounded rows (remaining - min row.availableAmount remaining)

def givers (upper : String → String) (request : CashPlanRequest) (positions : List TreasuryCashPosition) :
    List TreasuryCashPosition :=
  (sources upper request.tenant request.currency positions).filter fun p => p.treasuryAccount.id ≠ request.destination.id

def filled (upper : String → String) (request : CashPlanRequest) (positions : List TreasuryCashPosition) :
    List (TreasuryCashPosition × ℚ) × ℚ :=
  fill (·.availableAmount) (givers upper request positions) request.required

structure Payable (required : ℚ) : Prop where
  positive : 0 < required
  holds : amountColumn.Holds required

variable {upper : String → String} {planId : Uuid} {request : CashPlanRequest} {tables : PlanTables}
  {rows positions : List TreasuryCashPosition} {row : TreasuryCashPosition} {destination : Uuid} {currency : String}
  {remaining : ℚ}

theorem storeAmount_of_holds (h : amountColumn.Holds remaining) : storeAmount remaining = .ok remaining :=
  demand_eq_ok.mpr (Column.store_of_holds h)

theorem perm_givers (positions : List TreasuryCashPosition) :
    (givers upper request positions).Perm (eligible upper request positions) := by
  refine (perm_sortedBy.filter _).trans (List.Perm.of_eq ?_)
  rw [List.filter_filter]
  refine List.filter_congr fun p _ => ?_
  rw [Bool.eq_iff_iff]
  simp only [Bool.and_eq_true, decide_eq_true_eq]
  exact ⟨fun ⟨hself, hpos, hstatus, hclass⟩ => ⟨hpos, hstatus, hclass, hself⟩,
    fun ⟨hpos, hstatus, hclass, hself⟩ => ⟨hself, hpos, hstatus, hclass⟩⟩

theorem givers_positive : ∀ p ∈ givers upper request positions, 0 < p.availableAmount := by
  intro p hp
  have hmem := (perm_givers positions).mem_iff.mp hp
  exact (of_decide_eq_true (List.mem_filter.mp hmem).2).1

theorem holds_given (row : TreasuryCashPosition) (h : amountColumn.Holds remaining) (hpos : 0 < remaining) :
    amountColumn.Holds (min row.availableAmount remaining) ∧
      amountColumn.Holds (remaining - min row.availableAmount remaining) := by
  have hgiven : amountColumn.Holds (min row.availableAmount remaining) := row.availableHolds.min h
  exact ⟨hgiven, h.sub hgiven (le_min row.nonnegative.2 hpos.le) (min_le_right _ _)⟩

theorem transferItems_eq (h : amountColumn.Holds remaining)
    (hexact : Unrounded (rows.filter fun p => p.treasuryAccount.id ≠ destination) remaining) :
    transferItems destination currency rows remaining =
      .ok ((fill (·.availableAmount) (rows.filter fun p => p.treasuryAccount.id ≠ destination) remaining).1.map
          fun e => createItem destination currency e.1 e.2,
        (fill (·.availableAmount) (rows.filter fun p => p.treasuryAccount.id ≠ destination) remaining).2) := by
  induction rows generalizing remaining with
  | nil => rfl
  | cons row rows ih =>
    rcases le_or_gt remaining 0 with hle | hpos
    · rw [transferItems, if_pos hle, fill_of_nonpos hle]
      rfl
    · rw [transferItems, if_neg (not_le.mpr hpos)]
      by_cases hself : row.treasuryAccount.id = destination
      · rw [List.filter_cons_of_neg (by simpa using hself)] at hexact ⊢
        rw [if_pos hself]
        exact ih h hexact
      · rw [List.filter_cons_of_pos (by simpa using hself)] at hexact ⊢
        obtain ⟨hround, hrest⟩ := hexact hpos
        obtain ⟨hgiven, hleft⟩ := holds_given row h hpos
        rw [if_neg hself, bind_of_ok (storeAmount_of_holds hgiven), hround, bind_of_ok (ih hleft hrest), fill_cons hpos]
        rfl

section Fresh

variable (hfresh : FreshKey request tables)
include hfresh

theorem find_of_fresh : tables.plans.find? (fun p => p.tenant = request.tenant ∧
    p.idempotencyKey = request.idempotencyKey) = none :=
  List.find?_eq_none.mpr fun plan hplan => by simpa using hfresh plan hplan

theorem generateCashPlan_fresh {tables' : PlanTables} {plan : TreasuryTransferPlan}
    (h : generateCashPlan upper planId request tables = .ok (tables', plan)) :
    ∃ stored remaining, storeAmount request.required = .ok stored ∧
      transferItems request.destination.id request.currency
        (sources upper request.tenant request.currency tables.positions) request.required = .ok (plan.items, remaining) ∧
      plan = ⟨planId, request.tenant, request.institutionId, "CASH", if remaining ≤ 0 then .validated else .rejected,
        request.currency, request.required, request.idempotencyKey, plan.items⟩ ∧
      tables'.plans = tables.plans ++ [{ plan with requiredAmountOrQuantity := stored }] := by
  rw [generateCashPlan, find_of_fresh hfresh] at h
  obtain ⟨stored, hstored, h⟩ := bind_eq_ok.mp h
  obtain ⟨⟨items, remaining⟩, hitems, h⟩ := bind_eq_ok.mp h
  obtain ⟨rfl, rfl⟩ := Prod.mk.inj (pure_eq_ok.mp h)
  exact ⟨stored, remaining, hstored, hitems, rfl, rfl⟩

-- The row that a later call with the key finds
theorem find_stored {stored : ℚ} {plan : TreasuryTransferPlan} (htenant : plan.tenant = request.tenant)
    (hkey : plan.idempotencyKey = request.idempotencyKey) :
    (tables.plans ++ [{ plan with requiredAmountOrQuantity := stored }]).find? (fun p => p.tenant = request.tenant ∧
      p.idempotencyKey = request.idempotencyKey) = some { plan with requiredAmountOrQuantity := stored } := by
  rw [List.find?_append, find_of_fresh hfresh]
  simp [htenant, hkey]

theorem payable_of_answered (h : Answered upper planId request tables) : Payable request.required := by
  obtain ⟨tables', plan, hplan, hanswers⟩ := h
  obtain ⟨stored, remaining, hstored, hitems, heq, hplans⟩ := generateCashPlan_fresh hfresh hplan
  constructor
  · by_contra hpos
    have hnone : transferItems request.destination.id request.currency
        (sources upper request.tenant request.currency tables.positions) request.required = .ok ([], request.required) := by
      cases sources upper request.tenant request.currency tables.positions with
      | nil => rfl
      | cons row rows => rw [transferItems, if_pos (not_lt.mp hpos)]
    obtain ⟨-, rfl⟩ := Prod.mk.inj (Except.ok.inj (hnone.symm.trans hitems))
    refine hpos (hanswers.validated ?_).1
    rw [heq]
    exact if_pos (not_lt.mp hpos)
  · obtain ⟨same, hsame, -, -⟩ := hanswers.replayed tables' rfl planId
    rw [generateCashPlan, hplans, find_stored hfresh (by rw [heq]) (by rw [heq])] at hsame
    obtain ⟨_, hrequire, _⟩ := bind_eq_ok.mp hsame
    rw [← (require_eq_ok.mp hrequire).2.1]
    exact Column.holds_of_store (demand_eq_ok.mp hstored)

variable (hpayable : Payable request.required) (hexact : Unrounded (givers upper request tables.positions) request.required)
include hpayable hexact

theorem generateCashPlan_payable (planId : Uuid) : ∃ plan, generateCashPlan upper planId request tables =
      .ok ({ tables with plans := tables.plans ++ [plan] }, plan) ∧
    plan = ⟨planId, request.tenant, request.institutionId, "CASH",
      if (filled upper request tables.positions).2 ≤ 0 then .validated else .rejected, request.currency, request.required,
      request.idempotencyKey, (filled upper request tables.positions).1.map
        fun e => createItem request.destination.id request.currency e.1 e.2⟩ := by
  refine ⟨_, ?_, rfl⟩
  rw [generateCashPlan, find_of_fresh hfresh]
  show (do let stored ← storeAmount request.required; _) = _
  rw [bind_of_ok (storeAmount_of_holds hpayable.holds), bind_of_ok (transferItems_eq hpayable.holds hexact)]
  rfl

omit hfresh hexact in
theorem funds_filled (hdone : (filled upper request tables.positions).2 ≤ 0) :
    Funds (eligible upper request tables.positions) request.required ((filled upper request tables.positions).1.map
      fun e => createItem request.destination.id request.currency e.1 e.2) := by
  have hrest : (filled upper request tables.positions).2 = 0 := le_antisymm hdone (fill_nonneg hpayable.positive.le)
  constructor
  · exact List.forall_mem_map.mpr (fill_pos _ _ givers_positive)
  · have hsum := fill_sum (·.availableAmount) (givers upper request tables.positions) request.required
    rw [← filled, hrest, add_zero] at hsum
    rw [List.map_map]
    exact hsum
  · refine ⟨(filled upper request tables.positions).1.map (·.1), ?_, ?_⟩
    · exact (initial_fill _ _ _).sublist.subperm.trans (perm_givers _).subperm
    · rw [List.forall₂_map_left_iff, List.forall₂_map_right_iff, List.forall₂_same]
      exact fun e he => ⟨rfl, fill_le _ _ e he⟩

theorem answered_of_payable : Answered upper planId request tables := by
  obtain ⟨plan, hplan, heq⟩ := generateCashPlan_payable hfresh hpayable hexact planId
  refine ⟨_, plan, hplan, ?_, ?_, ?_⟩
  · intro hstate
    rw [heq] at hstate ⊢
    refine ⟨hpayable.positive, funds_filled hpayable ?_⟩
    by_contra hleft
    simp [hleft] at hstate
  · have hrest : (filled upper request tables.positions).2 =
        max 0 (request.required - ((eligible upper request tables.positions).map (·.availableAmount)).sum) := by
      rw [filled, fill_rest (fun p _ => p.nonnegative.2) hpayable.positive.le, ((perm_givers _).map _).sum_eq]
    rw [heq, hrest]
    simp
  · intro later hlater newId
    refine ⟨plan, ?_, rfl, rfl⟩
    rw [generateCashPlan, hlater, find_stored hfresh (by rw [heq]) (by rw [heq])]
    exact bind_of_ok (require_of ⟨by rw [heq], by rw [heq], by rw [heq]⟩)

end Fresh

theorem round_of_holds {x : ℚ} (h : amountColumn.Holds x) (hx : |x| < 10 ^ (18 : Int)) : defaultContext.round x = x :=
  Context.round_of_finalize (Context.finalize_of_isMultiple (by decide) (by decide) h.multiple hx)

theorem unrounded_of_lt (h : amountColumn.Holds remaining) (hlt : remaining < 10 ^ (18 : Int)) :
    Unrounded rows remaining := by
  induction rows generalizing remaining with
  | nil => trivial
  | cons row rows ih =>
    intro hpos
    obtain ⟨hgiven, hleft⟩ := holds_given row h hpos
    have hless : remaining - min row.availableAmount remaining < 10 ^ (18 : Int) :=
      (sub_le_self _ (le_min row.nonnegative.2 hpos.le)).trans_lt hlt
    refine ⟨round_of_holds hleft ?_, ih hleft hless⟩
    rwa [abs_of_nonneg (sub_nonneg.mpr (min_le_right _ _))]

theorem answered_iff (hfresh : FreshKey request tables) :
    (Answered upper planId request tables → Payable request.required) ∧
      (Unrounded (givers upper request tables.positions) request.required →
        (Answered upper planId request tables ↔ Payable request.required)) :=
  ⟨payable_of_answered hfresh, fun hexact => ⟨payable_of_answered hfresh, fun h => answered_of_payable hfresh h hexact⟩⟩

def settlementAccount : TreasuryAccount := ⟨"settlement", "tenant", .settlementReference, "ACTIVE", .clearing⟩

def houseAccount : TreasuryAccount := ⟨"house", "tenant", .houseReference, "ACTIVE", .house⟩

def requestOf (required : ℚ) : CashPlanRequest := ⟨"tenant", "institution", "USD", required, settlementAccount, "key"⟩

theorem holds_of_nat {n : Nat} (h : n < 10 ^ 20) : amountColumn.Holds n := by
  refine ⟨⟨n * 10 ^ 10, ?_⟩, ?_⟩
  · show (n : ℚ) = ((n * 10 ^ 10 : Int) : ℚ) * 10 ^ (-10 : Int)
    push_cast
    rw [mul_assoc]
    norm_num
  · rw [abs_of_nonneg (Nat.cast_nonneg n)]
    show (n : ℚ) < 10 ^ (20 : Int)
    exact_mod_cast h

def housePosition : TreasuryCashPosition :=
  ⟨houseAccount, "USD", 800, 800, holds_of_nat (n := 800) (by norm_num), holds_of_nat (n := 800) (by norm_num), by norm_num⟩

theorem answered_house : Answered id "plan" (requestOf 500) ⟨[housePosition], []⟩ :=
  have hholds : amountColumn.Holds (requestOf 500).required := holds_of_nat (n := 500) (by norm_num)
  ((answered_iff (by simp [FreshKey])).2 (unrounded_of_lt hholds (by norm_num [requestOf]))).mpr
    ⟨by norm_num [requestOf], hholds⟩

-- A request for less than nothing is validated without a transfer.
theorem negative_validated : (generateCashPlan id "plan" (requestOf (-5)) ⟨[housePosition], []⟩).map
      (fun result => (result.2.state, result.2.items)) = .ok (.validated, []) ∧
    ¬Answered id "plan" (requestOf (-5)) ⟨[housePosition], []⟩ := by
  refine ⟨by decide +kernel, fun h => ?_⟩
  have hpayable : Payable (requestOf (-5)).required := payable_of_answered (by simp [FreshKey]) h
  exact absurd hpayable.positive (by norm_num [requestOf])

end Treasury

end Beyvra
