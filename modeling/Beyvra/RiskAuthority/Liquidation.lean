import Mathlib.Data.Prod.Lex
import Mathlib.Data.String.Basic
import Beyvra.Numeric.Decimal
import Beyvra.Numeric.Greedy
import Beyvra.Relational.SortedBy

namespace Beyvra

open Relational Numeric

namespace RiskAuthority

inductive Argument where
  | finite (value : ℚ)
  | other

structure Position where
  instrumentId : String
  marginConsumption : ℚ
  notional : ℚ
  active : Bool
  fresh : Bool
  marketOpen : Bool
  deriving DecidableEq

structure ProposedPosition where
  instrumentId : String
  estimatedNotional : ℚ
  reason : String
  simulation : Bool
  deriving DecidableEq

structure LiquidationPlan where
  eligible : Bool
  requiredReduction : ℚ
  proposedPositions : List ProposedPosition
  uncovered : ℚ
  simulation : Bool
  deriving DecidableEq

inductive Raised where
  | valueError (text : String)
  | decimalException
  deriving DecidableEq

-- _decimal
def checkedDecimal (value : Argument) (name : String) : Except Raised ℚ :=
  match value with
  | .finite x => .ok x
  | .other => .error (.valueError (name ++ " must be Decimal"))

-- A negative Decimal is rounded to the context.
def sortKey (p : Position) : ℚ ×ₗ String := toLex (defaultContext.round (-p.marginConsumption), p.instrumentId)

def eligible (p : Position) : Bool := p.active && p.fresh && p.marketOpen

def proposed (p : Position) (reduction : ℚ) : ProposedPosition :=
  ⟨p.instrumentId, reduction, "MARGIN_CONSUMPTION", true⟩

def proposePositions : List Position → ℚ → Except Raised (List ProposedPosition × ℚ)
  | [], remaining => .ok ([], remaining)
  | position :: positions, remaining =>
    if remaining ≤ 0 then .ok ([], remaining)
    else if eligible position then do
      let reduction := min position.notional remaining
      let left ← demand (defaultContext.sub remaining reduction) .decimalException
      let (items, uncovered) ← proposePositions positions left
      return (proposed position reduction :: items, uncovered)
    else proposePositions positions remaining

-- LiquidationPlanner.generate_plan, where `sorted` computes every key first
def generatePlan (requiredReduction : Argument) (positions : List Position) : Except Raised LiquidationPlan := do
  let required ← checkedDecimal requiredReduction "required_reduction"
  require (∀ p ∈ positions, (defaultContext.finalize (-p.marginConsumption)).isSome) .decimalException
  let (items, remaining) ← proposePositions (sortedBy sortKey positions) required
  return ⟨remaining ≤ 0, required, items, remaining, true⟩

-- A margin consumption as far as the digits of the context tell it
def keptMargin (p : Position) : ℚ := defaultContext.round p.marginConsumption

-- No difference of the loop needs more than the 28 digits of the context.
def Unrounded (positions : List Position) (required : ℚ) : Prop :=
  Kept defaultContext.round (·.notional) ((sortedBy sortKey positions).filter (eligible ·)) required

structure PlanSound (required : ℚ) (positions : List Position) (plan : LiquidationPlan) : Prop where
  greedy : ∃ chosen : List Position, chosen.Subperm (positions.filter (eligible ·)) ∧
    chosen.Pairwise (fun p q => keptMargin q ≤ keptMargin p) ∧
    List.Forall₂ (fun item p => item.instrumentId = p.instrumentId ∧ item.estimatedNotional ≤ p.notional)
      plan.proposedPositions chosen ∧
    List.Forall₂ (fun item p => item.estimatedNotional = p.notional) plan.proposedPositions.dropLast chosen.dropLast
  covered : plan.eligible = true ↔ plan.uncovered = 0
  balanced : Unrounded positions required →
    (plan.proposedPositions.map (·.estimatedNotional)).sum + plan.uncovered = required
  uncovered : Unrounded positions required →
    plan.uncovered = max 0 (required - ((positions.filter (eligible ·)).map (·.notional)).sum)

variable {positions positions' : List Position} {position position' : Position} {remaining required left : ℚ}
  {items : List ProposedPosition} {plan : LiquidationPlan}

def reductions (positions : List Position) (required : ℚ) : List (Position × ℚ) × ℚ :=
  fillKept defaultContext.round (·.notional) (positions.filter (eligible ·)) required

theorem proposePositions_eq (h : proposePositions positions remaining = .ok (items, left)) :
    items = (reductions positions remaining).1.map (fun e => proposed e.1 e.2) ∧ left = (reductions positions remaining).2 := by
  induction positions generalizing remaining items with
  | nil =>
    obtain ⟨rfl, rfl⟩ := Prod.mk.inj (Except.ok.inj h)
    exact ⟨rfl, rfl⟩
  | cons position positions ih =>
    unfold reductions at ih ⊢
    rw [proposePositions] at h
    split_ifs at h with hdone heligible
    · obtain ⟨rfl, rfl⟩ := Prod.mk.inj (Except.ok.inj h)
      rw [fillKept_of_nonpos hdone]
      exact ⟨rfl, rfl⟩
    · obtain ⟨next, hnext, h⟩ := bind_eq_ok.mp h
      obtain ⟨⟨items', left'⟩, hrest, h⟩ := bind_eq_ok.mp h
      obtain ⟨rfl, rfl⟩ := Prod.mk.inj (pure_eq_ok.mp h)
      have hround : defaultContext.round (remaining - min position.notional remaining) = next :=
        Context.round_of_finalize (demand_eq_ok.mp hnext)
      obtain ⟨hitems, hleft⟩ := ih hrest
      rw [List.filter_cons_of_pos heligible, fillKept_cons (not_le.mp hdone), hround, hitems, hleft]
      exact ⟨rfl, rfl⟩
    · rw [List.filter_cons_of_neg heligible]
      exact ih h

theorem round_zero : defaultContext.round 0 = 0 :=
  nearest_of_isMultiple (e := 0) (by decide) (by decide) ⟨0, by simp⟩ (by norm_num [defaultContext])

theorem round_nonneg {x : ℚ} (h : 0 ≤ x) : 0 ≤ defaultContext.round x := nearest_nonneg (by decide) h

theorem keptMargin_le (h : sortKey position ≤ sortKey position') : keptMargin position' ≤ keptMargin position := by
  have hneg (p : Position) : defaultContext.round (-p.marginConsumption) = -keptMargin p := nearest_neg _ _ _ _
  have hle : defaultContext.round (-position.marginConsumption) ≤ defaultContext.round (-position'.marginConsumption) := by
    rcases Prod.Lex.toLex_le_toLex.mp h with hlt | heq
    · exact hlt.le
    · exact heq.1.le
  rw [hneg, hneg] at hle
  exact neg_le_neg_iff.mp hle

theorem generatePlan_eq (h : generatePlan (.finite required) positions = .ok plan) :
    plan = ⟨(reductions (sortedBy sortKey positions) required).2 ≤ 0, required,
      (reductions (sortedBy sortKey positions) required).1.map (fun e => proposed e.1 e.2),
      (reductions (sortedBy sortKey positions) required).2, true⟩ := by
  obtain ⟨x, hx, h⟩ := bind_eq_ok.mp h
  obtain rfl : required = x := Except.ok.inj hx
  obtain ⟨_, -, h⟩ := bind_eq_ok.mp h
  obtain ⟨⟨items, left⟩, hitems, h⟩ := bind_eq_ok.mp h
  obtain ⟨rfl, rfl⟩ := proposePositions_eq hitems
  exact (pure_eq_ok.mp h).symm

theorem perm_eligible (positions : List Position) :
    ((sortedBy sortKey positions).filter (eligible ·)).Perm (positions.filter (eligible ·)) := perm_sortedBy.filter _

section Sound

variable (hrequired : 0 ≤ required)

theorem greedy_reductions (positions : List Position) (required : ℚ) :
    ∃ chosen : List Position, chosen.Subperm (positions.filter (eligible ·)) ∧
      chosen.Pairwise (fun p q => keptMargin q ≤ keptMargin p) ∧
      List.Forall₂ (fun item p => item.instrumentId = p.instrumentId ∧ item.estimatedNotional ≤ p.notional)
        ((reductions (sortedBy sortKey positions) required).1.map fun e => proposed e.1 e.2) chosen ∧
      List.Forall₂ (fun item p => item.estimatedNotional = p.notional)
        ((reductions (sortedBy sortKey positions) required).1.map fun e => proposed e.1 e.2).dropLast chosen.dropLast := by
  have hprefix := initial_fillKept defaultContext.round (·.notional)
    ((sortedBy sortKey positions).filter (eligible ·)) required
  refine ⟨(reductions (sortedBy sortKey positions) required).1.map (·.1), ?_, ?_, ?_, ?_⟩
  · exact hprefix.sublist.subperm.trans (perm_eligible positions).subperm
  · have hsorted := List.pairwise_map.mp (@pairwise_sortedBy _ _ _ sortKey positions)
    exact ((hsorted.sublist List.filter_sublist).sublist hprefix.sublist).imp keptMargin_le
  · rw [List.forall₂_map_left_iff, List.forall₂_map_right_iff, List.forall₂_same]
    exact fun e he => ⟨rfl, fillKept_le _ _ _ e he⟩
  · rw [← List.map_dropLast, ← List.map_dropLast, List.forall₂_map_left_iff, List.forall₂_map_right_iff, List.forall₂_same]
    exact fillKept_full round_zero _ _

include hrequired

theorem reductions_unrounded (hpositions : ∀ p ∈ positions, 0 ≤ p.notional) (hexact : Unrounded positions required) :
    ((reductions (sortedBy sortKey positions) required).1.map (·.2)).sum +
        (reductions (sortedBy sortKey positions) required).2 = required ∧
      (reductions (sortedBy sortKey positions) required).2 =
        max 0 (required - ((positions.filter (eligible ·)).map (·.notional)).sum) := by
  have heq := fillKept_eq_fill hexact
  rw [reductions, heq]
  refine ⟨fill_sum _ _ _, ?_⟩
  rw [fill_rest _ hrequired, ((perm_eligible positions).map _).sum_eq]
  intro p hp
  exact hpositions p (List.mem_filter.mp ((perm_eligible positions).mem_iff.mp hp)).1

theorem planSound_of_generatePlan (hpositions : ∀ p ∈ positions, 0 ≤ p.notional)
    (h : generatePlan (.finite required) positions = .ok plan) : PlanSound required positions plan := by
  have hplan := generatePlan_eq h
  have hnonneg : 0 ≤ (reductions (sortedBy sortKey positions) required).2 :=
    fillKept_nonneg (fun _ => round_nonneg) hrequired
  rw [hplan]
  constructor
  · exact greedy_reductions positions required
  · rw [decide_eq_true_iff]
    exact ⟨fun hle => le_antisymm hle hnonneg, fun heq => heq.le⟩
  · intro hexact
    rw [List.map_map]
    exact (reductions_unrounded hrequired hpositions hexact).1
  · intro hexact
    exact (reductions_unrounded hrequired hpositions hexact).2

end Sound

section Returns

variable {x : ℚ}

theorem abs_round_le (h : |x| ≤ 10 ^ defaultContext.emax) : |defaultContext.round x| ≤ 10 ^ defaultContext.emax := by
  have hten : ((10 : Nat) : ℚ) = 10 := by norm_num
  have hbound : (10 : ℚ) ^ defaultContext.emax < 10 ^ (defaultContext.emax + defaultContext.prec) :=
    zpow_lt_zpow_right₀ (by norm_num) (by decide)
  exact abs_nearest_le (e := defaultContext.emax) (by decide) (by decide) ⟨1, by rw [hten, Int.cast_one, one_mul]⟩
    (by rw [hten]; exact hbound) (by decide) h

theorem finalize_of_abs_le (h : |x| ≤ 10 ^ defaultContext.emax) :
    defaultContext.finalize x = some (defaultContext.round x) :=
  have hnext : (10 : ℚ) ^ defaultContext.emax < 10 ^ (defaultContext.emax + 1) :=
    zpow_lt_zpow_right₀ (by norm_num) (by decide)
  Context.finalize_of_round ((abs_round_le h).trans_lt hnext)

theorem exists_proposePositions (hpositions : ∀ p ∈ positions, 0 ≤ p.notional) (h0 : 0 ≤ remaining)
    (h : remaining ≤ 10 ^ defaultContext.emax) : ∃ result, proposePositions positions remaining = .ok result := by
  induction positions generalizing remaining with
  | nil => exact ⟨_, rfl⟩
  | cons position positions ih =>
    obtain ⟨hposition, hrest⟩ := List.forall_mem_cons.mp hpositions
    rw [proposePositions]
    split_ifs with hdone heligible
    · exact ⟨_, rfl⟩
    · have hdiff : 0 ≤ remaining - min position.notional remaining := sub_nonneg.mpr (min_le_right _ _)
      have hless : |remaining - min position.notional remaining| ≤ 10 ^ defaultContext.emax := by
        rw [abs_of_nonneg hdiff]
        exact (sub_le_self _ (le_min hposition h0)).trans h
      obtain ⟨result, hresult⟩ := ih hrest (round_nonneg hdiff) ((le_abs_self _).trans (abs_round_le hless))
      exact ⟨_, bind_eq_ok.mpr ⟨_, demand_eq_ok.mpr (finalize_of_abs_le hless), bind_eq_ok.mpr ⟨result, hresult, rfl⟩⟩⟩
    · exact ih hrest h0 h

theorem exists_generatePlan (hpositions : ∀ p ∈ positions, 0 ≤ p.notional) (h0 : 0 ≤ required)
    (h : required ≤ 10 ^ defaultContext.emax)
    (hmargins : ∀ p ∈ positions, |p.marginConsumption| ≤ 10 ^ defaultContext.emax) :
    ∃ plan, generatePlan (.finite required) positions = .ok plan := by
  have hkeys : ∀ p ∈ positions, (defaultContext.finalize (-p.marginConsumption)).isSome := by
    intro p hp
    rw [finalize_of_abs_le (by rw [abs_neg]; exact hmargins p hp)]
    rfl
  have hordered : ∀ p ∈ sortedBy sortKey positions, 0 ≤ p.notional := fun p hp =>
    hpositions p (perm_sortedBy.mem_iff.mp hp)
  obtain ⟨result, hresult⟩ := exists_proposePositions hordered h0 h
  exact ⟨_, bind_eq_ok.mpr ⟨required, rfl, bind_eq_ok.mpr ⟨(), require_of hkeys, bind_eq_ok.mpr ⟨result, hresult, rfl⟩⟩⟩⟩

theorem generatePlan_perm (requiredReduction : Argument) (hdistinct : (positions.map (·.instrumentId)).Nodup)
    (h : positions'.Perm positions) : generatePlan requiredReduction positions' = generatePlan requiredReduction positions := by
  have hsame : ∀ x ∈ positions', ∀ y ∈ positions, sortKey x = sortKey y → x = y := by
    intro x hx y hy hkey
    have hids : x.instrumentId = y.instrumentId := congrArg (fun key => (ofLex key).2) hkey
    exact List.inj_on_of_nodup_map hdistinct (h.mem_iff.mp hx) hy hids
  have hsorted := map_sortedBy (f := id) (h.map sortKey) hsame
  rw [List.map_id, List.map_id] at hsorted
  unfold generatePlan
  simp only [hsorted, h.mem_iff]

end Returns

theorem kept_of_isMultiple {e : Int} (he : -1000026 ≤ e) (he' : e ≤ 999972) (h0 : 0 ≤ required)
    (hrequired : IsMultiple (10 ^ e) required) (hlt : required < 10 ^ (e + 28))
    (hpositions : ∀ p ∈ positions, 0 ≤ p.notional ∧ IsMultiple (10 ^ e) p.notional) :
    Kept defaultContext.round (·.notional) positions required := by
  induction positions generalizing required with
  | nil => trivial
  | cons p positions ih =>
    intro hpos
    obtain ⟨⟨hp, hmultiple⟩, hrest⟩ := List.forall_mem_cons.mp hpositions
    have hnext : IsMultiple (10 ^ e) (required - min p.notional required) := by
      rcases min_choice p.notional required with heq | heq
      · rw [heq]
        exact hrequired.sub hmultiple
      · rw [heq]
        exact hrequired.sub hrequired
    have hdiff : 0 ≤ required - min p.notional required := sub_nonneg.mpr (min_le_right _ _)
    have hless : required - min p.notional required < 10 ^ (e + 28) := (sub_le_self _ (le_min hp h0)).trans_lt hlt
    refine ⟨Context.round_of_finalize (Context.finalize_of_isMultiple he ?_ hnext ?_), ih hdiff hnext hless hrest⟩
    · show e + 28 ≤ 999999 + 1
      omega
    · rw [abs_of_nonneg hdiff]
      exact hless

-- Multiples of one power of ten of which the required reduction has no more than 28 digits
theorem unrounded_of_isMultiple {e : Int} (he : -1000026 ≤ e) (he' : e ≤ 999972) (h0 : 0 ≤ required)
    (hrequired : IsMultiple (10 ^ e) required) (hlt : required < 10 ^ (e + 28))
    (hpositions : ∀ p ∈ positions, eligible p → 0 ≤ p.notional ∧ IsMultiple (10 ^ e) p.notional) :
    Unrounded positions required := by
  refine kept_of_isMultiple he he' h0 hrequired hlt fun p hp => ?_
  obtain ⟨hmem, heligible⟩ := List.mem_filter.mp ((perm_eligible positions).mem_iff.mp hp)
  exact hpositions p hmem heligible

theorem plan_sound (h0 : 0 ≤ required) (hpositions : ∀ p ∈ positions, 0 ≤ p.notional) :
    (∀ plan, generatePlan (.finite required) positions = .ok plan → PlanSound required positions plan) ∧
      (required ≤ 10 ^ defaultContext.emax →
        (∀ p ∈ positions, |p.marginConsumption| ≤ 10 ^ defaultContext.emax) →
        ∃ plan, generatePlan (.finite required) positions = .ok plan) ∧
      ((positions.map (·.instrumentId)).Nodup → ∀ positions' : List Position, positions'.Perm positions →
        generatePlan (.finite required) positions' = generatePlan (.finite required) positions) :=
  ⟨fun _ => planSound_of_generatePlan h0 hpositions, exists_generatePlan hpositions h0,
    fun hdistinct _ => generatePlan_perm _ hdistinct⟩

def openPosition (instrumentId : String) (marginConsumption notional : ℚ) : Position :=
  ⟨instrumentId, marginConsumption, notional, true, true, true⟩

theorem two_positions_planned : PlanSound 50 [openPosition "a" 10 30, openPosition "b" 20 40]
    ⟨true, 50, [proposed (openPosition "b" 20 40) 40, proposed (openPosition "a" 10 30) 10], 0, true⟩ :=
  (plan_sound (by norm_num) (by decide +kernel)).1 _ (by decide +kernel)

-- In 28 digits both margins are the same, and a tenth is lost in what remains.
theorem digits_lost : ∃ plan, generatePlan (.finite (10 ^ 28))
      [openPosition "b" (10 ^ 28 + 1) (1 / 10), openPosition "a" (10 ^ 28) (1 / 10)] = .ok plan ∧
    plan.proposedPositions.map (·.instrumentId) = ["a", "b"] ∧
    (plan.proposedPositions.map (·.estimatedNotional)).sum + plan.uncovered ≠ 10 ^ 28 :=
  ⟨⟨false, 10 ^ 28, [proposed (openPosition "a" (10 ^ 28) (1 / 10)) (1 / 10),
    proposed (openPosition "b" (10 ^ 28 + 1) (1 / 10)) (1 / 10)], 10 ^ 28, true⟩, by decide +kernel⟩

end RiskAuthority

end Beyvra
