import Beyvra.Institutional.Allocation

namespace Beyvra

open Relational Numeric

namespace Institutional

def shares (quantity : ℚ) (targets : List (Uuid × ℚ)) : List ℚ := targets.dropLast.map fun t => share quantity t.2

def remainder (quantity : ℚ) (targets : List (Uuid × ℚ)) : ℚ := quantity - (shares quantity targets).sum

def runningTotal (quantity allocated : ℚ) (targets : List (Uuid × ℚ)) : ℚ :=
  (shares quantity targets).foldl (fun total x => rounded (total + x)) allocated

structure Weighted (targets : List (Uuid × ℚ)) : Prop where
  nonempty : targets ≠ []
  positive : ∀ t ∈ targets, 0 < t.2
  multiple : ∀ t ∈ targets, IsMultiple quantum t.2
  total : (targets.map (·.2)).sum = 1

structure FitsColumn (x : ℚ) : Prop where
  positive : 0 < x
  multiple : IsMultiple quantum x
  bound : x < 10 ^ (18 : Int)

structure FairLines (quantity : ℚ) (targets : List (Uuid × ℚ)) (lines : List AllocationLine) : Prop where
  total : (lines.map (·.quantity)).sum = quantity
  positive : ∀ line ∈ lines, 0 < line.quantity
  subaccounts : lines.map (·.targetSubaccount) = targets.map (·.1)
  close : List.Forall₂ (fun t x => |x - quantity * t.2| < quantum * targets.length) targets (lines.map (·.quantity))

-- Every share but the last one is at least a quantum and has room for its decimals.
def Divisible (quantity : ℚ) (targets : List (Uuid × ℚ)) : Prop :=
  ∀ t ∈ targets.dropLast, quantum ≤ quantity * t.2 ∧ quantity * t.2 < ceiling

-- The running total of 28 digits leaves the right remainder.
def RemainderExact (quantity : ℚ) (targets : List (Uuid × ℚ)) : Prop :=
  rounded (quantity - runningTotal quantity 0 targets) = remainder quantity targets

def NotionalsFit (quantity price : ℚ) (targets : List (Uuid × ℚ)) : Prop :=
  ∀ x ∈ shares quantity targets ++ [remainder quantity targets], x * price < ceiling

variable {q p a : ℚ} {targets : List (Uuid × ℚ)} {lines : List AllocationLine}

theorem lineQuantities_eq (hne : targets ≠ []) :
    lineQuantities q a targets = shares q targets ++ [rounded (q - runningTotal q a targets)] := by
  induction targets generalizing a with
  | nil => exact absurd rfl hne
  | cons t rest ih =>
    cases rest with
    | nil => rfl
    | cons next others =>
      rw [lineQuantities, ih (List.cons_ne_nil _ _)]
      rfl

theorem foldl_rounded_of_foldlM {xs : List ℚ} {r : ℚ} (h : xs.foldlM defaultContext.add a = some r) :
    xs.foldl (fun total x => rounded (total + x)) a = r := by
  induction xs generalizing a with
  | nil => exact Option.some.inj h
  | cons x xs ih =>
    obtain ⟨total, htotal, hrest⟩ := Option.bind_eq_some_iff.mp h
    obtain rfl := Context.round_of_finalize htotal
    exact ih hrest

theorem product_multiple {x y : ℚ} (hx : IsMultiple quantum x) (hy : IsMultiple quantum y) :
    IsMultiple (10 ^ (-36 : Int)) (x * y) := by
  obtain ⟨m, rfl⟩ := hx
  obtain ⟨n, rfl⟩ := hy
  refine ⟨m * n, ?_⟩
  have hsquare : quantum * quantum = 10 ^ (-36 : Int) := by norm_num [quantum]
  rw [mul_mul_mul_comm, hsquare]
  push_cast
  rfl

theorem quantum_le {x : ℚ} (hx : IsMultiple quantum x) (hpos : 0 < x) : quantum ≤ x := by
  have h := le_sub_of_isMultiple quantum_pos ⟨0, by simp⟩ hx hpos
  linarith

namespace Weighted

theorem split (h : Weighted targets) : targets.dropLast ++ [targets.getLast h.nonempty] = targets :=
  List.dropLast_append_getLast h.nonempty

theorem mem_of_dropLast (h : Weighted targets) {t : Uuid × ℚ} (ht : t ∈ targets.dropLast) : t ∈ targets := by
  rw [← h.split]
  exact List.mem_append_left _ ht

theorem total_split (h : Weighted targets) :
    (targets.dropLast.map (·.2)).sum + (targets.getLast h.nonempty).2 = 1 := by
  have htotal := h.total
  rw [← h.split] at htotal
  simpa using htotal

theorem last_ge (h : Weighted targets) : quantum ≤ (targets.getLast h.nonempty).2 :=
  quantum_le (h.multiple _ (List.getLast_mem _)) (h.positive _ (List.getLast_mem _))

theorem le_one (h : Weighted targets) {t : Uuid × ℚ} (ht : t ∈ targets) : t.2 ≤ 1 := by
  rw [← h.total]
  refine List.single_le_sum (fun x hx => ?_) t.2 (List.mem_map_of_mem ht)
  obtain ⟨s, hs, rfl⟩ := List.mem_map.mp hx
  exact (h.positive s hs).le

-- No more members than quanta in the whole
theorem length_lt (h : Weighted targets) : targets.length < 10 ^ 28 := by
  have hsum := List.card_nsmul_le_sum (targets.map (·.2)) quantum fun x hx => by
    obtain ⟨s, hs, rfl⟩ := List.mem_map.mp hx
    exact quantum_le (h.multiple s hs) (h.positive s hs)
  rw [h.total, List.length_map, nsmul_eq_mul] at hsum
  have hquantum : quantum = 1 / 10 ^ 18 := by norm_num [quantum]
  rw [hquantum] at hsum
  have hcount : (targets.length : ℚ) < 10 ^ 28 := by linarith
  exact_mod_cast hcount

end Weighted

section Remainder

variable (hq : FitsColumn q) (hw : Weighted targets)

include hq hw

theorem product_nonneg {t : Uuid × ℚ} (ht : t ∈ targets) : 0 ≤ q * t.2 :=
  mul_nonneg hq.positive.le (hw.positive t ht).le

theorem sum_shares_le :
    (shares q targets).sum ≤ q * (targets.dropLast.map (·.2)).sum * (1 + 10 ^ (-27 : Int) / 2) := by
  have hshare : ∀ t ∈ targets.dropLast, share q t.2 ≤ q * t.2 * (1 + 10 ^ (-27 : Int) / 2) := fun t ht =>
    share_le_mul (product_multiple hq.multiple (hw.multiple t (hw.mem_of_dropLast ht)))
      (mul_pos hq.positive (hw.positive t (hw.mem_of_dropLast ht)))
  calc (shares q targets).sum ≤ (targets.dropLast.map fun t => q * t.2 * (1 + 10 ^ (-27 : Int) / 2)).sum :=
        List.sum_le_sum hshare
    _ = q * (targets.dropLast.map (·.2)).sum * (1 + 10 ^ (-27 : Int) / 2) := by
        rw [List.sum_map_mul_right, List.sum_map_mul_left]

-- The last weight is at least a quantum, which is more than all roundings to 28 digits together.
theorem remainder_pos : 0 < remainder q targets := by
  have hsum := sum_shares_le hq hw
  have hsplit := hw.total_split
  have hlast := hw.last_ge
  have hsmall : (10 : ℚ) ^ (-27 : Int) / 2 < quantum := by norm_num [quantum]
  have hweights : (targets.dropLast.map (·.2)).sum ≤ 1 - quantum := by linarith
  have hpos : 0 < q := hq.positive
  have hfactor : (targets.dropLast.map (·.2)).sum * (1 + 10 ^ (-27 : Int) / 2) < 1 := by
    calc (targets.dropLast.map (·.2)).sum * (1 + 10 ^ (-27 : Int) / 2) ≤ (1 - quantum) * (1 + 10 ^ (-27 : Int) / 2) :=
          mul_le_mul_of_nonneg_right hweights (by positivity)
      _ < 1 := by norm_num [quantum]
  have hlt := mul_lt_mul_of_pos_left hfactor hpos
  rw [remainder]
  linarith

theorem remainder_le : remainder q targets ≤ q := by
  have hnonneg : 0 ≤ (shares q targets).sum := List.sum_nonneg fun x hx => by
    obtain ⟨t, ht, rfl⟩ := List.mem_map.mp hx
    exact share_nonneg (product_nonneg hq hw (hw.mem_of_dropLast ht))
  rw [remainder]
  linarith

omit hq hw in
theorem sum_close {members : List (Uuid × ℚ)} (h : ∀ t ∈ members, |share q t.2 - q * t.2| < quantum) :
    |(members.map fun t => share q t.2).sum - q * (members.map (·.2)).sum| ≤ quantum * members.length := by
  induction members with
  | nil => simp
  | cons t rest ih =>
    obtain ⟨ht, hrest⟩ := List.forall_mem_cons.mp h
    have htail := abs_le.mp (ih hrest)
    have hhead := abs_lt.mp ht
    rw [List.map_cons, List.sum_cons, List.map_cons, List.sum_cons, List.length_cons, abs_le]
    push_cast
    constructor <;> linarith [htail.1, htail.2, hhead.1, hhead.2]

theorem remainder_close (hdivisible : Divisible q targets) :
    |remainder q targets - q * (targets.getLast hw.nonempty).2| < quantum * targets.length := by
  have hclose := abs_le.mp (sum_close fun t ht =>
    share_close (product_nonneg hq hw (hw.mem_of_dropLast ht)) (hdivisible t ht).2)
  have hlast : (targets.getLast hw.nonempty).2 = 1 - (targets.dropLast.map (·.2)).sum := by linarith [hw.total_split]
  have hlength : (targets.dropLast.length : ℚ) = targets.length - 1 := by
    rw [List.length_dropLast, Nat.cast_pred (List.length_pos_of_ne_nil hw.nonempty)]
  rw [hlength] at hclose
  have hpos := quantum_pos
  rw [remainder, shares, hlast, abs_lt]
  constructor <;> linarith [hclose.1, hclose.2]

theorem fairLines_of_quantities (hdivisible : Divisible q targets)
    (hquantities : lines.map (·.quantity) = shares q targets ++ [remainder q targets])
    (hsubaccounts : lines.map (·.targetSubaccount) = targets.map (·.1)) (hpositive : ∀ line ∈ lines, 0 < line.quantity) :
    FairLines q targets lines where
  total := by
    rw [hquantities, List.sum_append, List.sum_singleton, remainder]
    ring
  positive := hpositive
  subaccounts := hsubaccounts
  close := by
    have hlength : quantum ≤ quantum * targets.length := by
      refine le_mul_of_one_le_right quantum_pos.le ?_
      exact_mod_cast List.length_pos_of_ne_nil hw.nonempty
    have hshares : List.Forall₂ (fun t x => |x - q * t.2| < quantum * targets.length) targets.dropLast
        (shares q targets) := List.forall₂_map_right_iff.mpr (List.forall₂_same.mpr fun t ht =>
      (share_close (product_nonneg hq hw (hw.mem_of_dropLast ht)) (hdivisible t ht).2).trans_le hlength)
    rw [hquantities]
    have hboth : List.Forall₂ (fun t x => |x - q * t.2| < quantum * targets.length)
        (targets.dropLast ++ [targets.getLast hw.nonempty]) (shares q targets ++ [remainder q targets]) :=
      List.rel_append hshares (.cons (remainder_close hq hw hdivisible) .nil)
    rwa [hw.split] at hboth

theorem divisible_of_positive (hpositive : ∀ x ∈ shares q targets, 0 < x)
    (hroom : ∀ t ∈ targets.dropLast, q * t.2 < ceiling) : Divisible q targets := by
  intro t ht
  have hmem := hw.mem_of_dropLast ht
  have hshare : quantum ≤ share q t.2 := quantum_le share_multiple (hpositive _ (List.mem_map_of_mem ht))
  have hproduct := product_multiple hq.multiple (hw.multiple t hmem)
  exact ⟨(quantum_le_share_iff hproduct (product_nonneg hq hw hmem)).mp hshare, hroom t ht⟩

theorem shares_positive (hdivisible : Divisible q targets) :
    ∀ x ∈ shares q targets, 0 < x ∧ x < 10 ^ (18 : Int) := by
  intro x hx
  obtain ⟨t, ht, rfl⟩ := List.mem_map.mp hx
  have hmem := hw.mem_of_dropLast ht
  have hnonneg := product_nonneg hq hw hmem
  have hproduct := product_multiple hq.multiple (hw.multiple t hmem)
  have hlow := (quantum_le_share_iff hproduct hnonneg).mpr (hdivisible t ht).1
  have hhigh := (share_lt_iff hnonneg).mpr (hdivisible t ht).2
  exact ⟨quantum_pos.trans_le hlow, hhigh.trans (zpow_lt_zpow_right₀ (by norm_num) (by decide))⟩

theorem allocateLines_iff (hprice : FitsColumn p) :
    (∃ lines, allocateLines q p 0 targets = .ok lines ∧ FairLines q targets lines) ↔
      Divisible q targets ∧ RemainderExact q targets ∧ NotionalsFit q p targets := by
  have hnonneg : ∀ t ∈ targets, 0 ≤ q * t.2 := fun t ht => product_nonneg hq hw ht
  constructor
  · rintro ⟨lines, hok, hfair⟩
    have hwritten := written_of_allocateLines hprice.positive.le hnonneg hok
    have hquantities := hwritten.quantities
    rw [lineQuantities_eq hw.nonempty] at hquantities
    have hexact : RemainderExact q targets := by
      have htotal := hfair.total
      rw [hquantities, List.sum_append, List.sum_singleton] at htotal
      rw [RemainderExact, remainder]
      linarith
    have hpositive : ∀ x ∈ lines.map (·.quantity), 0 < x ∧ x * p < ceiling := by
      intro x hx
      obtain ⟨line, hline, rfl⟩ := List.mem_map.mp hx
      exact hwritten.positive line hline
    rw [hquantities, hexact] at hpositive
    exact ⟨divisible_of_positive hq hw (fun x hx => (hpositive x (List.mem_append_left _ hx)).1) hwritten.shares, hexact,
      fun x hx => (hpositive x hx).2⟩
  · rintro ⟨hdivisible, hexact, hfit⟩
    have hquantities : lineQuantities q 0 targets = shares q targets ++ [remainder q targets] := by
      rw [lineQuantities_eq hw.nonempty, hexact]
    have hfits : ∀ x ∈ lineQuantities q 0 targets, 0 < x ∧ x < 10 ^ (18 : Int) ∧ x * p < ceiling := by
      rw [hquantities]
      intro x hx
      have hnotional := hfit x hx
      rcases List.mem_append.mp hx with hshare | hlast
      · obtain ⟨hpositive, hcolumn⟩ := shares_positive hq hw hdivisible x hshare
        exact ⟨hpositive, hcolumn, hnotional⟩
      · obtain rfl := List.mem_singleton.mp hlast
        exact ⟨remainder_pos hq hw, (remainder_le hq hw).trans_lt hq.bound, hnotional⟩
    obtain ⟨lines, hok⟩ := allocateLines_of_fits (k := 0) hprice.positive.le hnonneg
      (fun t ht => (hdivisible t ht).2) le_rfl (by simp) (by rw [Nat.zero_add]; exact hw.length_lt) hfits
    have hwritten := written_of_allocateLines hprice.positive.le hnonneg hok
    exact ⟨lines, hok, fairLines_of_quantities hq hw hdivisible (hwritten.quantities.trans hquantities)
      hwritten.subaccounts fun line hline => (hwritten.positive line hline).1⟩

-- Below ten to the tenth, 28 digits have room for everything.
theorem remainderExact_of_lt (hlt : q < 10 ^ (10 : Int)) :
    RemainderExact q targets ∧ ∀ t ∈ targets.dropLast, q * t.2 < ceiling := by
  have hpos := remainder_pos hq hw
  have hterms : ∀ x ∈ shares q targets, 0 ≤ x ∧ IsMultiple (10 ^ (-18 : Int)) x := by
    intro x hx
    obtain ⟨t, ht, rfl⟩ := List.mem_map.mp hx
    exact ⟨share_nonneg (product_nonneg hq hw (hw.mem_of_dropLast ht)), share_multiple⟩
  have hsum : (shares q targets).sum < 10 ^ (10 : Int) := by
    rw [remainder] at hpos
    linarith
  have htotal : runningTotal q 0 targets = (shares q targets).sum := by
    have hfold := Context.foldlM_add_of_isMultiple (c := defaultContext) (e := -18) (by decide) (by decide) hterms le_rfl
      ⟨0, by simp⟩ (by rw [zero_add]; exact hsum)
    rw [zero_add] at hfold
    exact foldl_rounded_of_foldlM hfold
  have hmultiple : IsMultiple (10 ^ (-18 : Int)) (remainder q targets) :=
    hq.multiple.sub (IsMultiple.sum fun x hx => (hterms x hx).2)
  constructor
  · rw [RemainderExact, htotal]
    refine rounded_of_isMultiple (by decide) hmultiple ?_
    rw [← remainder, abs_of_pos hpos]
    exact (remainder_le hq hw).trans_lt hlt
  · intro t ht
    have hone := hw.le_one (hw.mem_of_dropLast ht)
    have hbelow := le_sub_of_isMultiple quantum_pos hq.multiple quantum_multiple hlt
    have hhalf := half_lt_self quantum_pos
    calc q * t.2 ≤ q := mul_le_of_le_one_right hq.positive.le hone
      _ ≤ 10 ^ (10 : Int) - quantum := hbelow
      _ < ceiling := sub_lt_sub_left hhalf _

end Remainder

section Requests

variable {instructions : List AllocationInstruction} {request : AllocationRequest}

structure Admissible (request : AllocationRequest) (targets : List (Uuid × ℚ)) : Prop where
  quantity : FitsColumn request.quantity
  price : FitsColumn request.price
  members : targetsOf (activeMembers request.group) = some targets
  weighted : Weighted targets

def Fresh (instructions : List AllocationInstruction) (request : AllocationRequest) : Prop :=
  ∀ i ∈ instructions, i.institution = request.institution →
    i.tradeId ≠ request.tradeId ∧ i.idempotencyKey ≠ request.idempotencyKey

def Allocates (instructions : List AllocationInstruction) (request : AllocationRequest)
    (targets : List (Uuid × ℚ)) : Prop :=
  ∃ instruction, allocateFixedPercent instructions request = .ok (instructions ++ [instruction], instruction) ∧
    FairLines request.quantity targets instruction.lines

theorem Weighted.total_exact (h : Weighted targets) : (targets.map (·.2)).foldlM defaultContext.add 0 = some 1 := by
  have hterms : ∀ x ∈ targets.map (·.2), 0 ≤ x ∧ IsMultiple (10 ^ (-18 : Int)) x := by
    intro x hx
    obtain ⟨t, ht, rfl⟩ := List.mem_map.mp hx
    exact ⟨(h.positive t ht).le, h.multiple t ht⟩
  have hfold := Context.foldlM_add_of_isMultiple (c := defaultContext) (e := -18) (by decide) (by decide) hterms le_rfl
    ⟨0, by simp⟩ (by rw [h.total]; norm_num [defaultContext])
  rwa [h.total, zero_add] at hfold

theorem allocateFixedPercent_of_fresh (hfresh : Fresh instructions request) (h : Admissible request targets) :
    allocateFixedPercent instructions request = (allocateLines request.quantity request.price 0 targets).map fun lines =>
      (instructions ++ [⟨request.institution, request.tradeId, request.sourceAccount, request.quantity,
        request.idempotencyKey, .allocated, lines⟩], ⟨request.institution, request.tradeId, request.sourceAccount,
        request.quantity, request.idempotencyKey, .allocated, lines⟩) := by
  have hnone : instructions.find? (fun i => i.institution = request.institution ∧ i.tradeId = request.tradeId) = none :=
    List.find?_eq_none.mpr fun i hi => by
      simp only [decide_eq_true_eq, not_and]
      exact fun hinstitution => (hfresh i hi hinstitution).1
  have hmembers : activeMembers request.group ≠ [] := by
    intro hempty
    have htargets := h.members
    rw [hempty] at htargets
    exact h.weighted.nonempty (Option.some.inj htargets).symm
  have hcolumn : fitsColumn request.quantity := by
    rw [fitsColumn, abs_of_pos h.quantity.positive]
    exact h.quantity.bound
  have hkey : ¬∃ i ∈ instructions, i.institution = request.institution ∧ i.idempotencyKey = request.idempotencyKey := by
    rintro ⟨i, hi, hinstitution, hsame⟩
    exact (hfresh i hi hinstitution).2 hsame
  rw [allocateFixedPercent, hnone]
  dsimp only
  rw [require_of hmembers, bind_of_ok rfl, bind_of_ok (demand_eq_ok.mpr h.members),
    bind_of_ok (demand_eq_ok.mpr h.weighted.total_exact), require_of rfl, bind_of_ok rfl, require_of hcolumn,
    bind_of_ok rfl, require_of hkey, bind_of_ok rfl]
  cases allocateLines request.quantity request.price 0 targets with
  | error e => rfl
  | ok lines => rfl

theorem allocates_iff (hfresh : Fresh instructions request) (h : Admissible request targets) :
    Allocates instructions request targets ↔
      ∃ lines, allocateLines request.quantity request.price 0 targets = .ok lines ∧
        FairLines request.quantity targets lines := by
  rw [Allocates, allocateFixedPercent_of_fresh hfresh h]
  constructor
  · rintro ⟨instruction, hok, hfair⟩
    obtain ⟨lines, hlines, heq⟩ := Relational.map_eq_ok.mp hok
    obtain rfl := (Prod.mk.inj heq).2
    exact ⟨lines, hlines, hfair⟩
  · rintro ⟨lines, hlines, hfair⟩
    exact ⟨_, Relational.map_eq_ok.mpr ⟨lines, hlines, rfl⟩, hfair⟩

theorem fixed_percent_allocated (instructions : List AllocationInstruction) (request : AllocationRequest)
    (targets : List (Uuid × ℚ)) (hfresh : Fresh instructions request) (h : Admissible request targets) :
    (Allocates instructions request targets ↔ Divisible request.quantity targets ∧
      RemainderExact request.quantity targets ∧ NotionalsFit request.quantity request.price targets) ∧
    (request.quantity < 10 ^ (10 : Int) → RemainderExact request.quantity targets ∧
      ∀ t ∈ targets.dropLast, request.quantity * t.2 < ceiling) := by
  rw [allocates_iff hfresh h]
  exact ⟨allocateLines_iff h.quantity h.weighted h.price, remainderExact_of_lt h.quantity h.weighted⟩

def halves : List AllocationGroupMember :=
  [⟨"m1", "s1", some (1 / 2), some 1, .active⟩, ⟨"m2", "s2", some (1 / 2), some 2, .active⟩]

def halvesOf (quantity : ℚ) : AllocationRequest := ⟨"i1", "t1", "s0", halves, quantity, 100, "k1"⟩

def halfTargets : List (Uuid × ℚ) := [("s1", 1 / 2), ("s2", 1 / 2)]

theorem halves_admissible {quantity : ℚ} (h : FitsColumn quantity) : Admissible (halvesOf quantity) halfTargets where
  quantity := h
  price := ⟨by norm_num [halvesOf], ⟨100 * 10 ^ 18, by norm_num [halvesOf, quantum]⟩, by norm_num [halvesOf]⟩
  members := by
    show targetsOf (activeMembers halves) = some halfTargets
    decide +kernel
  weighted :=
    { nonempty := List.cons_ne_nil _ _
      positive := by simp [halfTargets]
      multiple := by
        have hhalf : IsMultiple quantum (1 / 2) := ⟨5 * 10 ^ 17, by norm_num [quantum]⟩
        simp only [halfTargets, List.forall_mem_cons]
        exact ⟨hhalf, hhalf, fun t ht => absurd ht List.not_mem_nil⟩
      total := by norm_num [halfTargets] }

theorem one_fits : FitsColumn 1 := ⟨by norm_num, ⟨10 ^ 18, by norm_num [quantum]⟩, by norm_num⟩

theorem one_allocated : (Allocates [] (halvesOf 1) halfTargets ↔ Divisible 1 halfTargets ∧
      RemainderExact 1 halfTargets ∧ NotionalsFit 1 100 halfTargets) ∧
    ((1 : ℚ) < 10 ^ (10 : Int) → RemainderExact 1 halfTargets ∧ ∀ t ∈ halfTargets.dropLast, 1 * t.2 < ceiling) :=
  fixed_percent_allocated [] (halvesOf 1) halfTargets (fun _ hi => nomatch hi) (halves_admissible one_fits)

-- A share of no quanta is refused by the table, and one of eleven whole digits by the context.
theorem shares_refused : Admissible (halvesOf quantum) halfTargets ∧
    allocateFixedPercent [] (halvesOf quantum) = .error (.integrityError "positive_allocation_quantity") ∧
    Admissible (halvesOf (10 ^ 12)) halfTargets ∧
    allocateFixedPercent [] (halvesOf (10 ^ 12)) = .error .decimalException := by
  refine ⟨halves_admissible ⟨quantum_pos, ⟨1, by simp⟩, by norm_num [quantum]⟩, by decide +kernel,
    halves_admissible ⟨by norm_num, ⟨10 ^ 30, by norm_num [quantum]⟩, by norm_num⟩, by decide +kernel⟩

end Requests

end Institutional

end Beyvra
