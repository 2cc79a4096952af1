import Beyvra.Foundation.Records
import Beyvra.Numeric.Decimal

namespace Beyvra

open Relational Numeric

namespace Institutional

inductive AccountStatus where
  | pending | active | restricted | suspended | closed | unknown
  deriving DecidableEq

structure AllocationGroupMember where
  id : Uuid
  subaccount : Uuid
  weight : Option ℚ
  priority : Option Nat
  status : AccountStatus

structure AllocationLine where
  targetSubaccount : Uuid
  quantity : ℚ
  notional : ℚ
  status : String
  deriving DecidableEq

inductive InstructionState where
  | calculated | allocated
  deriving DecidableEq

structure AllocationInstruction where
  institution : Uuid
  tradeId : String
  sourceAccount : Uuid
  canonicalQuantity : ℚ
  idempotencyKey : String
  state : InstructionState
  lines : List AllocationLine
  deriving DecidableEq

structure AllocationRequest where
  institution : Uuid
  tradeId : String
  sourceAccount : Uuid
  group : List AllocationGroupMember
  quantity : ℚ
  price : ℚ
  idempotencyKey : String

inductive Raised where
  | valueError (code : String)
  | decimalException
  | integrityError (constraint : String)
  | dataError
  deriving DecidableEq

-- `order_by("priority", "id")`, in which a missing priority comes last
def AllocationGroupMember.before (a b : AllocationGroupMember) : Bool :=
  match a.priority, b.priority with
  | some p, some q => p < q || (p = q && a.id ≤ b.id)
  | some _, none => true
  | none, some _ => false
  | none, none => a.id ≤ b.id

def activeMembers (group : List AllocationGroupMember) : List AllocationGroupMember :=
  (group.filter (·.status = .active)).insertionSort (·.before ·)

def targetsOf (members : List AllocationGroupMember) : Option (List (Uuid × ℚ)) :=
  members.mapM fun member => member.weight.map fun weight => (member.subaccount, weight)

def quantum : ℚ := 10 ^ (-18 : Int)

-- 36 digits of which 18 are decimals
def fitsColumn (x : ℚ) : Prop := |x| < 10 ^ (18 : Int)

instance (x : ℚ) : Decidable (fitsColumn x) := inferInstanceAs (Decidable (_ < _))

def shareOf (quantity weight : ℚ) : Option ℚ := do
  let product ← defaultContext.mul quantity weight
  defaultContext.quantize towardZero (-18) product

def notionalOf (quantity price : ℚ) : Option ℚ := do
  let product ← defaultContext.mul quantity price
  defaultContext.quantize halfEven (-18) product

def createLine (target : Uuid) (quantity notional : ℚ) : Except Raised AllocationLine := do
  require (fitsColumn quantity ∧ fitsColumn notional) .dataError
  require (0 < quantity) (.integrityError "positive_allocation_quantity")
  return ⟨target, quantity, notional, "VALIDATED"⟩

def allocateLines (quantity price : ℚ) : ℚ → List (Uuid × ℚ) → Except Raised (List AllocationLine)
  | _, [] => .ok []
  | allocated, (target, weight) :: rest => do
    let lineQuantity ← demand (if rest = [] then defaultContext.sub quantity allocated else shareOf quantity weight)
      .decimalException
    let allocated ← demand (defaultContext.add allocated lineQuantity) .decimalException
    let notional ← demand (notionalOf lineQuantity price) .decimalException
    let line ← createLine target lineQuantity notional
    let lines ← allocateLines quantity price allocated rest
    return line :: lines

def allocateFixedPercent (instructions : List AllocationInstruction) (request : AllocationRequest) :
    Except Raised (List AllocationInstruction × AllocationInstruction) :=
  match instructions.find? fun i => i.institution = request.institution ∧ i.tradeId = request.tradeId with
  | some existing => .ok (instructions, existing)
  | none => do
    let members := activeMembers request.group
    require (members ≠ []) (.valueError "ALLOCATION_INVALID")
    let targets ← demand (targetsOf members) (.valueError "ALLOCATION_INVALID")
    let total ← demand ((targets.map (·.2)).foldlM defaultContext.add 0) .decimalException
    require (total = 1) (.valueError "ALLOCATION_WEIGHTS_MUST_EQUAL_ONE")
    require (fitsColumn request.quantity) .dataError
    require (¬∃ i ∈ instructions, i.institution = request.institution ∧ i.idempotencyKey = request.idempotencyKey)
      (.integrityError "unique_institution_allocation_idempotency")
    let lines ← allocateLines request.quantity request.price 0 targets
    let instruction : AllocationInstruction := ⟨request.institution, request.tradeId, request.sourceAccount,
      request.quantity, request.idempotencyKey, .allocated, lines⟩
    return (instructions ++ [instruction], instruction)

def rounded (x : ℚ) : ℚ := defaultContext.round x

def share (quantity weight : ℚ) : ℚ := roundTo towardZero quantum (rounded (quantity * weight))

def notional (quantity price : ℚ) : ℚ := roundTo halfEven quantum (rounded (quantity * price))

-- From here on the 28 digits have no room for 18 decimals.
def ceiling : ℚ := 10 ^ (10 : Int) - quantum / 2

def lineQuantity (quantity allocated : ℚ) (rest : List (Uuid × ℚ)) (weight : ℚ) : ℚ :=
  if rest = [] then rounded (quantity - allocated) else share quantity weight

def lineQuantities (quantity : ℚ) : ℚ → List (Uuid × ℚ) → List ℚ
  | _, [] => []
  | allocated, (_, weight) :: rest =>
    lineQuantity quantity allocated rest weight ::
      lineQuantities quantity (rounded (allocated + lineQuantity quantity allocated rest weight)) rest

variable {x y q w p unit : ℚ} {k : Nat} {e : Int}

theorem quantum_pos : 0 < quantum := zpow_pos (by norm_num) _

theorem quantum_multiple : IsMultiple quantum (10 ^ (10 : Int)) := ⟨10 ^ 28, by norm_num [quantum]⟩

theorem le_sub_of_isMultiple (hunit : 0 < unit) (hx : IsMultiple unit x) (hy : IsMultiple unit y) (h : x < y) :
    x ≤ y - unit := by
  obtain ⟨m, rfl⟩ := hx
  obtain ⟨n, rfl⟩ := hy
  have hmn : m < n := by exact_mod_cast lt_of_mul_lt_mul_right h hunit.le
  have hle : (m : ℚ) ≤ n - 1 := by exact_mod_cast Int.le_sub_one_of_lt hmn
  linarith [mul_le_mul_of_nonneg_right hle hunit.le]

section Rounded

theorem rounded_eq (x : ℚ) : rounded x = nearest 10 28 (-1000026) x := rfl

theorem rounded_nonneg (hx : 0 ≤ x) : 0 ≤ rounded x := nearest_nonneg (by decide) hx

theorem rounded_of_isMultiple (he : -1000026 ≤ e) (hx : IsMultiple (10 ^ e) x) (h : |x| < 10 ^ (e + 28)) :
    rounded x = x := nearest_of_isMultiple (by decide) he hx h

theorem rounded_le (he : -1000026 ≤ e) (hpos : 0 < e + 28) (hy : IsMultiple (10 ^ e) y) (hlt : y < 10 ^ (e + 28))
    (hx : 0 ≤ x) (h : x ≤ y) : rounded x ≤ y := nearest_le (by decide) he hy hlt hpos hx h

theorem rounded_lt_iff (hx : 0 ≤ x) : rounded x < 10 ^ (10 : Int) ↔ x < ceiling := by
  have h := @nearest_lt_iff 10 28 (-18) (-1000026) x (by decide) (by decide) (by decide) (by decide) (by decide) hx
  rw [show (-18 : Int) + ((28 : Nat) : Int) = 10 from rfl, Nat.cast_ofNat, ← rounded_eq] at h
  exact h

theorem rounded_le_mul (hx : IsMultiple (10 ^ (-36 : Int)) x) (hpos : 0 < x) :
    rounded x ≤ x * (1 + 10 ^ (-27 : Int) / 2) := by
  obtain ⟨n, rfl⟩ := hx
  have hunit : (0 : ℚ) < 10 ^ (-36 : Int) := zpow_pos (by norm_num) _
  have hn : 0 < n := by exact_mod_cast (mul_pos_iff_of_pos_right hunit).mp hpos
  have hone : (1 : ℚ) ≤ n := by exact_mod_cast hn
  have hlow : ((10 : Nat) : ℚ) ^ (-36 : Int) ≤ n * 10 ^ (-36 : Int) := by
    push_cast
    linarith [mul_le_mul_of_nonneg_right hone hunit.le]
  have hlog : -36 ≤ Int.log 10 ((n : ℚ) * 10 ^ (-36 : Int)) := (Int.zpow_le_iff_le_log (by decide) hpos).mp hlow
  have h := @nearest_le_mul 10 28 (-1000026) _ (by decide) hpos (by push_cast; omega)
  rw [show (1 : Int) - ((28 : Nat) : Int) = -27 from rfl, Nat.cast_ofNat, ← rounded_eq] at h
  exact h

theorem lt_of_lt_ceiling (h : x < ceiling) : x < 10 ^ (10 : Int) := h.trans (sub_lt_self _ (half_pos quantum_pos))

theorem lastExponent_below (hx : 0 ≤ x) (hlt : x < ceiling) : lastExponent 10 28 (-1000026) x ≤ -18 := by
  refine lastExponent_le_of_lt (by decide) ?_ (by decide) (by decide)
  rw [abs_of_nonneg hx]
  exact lt_of_lt_ceiling hlt

theorem le_rounded (hx : 0 ≤ x) (hlt : x < ceiling) (hy : IsMultiple quantum y) (h : y ≤ x) : y ≤ rounded x := by
  have hmultiple : IsMultiple (((10 : Nat) : ℚ) ^ (-18 : Int)) y := hy
  exact le_roundTo_halfEven (unit_pos (by decide)) (hmultiple.zpow (by decide) (lastExponent_below hx hlt)) h

theorem rounded_error (hx : 0 ≤ x) (hlt : x < ceiling) : |rounded x - x| ≤ quantum / 2 := by
  have hunit : ((10 : Nat) : ℚ) ^ lastExponent 10 28 (-1000026) x ≤ quantum :=
    zpow_le_zpow_right₀ (by norm_num) (lastExponent_below hx hlt)
  exact (nearest_error (by decide)).trans (div_le_div_of_nonneg_right hunit (by norm_num))

-- What is left of it is a multiple of the quantum.
theorem rounded_le_sub (hx : 0 ≤ x) (h : x < ceiling) : rounded x ≤ 10 ^ (10 : Int) - quantum := by
  have hmultiple : IsMultiple quantum (10 ^ (10 : Int) - quantum) := ⟨10 ^ 28 - 1, by norm_num [quantum]⟩
  rcases le_or_gt x (10 ^ (10 : Int) - quantum) with hle | hlt
  · exact rounded_le (by decide) (by decide) hmultiple (by norm_num [quantum]) hx hle
  · have hlow : (0 : ℚ) < ((10 : Nat) : ℚ) ^ (9 : Int) := by positivity
    have hbig : ((10 : Nat) : ℚ) ^ (9 : Int) ≤ x := by
      refine le_trans ?_ hlt.le
      norm_num [quantum]
    have hlog : 9 ≤ Int.log 10 x := (Int.zpow_le_iff_le_log (by decide) (hlow.trans_le hbig)).mp hbig
    have hlast : -18 ≤ lastExponent 10 28 (-1000026) x := by
      rw [lastExponent, abs_of_nonneg hx]
      push_cast
      omega
    have hround : IsMultiple quantum (rounded x) := roundTo_isMultiple.zpow (by decide) hlast
    exact le_sub_of_isMultiple quantum_pos hround quantum_multiple ((rounded_lt_iff hx).mpr h)

end Rounded

section Share

theorem truncated_le (hy : 0 ≤ y) : roundTo towardZero quantum y ≤ y := by
  have hscaled : 0 ≤ y / quantum := div_nonneg hy quantum_pos.le
  rw [roundTo, towardZero, if_neg (not_lt.mpr hscaled)]
  calc (⌊y / quantum⌋ : ℚ) * quantum ≤ y / quantum * quantum :=
        mul_le_mul_of_nonneg_right (Int.floor_le _) quantum_pos.le
    _ = y := div_mul_cancel₀ y quantum_pos.ne'

theorem le_truncated (hx : 0 ≤ x) (hmultiple : IsMultiple quantum x) (h : x ≤ y) : x ≤ roundTo towardZero quantum y := by
  obtain ⟨n, rfl⟩ := hmultiple
  have hscaled : (n : ℚ) ≤ y / quantum := (le_div_iff₀ quantum_pos).mpr h
  have hy : 0 ≤ y / quantum := div_nonneg (hx.trans h) quantum_pos.le
  rw [roundTo, towardZero, if_neg (not_lt.mpr hy)]
  exact mul_le_mul_of_nonneg_right (by exact_mod_cast Int.le_floor.mpr hscaled) quantum_pos.le

theorem share_nonneg (h : 0 ≤ q * w) : 0 ≤ share q w := le_truncated le_rfl ⟨0, by simp⟩ (rounded_nonneg h)

theorem share_multiple : IsMultiple quantum (share q w) := roundTo_isMultiple

theorem share_lt_iff (h : 0 ≤ q * w) : share q w < 10 ^ (10 : Int) ↔ q * w < ceiling := by
  rw [← rounded_lt_iff h]
  constructor
  · contrapose!
    exact le_truncated (by positivity) quantum_multiple
  · exact fun hlt => (truncated_le (rounded_nonneg h)).trans_lt hlt

theorem share_le_mul (hmultiple : IsMultiple (10 ^ (-36 : Int)) (q * w)) (h : 0 < q * w) :
    share q w ≤ q * w * (1 + 10 ^ (-27 : Int) / 2) :=
  (truncated_le (rounded_nonneg h.le)).trans (rounded_le_mul hmultiple h)

-- The whole quanta of a product survive the rounding to 28 digits.
theorem sub_lt_share (h : 0 ≤ q * w) (hlt : q * w < ceiling) : q * w - quantum < share q w := by
  have hfloor : (⌊q * w / quantum⌋ : ℚ) * quantum ≤ q * w :=
    (mul_le_mul_of_nonneg_right (Int.floor_le _) quantum_pos.le).trans_eq (div_mul_cancel₀ _ quantum_pos.ne')
  have hnext : q * w < (⌊q * w / quantum⌋ + 1 : ℚ) * quantum := (div_lt_iff₀ quantum_pos).mp (Int.lt_floor_add_one _)
  have hpos : (0 : ℚ) ≤ ⌊q * w / quantum⌋ := by exact_mod_cast Int.floor_nonneg.mpr (div_nonneg h quantum_pos.le)
  have hround := le_rounded h hlt ⟨_, rfl⟩ hfloor
  have hshare := le_truncated (mul_nonneg hpos quantum_pos.le) ⟨_, rfl⟩ hround
  rw [add_mul, one_mul] at hnext
  exact (sub_lt_iff_lt_add.mpr hnext).trans_le hshare

theorem share_close (h : 0 ≤ q * w) (hlt : q * w < ceiling) : |share q w - q * w| < quantum := by
  have hlow := sub_lt_share h hlt
  have hround := abs_le.mp (rounded_error h hlt)
  have hhigh := truncated_le (rounded_nonneg h)
  rw [abs_lt]
  constructor
  · linarith
  · have hhalf := half_lt_self quantum_pos
    unfold share
    linarith [hround.2]

theorem quantum_le_share_iff (hmultiple : IsMultiple (10 ^ (-36 : Int)) (q * w)) (h : 0 ≤ q * w) :
    quantum ≤ share q w ↔ quantum ≤ q * w := by
  constructor
  · contrapose!
    intro hlt
    have hexact : rounded (q * w) = q * w := by
      refine rounded_of_isMultiple (by decide) hmultiple ?_
      rw [abs_of_nonneg h]
      exact hlt.trans (by norm_num [quantum])
    rw [share, hexact]
    exact (truncated_le h).trans_lt hlt
  · intro hle
    have hround := @zpow_le_nearest 10 28 (-18) (-1000026) (q * w) (by decide) (by decide) (by decide) hle
    exact le_truncated quantum_pos.le ⟨1, by simp⟩ hround

end Share

section Lines

variable {a : ℚ} {target : Uuid} {targets : List (Uuid × ℚ)} {lines : List AllocationLine} {line : AllocationLine}

theorem notional_lt_iff (h : 0 ≤ x * p) : notional x p < 10 ^ (10 : Int) ↔ x * p < ceiling := by
  constructor
  · contrapose!
    intro hle
    have hround : (10 : ℚ) ^ (10 : Int) ≤ rounded (x * p) := not_lt.mp fun hlt => hle.not_gt ((rounded_lt_iff h).mp hlt)
    exact le_roundTo_halfEven quantum_pos quantum_multiple hround
  · intro hlt
    have hmultiple : IsMultiple quantum (10 ^ (10 : Int) - quantum) := ⟨10 ^ 28 - 1, by norm_num [quantum]⟩
    have hle := roundTo_halfEven_le quantum_pos hmultiple (rounded_le_sub h hlt)
    exact hle.trans_lt (sub_lt_self _ quantum_pos)

theorem finalize_small (h0 : 0 ≤ rounded x) (h : rounded x ≤ 10 ^ (46 : Int)) :
    defaultContext.finalize x = some (rounded x) := by
  refine Context.finalize_of_round ?_
  rw [show defaultContext.round x = rounded x from rfl, abs_of_nonneg h0]
  exact h.trans_lt (zpow_lt_zpow_right₀ (by norm_num) (by decide))

theorem mul_below (h : 0 ≤ x * p) (hlt : x * p < ceiling) : defaultContext.mul x p = some (rounded (x * p)) := by
  refine finalize_small (rounded_nonneg h) (((rounded_lt_iff h).mpr hlt).le.trans ?_)
  exact zpow_le_zpow_right₀ (by norm_num) (by decide)

theorem quantize_eq_some {mode : ℚ → Int} {r : ℚ} : defaultContext.quantize mode (-18) x = some r ↔
    |roundTo mode quantum x| < 10 ^ (10 : Int) ∧ roundTo mode quantum x = r := by
  rw [← not_le]
  unfold Context.quantize
  dsimp only
  show (if 10 ^ (10 : Int) ≤ |roundTo mode quantum x| then none else some (roundTo mode quantum x)) = some r ↔ _
  split_ifs with hbig
  · simp only [hbig, not_true, false_and]
  · simp only [Option.some.injEq, hbig, not_false_eq_true, true_and]

theorem of_shareOf {s : ℚ} (h : 0 ≤ q * w) (hs : shareOf q w = some s) : s = share q w ∧ q * w < ceiling := by
  obtain ⟨product, hproduct, hquantize⟩ := Option.bind_eq_some_iff.mp hs
  obtain rfl := Context.round_of_finalize hproduct
  obtain ⟨hlt, rfl⟩ := quantize_eq_some.mp hquantize
  exact ⟨rfl, (share_lt_iff h).mp ((le_abs_self _).trans_lt hlt)⟩

theorem shareOf_below (h : 0 ≤ q * w) (hlt : q * w < ceiling) : shareOf q w = some (share q w) := by
  rw [shareOf, mul_below h hlt]
  refine quantize_eq_some.mpr ⟨?_, rfl⟩
  show |share q w| < _
  rw [abs_of_nonneg (share_nonneg h)]
  exact (share_lt_iff h).mpr hlt

theorem of_notionalOf {n : ℚ} (h : 0 ≤ x * p) (hn : notionalOf x p = some n) : x * p < ceiling := by
  obtain ⟨product, hproduct, hquantize⟩ := Option.bind_eq_some_iff.mp hn
  obtain rfl := Context.round_of_finalize hproduct
  exact (notional_lt_iff h).mp ((le_abs_self _).trans_lt (quantize_eq_some.mp hquantize).1)

theorem notionalOf_below (h : 0 ≤ x * p) (hlt : x * p < ceiling) :
    notionalOf x p = some (notional x p) ∧ fitsColumn (notional x p) := by
  have hnonneg : 0 ≤ notional x p := le_roundTo_halfEven quantum_pos ⟨0, by simp⟩ (rounded_nonneg h)
  have hsmall : |notional x p| < 10 ^ (10 : Int) := by
    rw [abs_of_nonneg hnonneg]
    exact (notional_lt_iff h).mpr hlt
  constructor
  · rw [notionalOf, mul_below h hlt]
    exact quantize_eq_some.mpr ⟨hsmall, rfl⟩
  · exact hsmall.trans (zpow_lt_zpow_right₀ (by norm_num) (by decide))

theorem createLine_eq_ok {n : ℚ} : createLine target x n = .ok line ↔
    (fitsColumn x ∧ fitsColumn n) ∧ 0 < x ∧ line = ⟨target, x, n, "VALIDATED"⟩ := by
  simp only [createLine, bind_eq_ok, require_eq_ok, pure_eq_ok, exists_and_left, exists_const]
  exact and_congr_right fun _ => and_congr_right fun _ => eq_comm

theorem of_lineQuantity {rest : List (Uuid × ℚ)} (h : 0 ≤ q * w)
    (hx : (if rest = [] then defaultContext.sub q a else shareOf q w) = some x) :
    lineQuantity q a rest w = x ∧ (rest ≠ [] → q * w < ceiling) := by
  unfold lineQuantity
  split_ifs at hx ⊢ with hrest
  · exact ⟨Context.round_of_finalize hx, fun hne => absurd hrest hne⟩
  · obtain ⟨rfl, hlt⟩ := of_shareOf h hx
    exact ⟨rfl, fun _ => hlt⟩

theorem lineQuantity_below {rest : List (Uuid × ℚ)} (h : 0 ≤ q * w) (hshare : rest ≠ [] → q * w < ceiling)
    (hpos : 0 < lineQuantity q a rest w) (hlt : lineQuantity q a rest w < 10 ^ (18 : Int)) :
    (if rest = [] then defaultContext.sub q a else shareOf q w) = some (lineQuantity q a rest w) := by
  unfold lineQuantity at hpos hlt ⊢
  split_ifs at hpos hlt ⊢ with hrest
  · exact finalize_small hpos.le (hlt.le.trans (zpow_le_zpow_right₀ (by norm_num) (by decide)))
  · exact shareOf_below h (hshare hrest)

structure Written (q p a : ℚ) (targets : List (Uuid × ℚ)) (lines : List AllocationLine) : Prop where
  quantities : lines.map (·.quantity) = lineQuantities q a targets
  subaccounts : lines.map (·.targetSubaccount) = targets.map (·.1)
  shares : ∀ t ∈ targets.dropLast, q * t.2 < ceiling
  positive : ∀ line ∈ lines, 0 < line.quantity ∧ line.quantity * p < ceiling

theorem written_of_allocateLines (hp : 0 ≤ p) (hw : ∀ t ∈ targets, 0 ≤ q * t.2)
    (h : allocateLines q p a targets = .ok lines) : Written q p a targets lines := by
  induction targets generalizing a lines with
  | nil =>
    obtain rfl := Except.ok.inj h
    exact ⟨rfl, rfl, by simp, by simp⟩
  | cons t rest ih =>
    obtain ⟨target, weight⟩ := t
    obtain ⟨x, hx, h⟩ := bind_eq_ok.mp h
    obtain ⟨allocated, hallocated, h⟩ := bind_eq_ok.mp h
    obtain ⟨n, hn, h⟩ := bind_eq_ok.mp h
    obtain ⟨line, hline, h⟩ := bind_eq_ok.mp h
    obtain ⟨lines', hlines, h⟩ := bind_eq_ok.mp h
    obtain rfl := Except.ok.inj h
    obtain ⟨hquantity, hshare⟩ := of_lineQuantity (hw _ List.mem_cons_self) (demand_eq_ok.mp hx)
    obtain rfl := Context.round_of_finalize (demand_eq_ok.mp hallocated)
    obtain ⟨-, hpositive, rfl⟩ := createLine_eq_ok.mp hline
    have hrest := ih (fun t ht => hw t (List.mem_cons_of_mem _ ht)) hlines
    have hnotional := of_notionalOf (mul_nonneg hpositive.le hp) (demand_eq_ok.mp hn)
    refine ⟨?_, ?_, ?_, ?_⟩
    · rw [List.map_cons, hrest.quantities, lineQuantities, hquantity]
      rfl
    · rw [List.map_cons, hrest.subaccounts, List.map_cons]
    · cases rest with
      | nil => simp
      | cons next others =>
        rw [List.dropLast_cons_cons]
        exact List.forall_mem_cons.mpr ⟨hshare (List.cons_ne_nil _ _), hrest.shares⟩
    · exact List.forall_mem_cons.mpr ⟨⟨hpositive, hnotional⟩, hrest.positive⟩

-- What is allocated stays below one whole column for each line.
theorem rounded_add_le (ha : 0 ≤ a) (hk : a ≤ k * 10 ^ (18 : Int)) (hroom : k + 1 < 10 ^ 28) (hx : 0 ≤ x)
    (hlt : x < 10 ^ (18 : Int)) : rounded (a + x) ≤ (k + 1 : Nat) * 10 ^ (18 : Int) := by
  refine rounded_le (e := 18) (by decide) (by decide) ⟨(k + 1 : Nat), by push_cast; ring⟩ ?_ (add_nonneg ha hx) ?_
  · have hcast : ((k + 1 : Nat) : ℚ) < 10 ^ 28 := by exact_mod_cast hroom
    calc ((k + 1 : Nat) : ℚ) * 10 ^ (18 : Int) < 10 ^ 28 * 10 ^ (18 : Int) :=
          mul_lt_mul_of_pos_right hcast (zpow_pos (by norm_num) _)
      _ = 10 ^ ((18 : Int) + 28) := by norm_num
  · push_cast
    linarith

theorem allocateLines_of_fits (hp : 0 ≤ p) (hw : ∀ t ∈ targets, 0 ≤ q * t.2)
    (hshares : ∀ t ∈ targets.dropLast, q * t.2 < ceiling) (ha : 0 ≤ a) (hk : a ≤ k * 10 ^ (18 : Int))
    (hroom : k + targets.length < 10 ^ 28)
    (hfits : ∀ x ∈ lineQuantities q a targets, 0 < x ∧ x < 10 ^ (18 : Int) ∧ x * p < ceiling) :
    ∃ lines, allocateLines q p a targets = .ok lines := by
  induction targets generalizing a k with
  | nil => exact ⟨[], rfl⟩
  | cons t rest ih =>
    obtain ⟨target, weight⟩ := t
    obtain ⟨⟨hpositive, hcolumn, hnotional⟩, hrest⟩ := List.forall_mem_cons.mp hfits
    have hround : 0 ≤ rounded (a + lineQuantity q a rest weight) := rounded_nonneg (add_nonneg ha hpositive.le)
    have hnext := rounded_add_le ha hk (by rw [List.length_cons] at hroom; omega) hpositive.le hcolumn
    have hlimit : ((k + 1 : Nat) : ℚ) * 10 ^ (18 : Int) ≤ 10 ^ (46 : Int) := by
      have hcast : ((k + 1 : Nat) : ℚ) ≤ 10 ^ 28 := by
        rw [List.length_cons] at hroom
        exact_mod_cast (show k + 1 ≤ 10 ^ 28 by omega)
      calc ((k + 1 : Nat) : ℚ) * 10 ^ (18 : Int) ≤ 10 ^ 28 * 10 ^ (18 : Int) :=
            mul_le_mul_of_nonneg_right hcast (zpow_pos (by norm_num) _).le
        _ = 10 ^ (46 : Int) := by norm_num
    have hshare : rest ≠ [] → q * weight < ceiling := fun hne => by
      obtain ⟨next, others, rfl⟩ := List.exists_cons_of_ne_nil hne
      rw [List.dropLast_cons_cons] at hshares
      exact hshares _ List.mem_cons_self
    have htail : ∀ t ∈ rest.dropLast, q * t.2 < ceiling := fun t ht => by
      cases rest with
      | nil => cases ht
      | cons next others =>
        rw [List.dropLast_cons_cons] at hshares
        exact hshares t (List.mem_cons_of_mem _ ht)
    have hquantity := lineQuantity_below (hw _ List.mem_cons_self) hshare hpositive hcolumn
    have hadd : defaultContext.add a (lineQuantity q a rest weight) = some (rounded (a + lineQuantity q a rest weight)) :=
      finalize_small hround (hnext.trans hlimit)
    obtain ⟨hn, hfit⟩ := notionalOf_below (mul_nonneg hpositive.le hp) hnotional
    have hcolumn' : fitsColumn (lineQuantity q a rest weight) := by
      rw [fitsColumn, abs_of_pos hpositive]
      exact hcolumn
    have hline : createLine target (lineQuantity q a rest weight) (notional (lineQuantity q a rest weight) p) =
        .ok ⟨target, _, _, "VALIDATED"⟩ := createLine_eq_ok.mpr ⟨⟨hcolumn', hfit⟩, hpositive, rfl⟩
    obtain ⟨lines, hlines⟩ := ih (fun t ht => hw t (List.mem_cons_of_mem _ ht)) htail hround hnext
      (by rw [List.length_cons] at hroom; omega) hrest
    exact ⟨_, bind_eq_ok.mpr ⟨_, demand_eq_ok.mpr hquantity, bind_eq_ok.mpr ⟨_, demand_eq_ok.mpr hadd,
      bind_eq_ok.mpr ⟨_, demand_eq_ok.mpr hn, bind_eq_ok.mpr ⟨_, hline, bind_eq_ok.mpr ⟨lines, hlines, rfl⟩⟩⟩⟩⟩⟩

end Lines

end Institutional

end Beyvra
