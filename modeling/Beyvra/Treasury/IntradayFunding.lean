import Mathlib.Data.Prod.Lex
import Beyvra.Numeric.RunningSum
import Beyvra.Relational.SortedBy
import Beyvra.Treasury.Records

namespace Beyvra

open Relational Numeric

namespace Treasury

-- Whatever is not an INFLOW is taken off.
inductive Direction where
  | inflow | outflow
  deriving DecidableEq

structure FundingEvent where
  atTime : Timestamp
  direction : Direction
  amount : ℚ
  deriving DecidableEq

structure IntradayFundingWindow where
  openingLiquidity : ℚ
  expectedInflows : ℚ
  expectedOutflows : ℚ
  peakFundingNeed : ℚ
  minimumLiquidity : ℚ
  closingLiquidity : ℚ
  deriving DecidableEq

structure FundingState where
  balance : ℚ
  minimum : ℚ
  inflows : ℚ
  outflows : ℚ

-- One round of the loop; nothing where an addition overflows
def FundingState.apply (s : FundingState) (event : FundingEvent) : Option FundingState :=
  match event.direction with
  | .inflow => do
    let balance ← defaultContext.add s.balance event.amount
    let inflows ← defaultContext.add s.inflows event.amount
    some ⟨balance, min s.minimum balance, inflows, s.outflows⟩
  | .outflow => do
    let balance ← defaultContext.sub s.balance event.amount
    let outflows ← defaultContext.add s.outflows event.amount
    some ⟨balance, min s.minimum balance, s.inflows, outflows⟩

def stored (x : ℚ) : Except Raised ℚ := demand (amountColumn.store x) .dataError

def IntradayFundingWindow.store (w : IntradayFundingWindow) : Except Raised IntradayFundingWindow := do
  let openingLiquidity ← stored w.openingLiquidity
  let expectedInflows ← stored w.expectedInflows
  let expectedOutflows ← stored w.expectedOutflows
  let peakFundingNeed ← stored w.peakFundingNeed
  let minimumLiquidity ← stored w.minimumLiquidity
  let closingLiquidity ← stored w.closingLiquidity
  pure ⟨openingLiquidity, expectedInflows, expectedOutflows, peakFundingNeed, minimumLiquidity, closingLiquidity⟩

-- IntradayFundingService.calculate, with a stable sort and the row as it is stored
def calculateWindow (opening : ℚ) (events : List FundingEvent) : Except Raised IntradayFundingWindow := do
  let s ← demand ((sortedBy (·.atTime) events).foldlM FundingState.apply ⟨opening, opening, 0, 0⟩) .overflow
  let need ← demand (defaultContext.sub 0 s.minimum) .overflow
  IntradayFundingWindow.store ⟨opening, s.inflows, s.outflows, max 0 need, s.minimum, s.balance⟩

section Exact

-- The same without rounding
def FundingState.applyExact (s : FundingState) (event : FundingEvent) : FundingState :=
  match event.direction with
  | .inflow => ⟨s.balance + event.amount, min s.minimum (s.balance + event.amount), s.inflows + event.amount, s.outflows⟩
  | .outflow => ⟨s.balance - event.amount, min s.minimum (s.balance - event.amount), s.inflows, s.outflows + event.amount⟩

def exactState (opening : ℚ) (events : List FundingEvent) : FundingState :=
  events.foldl FundingState.applyExact ⟨opening, opening, 0, 0⟩

def exactWindow (opening : ℚ) (events : List FundingEvent) : IntradayFundingWindow :=
  let s := exactState opening (sortedBy (·.atTime) events)
  ⟨opening, s.inflows, s.outflows, max 0 (-s.minimum), s.minimum, s.balance⟩

-- A number that the context leaves as it is
def Precise (x : ℚ) : Prop := defaultContext.finalize x = some x

structure FundingState.Precise (s : FundingState) : Prop where
  balance : Treasury.Precise s.balance
  inflows : Treasury.Precise s.inflows
  outflows : Treasury.Precise s.outflows
  need : Treasury.Precise (-s.minimum)

structure IntradayFundingWindow.Fits (w : IntradayFundingWindow) : Prop where
  opening : amountColumn.Holds w.openingLiquidity
  inflows : amountColumn.Holds w.expectedInflows
  outflows : amountColumn.Holds w.expectedOutflows
  peak : amountColumn.Holds w.peakFundingNeed
  minimum : amountColumn.Holds w.minimumLiquidity
  closing : amountColumn.Holds w.closingLiquidity

-- In whatever order the events are listed, no addition rounds and no column changes a value.
def WindowUnrounded (opening : ℚ) (events : List FundingEvent) : Prop :=
  ∀ events' : List FundingEvent, events'.Perm events →
    (∀ before after, sortedBy (·.atTime) events' = before ++ after → (exactState opening before).Precise) ∧
      (exactWindow opening events').Fits

end Exact

def FundingEvent.delta (event : FundingEvent) : ℚ :=
  match event.direction with
  | .inflow => event.amount
  | .outflow => -event.amount

section Balances

variable (opening : ℚ) (events : List FundingEvent) (t : Timestamp)

def totalOf (direction : Direction) : ℚ := ((events.filter (·.direction = direction)).map (·.amount)).sum

def balanceBefore : ℚ := opening + ((events.filter (·.atTime < t)).map (·.delta)).sum

def balanceAfter : ℚ := opening + ((events.filter (·.atTime ≤ t)).map (·.delta)).sum

-- The opening and the balance after each time, whose events are one step
def balances : Set ℚ := {b | b = opening ∨ ∃ event ∈ events, b = balanceAfter opening events event.atTime}

-- The balance of a time at which all that is taken off comes first
def lowBalance : ℚ := balanceBefore opening events t + ((events.filter (·.atTime = t)).map fun event => min event.delta 0).sum

structure Faithful (window : IntradayFundingWindow) : Prop where
  permuted : ∀ events' : List FundingEvent, events'.Perm events → ∃ window', calculateWindow opening events' = .ok window' ∧
    window'.minimumLiquidity = window.minimumLiquidity ∧ window'.peakFundingNeed = window.peakFundingNeed ∧
      window'.closingLiquidity = window.closingLiquidity
  closing : window.closingLiquidity = opening + totalOf events .inflow - totalOf events .outflow
  least : IsLeast (balances opening events) window.minimumLiquidity

def WindowFaithful : Prop := ∃ window, calculateWindow opening events = .ok window ∧ Faithful opening events window

def TiesHarmless : Prop := ∀ event ∈ events, ∃ b ∈ balances opening events, b ≤ lowBalance opening events event.atTime

end Balances

variable {opening : ℚ} {events events' rows : List FundingEvent} {event : FundingEvent} {t : Timestamp} {s : FundingState}

theorem applyExact_eq (s : FundingState) (event : FundingEvent) : s.applyExact event =
    ⟨s.balance + event.delta, min s.minimum (s.balance + event.delta), (s.applyExact event).inflows,
      (s.applyExact event).outflows⟩ := by
  unfold FundingState.applyExact FundingEvent.delta
  cases event.direction <;> simp [sub_eq_add_neg]

theorem foldl_applyExact_running (s : FundingState) (rows : List FundingEvent) :
    ((rows.foldl FundingState.applyExact s).balance, (rows.foldl FundingState.applyExact s).minimum) =
      (rows.map (·.delta)).foldl (fun s d => (s.1 + d, min s.2 (s.1 + d))) (s.balance, s.minimum) := by
  induction rows generalizing s with
  | nil => rfl
  | cons event rows ih => rw [List.foldl_cons, ih, List.map_cons, List.foldl_cons, applyExact_eq]

theorem exactWindow_running (opening : ℚ) (events : List FundingEvent) :
    ((exactWindow opening events).closingLiquidity, (exactWindow opening events).minimumLiquidity) =
      running opening ((sortedBy (·.atTime) events).map (·.delta)) := foldl_applyExact_running _ _

theorem sum_delta (events : List FundingEvent) :
    (events.map (·.delta)).sum = totalOf events .inflow - totalOf events .outflow := by
  induction events with
  | nil => simp [totalOf]
  | cons event events ih =>
    unfold totalOf at ih ⊢
    rw [List.map_cons, List.sum_cons, ih, FundingEvent.delta]
    cases h : event.direction <;> simp [h] <;> ring

theorem closing_eq (opening : ℚ) (events : List FundingEvent) :
    (exactWindow opening events).closingLiquidity = opening + totalOf events .inflow - totalOf events .outflow := by
  have hclosing := congrArg Prod.fst (exactWindow_running opening events)
  rw [running_fst, (perm_sortedBy.map _).sum_eq, sum_delta, ← add_sub_assoc] at hclosing
  exact hclosing

theorem minimum_le {before after : List FundingEvent} (h : sortedBy (·.atTime) events = before ++ after) :
    (exactWindow opening events).minimumLiquidity ≤ opening + (before.map (·.delta)).sum := by
  have hleast := congrArg Prod.snd (exactWindow_running opening events)
  rw [h, List.map_append] at hleast
  exact hleast.trans_le running_le

theorem exists_minimum (opening : ℚ) (events : List FundingEvent) : ∃ before after,
    sortedBy (·.atTime) events = before ++ after ∧
      (exactWindow opening events).minimumLiquidity = opening + (before.map (·.delta)).sum := by
  have hleast := congrArg Prod.snd (exactWindow_running opening events)
  obtain ⟨xs, ys, hsplit, hsum⟩ := exists_running opening ((sortedBy (·.atTime) events).map (·.delta))
  obtain ⟨before, after, hrows, rfl, rfl⟩ := List.map_eq_append_iff.mp hsplit
  exact ⟨before, after, hrows, hleast.trans hsum⟩

section Permuted

variable (hperm : events'.Perm events)
include hperm

theorem balanceAfter_perm : balanceAfter opening events' t = balanceAfter opening events t :=
  congrArg (opening + ·) ((hperm.filter _).map _).sum_eq

theorem balances_perm : balances opening events' = balances opening events := by
  ext b
  simp only [balances, Set.mem_ofPred_eq, hperm.mem_iff, balanceAfter_perm hperm]

theorem lowBalance_perm : lowBalance opening events' t = lowBalance opening events t := by
  unfold lowBalance balanceBefore
  rw [((hperm.filter _).map _).sum_eq, ((hperm.filter _).map _).sum_eq]

theorem totalOf_perm (direction : Direction) : totalOf events' direction = totalOf events direction :=
  ((hperm.filter _).map _).sum_eq

theorem closing_perm :
    (exactWindow opening events').closingLiquidity = (exactWindow opening events).closingLiquidity := by
  rw [closing_eq, closing_eq, totalOf_perm hperm, totalOf_perm hperm]

end Permuted

theorem perm_sorted (events : List FundingEvent) : (sortedBy (·.atTime) events).Perm events := perm_sortedBy

theorem pairwise_sorted (events : List FundingEvent) :
    (sortedBy (·.atTime) events).Pairwise fun x y => x.atTime ≤ y.atTime := List.pairwise_map.mp pairwise_sortedBy

theorem minimum_le_opening : (exactWindow opening events).minimumLiquidity ≤ opening := by
  have hstart : sortedBy (·.atTime) events = [] ++ sortedBy (·.atTime) events := rfl
  exact (minimum_le hstart).trans_eq (by simp)

-- All that is due up to a time is a beginning of the sorted events.
theorem minimum_le_balanceAfter (t : Timestamp) :
    (exactWindow opening events).minimumLiquidity ≤ balanceAfter opening events t := by
  have hclosed : (sortedBy (·.atTime) events).Pairwise fun x y => y.atTime ≤ t → x.atTime ≤ t :=
    (pairwise_sorted events).imp fun hle hy => hle.trans hy
  rw [← balanceAfter_perm (perm_sorted events)]
  exact minimum_le (filter_append_filter_not hclosed).symm

theorem lowBalance_eq (opening : ℚ) (rows : List FundingEvent) (t : Timestamp) : lowBalance opening rows t =
    opening + (rows.map fun x => (if x.atTime < t then x.delta else 0) + if x.atTime = t then min x.delta 0 else 0).sum := by
  rw [lowBalance, balanceBefore, sum_filter, sum_filter, add_assoc, List.sum_map_add]

-- What comes first of the events of one time is at least all that is taken off at it.
theorem lowBalance_le {before after : List FundingEvent} (hrows : rows = before ++ [event] ++ after)
    (hsorted : rows.Pairwise fun x y => x.atTime ≤ y.atTime) :
    lowBalance opening rows event.atTime ≤ opening + ((before ++ [event]).map (·.delta)).sum := by
  rw [hrows, List.pairwise_append] at hsorted
  obtain ⟨hfirst, -, hlater⟩ := hsorted
  have hbefore : ∀ x ∈ before ++ [event], x.atTime ≤ event.atTime := by
    intro x hx
    rcases List.mem_append.mp hx with hx | hx
    · exact (List.pairwise_append.mp hfirst).2.2 x hx event List.mem_cons_self
    · rw [List.mem_singleton.mp hx]
  rw [lowBalance_eq, hrows, List.map_append, List.sum_append]
  refine add_le_add_right ?_ opening
  have hpast : ((before ++ [event]).map fun x => (if x.atTime < event.atTime then x.delta else 0) +
      if x.atTime = event.atTime then min x.delta 0 else 0).sum ≤ ((before ++ [event]).map (·.delta)).sum := by
    refine List.sum_le_sum fun x hx => ?_
    rcases (hbefore x hx).lt_or_eq with hlt | heq
    · simp [hlt, hlt.ne]
    · simp [heq]
  have hrest : (after.map fun x => (if x.atTime < event.atTime then x.delta else 0) +
      if x.atTime = event.atTime then min x.delta 0 else 0).sum ≤ 0 := by
    refine (List.sum_le_sum (g := fun _ => (0 : ℚ)) fun x hx => ?_).trans_eq List.sum_map_zero
    have hle : event.atTime ≤ x.atTime := hlater event (List.mem_append_right _ List.mem_cons_self) x hx
    rw [if_neg (not_lt.mpr hle), zero_add]
    split_ifs
    · exact min_le_right _ _
    · exact le_rfl
  linarith

theorem exists_balance_le (h : TiesHarmless opening events) :
    ∃ b ∈ balances opening events, b ≤ (exactWindow opening events).minimumLiquidity := by
  obtain ⟨before, after, hrows, hleast⟩ := exists_minimum opening events
  rw [hleast]
  rcases List.eq_nil_or_concat' before with rfl | ⟨before, event, rfl⟩
  · exact ⟨opening, .inl rfl, by simp⟩
  · have hmem : event ∈ events := (perm_sorted events).mem_iff.mp (by simp [hrows])
    obtain ⟨b, hb, hle⟩ := h event hmem
    refine ⟨b, hb, hle.trans ?_⟩
    rw [← lowBalance_perm (perm_sorted events)]
    exact lowBalance_le hrows (pairwise_sorted events)

theorem isLeast_of_tiesHarmless (h : TiesHarmless opening events) :
    IsLeast (balances opening events) (exactWindow opening events).minimumLiquidity := by
  have hbound : ∀ b ∈ balances opening events, (exactWindow opening events).minimumLiquidity ≤ b := by
    rintro b (rfl | ⟨event, -, rfl⟩)
    · exact minimum_le_opening
    · exact minimum_le_balanceAfter _
  obtain ⟨b, hb, hle⟩ := exists_balance_le h
  rw [le_antisymm (hbound b hb) hle]
  exact ⟨hb, fun c hc => (le_antisymm hle (hbound b hb)).trans_le (hbound c hc)⟩

theorem tiesHarmless_perm (hperm : events'.Perm events) (h : TiesHarmless opening events) :
    TiesHarmless opening events' := by
  intro event hevent
  rw [balances_perm hperm, lowBalance_perm hperm]
  exact h event (hperm.mem_iff.mp hevent)

-- The order in which what is taken off at a time comes before what is added at it
def takenFirst (events : List FundingEvent) : List FundingEvent :=
  sortedBy (fun e => toLex (e.atTime, decide (0 ≤ e.delta))) events

theorem pairwise_takenFirst (events : List FundingEvent) : (takenFirst events).Pairwise fun x y =>
    x.atTime < y.atTime ∨ x.atTime = y.atTime ∧ decide (0 ≤ x.delta) ≤ decide (0 ≤ y.delta) := by
  have hsorted : (takenFirst events).Pairwise fun x y =>
      toLex (x.atTime, decide (0 ≤ x.delta)) ≤ toLex (y.atTime, decide (0 ≤ y.delta)) :=
    List.pairwise_map.mp pairwise_sortedBy
  exact hsorted.imp fun h => Prod.Lex.toLex_le_toLex.mp h

theorem sorted_takenFirst (events : List FundingEvent) : sortedBy (·.atTime) (takenFirst events) = takenFirst events :=
  List.Pairwise.insertionSort_eq ((pairwise_takenFirst events).imp fun h => h.elim le_of_lt fun h => h.1.le)

theorem minimum_le_lowBalance (t : Timestamp) :
    (exactWindow opening (takenFirst events)).minimumLiquidity ≤ lowBalance opening events t := by
  have hclosed : (takenFirst events).Pairwise fun x y =>
      (y.atTime < t ∨ y.atTime = t ∧ y.delta < 0) → x.atTime < t ∨ x.atTime = t ∧ x.delta < 0 := by
    refine (pairwise_takenFirst events).imp fun {x y} hxy hy => ?_
    rcases hxy with hlt | ⟨heq, hsign⟩
    · exact .inl (hlt.trans_le (hy.elim le_of_lt fun h => h.1.le))
    · rw [heq]
      refine hy.imp_right fun ⟨hy, hneg⟩ => ⟨hy, ?_⟩
      by_contra hx
      rw [decide_eq_true (not_lt.mp hx), decide_eq_false (not_le.mpr hneg)] at hsign
      exact absurd hsign (by decide)
  have hperm : (takenFirst events).Perm events := perm_sortedBy
  have hsplit := (sorted_takenFirst events).trans (filter_append_filter_not hclosed).symm
  rw [← lowBalance_perm hperm, lowBalance_eq]
  refine (minimum_le hsplit).trans_eq ?_
  rw [sum_filter]
  refine congrArg (fun l => opening + List.sum l) (List.map_congr_left fun x _ => ?_)
  rcases lt_trichotomy x.atTime t with hlt | heq | hgt
  · simp [hlt, hlt.ne]
  · rcases lt_or_ge x.delta 0 with hneg | hpos
    · simp [heq, hneg, hneg.le]
    · simp [heq, hpos, not_lt.mpr hpos]
  · simp [hgt.ne', not_lt.mpr hgt.le]

section Refinement

theorem apply_exact (h : (s.applyExact event).Precise) : s.apply event = some (s.applyExact event) := by
  unfold FundingState.apply FundingState.applyExact at *
  cases hdirection : event.direction with
  | inflow =>
    rw [hdirection] at h
    have hbalance : defaultContext.add s.balance event.amount = some (s.balance + event.amount) := h.balance
    have hinflows : defaultContext.add s.inflows event.amount = some (s.inflows + event.amount) := h.inflows
    simp only [hbalance, hinflows, Option.bind_eq_bind, Option.bind_some]
  | outflow =>
    rw [hdirection] at h
    have hbalance : defaultContext.sub s.balance event.amount = some (s.balance - event.amount) := h.balance
    have houtflows : defaultContext.add s.outflows event.amount = some (s.outflows + event.amount) := h.outflows
    simp only [hbalance, houtflows, Option.bind_eq_bind, Option.bind_some]

theorem foldlM_apply (h : ∀ before after, rows = before ++ after → (before.foldl FundingState.applyExact s).Precise) :
    rows.foldlM FundingState.apply s = some (rows.foldl FundingState.applyExact s) := by
  induction rows generalizing s with
  | nil => rfl
  | cons event rows ih =>
    have hfirst : s.apply event = some (s.applyExact event) := apply_exact (h [event] rows rfl)
    rw [List.foldlM_cons, hfirst, Option.bind_eq_bind, Option.bind_some, List.foldl_cons]
    exact ih fun before after hrows => h (event :: before) after (congrArg (event :: ·) hrows)

theorem store_of_fits {w : IntradayFundingWindow} (h : w.Fits) : w.store = .ok w := by
  have hstored {x : ℚ} (hx : amountColumn.Holds x) : stored x = .ok x := demand_eq_ok.mpr (Column.store_of_holds hx)
  simp only [IntradayFundingWindow.store, hstored h.opening, hstored h.inflows, hstored h.outflows, hstored h.peak,
    hstored h.minimum, hstored h.closing]
  rfl

theorem calculateWindow_exact (h : WindowUnrounded opening events) (hperm : events'.Perm events) :
    calculateWindow opening events' = .ok (exactWindow opening events') := by
  obtain ⟨hprecise, hfits⟩ := h events' hperm
  have hfold : (sortedBy (·.atTime) events').foldlM FundingState.apply ⟨opening, opening, 0, 0⟩ =
      some (exactState opening (sortedBy (·.atTime) events')) := foldlM_apply hprecise
  have hneed : defaultContext.sub 0 (exactState opening (sortedBy (·.atTime) events')).minimum =
      some (-(exactState opening (sortedBy (·.atTime) events')).minimum) := by
    rw [Context.sub, zero_sub]
    exact (hprecise _ [] (List.append_nil _).symm).need
  rw [calculateWindow, hfold, bind_of_ok (demand_eq_ok.mpr rfl), hneed, bind_of_ok (demand_eq_ok.mpr rfl)]
  exact store_of_fits hfits

end Refinement

theorem window_faithful_iff (h : WindowUnrounded opening events) :
    WindowFaithful opening events ↔ TiesHarmless opening events := by
  have hrun (events' : List FundingEvent) (hperm : events'.Perm events) := calculateWindow_exact h hperm
  constructor
  · rintro ⟨window, hwindow, hfaithful⟩ event -
    obtain rfl := Except.ok.inj (hwindow.symm.trans (hrun events (.refl _)))
    obtain ⟨window', hwindow', hminimum, -⟩ := hfaithful.permuted (takenFirst events) perm_sortedBy
    obtain rfl := Except.ok.inj (hwindow'.symm.trans (hrun _ perm_sortedBy))
    refine ⟨_, hfaithful.least.1, ?_⟩
    rw [← hminimum]
    exact minimum_le_lowBalance event.atTime
  · intro hties
    have hleast : ∀ events' : List FundingEvent, events'.Perm events →
        (exactWindow opening events').minimumLiquidity = (exactWindow opening events).minimumLiquidity := by
      intro events' hperm
      have hleast' := isLeast_of_tiesHarmless (tiesHarmless_perm hperm hties)
      rw [balances_perm hperm] at hleast'
      exact hleast'.unique (isLeast_of_tiesHarmless hties)
    refine ⟨_, hrun events (.refl _), fun events' hperm => ?_, closing_eq _ _, isLeast_of_tiesHarmless hties⟩
    refine ⟨_, hrun events' hperm, hleast events' hperm, ?_, closing_perm hperm⟩
    exact congrArg (fun m : ℚ => max 0 (-m)) (hleast events' hperm)

section Room

def Small (bound x : ℚ) : Prop := IsMultiple amountColumn.unit x ∧ |x| ≤ bound

structure FundingState.Within (bound : ℚ) (s : FundingState) : Prop where
  balance : Small bound s.balance
  minimum : Small bound s.minimum
  inflows : Small bound s.inflows
  outflows : Small bound s.outflows

variable {bound x y : ℚ}

theorem Small.mono (h : Small bound x) {bound' : ℚ} (hle : bound ≤ bound') : Small bound' x := ⟨h.1, h.2.trans hle⟩

theorem Small.add (hx : Small bound x) (hy : IsMultiple amountColumn.unit y) : Small (bound + |y|) (x + y) :=
  ⟨hx.1.add hy, (abs_add_le x y).trans (add_le_add_left hx.2 _)⟩

theorem Small.sub (hx : Small bound x) (hy : IsMultiple amountColumn.unit y) : Small (bound + |y|) (x - y) :=
  ⟨hx.1.sub hy, (abs_sub x y).trans (add_le_add_left hx.2 _)⟩

theorem Small.min (hx : Small bound x) (hy : Small bound y) : Small bound (min x y) := by
  rcases min_choice x y with h | h <;> rw [h] <;> assumption

theorem Within.applyExact (h : s.Within bound) (hamount : IsMultiple amountColumn.unit event.amount) :
    (s.applyExact event).Within (bound + |event.amount|) := by
  have hroom : bound ≤ bound + |event.amount| := le_add_of_nonneg_right (abs_nonneg _)
  unfold FundingState.applyExact
  cases event.direction with
  | inflow =>
    have hbalance := h.balance.add hamount
    exact ⟨hbalance, (h.minimum.mono hroom).min hbalance, h.inflows.add hamount, h.outflows.mono hroom⟩
  | outflow =>
    have hbalance := h.balance.sub hamount
    exact ⟨hbalance, (h.minimum.mono hroom).min hbalance, h.inflows.mono hroom, h.outflows.add hamount⟩

theorem Within.foldl (h : s.Within bound) (hamounts : ∀ event ∈ rows, IsMultiple amountColumn.unit event.amount) :
    (rows.foldl FundingState.applyExact s).Within (bound + (rows.map fun event => |event.amount|).sum) := by
  induction rows generalizing s bound with
  | nil => simpa using h
  | cons event rows ih =>
    obtain ⟨hamount, hrest⟩ := List.forall_mem_cons.mp hamounts
    rw [List.foldl_cons, List.map_cons, List.sum_cons, ← add_assoc]
    exact ih (Within.applyExact h hamount) hrest

theorem Small.precise (h : Small bound x) (hbound : bound < 10 ^ (18 : Int)) : Precise x :=
  Context.finalize_of_isMultiple (e := -10) (by decide) (by decide) h.1 (h.2.trans_lt hbound)

theorem Small.neg (h : Small bound x) : Small bound (-x) := by
  obtain ⟨⟨n, hn⟩, hle⟩ := h
  exact ⟨⟨-n, by rw [hn]; push_cast; ring⟩, (abs_neg x).trans_le hle⟩

theorem Small.holds (h : Small bound x) (hbound : bound < 10 ^ (18 : Int)) : amountColumn.Holds x :=
  ⟨h.1, (h.2.trans_lt hbound).trans (zpow_lt_zpow_right₀ (by norm_num) (by decide))⟩

-- Amounts of ten decimals that add up to less than 10 ^ 18 are never rounded.
theorem unrounded_of_room (hopening : IsMultiple amountColumn.unit opening)
    (hamounts : ∀ event ∈ events, IsMultiple amountColumn.unit event.amount)
    (hroom : |opening| + (events.map fun event => |event.amount|).sum < 10 ^ (18 : Int)) : WindowUnrounded opening events := by
  have hzero : Small |opening| 0 := ⟨⟨0, by simp⟩, by simp⟩
  have hstart : (⟨opening, opening, 0, 0⟩ : FundingState).Within |opening| :=
    ⟨⟨hopening, le_rfl⟩, ⟨hopening, le_rfl⟩, hzero, hzero⟩
  intro events' hperm
  have hsorted : (sortedBy (·.atTime) events').Perm events := perm_sortedBy.trans hperm
  have hwithin (before after : List FundingEvent) (hrows : sortedBy (·.atTime) events' = before ++ after) :
      (exactState opening before).Within (|opening| + (before.map fun event => |event.amount|).sum) ∧
        |opening| + (before.map fun event => |event.amount|).sum < 10 ^ (18 : Int) := by
    have hmem : ∀ event ∈ before, IsMultiple amountColumn.unit event.amount := fun event hevent =>
      hamounts event (hsorted.mem_iff.mp (by rw [hrows]; exact List.mem_append_left _ hevent))
    refine ⟨Within.foldl hstart hmem, lt_of_le_of_lt ?_ hroom⟩
    rw [← (hsorted.map _).sum_eq, hrows, List.map_append, List.sum_append, ← add_assoc]
    exact le_add_of_nonneg_right (List.sum_nonneg fun x hx => by
      obtain ⟨event, -, rfl⟩ := List.mem_map.mp hx
      exact abs_nonneg _)
  refine ⟨fun before after hrows => ?_, ?_⟩
  · obtain ⟨h, hbound⟩ := hwithin before after hrows
    exact ⟨h.balance.precise hbound, h.inflows.precise hbound, h.outflows.precise hbound, h.minimum.neg.precise hbound⟩
  · obtain ⟨h, hbound⟩ := hwithin _ [] (List.append_nil _).symm
    have hpeak : amountColumn.Holds (max 0 (-(exactState opening (sortedBy (·.atTime) events')).minimum)) := by
      rcases max_choice 0 (-(exactState opening (sortedBy (·.atTime) events')).minimum) with hmax | hmax
      · rw [hmax]
        exact amountColumn_holds_zero
      · rw [hmax]
        exact h.minimum.neg.holds hbound
    refine ⟨⟨hopening, ?_⟩, h.inflows.holds hbound, h.outflows.holds hbound, hpeak, h.minimum.holds hbound,
      h.balance.holds hbound⟩
    have hopen : |opening| < 10 ^ (18 : Int) := by simpa using (hwithin [] _ rfl).2
    exact hopen.trans (zpow_lt_zpow_right₀ (by norm_num) (by decide))

end Room

theorem isMultiple_unit (n : Int) : IsMultiple amountColumn.unit (n : ℚ) :=
  IsMultiple.zpow (b := 10) (e := 0) (by norm_num) (by decide) ⟨n, by simp⟩

def payout : FundingEvent := ⟨1, .outflow, 250⟩

def receipt (atTime : Timestamp) : FundingEvent := ⟨atTime, .inflow, 300⟩

theorem payout_receipt_unrounded (t : Timestamp) : WindowUnrounded 100 [payout, receipt t] := by
  refine unrounded_of_room (by exact_mod_cast isMultiple_unit 100) (fun event hevent => ?_) ?_
  · rcases List.mem_pair.mp hevent with rfl | rfl
    · exact_mod_cast isMultiple_unit 250
    · exact_mod_cast isMultiple_unit 300
  · norm_num [payout, receipt]

theorem window_faithful_iff_later : WindowFaithful 100 [payout, receipt 2] := by
  have hpaid : balanceAfter 100 [payout, receipt 2] 1 ∈ balances 100 [payout, receipt 2] :=
    .inr ⟨payout, List.mem_cons_self, rfl⟩
  have hties : TiesHarmless 100 [payout, receipt 2] := by
    intro event hevent
    refine ⟨_, hpaid, ?_⟩
    rcases List.mem_pair.mp hevent with rfl | rfl <;> decide +kernel
  exact (window_faithful_iff (payout_receipt_unrounded 2)).mpr hties

-- Two events of one time, in both orders of the list
theorem tied_window_ordered : (calculateWindow 100 [payout, receipt 1]).map (·.minimumLiquidity) = .ok (-150) ∧
    (calculateWindow 100 [receipt 1, payout]).map (·.minimumLiquidity) = .ok 100 ∧
    ¬WindowFaithful 100 [payout, receipt 1] := by
  have hperm : [receipt 1, payout].Perm [payout, receipt 1] := .swap _ _ _
  have hfirst := calculateWindow_exact (payout_receipt_unrounded 1) (.refl _)
  have hsecond := calculateWindow_exact (payout_receipt_unrounded 1) hperm
  have hlow : (exactWindow 100 [payout, receipt 1]).minimumLiquidity = -150 := by decide +kernel
  have hhigh : (exactWindow 100 [receipt 1, payout]).minimumLiquidity = 100 := by decide +kernel
  have hreads (w : IntradayFundingWindow) :
      (Except.ok w : Except Raised IntradayFundingWindow).map (·.minimumLiquidity) = .ok w.minimumLiquidity := rfl
  refine ⟨by rw [hfirst, hreads, hlow], by rw [hsecond, hreads, hhigh], ?_⟩
  rintro ⟨window, hwindow, hfaithful⟩
  obtain rfl := Except.ok.inj (hwindow.symm.trans hfirst)
  obtain ⟨window', hwindow', hminimum, -⟩ := hfaithful.permuted _ hperm
  obtain rfl := Except.ok.inj (hwindow'.symm.trans hsecond)
  rw [hlow, hhigh] at hminimum
  exact absurd hminimum (by decide)

end Treasury

end Beyvra
