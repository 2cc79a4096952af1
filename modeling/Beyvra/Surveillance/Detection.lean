import Mathlib.Data.List.ReduceOption
import Beyvra.Relational.SortedBy
import Beyvra.Foundation.Records
import Beyvra.Numeric.Decimal

namespace Beyvra

open Numeric Relational

namespace Surveillance

-- Each parameter has the value that the engine takes where the rule gives none.
structure RuleParameters where
  minimumOrders : Int := 5
  cancelRatio : ℚ := 8 / 10
  windowSeconds : Int := 30
  minimumTrades : Int := 4
  maxNetRatio : ℚ := 1 / 10
  minimumLevels : Int := 3
  ordersPerWindow : Int := 20

structure SurveillanceRule where
  eventType : String
  enabled : Bool := true
  severity : String
  parameters : RuleParameters := {}
  policyVersion : String
  version : Nat := 1
  effectiveFrom : Timestamp
  effectiveTo : Option Timestamp := none

structure WindowEvent where
  kind : String
  time : Timestamp
  side : String
  quantity : ℚ
  price : Option String := none
  large : Bool := false
  rapid : Bool := false
  deriving DecidableEq

inductive Evidence where
  | cancels (orders cancels : Nat) (cancelRatio : ℚ)
  | flip (windowSeconds : Int) (first second : String)
  | trades (tradeCount : Nat) (netRatio : ℚ)
  | rapidLargeCancels (count : Nat)
  | cancelledPriceLevels (count : Nat)
  | orders (count : Nat) (windowSeconds : Int)
  | restrictionTypes (types : List String)
  | restingOrder (order : Uuid)
  | deviation (ratio : ℚ)
  deriving DecidableEq

structure Finding where
  eventType : String
  severity : String
  score : ℚ
  ruleId : Uuid
  ruleVersion : Nat
  policyVersion : String
  evidence : Evidence
  deriving DecidableEq

namespace SurveillanceEngine

abbrev RuleTable := Table Uuid SurveillanceRule

def InEffect (eventType : String) (now : Timestamp) (rule : SurveillanceRule) : Prop :=
  rule.eventType = eventType ∧ rule.enabled = true ∧ rule.effectiveFrom ≤ now ∧ ∀ effectiveTo ∈ rule.effectiveTo, now < effectiveTo

instance (eventType : String) (now : Timestamp) (rule : SurveillanceRule) : Decidable (InEffect eventType now rule) :=
  inferInstanceAs (Decidable (_ ∧ _))

-- `_rule`: the row with the highest version of those in effect
def currentRule (rules : RuleTable) (eventType : String) (now : Timestamp) : Option (Uuid × SurveillanceRule) :=
  ((rules.rows.filter fun row => InEffect eventType now row.2).insertionSort fun x y => y.2.version ≤ x.2.version).head?

def finding (rule : Uuid × SurveillanceRule) (score : ℚ) (evidence : Evidence) : Finding where
  eventType := rule.2.eventType
  severity := rule.2.severity
  score := score
  ruleId := rule.1
  ruleVersion := rule.2.version
  policyVersion := rule.2.policyVersion
  evidence := evidence

-- Errors are named by the exceptions of the source.
def divide (x y : ℚ) : Except String ℚ := do
  require (y ≠ 0) (if x = 0 then "InvalidOperation" else "DivisionByZero")
  demand (defaultContext.div x y) "Overflow"

def total (quantities : List ℚ) : Except String ℚ :=
  quantities.foldlM (fun sum quantity => demand (defaultContext.add sum quantity) "Overflow") 0

-- A rule that is in effect gives its finding or none.
def indicator (rules : RuleTable) (eventType : String) (now : Timestamp)
    (examine : RuleParameters → Except String (Option (ℚ × Evidence))) : Except String (Option Finding) :=
  match currentRule rules eventType now with
  | none => pure none
  | some rule => do
    let hit ← examine rule.2.parameters
    pure (hit.map fun (score, evidence) => finding rule score evidence)

def cancelPattern (placed cancelled : List WindowEvent) (parameters : RuleParameters) :
    Except String (Option (ℚ × Evidence)) := do
  if parameters.minimumOrders ≤ placed.length then
    let ratio ← divide cancelled.length placed.length
    pure (if parameters.cancelRatio ≤ ratio then some (ratio, .cancels placed.length cancelled.length ratio) else none)
  else pure none

def orderFlip (placed : List WindowEvent) (parameters : RuleParameters) : Option (ℚ × Evidence) :=
  ((placed.zip placed.tail).find? fun (first, second) =>
    first.side ≠ second.side ∧ second.time - first.time ≤ parameters.windowSeconds * microsecondsPerSecond).map
      fun (first, second) => (7 / 10, .flip parameters.windowSeconds first.side second.side)

def washTrade (trades : List WindowEvent) (parameters : RuleParameters) : Except String (Option (ℚ × Evidence)) := do
  if parameters.minimumTrades ≤ trades.length then
    let buys ← total ((trades.filter (·.side = "BUY")).map (·.quantity))
    let sells ← total ((trades.filter (·.side = "SELL")).map (·.quantity))
    let both ← demand (defaultContext.add buys sells) "Overflow"
    if both = 0 then pure none
    else
      let net ← demand (defaultContext.sub buys sells) "Overflow"
      let ratio ← divide |net| both
      pure (if ratio ≤ parameters.maxNetRatio then some (8 / 10, .trades trades.length ratio) else none)
  else pure none

def spoofing (cancelled trades : List WindowEvent) : Option (ℚ × Evidence) :=
  let hits := cancelled.filter fun e => e.large ∧ e.rapid
  if hits ≠ [] ∧ trades ≠ [] then some (75 / 100, .rapidLargeCancels hits.length) else none

def layering (cancelled trades : List WindowEvent) (parameters : RuleParameters) : Option (ℚ × Evidence) :=
  let levels := ((cancelled.filter (·.rapid)).filterMap (·.price)).dedup
  if parameters.minimumLevels ≤ levels.length ∧ trades ≠ [] then some (8 / 10, .cancelledPriceLevels levels.length) else none

def orderRate (ordered placed : List WindowEvent) (parameters : RuleParameters) : Option (ℚ × Evidence) :=
  match ordered.head?, ordered.getLast? with
  | some first, some last =>
    if parameters.ordersPerWindow ≤ placed.length then
      some (7 / 10, .orders placed.length ((last.time - first.time) / microsecondsPerSecond))
    else none
  | _, _ => none

def windowTypes : List String :=
  ["EXCESSIVE_CANCEL_PATTERN", "RAPID_ORDER_FLIP", "WASH_TRADE_PATTERN", "SPOOFING_INDICATOR", "LAYERING_INDICATOR",
    "ORDER_RATE_ANOMALY"]

-- What each rule of a window looks at
def examination (ordered : List WindowEvent) (eventType : String) (parameters : RuleParameters) :
    Except String (Option (ℚ × Evidence)) :=
  let placed := ordered.filter (·.kind = "ORDER")
  let cancelled := ordered.filter (·.kind = "CANCEL")
  let trades := ordered.filter (·.kind = "TRADE")
  match eventType with
  | "EXCESSIVE_CANCEL_PATTERN" => cancelPattern placed cancelled parameters
  | "RAPID_ORDER_FLIP" => pure (orderFlip placed parameters)
  | "WASH_TRADE_PATTERN" => washTrade trades parameters
  | "SPOOFING_INDICATOR" => pure (spoofing cancelled trades)
  | "LAYERING_INDICATOR" => pure (layering cancelled trades parameters)
  | "ORDER_RATE_ANOMALY" => pure (orderRate ordered placed parameters)
  | _ => pure none

def evaluateWindow (rules : RuleTable) (now : Timestamp) (events : List WindowEvent) : Except String (List Finding) := do
  if events = [] then pure []
  else
    let ordered := sortedBy (·.time) events
    let found ← windowTypes.mapM fun eventType => indicator rules eventType now (examination ordered eventType)
    pure found.reduceOption

variable {rules : RuleTable} {now : Timestamp} {eventType : String} {rule : Uuid × SurveillanceRule}
  {events events' : List WindowEvent} {findings : List Finding} {f : Finding}

theorem currentRule_newest (h : currentRule rules eventType now = some rule) :
    rules.find rule.1 = some rule.2 ∧ InEffect eventType now rule.2 ∧
      ∀ id other, rules.find id = some other → InEffect eventType now other → other.version ≤ rule.2.version := by
  have htotal : Std.Total fun x y : Uuid × SurveillanceRule => y.2.version ≤ x.2.version := ⟨fun x y => le_total _ _⟩
  have htrans : IsTrans (Uuid × SurveillanceRule) fun x y => y.2.version ≤ x.2.version := ⟨fun _ _ _ hxy hyz => hyz.trans hxy⟩
  unfold currentRule at h
  have hsorted := List.pairwise_insertionSort (fun x y : Uuid × SurveillanceRule => y.2.version ≤ x.2.version)
    (rules.rows.filter fun row => InEffect eventType now row.2)
  have hmem (row : Uuid × SurveillanceRule) := List.mem_insertionSort (fun x y : Uuid × SurveillanceRule =>
    y.2.version ≤ x.2.version) (x := row) (l := rules.rows.filter fun row => InEffect eventType now row.2)
  obtain ⟨rest, hrest⟩ := List.head?_eq_some_iff.mp h
  have hin := (hmem rule).mp (List.mem_of_mem_head? h)
  rw [List.mem_filter, decide_eq_true_eq] at hin
  refine ⟨Table.mem_rows_iff.mp hin.1, hin.2, fun id other hother heffect => ?_⟩
  have hlisted : (id, other) ∈ rule :: rest := by
    rw [← hrest, hmem, List.mem_filter, decide_eq_true_eq]
    exact ⟨Table.mem_rows_iff.mpr hother, heffect⟩
  rcases List.mem_cons.mp hlisted with rfl | hlater
  · exact le_rfl
  · rw [hrest] at hsorted
    exact List.rel_of_pairwise_cons hsorted hlater

theorem indicator_eq_some {examine : RuleParameters → Except String (Option (ℚ × Evidence))} :
    indicator rules eventType now examine = .ok (some f) ↔
      ∃ rule score evidence, currentRule rules eventType now = some rule ∧
        examine rule.2.parameters = .ok (some (score, evidence)) ∧ f = finding rule score evidence := by
  unfold indicator
  cases hrule : currentRule rules eventType now with
  | none => simp [pure, Except.pure]
  | some rule =>
    simp only [bind_eq_ok, pure_eq_ok, Option.map_eq_some_iff, Option.some.injEq, exists_and_left, exists_eq_left',
      Prod.exists]
    constructor
    · rintro ⟨_, hexamine, score, evidence, rfl, rfl⟩
      exact ⟨score, evidence, hexamine, rfl⟩
    · rintro ⟨score, evidence, hexamine, rfl⟩
      exact ⟨_, hexamine, score, evidence, rfl, rfl⟩

theorem evaluateWindow_eq_ok (hne : events ≠ []) : evaluateWindow rules now events = .ok findings ↔
    ∃ found, List.Forall₂ (fun eventType found =>
      indicator rules eventType now (examination (sortedBy (·.time) events) eventType) = .ok found) windowTypes found ∧
        found.reduceOption = findings := by
  unfold evaluateWindow
  rw [if_neg hne]
  simp only [bind_eq_ok, pure_eq_ok, mapM_eq_ok]

theorem eventType_of_indicator {examine : RuleParameters → Except String (Option (ℚ × Evidence))}
    (h : indicator rules eventType now examine = .ok (some f)) : f.eventType = eventType := by
  obtain ⟨rule, score, evidence, hrule, -, rfl⟩ := indicator_eq_some.mp h
  exact (currentRule_newest hrule).2.1.1

theorem mem_evaluateWindow (h : evaluateWindow rules now events = .ok findings) :
    f ∈ findings ↔ events ≠ [] ∧ f.eventType ∈ windowTypes ∧
      indicator rules f.eventType now (examination (sortedBy (·.time) events) f.eventType) = .ok (some f) := by
  by_cases hempty : events = []
  · subst hempty
    obtain rfl : [] = findings := by simpa [evaluateWindow, pure, Except.pure] using h
    simp
  · obtain ⟨found, hfound, rfl⟩ := (evaluateWindow_eq_ok hempty).mp h
    rw [List.reduceOption_mem_iff]
    clear h
    generalize windowTypes = types at hfound ⊢
    induction hfound with
    | nil => simp
    | @cons eventType' found' types founds hhead htail ih =>
      simp only [List.mem_cons, ih]
      constructor
      · rintro (rfl | ⟨-, hlater, hindicator⟩)
        · obtain rfl := eventType_of_indicator hhead
          exact ⟨hempty, .inl rfl, hhead⟩
        · exact ⟨hempty, .inr hlater, hindicator⟩
      · rintro ⟨-, rfl | hlater, hindicator⟩
        · exact .inl (Except.ok.inj (hindicator.symm.trans hhead))
        · exact .inr ⟨hempty, hlater, hindicator⟩

theorem sublist_types (h : evaluateWindow rules now events = .ok findings) :
    (findings.map (·.eventType)).Sublist windowTypes := by
  by_cases hempty : events = []
  · subst hempty
    obtain rfl : [] = findings := by simpa [evaluateWindow, pure, Except.pure] using h
    exact List.nil_sublist _
  · obtain ⟨found, hfound, rfl⟩ := (evaluateWindow_eq_ok hempty).mp h
    clear h
    generalize windowTypes = types at hfound ⊢
    induction hfound with
    | nil => exact List.Sublist.refl _
    | @cons eventType' found' types founds hhead htail ih =>
      cases found' with
      | none =>
        rw [List.reduceOption_cons_of_none]
        exact ih.cons _
      | some f =>
        rw [List.reduceOption_cons_of_some, List.map_cons, eventType_of_indicator hhead]
        exact ih.cons_cons _

theorem orderFlip_isSome {ordered : List WindowEvent} {parameters : RuleParameters}
    (hsorted : (ordered.map (·.time)).Pairwise (· ≤ ·)) : (orderFlip ordered parameters).isSome = true ↔
      ∃ x ∈ ordered, ∃ y ∈ ordered,
        ChangeWithin (·.time) (·.side) (parameters.windowSeconds * microsecondsPerSecond) x y := by
  simp only [orderFlip, Option.isSome_map, List.find?_isSome, decide_eq_true_eq]
  constructor
  · rintro ⟨⟨x, y⟩, hmem, hlabel, hnear⟩
    obtain ⟨hx, hy, hchange⟩ := change_of_adjacent hsorted hmem hlabel hnear
    exact ⟨x, hx, y, hy, hchange⟩
  · rintro ⟨x, hx, y, hy, hchange⟩
    exact adjacent_of_change hsorted hx hy hchange

theorem mem_placed {x : WindowEvent} :
    x ∈ (sortedBy (·.time) events).filter (·.kind = "ORDER") ↔ x ∈ events ∧ x.kind = "ORDER" := by
  rw [List.mem_filter, perm_sortedBy.mem_iff, decide_eq_true_eq]

-- The scan of neighbours finds every change of side that is quick enough.
theorem flip_found (h : evaluateWindow rules now events = .ok findings) :
    "RAPID_ORDER_FLIP" ∈ findings.map (·.eventType) ↔ ∃ rule, currentRule rules "RAPID_ORDER_FLIP" now = some rule ∧
      ∃ x ∈ events, ∃ y ∈ events, x.kind = "ORDER" ∧ y.kind = "ORDER" ∧
        ChangeWithin (·.time) (·.side) (rule.2.parameters.windowSeconds * microsecondsPerSecond) x y := by
  have hsorted : (((sortedBy (·.time) events).filter (·.kind = "ORDER")).map (·.time)).Pairwise (· ≤ ·) :=
    pairwise_sortedBy.sublist (List.filter_sublist.map _)
  have hexamined (parameters : RuleParameters) : examination (sortedBy (·.time) events) "RAPID_ORDER_FLIP" parameters =
      .ok (orderFlip ((sortedBy (·.time) events).filter (·.kind = "ORDER")) parameters) := rfl
  constructor
  · intro hmem
    obtain ⟨f, hf, htype⟩ := List.mem_map.mp hmem
    obtain ⟨-, -, hindicator⟩ := (mem_evaluateWindow h).mp hf
    rw [htype] at hindicator
    obtain ⟨rule, score, evidence, hrule, hexamine, -⟩ := indicator_eq_some.mp hindicator
    rw [hexamined, Except.ok.injEq] at hexamine
    obtain ⟨x, hx, y, hy, hchange⟩ := (orderFlip_isSome hsorted).mp (Option.isSome_iff_exists.mpr ⟨_, hexamine⟩)
    obtain ⟨hx, hxkind⟩ := mem_placed.mp hx
    obtain ⟨hy, hykind⟩ := mem_placed.mp hy
    exact ⟨rule, hrule, x, hx, y, hy, hxkind, hykind, hchange⟩
  · rintro ⟨rule, hrule, x, hx, y, hy, hxkind, hykind, hchange⟩
    obtain ⟨⟨score, evidence⟩, hsome⟩ := Option.isSome_iff_exists.mp ((orderFlip_isSome hsorted).mpr
      ⟨x, mem_placed.mpr ⟨hx, hxkind⟩, y, mem_placed.mpr ⟨hy, hykind⟩, hchange⟩)
    have htype : (finding rule score evidence).eventType = "RAPID_ORDER_FLIP" := (currentRule_newest hrule).2.1.1
    refine List.mem_map.mpr ⟨finding rule score evidence, (mem_evaluateWindow h).mpr ⟨List.ne_nil_of_mem hx, ?_, ?_⟩, htype⟩
    · rw [htype]
      exact List.mem_cons_of_mem _ List.mem_cons_self
    · rw [htype]
      exact indicator_eq_some.mpr ⟨rule, score, evidence, hrule, (hexamined _).trans (congrArg _ hsome), rfl⟩

theorem evaluateWindow_perm (hdistinct : (events.map (·.time)).Nodup) (h : events'.Perm events) :
    evaluateWindow rules now events' = evaluateWindow rules now events := by
  have hsorted : sortedBy (·.time) events' = sortedBy (·.time) events := by
    have hmap := map_sortedBy (f := id) (h.map (·.time)) fun x hx y hy htime =>
      List.inj_on_of_nodup_map hdistinct (h.mem_iff.mp hx) hy htime
    simpa using hmap
  have hempty : events' = [] ↔ events = [] := by
    rw [← List.length_eq_zero_iff, h.length_eq, List.length_eq_zero_iff]
  unfold evaluateWindow
  simp only [hsorted, hempty]

structure WindowLaw (rules : RuleTable) (now : Timestamp) (events : List WindowEvent) : Prop where
  arrival : (events.map (·.time)).Nodup →
    ∀ events', events'.Perm events → evaluateWindow rules now events' = evaluateWindow rules now events
  types : ∀ findings, evaluateWindow rules now events = .ok findings →
    (findings.map (·.eventType)).Sublist windowTypes
  newest : ∀ findings, evaluateWindow rules now events = .ok findings → ∀ f ∈ findings, ∃ id rule,
    rules.find id = some rule ∧ InEffect f.eventType now rule ∧
      (∀ id' other, rules.find id' = some other → InEffect f.eventType now other → other.version ≤ rule.version) ∧
      f = finding (id, rule) f.score f.evidence
  flip : ∀ findings, evaluateWindow rules now events = .ok findings →
    ("RAPID_ORDER_FLIP" ∈ findings.map (·.eventType) ↔ ∃ rule, currentRule rules "RAPID_ORDER_FLIP" now = some rule ∧
      ∃ x ∈ events, ∃ y ∈ events, x.kind = "ORDER" ∧ y.kind = "ORDER" ∧
        ChangeWithin (·.time) (·.side) (rule.2.parameters.windowSeconds * microsecondsPerSecond) x y)

theorem window_law (rules : RuleTable) (now : Timestamp) (events : List WindowEvent) : WindowLaw rules now events where
  arrival hdistinct _ h := evaluateWindow_perm hdistinct h
  types _ h := sublist_types h
  newest _ h f hf := by
    obtain ⟨-, -, hindicator⟩ := (mem_evaluateWindow h).mp hf
    obtain ⟨⟨id, rule⟩, score, evidence, hrule, -, hfinding⟩ := indicator_eq_some.mp hindicator
    obtain ⟨hfind, heffect, hnewest⟩ := currentRule_newest hrule
    refine ⟨id, rule, hfind, heffect, hnewest, ?_⟩
    rw [hfinding]
    rfl
  flip _ h := flip_found h

end SurveillanceEngine

end Surveillance

end Beyvra
