import Beyvra.Trading.Controls
import Beyvra.Trading.Simulation

namespace Beyvra

open Relational

def TradingControl.concerns (c : TradingControl) (instrumentId : String) : Prop :=
  (c.scope = .platform ∨ c.scope = .instrument) ∧ (c.scopeRef = "*" ∨ c.scopeRef = instrumentId)

def ControlState.bars (state : ControlState) (side : OrderSide) : Prop :=
  state = .halted ∨ state = .maintenance ∨ state = .cancelOnly ∨ state = .closeOnly ∧ side = .buy

-- The platform control is HALTED or MAINTENANCE, or the control of the instrument is HALTED.
def HaltOrdered (controls : List TradingControl) (instrumentId : String) : Prop :=
  (∃ c ∈ controls, c.named .platform "*" = true ∧ (c.state = .halted ∨ c.state = .maintenance)) ∨
    ∃ c ∈ controls, c.named .instrument instrumentId = true ∧ c.state = .halted

def NewestBars (controls : List TradingControl) (instrumentId : String) (side : OrderSide) : Prop :=
  ∃ c ∈ controls, c.concerns instrumentId ∧ c.state.bars side ∧
    ∀ other ∈ controls, other.concerns instrumentId → other.createdAt ≤ c.createdAt

-- The decision that preview reports.
def Evaluation.decision (e : Evaluation) : RiskVerdict :=
  if e.result.decision = .allow then e.surveillance.decision else e.result.decision

def Denied (env : Env) (user : String) (data : OrderRequest) (db : Database) : Prop :=
  ∀ e db', evaluate env user data db = .ok (e, db') → e.decision = .deny

-- With no control in force the risk engine has a reason against the order, or surveillance denies it.
def BarredApart (env : Env) (user : String) (data : OrderRequest) (db : Database) : Prop :=
  ∀ payload account t identity t', normalizedPayload env.settings data = .ok payload →
    accountFor user db.trading = .ok (account, t) → ensurePaperIdentity account t = .ok (identity, t') →
      (riskInputs env.settings identity payload .active (t'.availableQuote account)).reasons ≠ [] ∨
        (surveilOrder env db.surveillance t' defaultTenant account.accountRef payload).decision = .deny

section Newest

variable {controls : List TradingControl} {instrumentId : String} {side : OrderSide}

def newerControl (a b : TradingControl) : Prop := b.createdAt ≤ a.createdAt

instance : DecidableRel newerControl := fun a b => inferInstanceAs (Decidable (b.createdAt ≤ a.createdAt))

instance : Std.Total newerControl := ⟨fun a b => le_total b.createdAt a.createdAt⟩

instance : IsTrans TradingControl newerControl := ⟨fun _ _ _ hab hbc => le_trans hbc hab⟩

def concerning (controls : List TradingControl) (instrumentId : String) : List TradingControl :=
  controls.filter fun c =>
    (c.scope = .platform ∨ c.scope = .instrument) ∧ (c.scopeRef = "*" ∨ c.scopeRef = instrumentId)

theorem controlState_eq : controlState controls instrumentId =
    ((latest newerControl (concerning controls instrumentId)).map (·.state)).getD .active := rfl

theorem mem_concerning {c : TradingControl} :
    c ∈ concerning controls instrumentId ↔ c ∈ controls ∧ c.concerns instrumentId := by
  simp [concerning, TradingControl.concerns]

theorem eq_of_createdAt (h : CreatedInOrder controls) {a b : TradingControl} (ha : a ∈ controls)
    (hb : b ∈ controls) (heq : a.createdAt = b.createdAt) : a = b := by
  have hnodup : (controls.map (·.createdAt)).Nodup :=
    List.pairwise_map.mpr (h.imp fun hlt => hlt.ne)
  exact List.inj_on_of_nodup_map hnodup ha hb heq

theorem controlState_bars_iff (h : CreatedInOrder controls) :
    (controlState controls instrumentId).bars side ↔ NewestBars controls instrumentId side := by
  rw [controlState_eq]
  constructor
  · intro hbars
    cases hlatest : latest newerControl (concerning controls instrumentId) with
    | none =>
      rw [hlatest] at hbars
      simp [ControlState.bars] at hbars
    | some c =>
      rw [hlatest] at hbars
      obtain ⟨hc, hconcerns⟩ := mem_concerning.mp (mem_of_latest hlatest)
      refine ⟨c, hc, hconcerns, hbars, fun other hother hrelevant => ?_⟩
      rcases latest_before hlatest (mem_concerning.mpr ⟨hother, hrelevant⟩) with rfl | hnewer
      · exact le_rfl
      · exact hnewer
  · rintro ⟨c, hc, hconcerns, hbars, hnewest⟩
    obtain ⟨d, hd⟩ : ∃ d, latest newerControl (concerning controls instrumentId) = some d :=
      exists_latest (mem_concerning.mpr ⟨hc, hconcerns⟩)
    obtain ⟨hmem, hrelevant⟩ := mem_concerning.mp (mem_of_latest hd)
    have hsame : c = d := by
      rcases latest_before hd (mem_concerning.mpr ⟨hc, hconcerns⟩) with heq | hnewer
      · exact heq
      · exact eq_of_createdAt h hc hmem (le_antisymm hnewer (hnewest d hmem hrelevant))
    rw [hd, ← hsame]
    exact hbars

end Newest

section Risk

variable {settings : Settings} {identity : TradingAccount} {payload : OrderPayload} {state : ControlState}
  {available : ℚ} {inputs : RiskInputs}

theorem evaluateOrder_decision (h : inputs.manualReviewRequired = false) :
    inputs.evaluateOrder.decision = if inputs.reasons = [] then .allow else .deny := by
  unfold RiskInputs.evaluateOrder
  rw [h]
  by_cases hreasons : inputs.reasons = []
  · simp [hreasons]
  · simp [hreasons]

theorem reasons_nil_iff : inputs.reasons = [] ↔
    ¬(inputs.controlState = .halted ∨ inputs.controlState = .maintenance) ∧
      RiskInputs.reasons { inputs with controlState := .active } = [] := by
  simp only [RiskInputs.reasons, List.filterMap_eq_nil_iff, List.forall_mem_cons, outsideBand]
  simp only [ite_eq_right_iff, reduceCtorEq, imp_false, decide_eq_true_eq]
  tauto

theorem riskInputs_reasons_nil : (riskInputs settings identity payload state available).reasons = [] ↔
    ¬state.bars payload.side ∧ (riskInputs settings identity payload .active available).reasons = [] := by
  rw [reasons_nil_iff]
  refine and_congr (not_congr ?_) Iff.rfl
  unfold riskInputs ControlState.bars
  cases state <;> cases payload.side <;> simp

end Risk

section Dominance

variable {env : Env} {user : String} {data : OrderRequest} {db : Database} {payload : OrderPayload}
  {e : Evaluation} {inputs : RiskInputs}

theorem decision_deny_iff (hresult : e.result = inputs.evaluateOrder)
    (hmanual : inputs.manualReviewRequired = false) :
    e.decision = .deny ↔ inputs.reasons ≠ [] ∨ e.surveillance.decision = .deny := by
  unfold Evaluation.decision
  rw [hresult, evaluateOrder_decision hmanual]
  by_cases hreasons : inputs.reasons = []
  · simp [hreasons]
  · simp [hreasons]

theorem denied_iff (hpayload : normalizedPayload env.settings data = .ok payload) :
    Denied env user data db ↔
      (controlState db.foundation.controls payload.instrumentId).bars payload.side ∨
        BarredApart env user data db := by
  constructor
  · intro hdenied
    by_cases hbars : (controlState db.foundation.controls payload.instrumentId).bars payload.side
    · exact .inl hbars
    · refine .inr fun payload' account t identity t' hpayload' haccount hidentity => ?_
      rw [hpayload] at hpayload'
      obtain rfl := Except.ok.inj hpayload'
      have hdecision := hdenied _ _ (evaluate_eq_ok.mpr
        ⟨payload, account, t, identity, t', hpayload, haccount, hidentity, rfl, rfl⟩)
      rcases (decision_deny_iff rfl rfl).mp hdecision with hreasons | hsurveillance
      · exact .inl fun hnil => hreasons (riskInputs_reasons_nil.mpr ⟨hbars, hnil⟩)
      · exact .inr hsurveillance
  · intro hcause e db' hok
    obtain ⟨payload', account, t, identity, t', hpayload', haccount, hidentity, -, rfl⟩ :=
      evaluate_eq_ok.mp hok
    rw [hpayload] at hpayload'
    obtain rfl := Except.ok.inj hpayload'
    refine (decision_deny_iff rfl rfl).mpr ?_
    rcases hcause with hbars | hapart
    · exact .inl fun hnil => (riskInputs_reasons_nil.mp hnil).1 hbars
    · refine (hapart payload account t identity t' hpayload haccount hidentity).imp_left ?_
      exact fun hreasons hnil => hreasons (riskInputs_reasons_nil.mp hnil).2

theorem halt_dominates_iff (history : List ControlCommand) (start : Database)
    (hstart : start.foundation.controls = [])
    (hchron : (history.map (·.env.now)).Pairwise (· < ·))
    (hcontrols : db.foundation.controls = (history.foldl controlStep start).foundation.controls)
    (hpayload : normalizedPayload env.settings data = .ok payload) :
    (HaltOrdered db.foundation.controls payload.instrumentId → Denied env user data db) ↔
      (HaltOrdered db.foundation.controls payload.instrumentId →
        NewestBars db.foundation.controls payload.instrumentId payload.side ∨
          BarredApart env user data db) := by
  have hcreated : CreatedInOrder db.foundation.controls := by
    rw [hcontrols]
    exact created_run history start (by rwa [hstart])
  rw [denied_iff hpayload, controlState_bars_iff hcreated]

end Dominance

def btcSettings : Settings := { simulatedExecutionPrices := [("BTC-USD", 100)] }

def drillEnv (now : Timestamp) (seeded : calendarSeedDate ≤ now.date) : Env where
  now := now
  settings := btcSettings
  uuid4 := id
  seeded := seeded

def drillCommand (view : TradingControlView) (instrument : Option String) (now : Timestamp)
    (seeded : calendarSeedDate ≤ now.date) : ControlCommand where
  view := view
  env := drillEnv now seeded
  request :=
    { instrument := instrument, key := toString now, reason := "drill", requestId := "R1", user := "admin"
      path := "/api/v1/admin/trading", data := [], correlationId := "C1" }

def resumedThenHalted : List ControlCommand :=
  [drillCommand instrumentResumeView (some "BTC-USD") 1700000000000000 (by decide),
    drillCommand platformHaltView none 1700000060000000 (by decide)]

-- The platform row is created first, so its later halt stays hidden behind the row of the instrument.
def haltedInPlace : List ControlCommand :=
  drillCommand platformResumeView none 1600000000000000 (by decide) :: resumedThenHalted

def buyOne : OrderRequest := { instrument := "BTC-USD", side := "BUY", quantity := some 1 }

theorem buyOne_payload : ∃ payload, normalizedPayload btcSettings buyOne = .ok payload ∧
    payload.instrumentId = "BTC-USD" := by
  have hinstrument : (normalizedPayload btcSettings buyOne).map (·.instrumentId) = .ok "BTC-USD" := by
    decide +kernel
  cases hpayload : normalizedPayload btcSettings buyOne with
  | error e =>
    rw [hpayload] at hinstrument
    cases hinstrument
  | ok payload =>
    rw [hpayload] at hinstrument
    exact ⟨payload, rfl, Except.ok.inj hinstrument⟩

theorem newest_halt_denies :
    Denied (drillEnv 1800000000000000 (by decide)) "alice" buyOne (resumedThenHalted.foldl controlStep {}) := by
  obtain ⟨payload, hpayload, hinstrument⟩ := buyOne_payload
  have hcontrols : (resumedThenHalted.foldl controlStep {}).foundation.controls =
      [{ scope := .instrument, scopeRef := "BTC-USD", state := .active, createdAt := 1700000000000000 },
        { scope := .platform, scopeRef := "*", state := .halted, createdAt := 1700000060000000 }] := by
    decide +kernel
  have hchron : (resumedThenHalted.map (·.env.now)).Pairwise (· < ·) := by
    decide +kernel
  refine (halt_dominates_iff resumedThenHalted {} rfl hchron rfl hpayload).mpr (fun _ => .inl ?_) ?_
  · rw [hcontrols]
    refine ⟨_, List.mem_cons_of_mem _ (List.mem_singleton_self _), ⟨.inl rfl, .inl rfl⟩, .inl rfl, ?_⟩
    intro other hother _
    simp only [List.mem_cons, List.not_mem_nil, or_false] at hother
    rcases hother with rfl | rfl <;> decide
  · rw [hcontrols]
    exact .inl ⟨_, List.mem_cons_of_mem _ (List.mem_singleton_self _), rfl, .inl rfl⟩

theorem halt_in_place_ignored : (haltedInPlace.map (·.env.now)).Pairwise (· < ·) ∧
    HaltOrdered (haltedInPlace.foldl controlStep {}).foundation.controls "BTC-USD" ∧
    ¬Denied (drillEnv 1800000000000000 (by decide)) "alice" buyOne (haltedInPlace.foldl controlStep {}) := by
  refine ⟨by decide +kernel, ?_, fun hdenied => ?_⟩
  · have hmem : { scope := .platform, scopeRef := "*", state := .halted, createdAt := 1600000000000000 } ∈
        (haltedInPlace.foldl controlStep {}).foundation.controls := by
      decide +kernel
    exact .inl ⟨_, hmem, rfl, .inl rfl⟩
  · have hallowed : (evaluate (drillEnv 1800000000000000 (by decide)) "alice" buyOne
        (haltedInPlace.foldl controlStep {})).map (·.1.decision) = .ok .allow := by
      decide +kernel
    cases hok : evaluate (drillEnv 1800000000000000 (by decide)) "alice" buyOne
        (haltedInPlace.foldl controlStep {}) with
    | error e =>
      rw [hok] at hallowed
      cases hallowed
    | ok p =>
      rw [hok] at hallowed
      have hdeny := hdenied p.1 p.2 hok
      have hallow : p.1.decision = .allow := Except.ok.inj hallowed
      rw [hallow] at hdeny
      cases hdeny

end Beyvra
