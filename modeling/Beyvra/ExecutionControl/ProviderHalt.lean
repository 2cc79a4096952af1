import Beyvra.ExecutionControl.Providers

namespace Beyvra

open Relational

namespace ExecutionControl

variable {settings : ExecutionSettings} {p : ExecutionProviderRecord} {row : Option ExecutionProviderHealth}

-- What governance asks of the settings and of the columns that no health command changes.
structure Admissible (settings : ExecutionSettings) (p : ExecutionProviderRecord) : Prop where
  running : settings.allExecutionHalted = false
  simulated : settings.realTradingEnabled = false ∧ settings.externalExecutionEnabled = false ∧
    settings.liveBrokerRoutingEnabled = false
  environment : p.environment ≠ .live
  approved : p.environment = .paper → p.governanceState ∈ approvedPaperStates
  paper : p.liveSupported = false ∧ p.governanceState ≠ .liveApproved

def RatesLow (row : Option ExecutionProviderHealth) : Prop :=
  ∀ r, row = some r → r.errorRate < 25 / 100 ∧ r.rejectRate < 35 / 100

def CircuitQuiet (row : Option ExecutionProviderHealth) : Prop :=
  ∀ r, row = some r → r.state = .healthy ∧ r.circuitState ≠ .open

structure Usable (settings : ExecutionSettings) (p : ExecutionProviderRecord)
    (row : Option ExecutionProviderHealth) : Prop where
  enabled : p.enabled = true
  healthy : p.health = .healthy
  admissible : Admissible settings p
  rates : RatesLow row
  circuit : CircuitQuiet row

theorem listed_eq_nil {condition : Prop} [Decidable condition] {reason : String} :
    listed condition reason = [] ↔ ¬condition := by
  unfold listed
  split <;> simp [*]

theorem eligible_iff {mode : ExecutionMode} : eligible settings p mode = true ↔
    p.enabled = true ∧ p.health = .healthy ∧ Admissible settings p ∧ mode = p.environment := by
  unfold eligible reasons
  simp only [List.isEmpty_iff, List.append_eq_nil_iff, listed_eq_nil, and_assoc]
  constructor
  · rintro ⟨hrunning, hsimulated, hmode, henabled, hhealth, henvironment, happroved, hlive⟩
    obtain rfl := not_not.mp henvironment
    simp only [not_or, Bool.not_eq_true] at hsimulated hlive hrunning
    refine ⟨by simpa using henabled, not_not.mp hhealth, ⟨hrunning, hsimulated, hmode, fun hpaper => ?_, hlive⟩, rfl⟩
    by_contra hnot
    exact happroved ⟨hpaper, hnot⟩
  · rintro ⟨henabled, hhealth, ⟨hrunning, hsimulated, hmode, happroved, hlive⟩, rfl⟩
    refine ⟨by simp [hrunning], by simp [hsimulated], hmode, by simp [henabled], not_not.mpr hhealth,
      not_not.mpr rfl, ?_, by simp [hlive]⟩
    exact fun hpaper => hpaper.2 (happroved hpaper.1)

theorem evaluate_healthy_iff {now : Timestamp} (henabled : p.enabled = true) (hhealth : p.health = .healthy) :
    evaluate now p row = .healthy ↔ (∀ t, p.circuitOpenUntil = some t → t ≤ now) ∧
      (row.getD { state := .healthy }).circuitState ≠ .open ∧
      (row.getD { state := .healthy }).errorRate < 25 / 100 ∧ (row.getD { state := .healthy }).rejectRate < 35 / 100 ∧
      (row.getD { state := .healthy }).state = .healthy := by
  unfold evaluate
  rw [hhealth]
  generalize row.getD { state := .healthy } = r
  simp only [henabled, Bool.true_eq_false, reduceCtorEq, if_false, Option.mem_def]
  by_cases hcircuit : r.circuitState = .open ∨ ∃ t, p.circuitOpenUntil = some t ∧ now < t
  · rw [if_pos hcircuit]
    refine iff_of_false (by simp) fun ⟨huntil, hopen, _⟩ => ?_
    obtain hcircuit | ⟨t, ht, hlt⟩ := hcircuit
    · exact hopen hcircuit
    · exact absurd (huntil t ht) (not_le.mpr hlt)
  · rw [if_neg hcircuit]
    obtain ⟨hopen, huntil⟩ := not_or.mp hcircuit
    have hpassed : ∀ t, p.circuitOpenUntil = some t → t ≤ now := fun t ht =>
      not_lt.mp fun hlt => huntil ⟨t, ht, hlt⟩
    by_cases hrates : 25 / 100 ≤ r.errorRate ∨ 35 / 100 ≤ r.rejectRate
    · rw [if_pos hrates]
      refine iff_of_false (by simp) fun ⟨_, _, herror, hreject, _⟩ => ?_
      exact hrates.elim (not_le.mpr herror) (not_le.mpr hreject)
    · rw [if_neg hrates]
      obtain ⟨herror, hreject⟩ := not_or.mp hrates
      have hstate : (if r.state ∈ [ProviderHealth.healthy, .degraded, .unavailable, .halted] then r.state
          else .unknown) = .healthy ↔ r.state = .healthy := by
        cases r.state <;> decide
      rw [hstate]
      exact ⟨fun h => ⟨hpassed, hopen, not_le.mp herror, not_le.mp hreject, h⟩, fun h => h.2.2.2.2⟩

theorem isRoutable_iff {now : Timestamp} (henabled : p.enabled = true) (hhealth : p.health = .healthy) :
    isRoutable now p row = true ↔ (∀ t, p.circuitOpenUntil = some t → t ≤ now) ∧ RatesLow row ∧ CircuitQuiet row := by
  unfold isRoutable
  rw [decide_eq_true_iff, evaluate_healthy_iff henabled hhealth]
  cases row with
  | none =>
    refine and_congr_right fun _ => iff_of_true ?_ ⟨fun r hr => (by cases hr), fun r hr => (by cases hr)⟩
    exact ⟨by decide, by norm_num, by norm_num, rfl⟩
  | some r =>
    refine and_congr_right fun _ => ?_
    constructor
    · rintro ⟨hopen, herror, hreject, hstate⟩
      refine ⟨fun r' hr' => ?_, fun r' hr' => ?_⟩
      · obtain rfl := Option.some.inj hr'
        exact ⟨herror, hreject⟩
      · obtain rfl := Option.some.inj hr'
        exact ⟨hstate, hopen⟩
    · rintro ⟨hrates, hcircuit⟩
      exact ⟨(hcircuit r rfl).2, (hrates r rfl).1, (hrates r rfl).2, (hcircuit r rfl).1⟩

theorem usable_iff {s : ProviderControl} :
    (∃ mode now, s.usable settings mode now = true) ↔ Usable settings s.provider s.health := by
  unfold ProviderControl.usable
  simp only [Bool.and_eq_true, eligible_iff]
  constructor
  · rintro ⟨mode, now, hroutable, henabled, hhealth, hadmissible, -⟩
    obtain ⟨-, hrates, hcircuit⟩ := (isRoutable_iff henabled hhealth).mp hroutable
    exact ⟨henabled, hhealth, hadmissible, hrates, hcircuit⟩
  · rintro ⟨henabled, hhealth, hadmissible, hrates, hcircuit⟩
    refine ⟨s.provider.environment, s.provider.circuitOpenUntil.getD 0, ?_, henabled, hhealth, hadmissible, rfl⟩
    refine (isRoutable_iff henabled hhealth).mpr ⟨fun t ht => ?_, hrates, hcircuit⟩
    rw [ht]
    exact le_refl t

namespace ProviderControl

-- The paper-enable command of a checker that its checks let through.
structure Approves (s : ProviderControl) (actorRef : String) (expectedVersion : Timestamp) : Prop where
  paper : s.provider.mode = .paper ∧ s.provider.liveSupported = false
  governed : s.provider.governanceState ∈ approvedPaperStates
  version : expectedVersion = s.provider.updatedAt
  independent : ∃ change, s.changes.find? pendingChange = some change ∧ change.requestedByRef ≠ actorRef

def Resumes (s : ProviderControl) : ProviderOp → Prop
  | .setProviderHalt _ false expectedVersion =>
    s.provider.mode ≠ .live ∧ s.provider.updatedAt = expectedVersion
  | _ => False

-- Of a provider that nothing else keeps from routing: no success is recorded on an object read as enabled,
-- no failure on a healthy object while it is enabled, and it is not enabled while it is stored as healthy.
def Sticky (settings : ExecutionSettings) (s : ProviderControl) : ProviderOp → Prop
  | .recordFailure _ object => ∀ o, s.objects.find object = some o → o.consecutiveFailures + 1 < 3 →
      o.health = .healthy → s.provider.enabled = true → Admissible settings s.provider → ¬RatesLow s.health
  | .recordSuccess _ object => ∀ o, s.objects.find object = some o → o.enabled = true →
      Admissible settings o → ¬RatesLow s.health
  | .halfOpen => ∀ r, s.health = some r → r.state = .healthy → s.provider.enabled = true →
      s.provider.health = .healthy → Admissible settings s.provider → ¬RatesLow s.health
  | .paperEnable _ actorRef _ expectedVersion => s.Approves actorRef expectedVersion →
      s.provider.health = .healthy → Admissible settings s.provider → RatesLow s.health → ¬CircuitQuiet s.health
  | _ => True

def Stopped (settings : ExecutionSettings) (s : ProviderControl) : Prop :=
  ∀ mode now, s.usable settings mode now = false

end ProviderControl

section Step

variable {s s' : ProviderControl} {now : Timestamp} {object : Nat} {o : ExecutionProviderRecord}
  {r r' : ExecutionProviderHealth}

theorem stopped_iff : s.Stopped settings ↔ ¬Usable settings s.provider s.health := by
  rw [← usable_iff]
  unfold ProviderControl.Stopped
  simp only [not_exists, Bool.not_eq_true]

theorem ratesLow_updated (herror : r.errorRate = (row.getD {}).errorRate)
    (hreject : r.rejectRate = (row.getD {}).rejectRate) : RatesLow (some r) ↔ RatesLow row := by
  cases row with
  | none =>
    refine iff_of_true (fun r' hr' => ?_) fun r' hr' => by cases hr'
    obtain rfl := Option.some.inj hr'
    rw [herror, hreject]
    norm_num
  | some r₀ =>
    constructor
    · intro h r' hr'
      obtain rfl := Option.some.inj hr'
      rw [← show r.errorRate = r₀.errorRate from herror, ← show r.rejectRate = r₀.rejectRate from hreject]
      exact h r rfl
    · intro h r' hr'
      obtain rfl := Option.some.inj hr'
      rw [herror, hreject]
      exact h r₀ rfl

theorem Admissible.of_same {p p' : ExecutionProviderRecord} (h : Admissible settings p)
    (henvironment : p'.environment = p.environment) (hgovernance : p'.governanceState = p.governanceState)
    (hlive : p'.liveSupported = p.liveSupported) : Admissible settings p' where
  running := h.running
  simulated := h.simulated
  environment := henvironment ▸ h.environment
  approved := henvironment ▸ hgovernance ▸ h.approved
  paper := hlive ▸ hgovernance ▸ h.paper

theorem stopped_recordFailure (h : s.Stopped settings) :
    (s.recordFailure now object).Stopped settings ↔ s.Sticky settings (.recordFailure now object) := by
  rw [stopped_iff] at h ⊢
  unfold ProviderControl.recordFailure ProviderControl.Sticky
  cases hfind : s.objects.find object with
  | none => exact iff_of_true h fun o ho => by cases hfind.symm.trans ho
  | some o =>
    dsimp only
    have hrates : RatesLow (some { s.health.getD {} with
        state := (o.failed now).health
        circuitState := if 3 ≤ (o.failed now).consecutiveFailures then .open else .closed
        lastFailureAt := some now }) ↔ RatesLow s.health := ratesLow_updated rfl rfl
    constructor
    · rintro hafter o' ho' hfew hhealthy henabled hadmissible hlow
      obtain rfl := Option.some.inj (hfind.symm.trans ho')
      have hnot : ¬3 ≤ o.consecutiveFailures + 1 := by omega
      have hhealth : (o.failed now).health = .healthy := by
        rw [ExecutionProviderRecord.failed, if_neg hnot, hhealthy]
      refine hafter ⟨henabled, hhealth, hadmissible.of_same rfl rfl rfl, hrates.mpr hlow, fun r hr => ?_⟩
      obtain rfl := Option.some.inj hr
      refine ⟨hhealth, ?_⟩
      dsimp only
      rw [if_neg (show ¬3 ≤ (o.failed now).consecutiveFailures from hnot)]
      decide
    · rintro hsticky ⟨henabled, hhealth, hadmissible, hlow, -⟩
      change (o.failed now).health = .healthy at hhealth
      by_cases hmany : 3 ≤ o.consecutiveFailures + 1
      · rw [ExecutionProviderRecord.failed, if_pos hmany] at hhealth
        cases hhealth
      · rw [ExecutionProviderRecord.failed, if_neg hmany] at hhealth
        exact hsticky o hfind (by omega) hhealth henabled (hadmissible.of_same rfl rfl rfl) (hrates.mp hlow)

theorem stopped_recordSuccess (h : s.Stopped settings) :
    (s.recordSuccess now object).Stopped settings ↔ s.Sticky settings (.recordSuccess now object) := by
  rw [stopped_iff] at h ⊢
  unfold ProviderControl.recordSuccess ProviderControl.Sticky
  cases hfind : s.objects.find object with
  | none => exact iff_of_true h fun o ho => by cases hfind.symm.trans ho
  | some o =>
    dsimp only
    have hrates : RatesLow (some { s.health.getD {} with
        state := .healthy, circuitState := .closed, lastSuccessAt := some now }) ↔ RatesLow s.health :=
      ratesLow_updated rfl rfl
    constructor
    · rintro hafter o' ho' henabled hadmissible hlow
      obtain rfl := Option.some.inj (hfind.symm.trans ho')
      refine hafter ⟨henabled, rfl, hadmissible.of_same rfl rfl rfl, hrates.mpr hlow, fun r hr => ?_⟩
      obtain rfl := Option.some.inj hr
      exact ⟨rfl, show CircuitState.closed ≠ .open by decide⟩
    · rintro hsticky ⟨henabled, -, hadmissible, hlow, -⟩
      exact hsticky o hfind henabled (hadmissible.of_same rfl rfl rfl) (hrates.mp hlow)

theorem stopped_halfOpen : s.halfOpen.Stopped settings ↔ s.Sticky settings .halfOpen := by
  rw [stopped_iff]
  unfold ProviderControl.halfOpen ProviderControl.Sticky
  have hrates : RatesLow (some { s.health.getD {} with circuitState := .halfOpen }) ↔ RatesLow s.health :=
    ratesLow_updated rfl rfl
  constructor
  · rintro hafter r hr hstate henabled hhealth hadmissible hlow
    refine hafter ⟨henabled, hhealth, hadmissible, hrates.mpr hlow, fun r' hr' => ?_⟩
    obtain rfl := Option.some.inj hr'
    rw [hr]
    exact ⟨hstate, show CircuitState.halfOpen ≠ .open by decide⟩
  · rintro hsticky ⟨henabled, hhealth, hadmissible, hlow, hcircuit⟩
    have hstate := (hcircuit _ rfl).1
    cases hrow : s.health with
    | none =>
      rw [hrow] at hstate
      cases hstate
    | some r =>
      rw [hrow] at hstate
      exact hsticky r hrow hstate henabled hhealth hadmissible (hrates.mp hlow)

theorem usable_evaluated (h : Usable settings p (some (row.getD r))) : Usable settings p row := by
  cases row with
  | none => exact ⟨h.enabled, h.healthy, h.admissible, fun _ hr => (by cases hr), fun _ hr => (by cases hr)⟩
  | some r₀ => exact h

theorem stopped_evaluate (h : s.Stopped settings) : (s.step (.evaluate object)).Stopped settings := by
  rw [stopped_iff] at h ⊢
  dsimp only [ProviderControl.step]
  cases s.objects.find object with
  | none => exact h
  | some o => exact fun husable => h (usable_evaluated husable)

variable {actorRef reason : String} {expectedVersion : Timestamp}

theorem paperEnable_cases :
    (s.Approves actorRef expectedVersion ∧
      (s.step (.paperEnable now actorRef reason expectedVersion)).provider =
        { s.provider with enabled := true, updatedAt := now } ∧
      (s.step (.paperEnable now actorRef reason expectedVersion)).health = s.health) ∨
    ¬s.Approves actorRef expectedVersion ∧
      (s.step (.paperEnable now actorRef reason expectedVersion)).provider = s.provider ∧
      (s.step (.paperEnable now actorRef reason expectedVersion)).health = s.health := by
  unfold ProviderControl.step
  obtain ⟨s', hs', heq⟩ | ⟨⟨e, he⟩, heq⟩ :=
    commitState_cases (ProviderControl.paperEnable now actorRef reason expectedVersion) s
  · dsimp only
    rw [heq]
    unfold ProviderControl.paperEnable at hs'
    simp only [bind_eq_ok, require_eq_ok] at hs'
    obtain ⟨_, hpaper, _, hgoverned, _, hversion, hs'⟩ := hs'
    cases hpending : s.changes.find? ProviderControl.pendingChange with
    | none =>
      rw [hpending] at hs'
      obtain rfl := pure_eq_ok.mp hs'
      refine .inr ⟨fun happroves => ?_, rfl, rfl⟩
      obtain ⟨change, hchange, -⟩ := happroves.independent
      cases hpending.symm.trans hchange
    | some pending =>
      rw [hpending] at hs'
      simp only [bind_eq_ok, require_eq_ok, pure_eq_ok] at hs'
      obtain ⟨_, hindependent, rfl⟩ := hs'
      exact .inl ⟨⟨hpaper, hgoverned, hversion, pending, hpending, hindependent⟩, rfl, rfl⟩
  · dsimp only
    rw [heq]
    refine .inr ⟨fun happroves => ?_, rfl, rfl⟩
    obtain ⟨pending, hpending, hindependent⟩ := happroves.independent
    unfold ProviderControl.paperEnable at he
    rw [bind_of_ok (require_of happroves.paper), bind_of_ok (require_of happroves.governed),
      bind_of_ok (require_of happroves.version), hpending] at he
    dsimp only at he
    rw [bind_of_ok (require_of hindependent)] at he
    cases he

theorem stopped_paperEnable (h : s.Stopped settings) :
    (s.step (.paperEnable now actorRef reason expectedVersion)).Stopped settings ↔
      s.Sticky settings (.paperEnable now actorRef reason expectedVersion) := by
  rw [stopped_iff] at h ⊢
  unfold ProviderControl.Sticky
  obtain ⟨happroves, hprovider, hhealth⟩ | ⟨hnot, hprovider, hhealth⟩ := paperEnable_cases
  · rw [hprovider, hhealth]
    constructor
    · intro hafter _ hhealthy hadmissible hlow hquiet
      exact hafter ⟨rfl, hhealthy, hadmissible.of_same rfl rfl rfl, hlow, hquiet⟩
    · rintro hsticky ⟨-, hhealthy, hadmissible, hlow, hquiet⟩
      exact hsticky happroves hhealthy (hadmissible.of_same rfl rfl rfl) hlow hquiet
  · rw [hprovider, hhealth]
    exact iff_of_true h fun happroves => absurd happroves hnot

-- A halt that commits stops the provider, one that is refused changes nothing.
theorem stopped_of_halt (h : s.setProviderHalt now true expectedVersion = .ok s') : s'.Stopped settings := by
  unfold ProviderControl.setProviderHalt at h
  simp only [bind_eq_ok, require_eq_ok, pure_eq_ok] at h
  obtain ⟨_, _, _, _, rfl⟩ := h
  rw [stopped_iff]
  exact fun husable => by cases husable.healthy

theorem stopped_setProviderHalt {halted : Bool} (h : s.Stopped settings)
    (hno : ¬s.Resumes (.setProviderHalt now halted expectedVersion)) :
    (s.step (.setProviderHalt now halted expectedVersion)).Stopped settings := by
  unfold ProviderControl.step
  obtain ⟨s', hs', heq⟩ | ⟨_, heq⟩ :=
    commitState_cases (ProviderControl.setProviderHalt now halted expectedVersion) s
  · dsimp only
    rw [heq]
    cases halted with
    | true => exact stopped_of_halt hs'
    | false =>
      unfold ProviderControl.setProviderHalt at hs'
      simp only [bind_eq_ok, require_eq_ok] at hs'
      obtain ⟨_, hmode, _, hversion, -⟩ := hs'
      exact absurd ⟨hmode, hversion⟩ hno
  · dsimp only
    rw [heq]
    exact h

theorem stopped_step_iff {op : ProviderOp} (hno : ¬s.Resumes op) (h : s.Stopped settings) :
    (s.step op).Stopped settings ↔ s.Sticky settings op := by
  cases op with
  | read object => exact iff_of_true h trivial
  | evaluate object => exact iff_of_true (stopped_evaluate h) trivial
  | recordFailure now object => exact stopped_recordFailure h
  | recordSuccess now object => exact stopped_recordSuccess h
  | halfOpen => exact stopped_halfOpen
  | paperEnable now actorRef reason expectedVersion => exact stopped_paperEnable h
  | setProviderHalt now halted expectedVersion => exact iff_of_true (stopped_setProviderHalt h hno) trivial

end Step

theorem halt_sticky_iff {settings : ExecutionSettings} {s halted : ProviderControl} {now expectedVersion : Timestamp}
    {ops : List ProviderOp} (hhalt : s.setProviderHalt now true expectedVersion = .ok halted)
    (hno : Throughout ProviderControl.step (fun s op => ¬s.Resumes op) ops halted) :
    (∀ before after, ops = before ++ after → (before.foldl ProviderControl.step halted).Stopped settings) ↔
      Throughout ProviderControl.step (ProviderControl.Sticky settings) ops halted :=
  stays_iff_throughout (fun _ _ hno h => stopped_step_iff hno h) hno (stopped_of_halt hhalt)

def paperProvider : ExecutionProviderRecord where
  environment := .paper
  governanceState := .paperApproved
  mode := .paper
  enabled := true
  health := .healthy
  updatedAt := 0

-- An adapter holds the object it read before the operator's halt and then reports its success.
def heldProvider : ProviderControl where
  provider := paperProvider
  objects := Table.empty.put 0 paperProvider

def haltedProvider : ProviderControl :=
  { heldProvider with provider := { paperProvider with enabled := false, health := .halted, updatedAt := 1 } }

theorem halt_sticky_after_read :
    ([ProviderOp.read 0, .recordFailure 2 0, .recordSuccess 3 0, .halfOpen].foldl ProviderControl.step
      haltedProvider).usable {} .paper 4 = false := by
  have hhalt : heldProvider.setProviderHalt 1 true 0 = .ok haltedProvider := rfl
  have hno : Throughout ProviderControl.step (fun s op => ¬s.Resumes op)
      [.read 0, .recordFailure 2 0, .recordSuccess 3 0, .halfOpen] haltedProvider :=
    ⟨id, id, id, id, trivial⟩
  refine (halt_sticky_iff hhalt hno).mpr ?_ _ [] (List.append_nil _).symm .paper 4
  refine ⟨trivial, ?_, ?_, ?_, trivial⟩
  · rintro o ho - - henabled
    cases henabled
  · rintro o ho henabled
    obtain rfl := Option.some.inj ho
    cases henabled
  · rintro r hr - henabled
    cases henabled

theorem halt_overwritten : ¬∀ (settings : ExecutionSettings) (s halted : ProviderControl)
    (now expectedVersion : Timestamp) (ops : List ProviderOp),
    s.setProviderHalt now true expectedVersion = .ok halted →
      Throughout ProviderControl.step (fun s op => ¬s.Resumes op) ops halted →
        (ops.foldl ProviderControl.step halted).Stopped settings := by
  intro h
  have hstopped := h {} heldProvider haltedProvider 1 0 [.recordSuccess 2 0] rfl ⟨id, trivial⟩ .paper 3
  revert hstopped
  decide +kernel

end ExecutionControl

end Beyvra
