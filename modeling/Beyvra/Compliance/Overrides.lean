import Beyvra.Compliance.Services

namespace Beyvra

open Relational

inductive ComplianceCommand where
  | mutate (env : Env) (mutation : Mutation)
  | requestOverride (env : Env) (request : OverrideRequest)

namespace ComplianceCommand

-- An insert under a primary key that is taken fails.
def collides (c : ComplianceTables) : ComplianceCommand → Bool
  | .mutate env (.restriction _ _) => (c.restrictions.find (env.uuid4 "AccountRestriction")).isSome
  | .mutate _ _ => false
  | .requestOverride env _ => (c.overrides.find (env.uuid4 "ComplianceOverride")).isSome

def run (command : ComplianceCommand) (c : ComplianceTables) : Outcome ComplianceTables := do
  require (command.collides c = false) (.integrityError "primary key")
  match command with
  | .mutate env mutation => do
    let change ← mutation.change env c
    pure (change.elim c ProfileChange.compliance)
  | .requestOverride env request => Beyvra.requestOverride env request c

end ComplianceCommand

def complianceStep (c : ComplianceTables) (command : ComplianceCommand) : ComplianceTables :=
  commitState command.run c

def OverrideControl.state : OverrideControl → Bool
  | .removeRestriction _ => false
  | _ => true

-- The dates of the profile that change a state whatever the overrides say.
def ComplianceProfile.deadlines (p : ComplianceProfile) : OverrideControl → List (Option Timestamp)
  | .kycState => [p.kycExpiresAt, p.kycNextReviewAt]
  | .amlState => [p.amlNextReviewAt]
  | .sanctionsState | .removeRestriction _ => []

structure Retains (control : Option OverrideControl) (p p' : ComplianceProfile) : Prop where
  values : ∀ control', control ≠ some control' → p'.valueAt control' = p.valueAt control'
  deadlines : p'.deadlines = p.deadlines

structure ReadyToApprove (o : ComplianceOverride) (checker : String) (now : Timestamp) : Prop where
  unapproved : o.approvedAt = none
  independent : o.requestedBy ≠ checker
  unexpired : due o.expiresAt now = false

def ComplianceOverride.approve (o : ComplianceOverride) (checker : String) (now : Timestamp) :
    ComplianceOverride := { o with approvedBy := some checker, approvedAt := some now }

section Mutations

variable {c : ComplianceTables} {env : Env} {accountId : Uuid} {change : ProfileChange} {p p' : ComplianceProfile}
  {o : ComplianceOverride} {overrideId : Uuid} {checker evidenceRef : String} {request : OverrideRequest}

-- What a mutation of the profile alone writes.
structure ProfileSaved (c c' : ComplianceTables) (accountId : Uuid) (p p' : ComplianceProfile) : Prop where
  found : c.profiles.find accountId = some p
  profiles : c'.profiles = c.profiles.put accountId p'
  restrictions : c'.restrictions = c.restrictions
  overrides : c'.overrides = c.overrides

theorem profileUpdated_saved (data : Payload) (hp : c.profiles.find accountId = some p) :
    ProfileSaved c (profileUpdated c accountId p' data).compliance accountId p
      { p' with version := p'.version + 1 } :=
  ⟨hp, rfl, rfl, rfl⟩

theorem transitionKyc_saved {new : KycState} (h : transitionKyc accountId new evidenceRef c = .ok change) :
    ∃ p p', ProfileSaved c change.compliance accountId p p' ∧ Retains (some .kycState) p p' ∧ p'.kycState = new := by
  unfold transitionKyc fetchProfile at h
  simp only [bind_eq_ok, fetch_eq_ok, pure_eq_ok] at h
  obtain ⟨p, hp, -, -, -, -, evidence, -, rfl⟩ := h
  refine ⟨p, _, profileUpdated_saved _ hp, ⟨fun control hne => ?_, rfl⟩, rfl⟩
  cases control with
  | kycState => exact absurd rfl hne
  | _ => rfl

theorem transitionAml_saved {new : AmlState} (h : transitionAml accountId new evidenceRef c = .ok change) :
    ∃ p p', ProfileSaved c change.compliance accountId p p' ∧ Retains (some .amlState) p p' ∧ p'.amlState = new := by
  unfold transitionAml fetchProfile at h
  simp only [bind_eq_ok, fetch_eq_ok, pure_eq_ok] at h
  obtain ⟨p, hp, -, -, -, -, evidence, -, rfl⟩ := h
  refine ⟨p, _, profileUpdated_saved _ hp, ⟨fun control hne => ?_, rfl⟩, rfl⟩
  cases control with
  | amlState => exact absurd rfl hne
  | _ => rfl

theorem transitionSanctions_saved {new : SanctionsState}
    (h : transitionSanctions accountId new evidenceRef c = .ok change) :
    ∃ p p', ProfileSaved c change.compliance accountId p p' ∧ Retains (some .sanctionsState) p p' ∧
      p'.sanctionsState = new := by
  unfold transitionSanctions fetchProfile at h
  simp only [bind_eq_ok, fetch_eq_ok, pure_eq_ok] at h
  obtain ⟨p, hp, -, -, -, -, evidence, -, rfl⟩ := h
  refine ⟨p, _, profileUpdated_saved _ hp, ⟨fun control hne => ?_, rfl⟩, rfl⟩
  cases control with
  | sanctionsState => exact absurd rfl hne
  | _ => rfl

theorem transitionJurisdiction_saved {new : JurisdictionState}
    (h : transitionJurisdiction accountId new evidenceRef c = .ok change) :
    ∃ p p', ProfileSaved c change.compliance accountId p p' ∧ Retains none p p' := by
  unfold transitionJurisdiction fetchProfile at h
  simp only [bind_eq_ok, fetch_eq_ok, pure_eq_ok] at h
  obtain ⟨-, -, evidence, -, p, hp, rfl⟩ := h
  refine ⟨p, _, profileUpdated_saved _ hp, ⟨fun control _ => ?_, rfl⟩⟩
  cases control <;> rfl

theorem updateAccountState_saved {new : AccountState} (h : updateAccountState accountId new c = .ok change) :
    ∃ p p', ProfileSaved c change.compliance accountId p p' ∧ Retains none p p' := by
  unfold updateAccountState fetchProfile at h
  simp only [bind_eq_ok, fetch_eq_ok, pure_eq_ok] at h
  obtain ⟨p, hp, -, -, rfl⟩ := h
  refine ⟨p, _, profileUpdated_saved _ hp, ⟨fun control _ => ?_, rfl⟩⟩
  cases control <;> rfl

theorem addRestriction_eq_ok {request : RestrictionRequest}
    (h : addRestriction env accountId request c = .ok change) : ∃ p p' r,
    c.profiles.find accountId = some p ∧ Retains none p p' ∧ r.account = accountId ∧ r.active = true ∧
      change.compliance = { c with
        profiles := c.profiles.put accountId p'
        restrictions := c.restrictions.put (env.uuid4 "AccountRestriction") r } := by
  unfold addRestriction fetchProfile at h
  simp only [bind_eq_ok, fetch_eq_ok, pure_eq_ok] at h
  obtain ⟨p, hp, -, -, -, -, rfl⟩ := h
  refine ⟨p, { p with version := p.version + 1 }, _, hp, ⟨fun control _ => ?_, rfl⟩, ?_, ?_, rfl⟩
  · cases control <;> rfl
  · rfl
  · rfl

theorem requestOverride_eq_ok {c' : ComplianceTables} (h : requestOverride env request c = .ok c') : ∃ o,
    o.approvedAt = none ∧ (o.control.state = true → o.newState.fits o.control = true) ∧
      c' = { c with overrides := c.overrides.put (env.uuid4 "ComplianceOverride") o } := by
  unfold requestOverride fetchProfile at h
  obtain ⟨p, -, h⟩ := bind_eq_ok.mp h
  cases hcontrol : request.control with
  | removeRestriction id =>
    simp only [hcontrol, bind_eq_ok, pure_eq_ok] at h
    obtain ⟨-, -, -, -, -, -, -, -, -, -, -, -, rfl⟩ := h
    exact ⟨_, rfl, fun hstate => (by cases hstate), rfl⟩
  | _ =>
    simp only [hcontrol, bind_eq_ok, pure_eq_ok, require_eq_ok] at h
    obtain ⟨-, hfits, -, rfl, -, -, -, -, -, -, rfl⟩ := h
    exact ⟨_, rfl, fun _ => hfits, rfl⟩

theorem override_valueAt {value : OverrideValue} {control : OverrideControl} (h : value.fits control = true) :
    (p.override value).valueAt control = value := by
  cases value <;> cases control <;> first | rfl | cases h

theorem override_retains {value : OverrideValue} {control : OverrideControl} (h : value.fits control = true) :
    Retains (some control) p { p.override value with version := (p.override value).version + 1 } := by
  constructor
  · intro control' hne
    cases value <;> cases control <;> cases control' <;> first | exact absurd rfl hne | rfl | cases h
  · cases value <;> rfl

-- The two writes of an approval: a restriction is lifted, or the state of the control is set.
inductive Approved (c : ComplianceTables) (o : ComplianceOverride) (c' : ComplianceTables) : Prop
  | removal (id : Uuid) (r : AccountRestriction) (p p' : ComplianceProfile)
      (hcontrol : o.control = .removeRestriction id) (hr : c.restrictions.find id = some r)
      (haccount : r.account = o.account) (hactive : r.active = true)
      (hp : c.profiles.find o.account = some p) (hretains : Retains none p p')
      (hprofiles : c'.profiles = c.profiles.put o.account p')
      (hrestrictions : c'.restrictions = c.restrictions.put id { r with active := false })
  | state (p p' : ComplianceProfile) (hstate : o.control.state = true)
      (hp : c.profiles.find o.account = some p) (hretains : Retains (some o.control) p p')
      (hvalue : p'.valueAt o.control = o.newState) (hprofiles : c'.profiles = c.profiles.put o.account p')
      (hrestrictions : c'.restrictions = c.restrictions)

theorem overrideChange_approved (hp : c.profiles.find o.account = some p)
    (hfits : o.control.state = true → o.newState.fits o.control = true)
    (h : overrideChange o p c = .ok change) :
    (∀ overrides, Approved c o { change.compliance with overrides }) ∧
      change.compliance.overrides = c.overrides := by
  unfold overrideChange at h
  cases hcontrol : o.control with
  | removeRestriction id =>
    simp only [hcontrol, bind_eq_ok, fetch_eq_ok, require_eq_ok, pure_eq_ok] at h
    obtain ⟨r, hr, -, ⟨haccount, hactive⟩, rfl⟩ := h
    refine ⟨fun _ => .removal id r p { p with version := p.version + 1 } hcontrol hr haccount hactive hp
      ⟨?_, rfl⟩ rfl rfl, rfl⟩
    intro control _
    cases control <;> rfl
  | _ =>
    have hstate : o.control.state = true := by rw [hcontrol]; rfl
    simp only [hcontrol, bind_eq_ok, require_eq_ok, pure_eq_ok] at h
    obtain ⟨-, -, rfl⟩ := h
    refine ⟨fun _ => .state p _ hstate hp (override_retains (hfits hstate)) ?_ rfl rfl, rfl⟩
    have hvalue := override_valueAt (p := p) (hfits hstate)
    rw [hcontrol] at hvalue ⊢
    exact hvalue

theorem approveOverride_cases {result : Option ProfileChange}
    (h : approveOverride env overrideId checker c = .ok result) : ∃ o,
    c.overrides.find overrideId = some o ∧
      ((o.approvedAt.isSome = true ∧ result = none) ∨
        ∃ p change, ReadyToApprove o checker env.now ∧ c.profiles.find o.account = some p ∧
          overrideChange o p c = .ok change ∧ result = some { change with compliance :=
            { change.compliance with
              overrides := change.compliance.overrides.put overrideId (o.approve checker env.now) } }) := by
  unfold approveOverride fetchProfile at h
  obtain ⟨o, ho, h⟩ := bind_eq_ok.mp h
  refine ⟨o, fetch_eq_ok.mp ho, ?_⟩
  cases happroved : o.approvedAt with
  | some t =>
    simp only [happroved, Option.isSome_some, if_true, pure_eq_ok] at h
    exact .inl ⟨rfl, h.symm⟩
  | none =>
    simp only [happroved, Option.isSome_none, Bool.false_eq_true, if_false, bind_eq_ok, require_eq_ok,
      fetch_eq_ok, pure_eq_ok, Bool.not_eq_true'] at h
    obtain ⟨-, hmaker, -, hdue, p, hp, change, hchange, -, -, rfl⟩ := h
    exact .inr ⟨p, change, ⟨happroved, hmaker, hdue⟩, hp, hchange, rfl⟩

end Mutations

-- The state of one control that a command sets, and the override it sets it by.
structure Establishment where
  account : Uuid
  control : OverrideControl
  value : OverrideValue
  override : Option Uuid

-- The pending override a command asks to approve.
def ComplianceCommand.approves (c : ComplianceTables) : ComplianceCommand → Option (Uuid × ComplianceOverride)
  | .mutate _ (.approval overrideId _) =>
    match c.overrides.find overrideId with
    | some o => if o.approvedAt.isNone then some (overrideId, o) else none
    | none => none
  | _ => none

def ComplianceCommand.establishes (c : ComplianceTables) (command : ComplianceCommand) : Option Establishment :=
  match command with
  | .mutate _ (.kyc accountId new _) => some ⟨accountId, .kycState, .kyc new, none⟩
  | .mutate _ (.aml accountId new _) => some ⟨accountId, .amlState, .aml new, none⟩
  | .mutate _ (.sanctions accountId new _) => some ⟨accountId, .sanctionsState, .sanctions new, none⟩
  | command =>
    match command.approves c with
    | some (overrideId, o) =>
      if o.control.state then some ⟨o.account, o.control, o.newState, some overrideId⟩ else none
    | none => none

def ComplianceTables.Fitting (c : ComplianceTables) : Prop :=
  ∀ overrideId o, c.overrides.find overrideId = some o → o.control.state = true →
    o.newState.fits o.control = true

section Effect

variable {c c' : ComplianceTables} {command : ComplianceCommand}

-- All that an accepted command can do to profiles, restrictions and overrides.
inductive ComplianceEffect (c : ComplianceTables) (command : ComplianceCommand) (c' : ComplianceTables) : Prop
  | kept (hestablishes : command.establishes c = none) (happroves : command.approves c = none) (hsame : c' = c)
  | saved (accountId : Uuid) (p p' : ComplianceProfile) (hestablishes : command.establishes c = none)
      (happroves : command.approves c = none) (hsaved : ProfileSaved c c' accountId p p')
      (hretains : Retains none p p')
  | restricted (accountId id : Uuid) (p p' : ComplianceProfile) (r : AccountRestriction)
      (hestablishes : command.establishes c = none) (happroves : command.approves c = none)
      (hfresh : c.restrictions.find id = none) (hp : c.profiles.find accountId = some p)
      (hretains : Retains none p p') (haccount : r.account = accountId)
      (hprofiles : c'.profiles = c.profiles.put accountId p')
      (hrestrictions : c'.restrictions = c.restrictions.put id r) (hoverrides : c'.overrides = c.overrides)
  | transitioned (control : OverrideControl) (accountId : Uuid) (p p' : ComplianceProfile)
      (hestablishes : command.establishes c = some ⟨accountId, control, p'.valueAt control, none⟩)
      (happroves : command.approves c = none) (hstate : control.state = true)
      (hsaved : ProfileSaved c c' accountId p p') (hretains : Retains (some control) p p')
  | requested (id : Uuid) (o : ComplianceOverride) (hestablishes : command.establishes c = none)
      (happroves : command.approves c = none) (hfresh : c.overrides.find id = none)
      (hpending : o.approvedAt = none) (hfits : o.control.state = true → o.newState.fits o.control = true)
      (hsame : c' = { c with overrides := c.overrides.put id o })
  | approved (id : Uuid) (checker : String) (now : Timestamp) (o : ComplianceOverride)
      (hestablishes : command.establishes c = if o.control.state = true then
        some ⟨o.account, o.control, o.newState, some id⟩ else none)
      (happroves : command.approves c = some (id, o)) (ho : c.overrides.find id = some o)
      (hpending : ReadyToApprove o checker now) (happroved : Approved c o c')
      (hoverrides : c'.overrides = c.overrides.put id (o.approve checker now))

theorem command_effect (hfitting : c.Fitting) (h : command.run c = .ok c') : ComplianceEffect c command c' := by
  unfold ComplianceCommand.run at h
  obtain ⟨_, hrequire, h⟩ := bind_eq_ok.mp h
  have hfresh := require_eq_ok.mp hrequire
  cases command with
  | requestOverride env request =>
    obtain ⟨o, hpending, hfits, rfl⟩ := requestOverride_eq_ok h
    exact .requested _ o rfl rfl (Option.isNone_iff_eq_none.mp (Option.isSome_eq_false_iff.mp hfresh)) hpending hfits rfl
  | mutate env mutation =>
    simp only [bind_eq_ok, pure_eq_ok] at h
    obtain ⟨change, hchange, rfl⟩ := h
    cases mutation with
    | kyc accountId new evidenceRef =>
      obtain ⟨change, htransition, rfl⟩ := map_eq_ok.mp hchange
      obtain ⟨p, p', hsaved, hretains, rfl⟩ := transitionKyc_saved htransition
      exact .transitioned .kycState accountId p p' rfl rfl rfl hsaved hretains
    | aml accountId new evidenceRef =>
      obtain ⟨change, htransition, rfl⟩ := map_eq_ok.mp hchange
      obtain ⟨p, p', hsaved, hretains, rfl⟩ := transitionAml_saved htransition
      exact .transitioned .amlState accountId p p' rfl rfl rfl hsaved hretains
    | sanctions accountId new evidenceRef =>
      obtain ⟨change, htransition, rfl⟩ := map_eq_ok.mp hchange
      obtain ⟨p, p', hsaved, hretains, rfl⟩ := transitionSanctions_saved htransition
      exact .transitioned .sanctionsState accountId p p' rfl rfl rfl hsaved hretains
    | jurisdiction accountId new evidenceRef =>
      obtain ⟨change, htransition, rfl⟩ := map_eq_ok.mp hchange
      obtain ⟨p, p', hsaved, hretains⟩ := transitionJurisdiction_saved htransition
      exact .saved accountId p p' rfl rfl hsaved hretains
    | accountState accountId new =>
      obtain ⟨change, htransition, rfl⟩ := map_eq_ok.mp hchange
      obtain ⟨p, p', hsaved, hretains⟩ := updateAccountState_saved htransition
      exact .saved accountId p p' rfl rfl hsaved hretains
    | restriction accountId request =>
      obtain ⟨change, hrestriction, rfl⟩ := map_eq_ok.mp hchange
      obtain ⟨p, p', r, hp, hretains, haccount, hactive, heq⟩ := addRestriction_eq_ok hrestriction
      have hnone := Option.isNone_iff_eq_none.mp (Option.isSome_eq_false_iff.mp hfresh)
      refine .restricted accountId _ p p' r rfl rfl hnone hp hretains haccount ?_ ?_ ?_
      all_goals rw [Option.elim_some, heq]
    | approval id checker =>
      obtain ⟨o, ho, ⟨happroved, rfl⟩ | ⟨p, change, hpending, hp, hoverride, rfl⟩⟩ :=
        approveOverride_cases hchange
      · have happroves : (ComplianceCommand.mutate env (.approval id checker)).approves c = none := by
          simp only [ComplianceCommand.approves, ho, Option.isNone_eq_false_iff.mpr happroved, Bool.false_eq_true,
            if_false]
        refine .kept ?_ happroves rfl
        simp only [ComplianceCommand.establishes, happroves]
      · have happroves : (ComplianceCommand.mutate env (.approval id checker)).approves c = some (id, o) := by
          simp only [ComplianceCommand.approves, ho, hpending.unapproved, Option.isNone_none, if_true]
        obtain ⟨happroved, hoverrides⟩ := overrideChange_approved hp (hfitting id o ho) hoverride
        refine .approved id checker env.now o ?_ happroves ho hpending (happroved _)
          (congrArg (·.put id (o.approve checker env.now)) hoverrides)
        simp only [ComplianceCommand.establishes, happroves]

theorem ComplianceEffect.overrides_cases (hfitting : c.Fitting) (heffect : ComplianceEffect c command c') :
    c'.overrides = c.overrides ∨ ∃ id o, c'.overrides = c.overrides.put id o ∧
      (o.control.state = true → o.newState.fits o.control = true) := by
  cases heffect with
  | kept hestablishes happroves hsame => exact .inl (by rw [hsame])
  | saved accountId p p' hestablishes happroves hsaved hretains => exact .inl hsaved.overrides
  | restricted accountId id p p' r hestablishes happroves hfresh hp hretains haccount hprofiles hrestrictions
      hoverrides => exact .inl hoverrides
  | transitioned control accountId p p' hestablishes happroves hstate hsaved hretains => exact .inl hsaved.overrides
  | requested id o hestablishes happroves hfresh hpending hfits hsame =>
    subst hsame
    exact .inr ⟨id, o, rfl, hfits⟩
  | approved id checker now o hestablishes happroves ho hpending happroved hoverrides =>
    exact .inr ⟨id, o.approve checker now, hoverrides, hfitting id o ho⟩

theorem ComplianceEffect.fitting (hfitting : c.Fitting) (heffect : ComplianceEffect c command c') : c'.Fitting := by
  intro id o ho
  rcases heffect.overrides_cases hfitting with hsame | ⟨id', o', hput, hfits⟩
  · exact hfitting id o (hsame ▸ ho)
  · rw [hput] at ho
    rcases Table.find_put_cases ho with ⟨-, rfl⟩ | ⟨-, hfound⟩
    · exact hfits
    · exact hfitting id o hfound

end Effect

structure Standing (c : ComplianceTables) (account : Uuid) (control : OverrideControl) (id : Uuid)
    (o : ComplianceOverride) : Prop where
  found : c.overrides.find id = some o
  account : o.account = account
  control : o.control = control
  approved : o.approvedAt.isSome = true

section Standing

variable {c c' : ComplianceTables} {account : Uuid} {control : OverrideControl} {now : Timestamp}

theorem expiredControl_iff : c.expiredControl account control now = true ↔
    ∃ id o, Standing c account control id o ∧ due o.expiresAt now = true := by
  unfold ComplianceTables.expiredControl ComplianceTables.overridesOf ComplianceOverride.expired
  simp only [List.any_eq_true, List.mem_filter, Table.mem_values_iff, decide_eq_true_eq, Bool.and_eq_true]
  constructor
  · rintro ⟨o, ⟨⟨id, hfind⟩, haccount⟩, hcontrol, happroved, hdue⟩
    exact ⟨id, o, ⟨hfind, haccount, hcontrol, happroved⟩, hdue⟩
  · rintro ⟨id, o, ⟨hfind, haccount, hcontrol, happroved⟩, hdue⟩
    exact ⟨o, ⟨⟨id, hfind⟩, haccount⟩, hcontrol, happroved, hdue⟩

theorem due_mono {deadline : Option Timestamp} {t : Timestamp} (h : due deadline t = true) (hle : t ≤ now) :
    due deadline now = true := by
  cases deadline with
  | none => cases h
  | some d =>
    have hd : d ≤ t := by simpa [due] using h
    simpa [due] using le_trans hd hle

theorem not_standing {id : Uuid} {o o' : ComplianceOverride} (hfind : c.overrides.find id = some o)
    (hpending : o.approvedAt = none) : ¬Standing c account control id o' := by
  rintro ⟨hfind', -, -, happroved⟩
  obtain rfl := Option.some.inj (hfind.symm.trans hfind')
  rw [hpending] at happroved
  cases happroved

theorem standing_put_of_ne {id id' : Uuid} {o o' : ComplianceOverride}
    (hoverrides : c'.overrides = c.overrides.put id o) (hne : id' ≠ id) :
    Standing c' account control id' o' ↔ Standing c account control id' o' := by
  have hfind : c'.overrides.find id' = c.overrides.find id' := by
    rw [hoverrides, Table.find_put_of_ne _ _ hne]
  constructor
  · rintro ⟨hfound, haccount, hcontrol, happroved⟩
    exact ⟨hfind ▸ hfound, haccount, hcontrol, happroved⟩
  · rintro ⟨hfound, haccount, hcontrol, happroved⟩
    exact ⟨hfind ▸ hfound, haccount, hcontrol, happroved⟩

end Standing

def afterSeed (t : Nat) : Timestamp := calendarSeedDate * microsecondsPerDay + t

theorem afterSeed_seeded (t : Nat) : calendarSeedDate ≤ Timestamp.date (afterSeed t) := by
  change (18262 : Int) ≤ (18262 * 86400000000 + (t : Int)) / 86400000000
  omega

def deskAt (t : Nat) : Env where
  now := afterSeed t
  settings := { simulatedExecutionPrices := [] }
  uuid4 := id
  seeded := afterSeed_seeded t

end Beyvra
