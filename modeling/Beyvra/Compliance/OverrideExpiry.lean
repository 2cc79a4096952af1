import Beyvra.Compliance.Overrides

namespace Beyvra

open Relational

def ProfileStates.valueAt (states : ProfileStates) : OverrideControl → OverrideValue
  | .kycState => .kyc states.kycState
  | .amlState => .aml states.amlState
  | .sanctionsState => .sanctions states.sanctionsState
  | .removeRestriction _ => .restriction true

-- established names the override that set the current state of a control, where one did.
structure ComplianceHistory where
  tables : ComplianceTables
  established : Uuid × OverrideControl → Option Uuid := fun _ => none

-- No other approved override of the control expires before the one the state was set by, or before the
-- profile's own dates end the state.
def Unshadowed (c : ComplianceTables) (account : Uuid) (control : OverrideControl) (setBy : Option Uuid)
    (p : ComplianceProfile) : Prop :=
  ∀ id o t, Standing c account control id o → setBy ≠ some id → o.expiresAt = some t →
    (∃ d ∈ p.deadlines control, due d t = true) ∨
      ∃ id' o', setBy = some id' ∧ c.overrides.find id' = some o' ∧ due o'.expiresAt t = true

namespace ComplianceHistory

def start (profiles : Table Uuid ComplianceProfile) : ComplianceHistory where
  tables := { profiles }

def step (h : ComplianceHistory) (command : ComplianceCommand) : ComplianceHistory :=
  match command.run h.tables with
  | .ok c =>
    { tables := c
      established := match command.establishes h.tables with
        | some e => Function.update h.established (e.account, e.control) e.override
        | none => h.established }
  | .error _ => h

def Lapsed (h : ComplianceHistory) (account : Uuid) (control : OverrideControl) (now : Timestamp) : Prop :=
  ∃ id o, h.established (account, control) = some id ∧ h.tables.overrides.find id = some o ∧
    due o.expiresAt now = true

-- A state no date of the profile has ended is reported unless the override that set it has expired.
def Local (h : ComplianceHistory) (now : Timestamp) : Prop :=
  ∀ account p control, control.state = true → h.tables.profiles.find account = some p →
    (∀ d ∈ p.deadlines control, due d now = false) → ¬h.Lapsed account control now →
      (h.tables.effectiveProfileStates account p now).valueAt control = p.valueAt control

def Clean (h : ComplianceHistory) (command : ComplianceCommand) : Prop :=
  ∀ e p c, command.establishes h.tables = some e → command.run h.tables = .ok c →
    h.tables.profiles.find e.account = some p → e.value.clearance = true →
      Unshadowed h.tables e.account e.control e.override p

def UnshadowedAt (h : ComplianceHistory) (account : Uuid) (control : OverrideControl) : Prop :=
  ∀ p, h.tables.profiles.find account = some p → (p.valueAt control).clearance = true →
    Unshadowed h.tables account control (h.established (account, control)) p

def AllUnshadowed (h : ComplianceHistory) : Prop :=
  ∀ account control, control.state = true → h.UnshadowedAt account control

end ComplianceHistory

section Effective

variable {c : ComplianceTables} {h : ComplianceHistory} {account : Uuid} {control : OverrideControl}
  {p : ComplianceProfile} {now : Timestamp}

theorem effective_eq_iff (hstate : control.state = true) (hundue : ∀ d ∈ p.deadlines control, due d now = false) :
    (c.effectiveProfileStates account p now).valueAt control = p.valueAt control ↔
      ¬(c.expiredControl account control now = true ∧ (p.valueAt control).clearance = true) := by
  cases control with
  | removeRestriction id => cases hstate
  | kycState =>
    have hexpires : due p.kycExpiresAt now = false := hundue _ (by simp [ComplianceProfile.deadlines])
    have hreview : due p.kycNextReviewAt now = false := hundue _ (by simp [ComplianceProfile.deadlines])
    simp only [ComplianceTables.effectiveProfileStates, ProfileStates.valueAt, ComplianceProfile.valueAt, hexpires,
      hreview, Bool.false_eq_true, if_false]
    cases p.kycState <;> simp [OverrideValue.clearance]
  | amlState =>
    have hreview : due p.amlNextReviewAt now = false := hundue _ (by simp [ComplianceProfile.deadlines])
    simp only [ComplianceTables.effectiveProfileStates, ProfileStates.valueAt, ComplianceProfile.valueAt, hreview,
      Bool.false_eq_true, if_false]
    cases p.amlState <;> simp [OverrideValue.clearance]
  | sanctionsState =>
    simp only [ComplianceTables.effectiveProfileStates, ProfileStates.valueAt, ComplianceProfile.valueAt]
    cases p.sanctionsState <;> simp [OverrideValue.clearance]

theorem local_iff : (∀ now, h.Local now) ↔ h.AllUnshadowed := by
  constructor
  · intro hlocal account control hstate p hp hclear id o t hstanding hother hexpires
    by_contra huncovered
    obtain ⟨hdeadlines, hsetBy⟩ := not_or.mp huncovered
    have hundue : ∀ d ∈ p.deadlines control, due d t = false := fun d hd =>
      Bool.eq_false_iff.mpr fun hdue => hdeadlines ⟨d, hd, hdue⟩
    have hreported := hlocal t account p control hstate hp hundue hsetBy
    have hexpired : h.tables.expiredControl account control t = true :=
      expiredControl_iff.mpr ⟨id, o, hstanding, by simp [due, hexpires]⟩
    exact (effective_eq_iff hstate hundue).mp hreported ⟨hexpired, hclear⟩
  · intro hall now account p control hstate hp hundue hlapsed
    refine (effective_eq_iff hstate hundue).mpr ?_
    rintro ⟨hexpired, hclear⟩
    obtain ⟨id, o, hstanding, hdue⟩ := expiredControl_iff.mp hexpired
    obtain ⟨t, hexpires, hle⟩ : ∃ t, o.expiresAt = some t ∧ t ≤ now := by
      simpa [due, Option.any_eq_true] using hdue
    by_cases hsetBy : h.established (account, control) = some id
    · exact hlapsed ⟨id, o, hsetBy, hstanding.found, hdue⟩
    · rcases hall account control hstate p hp hclear id o t hstanding hsetBy hexpires with
        ⟨d, hd, hdate⟩ | ⟨id', o', hset, hfind, hdate⟩
      · exact absurd (due_mono hdate hle) (Bool.eq_false_iff.mp (hundue d hd))
      · exact hlapsed ⟨id', o', hset, hfind, due_mono hdate hle⟩

end Effective

section Step

variable {c c' : ComplianceTables} {h h' : ComplianceHistory} {command : ComplianceCommand} {account : Uuid}
  {control : OverrideControl} {setBy : Option Uuid} {p p' : ComplianceProfile}

structure SameOverrides (c c' : ComplianceTables) (account : Uuid) (control : OverrideControl)
    (setBy : Option Uuid) : Prop where
  standing : ∀ id o, setBy ≠ some id → (Standing c' account control id o ↔ Standing c account control id o)
  expiry : ∀ id, setBy = some id →
    (c'.overrides.find id).map (·.expiresAt) = (c.overrides.find id).map (·.expiresAt)

theorem SameOverrides.unshadowed_iff (hsame : SameOverrides c c' account control setBy)
    (hdeadlines : p'.deadlines = p.deadlines) :
    Unshadowed c' account control setBy p' ↔ Unshadowed c account control setBy p := by
  have hmap (c : ComplianceTables) (id : Uuid) (t : Timestamp) :
      (∃ o', c.overrides.find id = some o' ∧ due o'.expiresAt t = true) ↔
        ∃ e, (c.overrides.find id).map (·.expiresAt) = some e ∧ due e t = true := by
    cases c.overrides.find id <;> simp
  have hdue (id : Uuid) (hset : setBy = some id) (t : Timestamp) :
      (∃ o', c'.overrides.find id = some o' ∧ due o'.expiresAt t = true) ↔
        ∃ o', c.overrides.find id = some o' ∧ due o'.expiresAt t = true := by
    rw [hmap, hmap, hsame.expiry id hset]
  have hset (t : Timestamp) : (∃ id' o', setBy = some id' ∧ c'.overrides.find id' = some o' ∧
      due o'.expiresAt t = true) ↔ ∃ id' o', setBy = some id' ∧ c.overrides.find id' = some o' ∧
      due o'.expiresAt t = true := by
    refine exists_congr fun id' => ?_
    rw [exists_and_left, exists_and_left]
    exact and_congr_right fun hid => hdue id' hid t
  unfold Unshadowed
  simp only [hdeadlines, hset]
  refine forall_congr' fun id => forall_congr' fun o => forall_congr' fun t => ?_
  constructor
  · exact fun himp hstanding hother => himp ((hsame.standing id o hother).mpr hstanding) hother
  · exact fun himp hstanding hother => himp ((hsame.standing id o hother).mp hstanding) hother

theorem SameOverrides.of_eq (hsame : c'.overrides = c.overrides) : SameOverrides c c' account control setBy := by
  refine ⟨fun id o _ => ?_, fun id _ => by rw [hsame]⟩
  constructor
  · rintro ⟨hfind, haccount, hcontrol, happroved⟩
    exact ⟨hsame ▸ hfind, haccount, hcontrol, happroved⟩
  · rintro ⟨hfind, haccount, hcontrol, happroved⟩
    exact ⟨hsame ▸ hfind, haccount, hcontrol, happroved⟩

theorem SameOverrides.of_requested {id : Uuid} {o : ComplianceOverride}
    (hoverrides : c'.overrides = c.overrides.put id o) (hfresh : c.overrides.find id = none)
    (hpending : o.approvedAt = none) (hknown : ∀ id, setBy = some id → (c.overrides.find id).isSome = true) :
    SameOverrides c c' account control setBy := by
  constructor
  · intro id' o' _
    by_cases hid : id' = id
    · subst hid
      refine iff_of_false (not_standing (by rw [hoverrides, Table.find_put_self]) hpending) fun hstanding => ?_
      rw [hstanding.found] at hfresh
      cases hfresh
    · exact standing_put_of_ne hoverrides hid
  · intro id' hset
    have hne : id' ≠ id := by
      rintro rfl
      have hsome := hknown id' hset
      rw [hfresh] at hsome
      cases hsome
    rw [hoverrides, Table.find_put_of_ne _ _ hne]

theorem SameOverrides.of_approved {id checker : Uuid} {now : Timestamp} {o : ComplianceOverride}
    (ho : c.overrides.find id = some o) (hpending : o.approvedAt = none)
    (hoverrides : c'.overrides = c.overrides.put id (o.approve checker now))
    (hkey : o.account = account → o.control = control → setBy = some id) :
    SameOverrides c c' account control setBy := by
  constructor
  · intro id' o' hother
    by_cases hid : id' = id
    · subst hid
      refine iff_of_false (fun hstanding => ?_) (not_standing ho hpending)
      have hfound := hstanding.found
      rw [hoverrides, Table.find_put_self] at hfound
      obtain rfl := Option.some.inj hfound
      exact hother (hkey hstanding.account hstanding.control)
    · exact standing_put_of_ne hoverrides hid
  · intro id' _
    by_cases hid : id' = id
    · subst hid
      rw [hoverrides, Table.find_put_self, ho]
      rfl
    · rw [hoverrides, Table.find_put_of_ne _ _ hid]

structure SameKey (h h' : ComplianceHistory) (account : Uuid) (control : OverrideControl) : Prop where
  profile : ∀ p', h'.tables.profiles.find account = some p' → ∃ p, h.tables.profiles.find account = some p ∧
    p'.valueAt control = p.valueAt control ∧ p'.deadlines = p.deadlines
  established : h'.established (account, control) = h.established (account, control)
  overrides : SameOverrides h.tables h'.tables account control (h.established (account, control))

theorem SameKey.unshadowedAt (hsame : SameKey h h' account control) (hall : h.UnshadowedAt account control) :
    h'.UnshadowedAt account control := by
  intro p' hp' hclear
  obtain ⟨p, hp, hvalue, hdeadlines⟩ := hsame.profile p' hp'
  rw [hsame.established]
  exact (hsame.overrides.unshadowed_iff hdeadlines).mpr (hall p hp (hvalue ▸ hclear))

-- Every control keeps its state, except the given one of the given account.
def SameProfiles (c c' : ComplianceTables) (changed : Option (Uuid × OverrideControl)) : Prop :=
  ∀ account control p', changed ≠ some (account, control) → c'.profiles.find account = some p' →
    ∃ p, c.profiles.find account = some p ∧ p'.valueAt control = p.valueAt control ∧ p'.deadlines = p.deadlines

theorem SameProfiles.refl (hsame : c'.profiles = c.profiles) : SameProfiles c c' none :=
  fun _ _ p' _ hp' => ⟨p', hsame ▸ hp', rfl, rfl⟩

theorem Retains.sameProfiles {changed : Option OverrideControl} (hretains : Retains changed p p')
    (hp : c.profiles.find account = some p) (hprofiles : c'.profiles = c.profiles.put account p') :
    SameProfiles c c' (changed.map (account, ·)) := by
  intro account' control' q' hne hq'
  rw [hprofiles] at hq'
  rcases Table.find_put_cases hq' with ⟨rfl, rfl⟩ | ⟨-, hfound⟩
  · refine ⟨p, hp, hretains.values control' fun hchanged => hne ?_, hretains.deadlines⟩
    rw [hchanged, Option.map_some]
  · exact ⟨q', hfound, rfl, rfl⟩

structure Kept (h : ComplianceHistory) : Prop where
  fitting : h.tables.Fitting
  known : ∀ key id, h.established key = some id → (h.tables.overrides.find id).isSome = true

-- A command either leaves every state as it is or sets the state of one control.
inductive HistoryEffect (h : ComplianceHistory) (command : ComplianceCommand) (h' : ComplianceHistory) : Prop
  | kept (hclean : h.Clean command) (hsame : ∀ account control, control.state = true → SameKey h h' account control)
  | set (e : Establishment) (p p' : ComplianceProfile) (hestablishes : command.establishes h.tables = some e)
      (hstate : e.control.state = true) (haccepted : command.run h.tables = .ok h'.tables)
      (hp : h.tables.profiles.find e.account = some p) (hp' : h'.tables.profiles.find e.account = some p')
      (hvalue : p'.valueAt e.control = e.value) (hdeadlines : p'.deadlines = p.deadlines)
      (hestablished : h'.established (e.account, e.control) = e.override)
      (hoverrides : SameOverrides h.tables h'.tables e.account e.control e.override)
      (hothers : ∀ account control, control.state = true → (account, control) ≠ (e.account, e.control) →
        SameKey h h' account control)

theorem HistoryEffect.of_none (hrun : command.run h.tables = .ok c)
    (hestablishes : command.establishes h.tables = none) (hprofiles : SameProfiles h.tables c none)
    (hoverrides : ∀ account control, control.state = true →
      SameOverrides h.tables c account control (h.established (account, control))) :
    HistoryEffect h command (h.step command) := by
  have hstep : h.step command = { h with tables := c } := by
    unfold ComplianceHistory.step
    simp only [hrun, hestablishes]
  rw [hstep]
  refine .kept (fun e p c he => ?_) fun account control hstate => ⟨fun p' hp' => ?_, rfl, ?_⟩
  · rw [hestablishes] at he
    cases he
  · exact hprofiles account control p' (by simp) hp'
  · exact hoverrides account control hstate

theorem HistoryEffect.of_some {e : Establishment} (hrun : command.run h.tables = .ok c)
    (hestablishes : command.establishes h.tables = some e) (hstate : e.control.state = true)
    (hp : h.tables.profiles.find e.account = some p) (hretains : Retains (some e.control) p p')
    (hvalue : p'.valueAt e.control = e.value) (hprofiles : c.profiles = h.tables.profiles.put e.account p')
    (hown : SameOverrides h.tables c e.account e.control e.override)
    (hothers : ∀ account control, control.state = true → (account, control) ≠ (e.account, e.control) →
      SameOverrides h.tables c account control (h.established (account, control))) :
    HistoryEffect h command (h.step command) := by
  have hstep : h.step command = ⟨c, Function.update h.established (e.account, e.control) e.override⟩ := by
    unfold ComplianceHistory.step
    simp only [hrun, hestablishes]
  rw [hstep]
  have hp' : c.profiles.find e.account = some p' := by rw [hprofiles, Table.find_put_self]
  refine .set e p p' hestablishes hstate hrun hp hp' hvalue hretains.deadlines (Function.update_self ..) hown
    fun account control hcontrol hne => ⟨fun q' hq' => ?_, Function.update_of_ne hne _ _, hothers _ _ hcontrol hne⟩
  refine hretains.sameProfiles hp hprofiles account control q' (fun hsame => hne ?_) hq'
  exact (Option.some.inj hsame).symm

theorem history_effect (hkept : Kept h) (command : ComplianceCommand) :
    HistoryEffect h command (h.step command) := by
  cases hrun : command.run h.tables with
  | error e =>
    have hstep : h.step command = h := by
      unfold ComplianceHistory.step
      simp only [hrun]
    rw [hstep]
    refine .kept (fun e p c _ hok => ?_) fun account control _ =>
      ⟨fun p' hp' => ⟨p', hp', rfl, rfl⟩, rfl, .of_eq rfl⟩
    rw [hrun] at hok
    cases hok
  | ok c =>
    cases command_effect hkept.fitting hrun with
    | kept hestablishes happroves hsame =>
      subst hsame
      exact .of_none hrun hestablishes (.refl rfl) fun _ _ _ => .of_eq rfl
    | saved accountId p p' hestablishes happroves hsaved hretains =>
      exact .of_none hrun hestablishes (hretains.sameProfiles hsaved.found hsaved.profiles) fun _ _ _ =>
        .of_eq hsaved.overrides
    | restricted accountId id p p' r hestablishes happroves hfresh hp hretains haccount hprofiles hrestrictions
        hoverrides =>
      exact .of_none hrun hestablishes (hretains.sameProfiles hp hprofiles) fun _ _ _ => .of_eq hoverrides
    | requested id o hestablishes happroves hfresh hpending hfits hsame =>
      subst hsame
      exact .of_none hrun hestablishes (.refl rfl) fun account control _ =>
        .of_requested rfl hfresh hpending (hkept.known (account, control))
    | transitioned control accountId p p' hestablishes happroves hstate hsaved hretains =>
      exact .of_some hrun hestablishes hstate hsaved.found hretains rfl hsaved.profiles (.of_eq hsaved.overrides)
        fun _ _ _ _ => .of_eq hsaved.overrides
    | approved id checker now o hestablishes happroves ho hpending happroved hoverrides =>
      cases happroved with
      | removal id' r p p' hcontrol hr haccount hactive hp hretains hprofiles hrestrictions =>
        have hnot : ¬o.control.state = true := by simp [hcontrol, OverrideControl.state]
        rw [if_neg hnot] at hestablishes
        refine .of_none hrun hestablishes (hretains.sameProfiles hp hprofiles) fun account control hstate =>
          .of_approved ho hpending.unapproved hoverrides fun _ hsame => ?_
        exact absurd (hsame ▸ hstate) hnot
      | state p p' hstate hp hretains hvalue hprofiles hrestrictions =>
        rw [if_pos hstate] at hestablishes
        refine .of_some hrun hestablishes hstate hp hretains hvalue hprofiles
          (.of_approved ho hpending.unapproved hoverrides fun _ _ => rfl) fun account control _ hne =>
            .of_approved ho hpending.unapproved hoverrides fun haccount hcontrol => ?_
        exact absurd (Prod.ext haccount.symm hcontrol.symm) hne

theorem allUnshadowed_step (hkept : Kept h) (hall : h.AllUnshadowed) (command : ComplianceCommand) :
    (h.step command).AllUnshadowed ↔ h.Clean command := by
  cases history_effect hkept command with
  | kept hclean hsame =>
    exact iff_of_true (fun account control hstate => (hsame account control hstate).unshadowedAt
      (hall account control hstate)) hclean
  | set e p p' hestablishes hstate haccepted hp hp' hvalue hdeadlines hestablished hoverrides hothers =>
    constructor
    · rintro hafter e' q c he hok hq hclear
      obtain rfl := Option.some.inj (hestablishes.symm.trans he)
      obtain rfl := Option.some.inj (hp.symm.trans hq)
      have hunshadowed := hafter e.account e.control hstate p' hp' (hvalue ▸ hclear)
      rw [hestablished] at hunshadowed
      exact (hoverrides.unshadowed_iff hdeadlines).mp hunshadowed
    · intro hclean account control hcontrol
      by_cases hkey : (account, control) = (e.account, e.control)
      · obtain ⟨rfl, rfl⟩ := Prod.mk.inj hkey
        intro q' hq' hclear
        obtain rfl := Option.some.inj (hp'.symm.trans hq')
        rw [hestablished]
        refine (hoverrides.unshadowed_iff hdeadlines).mpr (hclean e p _ hestablishes haccepted hp ?_)
        exact hvalue ▸ hclear
      · exact (hothers account control hcontrol hkey).unshadowedAt (hall account control hcontrol)

theorem establishes_known {e : Establishment} {id : Uuid} (h : command.establishes c = some e)
    (hset : e.override = some id) : (c.overrides.find id).isSome = true := by
  cases command with
  | requestOverride env request => cases h
  | mutate env mutation =>
    cases mutation with
    | approval overrideId checker =>
      simp only [ComplianceCommand.establishes, ComplianceCommand.approves] at h
      cases ho : c.overrides.find overrideId with
      | none =>
        rw [ho] at h
        cases h
      | some o =>
        rw [ho] at h
        cases happroved : o.approvedAt.isNone <;> cases hstate : o.control.state
        all_goals simp only [happroved, hstate, if_true, Bool.false_eq_true, if_false, reduceCtorEq] at h
        obtain rfl := Option.some.inj h
        obtain rfl := Option.some.inj hset
        rw [ho]
        rfl
    | kyc accountId new evidenceRef | aml accountId new evidenceRef | sanctions accountId new evidenceRef =>
      obtain rfl := Option.some.inj h
      cases hset
    | _ => cases h

theorem kept_step (h : ComplianceHistory) (command : ComplianceCommand) (hkept : Kept h) :
    Kept (h.step command) := by
  cases hrun : command.run h.tables with
  | error e =>
    unfold ComplianceHistory.step
    simpa only [hrun] using hkept
  | ok c =>
    have heffect := command_effect hkept.fitting hrun
    have hgrows (id : Uuid) (hsome : (h.tables.overrides.find id).isSome = true) :
        (c.overrides.find id).isSome = true := by
      rcases heffect.overrides_cases hkept.fitting with hsame | ⟨id', o, hput, -⟩
      · rwa [hsame]
      · rw [hput, Table.find_put]
        split
        · rfl
        · exact hsome
    unfold ComplianceHistory.step
    simp only [hrun]
    refine ⟨heffect.fitting hkept.fitting, fun key id hset => ?_⟩
    cases hestablishes : command.establishes h.tables with
    | none =>
      rw [hestablishes] at hset
      exact hgrows id (hkept.known key id hset)
    | some e =>
      rw [hestablishes] at hset
      dsimp only at hset
      rw [Function.update_apply] at hset
      split at hset
      · exact hgrows id (establishes_known hestablishes hset)
      · exact hgrows id (hkept.known key id hset)

end Step

theorem override_expiry_local_iff (profiles : Table Uuid ComplianceProfile) (commands : List ComplianceCommand) :
    (∀ before after, commands = before ++ after →
      ∀ now, (before.foldl ComplianceHistory.step (.start profiles)).Local now) ↔
    Throughout ComplianceHistory.step ComplianceHistory.Clean commands (.start profiles) := by
  have hkept : Kept (.start profiles) := by
    refine ⟨fun id o ho => ?_, fun key id hset => ?_⟩
    · cases ho
    · cases hset
  have hall : (ComplianceHistory.start profiles).AllUnshadowed := by
    rintro account control - p - - id o t hstanding
    cases hstanding.found
  rw [← always_iff_throughout kept_step (fun h command hkept hall => allUnshadowed_step hkept hall command)
    hkept hall]
  exact forall_congr' fun before => forall_congr' fun after => forall_congr' fun _ => local_iff

def aliceInReview : ComplianceProfile := { organization := "org", user := "alice", kycState := .inReview }

-- A temporary approval lapses, the customer is reviewed again and approved on fresh evidence.
def approvedAgain : List ComplianceCommand :=
  [.requestOverride (deskAt 0) ⟨"account", .kycState, .kyc .approved, "documents seen", "maker",
      some (afterSeed 10), "first-review"⟩,
    .mutate (deskAt 1) (.approval "ComplianceOverride" "checker"),
    .mutate (deskAt 20) (.kyc "account" .requiresUpdate ""), .mutate (deskAt 21) (.kyc "account" .inReview ""),
    .mutate (deskAt 22) (.kyc "account" .approved "second-review")]

theorem approved_again_demoted : ¬∀ (profiles : Table Uuid ComplianceProfile)
    (commands : List ComplianceCommand) (now : Timestamp),
    (commands.foldl ComplianceHistory.step (.start profiles)).Local now := by
  intro h
  have hreported := h (Table.empty.put "account" aliceInReview) approvedAgain (afterSeed 30) "account"
    { aliceInReview with kycState := .approved, kycEvidenceRef := "second-review", version := 5 } .kycState rfl
    (by rfl) (by decide) (by rintro ⟨id, o, hset, -⟩; cases hset)
  revert hreported
  decide +kernel

end Beyvra
