import Beyvra.Compliance.Overrides

namespace Beyvra

open Relational

-- The rows _active_restrictions counts, whose types it returns.
def ComplianceTables.restrictionsInForce (c : ComplianceTables) (account : Uuid) (now : Timestamp) :
    List (Uuid × AccountRestriction) :=
  c.restrictions.rows.filter fun p => (p.2.account = account && !due p.2.expiresAt now) &&
    (p.2.active || c.expiredControl account (.removeRestriction p.1) now)

structure RemovalAttempt where
  requestEnv : Env
  request : OverrideRequest
  approvalEnv : Env
  checker : String

-- A well-formed request, whose reason fits its column, under a fresh primary key, and a second person approving it before it expires.
structure RemovalAttempt.Admissible (a : RemovalAttempt) (c : ComplianceTables) (account id : Uuid) : Prop where
  account : a.request.accountId = account
  control : a.request.control = .removeRestriction id
  reason : a.request.reason ≠ ""
  reasonFits : a.request.reason.length ≤ 255
  evidence : a.request.evidenceRef = "" ∨ opaqueReference a.request.evidenceRef = true
  fresh : c.overrides.find (a.requestEnv.uuid4 "ComplianceOverride") = none
  independent : a.request.requester ≠ a.checker
  unexpired : due a.request.expiresAt a.approvalEnv.now = false

namespace ComplianceTables

def Removable (c : ComplianceTables) (account id : Uuid) : Prop :=
  ∀ a : RemovalAttempt, a.Admissible c account id → ∃ c₁ change,
    requestOverride a.requestEnv a.request c = .ok c₁ ∧
    approveOverride a.approvalEnv (a.requestEnv.uuid4 "ComplianceOverride") a.checker c₁ = .ok (some change) ∧
    ∀ t, due a.request.expiresAt t = false → ∀ p ∈ change.compliance.restrictionsInForce account t, p.1 ≠ id

def AlwaysRemovable (c : ComplianceTables) : Prop :=
  ∀ account now, ∀ p ∈ c.restrictionsInForce account now, c.Removable account p.1

-- No temporary removal lapses while the restriction itself would still run.
def Outlasted (c : ComplianceTables) : Prop :=
  ∀ overrideId o id t r, c.overrides.find overrideId = some o → o.approvedAt.isSome = true →
    o.control = .removeRestriction id → o.expiresAt = some t → c.restrictions.find id = some r →
      due r.expiresAt t = true

def Outlasts (c : ComplianceTables) (command : ComplianceCommand) : Prop :=
  ∀ overrideId o id t r c', command.run c = .ok c' → command.approves c = some (overrideId, o) →
    o.control = .removeRestriction id → o.expiresAt = some t → c.restrictions.find id = some r →
      due r.expiresAt t = true

structure RestrictionsKept (c : ComplianceTables) : Prop where
  fitting : c.Fitting
  owned : ∀ id r, c.restrictions.find id = some r → ∃ p, c.profiles.find r.account = some p
  lifted : ∀ overrideId o id, c.overrides.find overrideId = some o → o.approvedAt.isSome = true →
    o.control = .removeRestriction id → ∃ r, c.restrictions.find id = some r ∧ r.account = o.account ∧
      r.active = false

end ComplianceTables

section InForce

variable {c : ComplianceTables} {account id : Uuid} {now : Timestamp} {r : AccountRestriction}

theorem mem_restrictionsInForce : (id, r) ∈ c.restrictionsInForce account now ↔
    c.restrictions.find id = some r ∧ r.account = account ∧ due r.expiresAt now = false ∧
      (r.active = true ∨ ∃ overrideId o, Standing c account (.removeRestriction id) overrideId o ∧
        due o.expiresAt now = true) := by
  unfold ComplianceTables.restrictionsInForce
  rw [List.mem_filter, Table.mem_rows_iff, ← expiredControl_iff]
  simp only [Bool.and_eq_true, Bool.or_eq_true, decide_eq_true_eq, Bool.not_eq_true', and_assoc]

theorem filter_or_perm {α : Type} (p q : α → Bool) (l : List α) :
    (l.filter p ++ l.filter fun a => !p a && q a).Perm (l.filter fun a => p a || q a) := by
  have hsplit := List.filter_append_perm p (l.filter fun a => p a || q a)
  rw [List.filter_filter, List.filter_filter] at hsplit
  have hleft : (fun a => p a && (p a || q a)) = p := funext fun a => by cases p a <;> rfl
  have hright : (fun a => !p a && (p a || q a)) = fun a => !p a && q a := funext fun a => by cases p a <;> rfl
  rwa [hleft, hright] at hsplit

theorem activeRestrictions_perm (c : ComplianceTables) (account : Uuid) (now : Timestamp) :
    (c.activeRestrictions account now).Perm
      ((c.restrictionsInForce account now).map (·.2.restrictionType)) := by
  have hrows : c.restrictionsInForce account now =
      (c.restrictions.rows.filter fun p => p.2.account = account && !due p.2.expiresAt now).filter fun p =>
        p.2.active || c.expiredControl account (.removeRestriction p.1) now := by
    rw [List.filter_filter]
    exact List.filter_congr fun p _ => Bool.and_comm ..
  unfold ComplianceTables.activeRestrictions
  rw [hrows, ← List.map_append]
  exact (filter_or_perm _ _ _).map _

end InForce

section Removal

variable {c c' : ComplianceTables} {command : ComplianceCommand} {account id : Uuid} {r : AccountRestriction}
  {p : ComplianceProfile} {a : RemovalAttempt}

def RemovalAttempt.override (a : RemovalAttempt) (id : Uuid) : ComplianceOverride where
  account := a.request.accountId
  control := .removeRestriction id
  previousState := .restriction true
  newState := .restriction false
  reason := a.request.reason
  evidenceRef := a.request.evidenceRef
  requestedBy := a.request.requester
  expiresAt := a.request.expiresAt

theorem requestOverride_removal (hadmissible : a.Admissible c account id)
    (hp : c.profiles.find account = some p) (hr : c.restrictions.find id = some r)
    (haccount : r.account = account) (hactive : r.active = true) :
    requestOverride a.requestEnv a.request c = .ok { c with
      overrides := c.overrides.put (a.requestEnv.uuid4 "ComplianceOverride") (a.override id) } := by
  have hevidence : optionalEvidence a.request.evidenceRef "" = .ok a.request.evidenceRef := by
    unfold optionalEvidence
    split
    · next hempty => rw [hempty]; rfl
    · next hgiven =>
      unfold validatedEvidenceRef
      rw [require_of (hadmissible.evidence.resolve_left hgiven)]
      rfl
  unfold requestOverride fetchProfile
  rw [bind_of_ok (fetch_of_some (hadmissible.account ▸ hp)), hadmissible.control]
  dsimp only
  rw [bind_of_ok (fetch_of_some hr), bind_of_ok (require_of ⟨haccount.trans hadmissible.account.symm, hactive⟩)]
  rw [pure_bind, bind_of_ok (require_of fun hclear => by cases hclear), bind_of_ok hevidence,
    bind_of_ok (require_of hadmissible.reasonFits)]
  rfl

theorem requestOverride_active {env : Env} {request : OverrideRequest}
    (hcontrol : request.control = .removeRestriction id) (hr : c.restrictions.find id = some r)
    (h : requestOverride env request c = .ok c') : r.active = true := by
  unfold requestOverride at h
  obtain ⟨_, _, h⟩ := bind_eq_ok.mp h
  simp only [hcontrol, bind_eq_ok, fetch_eq_ok, require_eq_ok] at h
  obtain ⟨r', hr', _, ⟨_, hactive⟩, _⟩ := h
  obtain rfl := Option.some.inj (hr.symm.trans hr')
  exact hactive

theorem approveOverride_removal {env : Env} {overrideId : Uuid} {checker : String} {o : ComplianceOverride}
    (ho : c.overrides.find overrideId = some o) (hpending : ReadyToApprove o checker env.now)
    (hcontrol : o.control = .removeRestriction id) (hnew : o.newState = .restriction false)
    (hreason : o.reason ≠ "") (hp : c.profiles.find o.account = some p)
    (hr : c.restrictions.find id = some r) (haccount : r.account = o.account) (hactive : r.active = true) :
    ∃ change, approveOverride env overrideId checker c = .ok (some change) ∧
      change.compliance.restrictions = c.restrictions.put id { r with active := false } ∧
      change.compliance.overrides = c.overrides.put overrideId (o.approve checker env.now) := by
  have hclean : fullClean (o.approve checker env.now) = .ok () := by
    unfold fullClean
    have hmaker : (o.approve checker env.now).approvedBy ≠ some (o.approve checker env.now).requestedBy :=
      fun hsame => hpending.independent (Option.some.inj hsame).symm
    rw [bind_of_ok (require_of (show (o.approve checker env.now).reason ≠ "" from hreason)),
      bind_of_ok (require_of hmaker), require_of fun hclear => ?_]
    change o.newState.clearance = true at hclear
    rw [hnew] at hclear
    cases hclear
  have hchange : ∃ change, overrideChange o p c = .ok change ∧
      change.compliance.restrictions = c.restrictions.put id { r with active := false } ∧
      change.compliance.overrides = c.overrides := by
    unfold overrideChange
    simp only [hcontrol]
    rw [bind_of_ok (fetch_of_some hr), bind_of_ok (require_of ⟨haccount, hactive⟩)]
    exact ⟨_, rfl, rfl, rfl⟩
  obtain ⟨change, hchange, hrestrictions, hoverrides⟩ := hchange
  refine ⟨{ change with compliance := { change.compliance with
      overrides := change.compliance.overrides.put overrideId (o.approve checker env.now) } }, ?_, hrestrictions, ?_⟩
  · unfold approveOverride fetchProfile
    rw [bind_of_ok (fetch_of_some ho)]
    simp only [hpending.unapproved, Option.isSome_none, Bool.false_eq_true, if_false]
    rw [bind_of_ok (require_of hpending.independent), bind_of_ok (require_of (by simp [hpending.unexpired])),
      bind_of_ok (fetch_of_some hp), bind_of_ok hchange]
    exact bind_of_ok hclean
  · rw [hoverrides]

theorem removable_of_active (hkept : c.RestrictionsKept) (hr : c.restrictions.find id = some r)
    (haccount : r.account = account) (hactive : r.active = true) : c.Removable account id := by
  intro a hadmissible
  obtain ⟨p, hp⟩ := hkept.owned id r hr
  rw [haccount] at hp
  have hpending : ReadyToApprove (a.override id) a.checker a.approvalEnv.now :=
    ⟨rfl, hadmissible.independent, hadmissible.unexpired⟩
  have howner : (a.override id).account = account := hadmissible.account
  obtain ⟨change, happrove, hrestrictions, hoverrides⟩ := approveOverride_removal
    (c := { c with overrides := c.overrides.put (a.requestEnv.uuid4 "ComplianceOverride") (a.override id) })
    (Table.find_put_self _ _ _) hpending rfl rfl hadmissible.reason (howner ▸ hp) hr (haccount.trans howner.symm) hactive
  refine ⟨_, change, requestOverride_removal hadmissible hp hr haccount hactive, happrove, ?_⟩
  rintro t hundue ⟨id', r'⟩ hmem rfl
  obtain ⟨hr', -, -, hforce⟩ := mem_restrictionsInForce.mp hmem
  rw [hrestrictions, Table.find_put_self] at hr'
  obtain rfl := Option.some.inj hr'
  obtain hactive' | ⟨overrideId, o, hstanding, hdue⟩ := hforce
  · cases hactive'
  · have hfound := hstanding.found
    rw [hoverrides, Table.put_put] at hfound
    rcases Table.find_put_cases hfound with ⟨-, rfl⟩ | ⟨-, hbefore⟩
    · exact Bool.eq_false_iff.mp hundue hdue
    · obtain ⟨r', hr', -, hinactive⟩ := hkept.lifted overrideId o _ hbefore hstanding.approved hstanding.control
      obtain rfl := Option.some.inj (hr.symm.trans hr')
      rw [hactive] at hinactive
      cases hinactive

-- Some well-formed attempt exists for every restriction.
theorem exists_admissible (c : ComplianceTables) (account id : Uuid) :
    ∃ a : RemovalAttempt, a.Admissible c account id := by
  obtain ⟨key, hkey⟩ := Infinite.exists_notMem_finset (c.overrides.rows.map Prod.fst).toFinset
  have hfresh : c.overrides.find key = none := by
    cases hfind : c.overrides.find key with
    | none => rfl
    | some o =>
      exact absurd (List.mem_toFinset.mpr (List.mem_map.mpr ⟨(key, o), Table.mem_rows_iff.mpr hfind, rfl⟩)) hkey
  exact ⟨⟨{ deskAt 0 with uuid4 := fun _ => key },
    ⟨account, .removeRestriction id, .restriction false, "lifted", "maker", none, ""⟩, deskAt 0, "checker"⟩,
    rfl, rfl, show "lifted" ≠ "" by decide, show "lifted".length ≤ 255 by decide, .inl rfl, hfresh, show "maker" ≠ "checker" by decide, rfl⟩

theorem alwaysRemovable_iff (hkept : c.RestrictionsKept) : c.AlwaysRemovable ↔ c.Outlasted := by
  constructor
  · intro hremovable overrideId o id t r ho happroved hcontrol hexpires hr
    by_contra hundue
    obtain ⟨r', hr', haccount, hinactive⟩ := hkept.lifted overrideId o id ho happroved hcontrol
    obtain rfl := Option.some.inj (hr.symm.trans hr')
    have hmem : (id, r) ∈ c.restrictionsInForce o.account t := mem_restrictionsInForce.mpr
      ⟨hr, haccount, Bool.eq_false_iff.mpr hundue,
        .inr ⟨overrideId, o, ⟨ho, rfl, hcontrol, happroved⟩, by simp [due, hexpires]⟩⟩
    obtain ⟨a, hadmissible⟩ := exists_admissible c o.account id
    obtain ⟨c₁, -, hrequest, -⟩ := hremovable o.account t _ hmem a hadmissible
    rw [requestOverride_active hadmissible.control hr hrequest] at hinactive
    cases hinactive
  · rintro houtlasted account now ⟨id, r⟩ hmem
    obtain ⟨hr, haccount, hundue, hactive | ⟨overrideId, o, hstanding, hdue⟩⟩ := mem_restrictionsInForce.mp hmem
    · exact removable_of_active hkept hr haccount hactive
    · obtain ⟨t, hexpires, hle⟩ : ∃ t, o.expiresAt = some t ∧ t ≤ now := by
        simpa [due, Option.any_eq_true] using hdue
      have hdate := houtlasted overrideId o id t r hstanding.found hstanding.approved hstanding.control hexpires hr
      exact absurd (due_mono hdate hle) (Bool.eq_false_iff.mp hundue)

end Removal

section Step

variable {c c' : ComplianceTables} {command : ComplianceCommand} {id : Uuid} {r r' : AccountRestriction}

-- A restriction keeps its account and its date, and is never switched on again.
structure SameRestriction (r r' : AccountRestriction) : Prop where
  account : r'.account = r.account
  expiresAt : r'.expiresAt = r.expiresAt
  inactive : r.active = false → r'.active = false

theorem SameRestriction.refl (r : AccountRestriction) : SameRestriction r r := ⟨rfl, rfl, fun h => h⟩

theorem ComplianceEffect.restriction_kept (heffect : ComplianceEffect c command c')
    (hr : c.restrictions.find id = some r) : ∃ r', c'.restrictions.find id = some r' ∧ SameRestriction r r' := by
  cases heffect with
  | kept hestablishes happroves hsame => exact ⟨r, hsame ▸ hr, .refl r⟩
  | saved accountId p p' hestablishes happroves hsaved hretains => exact ⟨r, hsaved.restrictions ▸ hr, .refl r⟩
  | transitioned control accountId p p' hestablishes happroves hstate hsaved hretains =>
    exact ⟨r, hsaved.restrictions ▸ hr, .refl r⟩
  | requested id' o hestablishes happroves hfresh hpending hfits hsame => exact ⟨r, hsame ▸ hr, .refl r⟩
  | restricted accountId id' p p' r' hestablishes happroves hfresh hp hretains haccount hprofiles hrestrictions
      hoverrides =>
    refine ⟨r, ?_, .refl r⟩
    have hne : id ≠ id' := by
      rintro rfl
      rw [hfresh] at hr
      cases hr
    rw [hrestrictions, Table.find_put_of_ne _ _ hne, hr]
  | approved id' checker now o hestablishes happroves ho hpending happroved hoverrides =>
    cases happroved with
    | state p p' hstate hp hretains hvalue hprofiles hrestrictions => exact ⟨r, hrestrictions ▸ hr, .refl r⟩
    | removal id' r' p p' hcontrol hr' haccount hactive hp hretains hprofiles hrestrictions =>
      by_cases hid : id = id'
      · subst hid
        obtain rfl := Option.some.inj (hr.symm.trans hr')
        exact ⟨{ r with active := false }, by rw [hrestrictions, Table.find_put_self], rfl, rfl, fun _ => rfl⟩
      · exact ⟨r, by rw [hrestrictions, Table.find_put_of_ne _ _ hid, hr], .refl r⟩

theorem find_put_isSome {K R : Type} [DecidableEq K] {t : Table K R} {k k' : K} {x : R}
    (h : ∃ y, t.find k' = some y) : ∃ y, (t.put k x).find k' = some y := by
  rw [Table.find_put]
  split
  · exact ⟨x, rfl⟩
  · exact h

theorem ComplianceEffect.profile_kept (heffect : ComplianceEffect c command c') {account : Uuid}
    (hp : ∃ p, c.profiles.find account = some p) : ∃ p, c'.profiles.find account = some p := by
  cases heffect with
  | kept hestablishes happroves hsame => rwa [hsame]
  | saved accountId p p' hestablishes happroves hsaved hretains =>
    rw [hsaved.profiles]
    exact find_put_isSome hp
  | transitioned control accountId p p' hestablishes happroves hstate hsaved hretains =>
    rw [hsaved.profiles]
    exact find_put_isSome hp
  | requested id' o hestablishes happroves hfresh hpending hfits hsame => rwa [hsame]
  | restricted accountId id' p p' r' hestablishes happroves hfresh hfound hretains haccount hprofiles hrestrictions
      hoverrides =>
    rw [hprofiles]
    exact find_put_isSome hp
  | approved id' checker now o hestablishes happroves ho hpending happroved hoverrides =>
    cases happroved with
    | state p p' hstate hfound hretains hvalue hprofiles hrestrictions =>
      rw [hprofiles]
      exact find_put_isSome hp
    | removal id' r' p p' hcontrol hr' haccount hactive hfound hretains hprofiles hrestrictions =>
      rw [hprofiles]
      exact find_put_isSome hp

theorem ComplianceEffect.restriction_owned (heffect : ComplianceEffect c command c')
    (howned : ∀ id r, c.restrictions.find id = some r → ∃ p, c.profiles.find r.account = some p)
    (hr : c'.restrictions.find id = some r) : ∃ p, c'.profiles.find r.account = some p := by
  have hold (r₀ : AccountRestriction) (hr₀ : c.restrictions.find id = some r₀) (hsame : r.account = r₀.account) :
      ∃ p, c'.profiles.find r.account = some p := by
    rw [hsame]
    exact heffect.profile_kept (howned id r₀ hr₀)
  cases heffect with
  | kept hestablishes happroves hsame => exact hold r (hsame ▸ hr) rfl
  | saved accountId p p' hestablishes happroves hsaved hretains => exact hold r (hsaved.restrictions ▸ hr) rfl
  | transitioned control accountId p p' hestablishes happroves hstate hsaved hretains =>
    exact hold r (hsaved.restrictions ▸ hr) rfl
  | requested id' o hestablishes happroves hfresh hpending hfits hsame =>
    subst hsame
    exact hold r hr rfl
  | restricted accountId id' p p' r' hestablishes happroves hfresh hp hretains haccount hprofiles hrestrictions
      hoverrides =>
    rw [hrestrictions] at hr
    rcases Table.find_put_cases hr with ⟨-, rfl⟩ | ⟨-, hfound⟩
    · rw [haccount, hprofiles, Table.find_put_self]
      exact ⟨p', rfl⟩
    · exact hold r hfound rfl
  | approved id' checker now o hestablishes happroves ho hpending happroved hoverrides =>
    cases happroved with
    | state p p' hstate hp hretains hvalue hprofiles hrestrictions => exact hold r (hrestrictions ▸ hr) rfl
    | removal id' r' p p' hcontrol hr' haccount hactive hp hretains hprofiles hrestrictions =>
      rw [hrestrictions] at hr
      rcases Table.find_put_cases hr with ⟨rfl, rfl⟩ | ⟨-, hfound⟩
      · exact hold r' hr' rfl
      · exact hold r hfound rfl

theorem ComplianceEffect.approved_cases (heffect : ComplianceEffect c command c') {overrideId : Uuid}
    {o' : ComplianceOverride} (ho' : c'.overrides.find overrideId = some o')
    (happroved' : o'.approvedAt.isSome = true) : c.overrides.find overrideId = some o' ∨
      ∃ o checker now, command.approves c = some (overrideId, o) ∧ Approved c o c' ∧ o' = o.approve checker now := by
  cases heffect with
  | kept hestablishes happroves hsame => exact .inl (hsame ▸ ho')
  | saved accountId p p' hestablishes happroves hsaved hretains => exact .inl (hsaved.overrides ▸ ho')
  | transitioned control accountId p p' hestablishes happroves hstate hsaved hretains =>
    exact .inl (hsaved.overrides ▸ ho')
  | restricted accountId id' p p' r' hestablishes happroves hfresh hp hretains haccount hprofiles hrestrictions
      hoverrides => exact .inl (hoverrides ▸ ho')
  | requested id' o hestablishes happroves hfresh hpending hfits hsame =>
    subst hsame
    rcases Table.find_put_cases ho' with ⟨-, rfl⟩ | ⟨-, hfound⟩
    · rw [hpending] at happroved'
      cases happroved'
    · exact .inl hfound
  | approved id' checker now o hestablishes happroves ho hpending happroved hoverrides =>
    rw [hoverrides] at ho'
    rcases Table.find_put_cases ho' with ⟨rfl, rfl⟩ | ⟨-, hfound⟩
    · exact .inr ⟨o, checker, now, happroves, happroved, rfl⟩
    · exact .inl hfound

theorem ComplianceEffect.approves_put (heffect : ComplianceEffect c command c') {overrideId : Uuid}
    {o : ComplianceOverride} (happroves : command.approves c = some (overrideId, o)) :
    ∃ checker now, c'.overrides = c.overrides.put overrideId (o.approve checker now) := by
  cases heffect with
  | approved id' checker now o' hestablishes happroves' ho' hpending happroved hoverrides =>
    obtain ⟨rfl, rfl⟩ := Prod.mk.inj (Option.some.inj (happroves'.symm.trans happroves))
    exact ⟨checker, now, hoverrides⟩
  | kept hestablishes hnone => cases hnone.symm.trans happroves
  | saved accountId p p' hestablishes hnone => cases hnone.symm.trans happroves
  | restricted accountId id' p p' r' hestablishes hnone => cases hnone.symm.trans happroves
  | transitioned control accountId p p' hestablishes hnone => cases hnone.symm.trans happroves
  | requested id' o' hestablishes hnone => cases hnone.symm.trans happroves

theorem restrictionsKept_step (c : ComplianceTables) (command : ComplianceCommand) (hkept : c.RestrictionsKept) :
    (complianceStep c command).RestrictionsKept := by
  cases hrun : command.run c with
  | error e => rwa [complianceStep, commitState_of_error hrun]
  | ok c' =>
    have heffect := command_effect hkept.fitting hrun
    rw [complianceStep, commitState_of_ok hrun]
    refine ⟨heffect.fitting hkept.fitting, fun id r hr => heffect.restriction_owned hkept.owned hr, ?_⟩
    intro overrideId o' id ho' happroved' hcontrol
    rcases heffect.approved_cases ho' happroved' with hbefore | ⟨o, checker, now, -, happroved, rfl⟩
    · obtain ⟨r, hr, haccount, hinactive⟩ := hkept.lifted overrideId o' id hbefore happroved' hcontrol
      obtain ⟨r', hr', hsame⟩ := heffect.restriction_kept hr
      exact ⟨r', hr', hsame.account.trans haccount, hsame.inactive hinactive⟩
    · change o.control = .removeRestriction id at hcontrol
      cases happroved with
      | state p p' hstate hp hretains hvalue hprofiles hrestrictions =>
        rw [hcontrol] at hstate
        cases hstate
      | removal id' r p p' hcontrol' hr haccount hactive hp hretains hprofiles hrestrictions =>
        obtain rfl := OverrideControl.removeRestriction.inj (hcontrol.symm.trans hcontrol')
        exact ⟨{ r with active := false }, by rw [hrestrictions, Table.find_put_self], haccount, rfl⟩

theorem outlasted_step (hkept : c.RestrictionsKept) (houtlasted : c.Outlasted) (command : ComplianceCommand) :
    (complianceStep c command).Outlasted ↔ c.Outlasts command := by
  cases hrun : command.run c with
  | error e =>
    rw [complianceStep, commitState_of_error hrun]
    refine iff_of_true houtlasted fun overrideId o id t r c' hok => ?_
    rw [hrun] at hok
    cases hok
  | ok c' =>
    have heffect := command_effect hkept.fitting hrun
    rw [complianceStep, commitState_of_ok hrun]
    constructor
    · intro hafter overrideId o id t r c'' hok happroves hcontrol hexpires hr
      obtain ⟨r', hr', hsame⟩ := heffect.restriction_kept hr
      rw [← hsame.expiresAt]
      obtain ⟨checker, now, hoverrides⟩ := heffect.approves_put happroves
      exact hafter overrideId (o.approve checker now) id t r' (by rw [hoverrides, Table.find_put_self]) rfl hcontrol
        hexpires hr'
    · intro houtlasts overrideId o' id t r' ho' happroved' hcontrol hexpires hr'
      rcases heffect.approved_cases ho' happroved' with hbefore | ⟨o, checker, now, happroves, happroved, rfl⟩
      · obtain ⟨r, hr, -, -⟩ := hkept.lifted overrideId o' id hbefore happroved' hcontrol
        obtain ⟨r'', hr'', hsame⟩ := heffect.restriction_kept hr
        obtain rfl := Option.some.inj (hr'.symm.trans hr'')
        rw [hsame.expiresAt]
        exact houtlasted overrideId o' id t r hbefore happroved' hcontrol hexpires hr
      · change o.control = .removeRestriction id at hcontrol
        cases happroved with
        | state p p' hstate hp hretains hvalue hprofiles hrestrictions =>
          rw [hcontrol] at hstate
          cases hstate
        | removal id' r p p' hcontrol' hr haccount hactive hp hretains hprofiles hrestrictions =>
          obtain rfl := OverrideControl.removeRestriction.inj (hcontrol.symm.trans hcontrol')
          obtain ⟨r'', hr'', hsame⟩ := heffect.restriction_kept hr
          obtain rfl := Option.some.inj (hr'.symm.trans hr'')
          rw [hsame.expiresAt]
          exact houtlasts overrideId o id t r c' hrun happroves hcontrol hexpires hr

end Step

-- The rows in force are the ones _active_restrictions counts.
theorem restriction_removable_iff (profiles : Table Uuid ComplianceProfile) (commands : List ComplianceCommand) :
    ((∀ before after, commands = before ++ after → (before.foldl complianceStep { profiles }).AlwaysRemovable) ↔
      Throughout complianceStep ComplianceTables.Outlasts commands { profiles }) ∧
      ∀ (c : ComplianceTables) account now, (c.activeRestrictions account now).Perm
        ((c.restrictionsInForce account now).map (·.2.restrictionType)) := by
  refine ⟨?_, activeRestrictions_perm⟩
  have hkept : ({ profiles } : ComplianceTables).RestrictionsKept := by
    refine ⟨fun id o ho => ?_, fun id r hr => ?_, fun overrideId o id ho => ?_⟩
    · cases ho
    · cases hr
    · cases ho
  have houtlasted : ({ profiles } : ComplianceTables).Outlasted := by
    rintro overrideId o id t r ho
    cases ho
  rw [← always_iff_throughout restrictionsKept_step
    (fun c command hkept houtlasted => outlasted_step hkept houtlasted command) hkept houtlasted]
  refine forall_congr' fun before => forall_congr' fun after => forall_congr' fun _ => ?_
  have hrun : Reaches complianceStep (fun _ _ => True) { profiles } (before.foldl complianceStep { profiles }) :=
    .of_foldl fun _ _ _ => trivial
  exact alwaysRemovable_iff (hrun.invariant hkept fun c command h _ => restrictionsKept_step c command h)

-- A temporary removal lapses, and the restriction in force again is not found by the next request.
def removalLapsed : List ComplianceCommand :=
  [.mutate (deskAt 0) (.restriction "account" ⟨.tradingDisabled, "MANUAL_REVIEW_REQUIRED", "desk", "maker", none⟩),
    .requestOverride (deskAt 1) ⟨"account", .removeRestriction "AccountRestriction", .restriction false,
      "documents seen", "maker", some (afterSeed 10), ""⟩,
    .mutate (deskAt 2) (.approval "ComplianceOverride" "checker")]

theorem lapsed_removal_stuck : ¬∀ (profiles : Table Uuid ComplianceProfile) (commands : List ComplianceCommand),
    (commands.foldl complianceStep { profiles }).AlwaysRemovable := by
  intro h
  have hremovable := h (Table.empty.put "account" { organization := "org", user := "alice" }) removalLapsed "account"
    (afterSeed 20) ("AccountRestriction", ⟨"account", .tradingDisabled, "MANUAL_REVIEW_REQUIRED", "desk", "maker",
      none, false⟩) (by decide +kernel)
  obtain ⟨a, hadmissible⟩ := exists_admissible (removalLapsed.foldl complianceStep
    { profiles := Table.empty.put "account" { organization := "org", user := "alice" } }) "account"
    "AccountRestriction"
  obtain ⟨c₁, -, hrequest, -⟩ := hremovable a hadmissible
  have hactive := requestOverride_active hadmissible.control rfl hrequest
  cases hactive

end Beyvra
