import Beyvra.Relational.Transaction
import Beyvra.Foundation.Records

namespace Beyvra

open Relational

namespace TenantSelection

-- uuid.UUID, str and str.lower, and the settings read here
structure Site (Id : Type) where
  parse : String → Option Id
  str : Id → String
  parse_str : ∀ id, parse (str id) = some id
  lower : String → String
  stagingTenantId : Id
  paperTradingOnly : Bool

structure User where
  id : Nat
  brand : Option String
  isStaff : Bool
  isGuestDemo : Bool

structure Organization where
  name : String
  isActive : Bool

structure OrganizationMembership (Id : Type) where
  userId : Nat
  organizationId : Id
  role : String
  isActive : Bool
  deriving DecidableEq

def OrganizationMembership.key {Id : Type} (m : OrganizationMembership Id) : Nat × Id := (m.userId, m.organizationId)

-- The memberships in the order of their ids
structure TenantTables (Id : Type) where
  organizations : Table Id Organization
  memberships : List (OrganizationMembership Id)
  unique : (memberships.map (·.key)).Nodup

inductive TenantError where
  | invalidUuid
  | permissionDenied (detail : String)
  | multipleObjectsReturned
  | validationError (code detail : String)
  deriving DecidableEq

structure TenantContext (Id : Type) where
  organization : Id
  role : String
  source : String

structure TenantRequest (Id : Type) where
  serviceToken : Option Id
  user : User
  organizationHeader : Option String

variable {Id : Type}

def TenantTables.ofUser (tables : TenantTables Id) (user : User) : List (OrganizationMembership Id) :=
  tables.memberships.filter (·.userId = user.id)

theorem TenantTables.unique_new (tables : TenantTables Id) {new : OrganizationMembership Id}
    (h : ∀ m ∈ tables.memberships, m.key ≠ new.key) : ((tables.memberships ++ [new]).map (·.key)).Nodup := by
  rw [List.map_append, List.nodup_append]
  refine ⟨tables.unique, by simp, fun a ha b hb => ?_⟩
  obtain ⟨m, hm, rfl⟩ := List.mem_map.mp ha
  obtain rfl : b = new.key := by simpa using hb
  exact h m hm

def tenantFor (site : Site Id) (user : User) : String :=
  let brand := (user.brand.filter (· ≠ "")).getD "default"
  site.lower (String.ofList (strip brand.toList))

def firstTenant (site : Site Id) (tables : TenantTables Id) (user : User) : String :=
  match (tables.ofUser user).head? with
  | some m => site.str m.organizationId
  | none => tenantFor site user

theorem firstTenant_of_empty {site : Site Id} {tables : TenantTables Id} {user : User} (h : tables.ofUser user = []) :
    firstTenant site tables user = tenantFor site user := by
  simp [firstTenant, h]

theorem firstTenant_of_first {site : Site Id} {tables : TenantTables Id} {user : User}
    {m : OrganizationMembership Id} (h : (tables.ofUser user).head? = some m) :
    firstTenant site tables user = site.str m.organizationId := by
  simp [firstTenant, h]

variable [DecidableEq Id]

namespace TenantTables

def organizationActive (tables : TenantTables Id) (id : Id) : Bool := (tables.organizations.find id).any (·.isActive)

def available (tables : TenantTables Id) (user : User) : List (OrganizationMembership Id) :=
  (tables.ofUser user).filter fun m => m.isActive && tables.organizationActive m.organizationId

def getOrCreate (tables : TenantTables Id) (new : OrganizationMembership Id) :
    OrganizationMembership Id × TenantTables Id :=
  match h : tables.memberships.find? (·.key = new.key) with
  | some m => (m, tables)
  | none => (new, { tables with
      memberships := tables.memberships ++ [new]
      unique := tables.unique_new fun m hm => by simpa using List.find?_eq_none.mp h m hm })

end TenantTables

def tenantForUser (site : Site Id) (tables : TenantTables Id) (user : User) (requested : Option String) :
    Except TenantError String :=
  match requested.filter (· ≠ "") with
  | none => pure (firstTenant site tables user)
  | some text => do
    let id ← demand (site.parse text) .invalidUuid
    if (tables.ofUser user).any (·.organizationId = id) then pure text else pure (firstTenant site tables user)

def stagingContext (site : Site Id) (tables : TenantTables Id) (user : User) :
    Except TenantError (TenantContext Id × TenantTables Id) := do
  let organization := (tables.organizations.find site.stagingTenantId).getD ⟨"Beyvra staging", true⟩
  let tables := { tables with organizations := tables.organizations.put site.stagingTenantId organization }
  require (organization.isActive = true) (.permissionDenied "organization is inactive")
  let (membership, tables) := tables.getOrCreate
    ⟨user.id, site.stagingTenantId, if user.isStaff then "owner" else "member", true⟩
  require (membership.isActive = true) (.permissionDenied "organization membership is inactive")
  pure (⟨site.stagingTenantId, membership.role, "staging-fallback"⟩, tables)

def stagingAllowed (site : Site Id) (user : User) : Bool := user.isStaff || user.isGuestDemo || site.paperTradingOnly

def tenantContextForRequest (site : Site Id) (tables : TenantTables Id) (r : TenantRequest Id) :
    Except TenantError (TenantContext Id × TenantTables Id) :=
  match r.serviceToken with
  | some organization => do
    require (tables.organizationActive organization = true) (.permissionDenied "organization is inactive")
    pure (⟨organization, "service", "service-token"⟩, tables)
  | none =>
    match r.organizationHeader.filter (· ≠ "") with
    | some text => do
      let id ← demand (site.parse text) (.permissionDenied "invalid organization context")
      match (tables.available r.user).filter (·.organizationId = id) with
      | [] => .error (.permissionDenied "organization context is not authorized")
      | [membership] => pure (⟨membership.organizationId, membership.role, "request-header"⟩, tables)
      | _ => .error .multipleObjectsReturned
    | none =>
      match tables.available r.user with
      | [membership] => pure (⟨membership.organizationId, membership.role, "single-membership"⟩, tables)
      | _ :: _ :: _ => .error (.validationError "TENANT_SELECTION_REQUIRED"
          "X-Organization-ID is required for accounts with multiple active tenants.")
      | [] =>
        if stagingAllowed site r.user then stagingContext site tables r.user
        else .error (.permissionDenied "organization context required")

-- An active organization in which the user has an active membership
def Member (tables : TenantTables Id) (user : User) (id : Id) : Prop :=
  ∃ m ∈ tables.available user, m.organizationId = id

structure TenantsAgree (site : Site Id) (tables : TenantTables Id) (user : User) (requested : Option String) : Prop where
  authorized : ∀ tenant, tenantForUser site tables user requested = .ok tenant → tables.ofUser user ≠ [] →
    ∃ id, site.parse tenant = some id ∧ Member tables user id
  same : ∀ context tables', tenantContextForRequest site tables ⟨none, user, requested⟩ = .ok (context, tables') →
    tenantForUser site tables user requested = .ok (site.str context.organization)

def FirstUsable (tables : TenantTables Id) (user : User) : Prop :=
  ∀ m, (tables.ofUser user).head? = some m → Member tables user m.organizationId

def StagingGranted (site : Site Id) (tables : TenantTables Id) (user : User) : Prop :=
  stagingAllowed site user = true ∧
    ∀ organization, tables.organizations.find site.stagingTenantId = some organization → organization.isActive = true

-- What the memberships and the id supplied must be for the two to agree
def Agreeable (site : Site Id) (tables : TenantTables Id) (user : User) (requested : Option String) : Prop :=
  match requested.filter (· ≠ "") with
  | none => FirstUsable tables user ∧ (tables.ofUser user = [] → StagingGranted site tables user →
      tenantFor site user = site.str site.stagingTenantId)
  | some text => ∀ id, site.parse text = some id →
      ((tables.ofUser user).any (·.organizationId = id) = true → Member tables user id ∧ text = site.str id) ∧
      ((tables.ofUser user).any (·.organizationId = id) = false → FirstUsable tables user)

variable {site : Site Id} {tables : TenantTables Id} {user : User} {requested : Option String} {text : String} {id : Id}

theorem member_ofUser (h : Member tables user id) : (tables.ofUser user).any (·.organizationId = id) = true := by
  obtain ⟨m, hm, rfl⟩ := h
  exact List.any_eq_true.mpr ⟨m, List.mem_of_mem_filter hm, by simp⟩

theorem available_of_empty (h : tables.ofUser user = []) : tables.available user = [] := by
  simp [TenantTables.available, h]

-- The tenant of the first membership is one of the user's exactly when that membership is usable.
theorem firstTenant_authorized : (tables.ofUser user ≠ [] → ∃ id, site.parse (firstTenant site tables user) = some id ∧
    Member tables user id) ↔ FirstUsable tables user := by
  cases hfirst : tables.ofUser user with
  | nil => simp [FirstUsable, hfirst]
  | cons m rest =>
    have htenant : firstTenant site tables user = site.str m.organizationId := by
      simp [firstTenant, hfirst]
    simp [FirstUsable, hfirst, htenant, site.parse_str]

theorem filter_organization_of_mem {m : OrganizationMembership Id} (hm : m ∈ tables.available user)
    (hid : m.organizationId = id) : (tables.available user).filter (·.organizationId = id) = [m] := by
  set found := (tables.available user).filter (·.organizationId = id) with hfound
  have hmem : m ∈ found := by simp [hfound, hm, hid]
  have hkeys : found.map (·.key) = List.replicate found.length (user.id, id) := by
    rw [List.map_eq_replicate_iff]
    intro m' hm'
    obtain ⟨hm', hid'⟩ : m' ∈ tables.available user ∧ m'.organizationId = id := by simpa [hfound] using hm'
    have huser : m'.userId = user.id := by
      simpa using (List.mem_filter.mp (List.mem_of_mem_filter hm')).2
    rw [OrganizationMembership.key, huser, hid']
  have hsub : found.Sublist tables.memberships :=
    (List.filter_sublist.trans List.filter_sublist).trans List.filter_sublist
  have hlength : found.length ≤ 1 := by
    have hnodup := tables.unique.sublist (hsub.map (·.key))
    rwa [hkeys, List.nodup_replicate] at hnodup
  obtain ⟨m', hsingle⟩ := List.length_eq_one_iff.mp (Nat.le_antisymm hlength (List.length_pos_of_mem hmem))
  rw [hsingle] at hmem ⊢
  rw [List.mem_singleton.mp hmem]

theorem filter_organization_of_not_member (h : ¬Member tables user id) :
    (tables.available user).filter (·.organizationId = id) = [] := by
  rw [List.filter_eq_nil_iff]
  intro m hm hid
  exact h ⟨m, hm, by simpa using hid⟩

theorem stagingContext_ok {context : TenantContext Id} {tables' : TenantTables Id}
    (h : stagingContext site tables user = .ok (context, tables')) :
    context.organization = site.stagingTenantId ∧
      ∀ organization, tables.organizations.find site.stagingTenantId = some organization → organization.isActive = true := by
  simp only [stagingContext, bind_eq_ok, require_eq_ok, pure_eq_ok, Prod.mk.injEq] at h
  obtain ⟨_, hactive, _, -, rfl, -⟩ := h
  refine ⟨rfl, fun organization hfind => ?_⟩
  rwa [hfind, Option.getD_some] at hactive

theorem getOrCreate_absent {new : OrganizationMembership Id} (h : ∀ m ∈ tables.memberships, m.key ≠ new.key) :
    (tables.getOrCreate new).1 = new := by
  unfold TenantTables.getOrCreate
  split
  · rename_i m hfound
    have hkey : m.key = new.key := by simpa using List.find?_some hfound
    exact absurd hkey (h m (List.mem_of_find?_eq_some hfound))
  · rfl

theorem stagingContext_new (hempty : tables.ofUser user = []) (hgranted : StagingGranted site tables user) :
    ∃ context tables', stagingContext site tables user = .ok (context, tables') := by
  have habsent : ∀ m ∈ tables.memberships, m.userId ≠ user.id := by
    intro m hm huser
    exact List.filter_eq_nil_iff.mp hempty m hm (by simpa using huser)
  have hactive : ((tables.organizations.find site.stagingTenantId).getD ⟨"Beyvra staging", true⟩).isActive = true := by
    cases hfind : tables.organizations.find site.stagingTenantId with
    | none => rfl
    | some organization => exact hgranted.2 organization hfind
  simp only [stagingContext, bind_of_ok (require_of hactive)]
  refine ⟨_, _, bind_of_ok (require_of ?_)⟩
  rw [getOrCreate_absent]
  exact fun m hm hkey => habsent m hm (congrArg Prod.fst hkey)

theorem tenantForUser_of_none (hnone : requested.filter (· ≠ "") = none) :
    tenantForUser site tables user requested = .ok (firstTenant site tables user) := by
  rw [tenantForUser, hnone]
  rfl

theorem tenantForUser_of_malformed (htext : requested.filter (· ≠ "") = some text) (hparse : site.parse text = none) :
    tenantForUser site tables user requested = .error .invalidUuid := by
  rw [tenantForUser, htext]
  exact bind_of_error (demand_eq_error.mpr ⟨hparse, rfl⟩)

theorem tenantForUser_of_id (htext : requested.filter (· ≠ "") = some text) (hparse : site.parse text = some id) :
    tenantForUser site tables user requested =
      .ok (if (tables.ofUser user).any (·.organizationId = id) then text else firstTenant site tables user) := by
  rw [tenantForUser, htext]
  refine (bind_of_ok (demand_eq_ok.mpr hparse)).trans ?_
  split <;> rfl

-- With an id the request selects the one membership that is the user's, without one the only one there is.
theorem context_with_id (htext : requested.filter (· ≠ "") = some text) (hparse : site.parse text = some id) :
    (∃ context tables', tenantContextForRequest site tables ⟨none, user, requested⟩ = .ok (context, tables')) ↔
      Member tables user id := by
  simp only [tenantContextForRequest, htext, bind_of_ok (demand_eq_ok.mpr hparse)]
  constructor
  · rintro ⟨context, tables', hok⟩
    by_contra hnot
    rw [filter_organization_of_not_member hnot] at hok
    cases hok
  · rintro ⟨m, hm, hid⟩
    rw [filter_organization_of_mem hm hid]
    exact ⟨_, _, rfl⟩

theorem context_with_id_organization {context : TenantContext Id} {tables' : TenantTables Id}
    (htext : requested.filter (· ≠ "") = some text) (hparse : site.parse text = some id)
    (hok : tenantContextForRequest site tables ⟨none, user, requested⟩ = .ok (context, tables')) :
    context.organization = id := by
  obtain ⟨m, hm, hid⟩ := (context_with_id htext hparse).mp ⟨context, tables', hok⟩
  simp only [tenantContextForRequest, htext, bind_of_ok (demand_eq_ok.mpr hparse),
    filter_organization_of_mem hm hid] at hok
  cases hok
  exact hid

theorem context_without_id {context : TenantContext Id} {tables' : TenantTables Id}
    (hnone : requested.filter (· ≠ "") = none) (hfirst : FirstUsable tables user)
    (hok : tenantContextForRequest site tables ⟨none, user, requested⟩ = .ok (context, tables')) :
    (∃ m, (tables.ofUser user).head? = some m ∧ context.organization = m.organizationId) ∨
      tables.ofUser user = [] ∧ StagingGranted site tables user ∧ context.organization = site.stagingTenantId := by
  simp only [tenantContextForRequest, hnone] at hok
  cases hhead : (tables.ofUser user).head? with
  | some m =>
    obtain ⟨m', hm', hid⟩ := hfirst m hhead
    split at hok
    · rename_i membership havailable
      rw [havailable] at hm'
      obtain rfl := List.mem_singleton.mp hm'
      cases hok
      exact .inl ⟨m, rfl, hid⟩
    · cases hok
    · rename_i havailable
      rw [havailable] at hm'
      cases hm'
  | none =>
    have hempty := List.head?_eq_none_iff.mp hhead
    simp only [available_of_empty hempty] at hok
    split at hok
    · rename_i hallowed
      obtain ⟨horganization, hactive⟩ := stagingContext_ok hok
      exact .inr ⟨hempty, ⟨hallowed, hactive⟩, horganization⟩
    · cases hok

theorem tenants_agree_without_id (hnone : requested.filter (· ≠ "") = none) :
    TenantsAgree site tables user requested ↔ FirstUsable tables user ∧
      (tables.ofUser user = [] → StagingGranted site tables user →
        tenantFor site user = site.str site.stagingTenantId) := by
  have hgateway : tenantForUser site tables user requested = .ok (firstTenant site tables user) :=
    tenantForUser_of_none hnone
  constructor
  · intro hagree
    refine ⟨firstTenant_authorized.mp (hagree.authorized _ hgateway), fun hempty hgranted => ?_⟩
    obtain ⟨context, tables', hok⟩ := stagingContext_new hempty hgranted
    have hcontext : tenantContextForRequest site tables ⟨none, user, requested⟩ = .ok (context, tables') := by
      simp only [tenantContextForRequest, hnone, available_of_empty hempty, hgranted.1, if_true]
      exact hok
    have hsame := hagree.same context tables' hcontext
    rw [hgateway, firstTenant_of_empty hempty, (stagingContext_ok hok).1] at hsame
    exact Except.ok.inj hsame
  · rintro ⟨hfirst, hstaging⟩
    refine ⟨fun tenant htenant => ?_, fun context tables' hcontext => ?_⟩
    · obtain rfl := Except.ok.inj (hgateway.symm.trans htenant)
      exact firstTenant_authorized.mpr hfirst
    · rw [hgateway]
      rcases context_without_id hnone hfirst hcontext with ⟨m, hhead, horganization⟩ | ⟨hempty, hgranted, horganization⟩
      · rw [firstTenant_of_first hhead, horganization]
      · rw [firstTenant_of_empty hempty, hstaging hempty hgranted, horganization]

theorem tenants_agree_with_id (htext : requested.filter (· ≠ "") = some text) (hparse : site.parse text = some id) :
    TenantsAgree site tables user requested ↔
      ((tables.ofUser user).any (·.organizationId = id) = true → Member tables user id ∧ text = site.str id) ∧
      ((tables.ofUser user).any (·.organizationId = id) = false → FirstUsable tables user) := by
  have hgateway : tenantForUser site tables user requested =
      .ok (if (tables.ofUser user).any (·.organizationId = id) then text else firstTenant site tables user) :=
    tenantForUser_of_id htext hparse
  constructor
  · refine fun hagree => ⟨fun hany => ?_, fun hany => ?_⟩
    · rw [hany, if_pos rfl] at hgateway
      have hsome : tables.ofUser user ≠ [] := by
        intro hempty
        rw [hempty] at hany
        cases hany
      obtain ⟨id', hparse', hmember⟩ := hagree.authorized _ hgateway hsome
      obtain rfl := Option.some.inj (hparse.symm.trans hparse')
      obtain ⟨context, tables', hok⟩ := (context_with_id htext hparse).mpr hmember
      have hsame := hagree.same context tables' hok
      rw [hgateway, context_with_id_organization htext hparse hok] at hsame
      exact ⟨hmember, Except.ok.inj hsame⟩
    · rw [hany, if_neg (by decide)] at hgateway
      exact firstTenant_authorized.mp (hagree.authorized _ hgateway)
  · rintro ⟨hown, hother⟩
    constructor
    · intro tenant htenant
      obtain rfl := Except.ok.inj (hgateway.symm.trans htenant)
      split
      · rename_i hany
        exact fun _ => ⟨id, hparse, (hown hany).1⟩
      · rename_i hany
        exact firstTenant_authorized.mpr (hother (by simpa using hany))
    · intro context tables' hok
      have hany := member_ofUser ((context_with_id htext hparse).mp ⟨context, tables', hok⟩)
      rw [hgateway, hany, if_pos rfl, context_with_id_organization htext hparse hok, (hown hany).2]

theorem tenants_agree_malformed (htext : requested.filter (· ≠ "") = some text) (hparse : site.parse text = none) :
    TenantsAgree site tables user requested := by
  have hgateway : tenantForUser site tables user requested = .error .invalidUuid :=
    tenantForUser_of_malformed htext hparse
  constructor
  · intro tenant htenant
    cases hgateway.symm.trans htenant
  · intro context tables' hok
    simp only [tenantContextForRequest, htext, bind_of_error (demand_eq_error.mpr ⟨hparse, rfl⟩)] at hok
    cases hok

theorem tenants_agree_iff : TenantsAgree site tables user requested ↔ Agreeable site tables user requested := by
  unfold Agreeable
  cases hrequested : requested.filter (· ≠ "") with
  | none => exact tenants_agree_without_id hrequested
  | some text =>
    cases hparse : site.parse text with
    | none =>
      refine iff_of_true (tenants_agree_malformed hrequested hparse) fun id hid => ?_
      cases hparse.symm.trans hid
    | some id =>
      rw [tenants_agree_with_id hrequested hparse]
      constructor
      · intro hagree id' hid
        obtain rfl := Option.some.inj (hparse.symm.trans hid)
        exact hagree
      · exact fun hagree => hagree id hparse

def textSite : Site String where
  parse text := some text
  str organization := organization
  parse_str _ := rfl
  lower text := text
  stagingTenantId := "00000000-0000-5000-8000-000000000000"
  paperTradingOnly := true

def firstOrganization : String := "11111111-1111-4111-8111-111111111111"
def secondOrganization : String := "22222222-2222-4222-8222-222222222222"

def revokedTables : TenantTables String where
  organizations := Table.empty.put firstOrganization ⟨"First", true⟩ |>.put secondOrganization ⟨"Second", true⟩
  memberships := [⟨7, firstOrganization, "member", false⟩, ⟨7, secondOrganization, "member", true⟩]
  unique := by decide +kernel

def revokedUser : User := ⟨7, none, false, false⟩

-- The revoked membership comes first: the gateway serves its organization, a request the other one.
theorem revoked_tenant_selected : ¬∀ (site : Site String) (tables : TenantTables String) (user : User)
    (requested : Option String), TenantsAgree site tables user requested := by
  intro hclaim
  have hagree := hclaim textSite revokedTables revokedUser none
  obtain ⟨id, hid, m, hm, horganization⟩ := hagree.authorized firstOrganization rfl (by decide +kernel)
  have havailable : (revokedTables.available revokedUser).map (·.organizationId) = [secondOrganization] := by
    decide +kernel
  have hsecond : m.organizationId = secondOrganization :=
    List.mem_singleton.mp (havailable ▸ List.mem_map_of_mem hm)
  obtain rfl : firstOrganization = id := Option.some.inj hid
  exact absurd (horganization.symm.trans hsecond) (by decide +kernel)

end TenantSelection

end Beyvra
