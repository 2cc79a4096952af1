import Beyvra.Users.KeycloakIdentity

namespace Beyvra

open Relational

namespace Keycloak

variable {settings : KeycloakSettings} {call : BindCall} {s s' : IdentityTables} {users users' : List User}
  {email : String} {id i j : Nat} {user u v : User} {p : User → Bool}

theorem first_eq_some (h : first p users = some (i, u)) : users[i]? = some u ∧ p u = true := by
  induction users generalizing i with
  | nil => cases h
  | cons head tail ih =>
    by_cases hp : p head = true
    · rw [first, if_pos hp] at h
      cases h
      exact ⟨rfl, hp⟩
    · rw [first, if_neg hp] at h
      obtain ⟨⟨k, w⟩, hfound, heq⟩ := Option.map_eq_some_iff.mp h
      cases heq
      exact ih hfound

theorem first_eq_none (h : first p users = none) (hu : users[i]? = some u) : p u = false := by
  induction users generalizing i with
  | nil => cases hu
  | cons head tail ih =>
    by_cases hp : p head = true
    · rw [first, if_pos hp] at h
      cases h
    · rw [first, if_neg hp, Option.map_eq_none_iff] at h
      cases i with
      | zero =>
        cases hu
        exact Bool.eq_false_iff.mpr hp
      | succ i => exact ih h hu

theorem othersAny_eq_false (h : othersAny users id p = false) (hu : users[i]? = some u) (hne : i ≠ id) :
    p u = false := by
  have hmem : (u, i) ∈ users.zipIdx := List.mem_zipIdx_iff_getElem?.mpr hu
  have hnot := List.any_eq_false.mp h (u, i) hmem
  simpa [hne] using hnot

theorem getElem?_store (hle : id ≤ users.length) (i : Nat) :
    (store users id user)[i]? = if i = id then some user else users[i]? := by
  unfold store
  by_cases hlt : id < users.length
  · rw [if_pos hlt, List.getElem?_set]
    by_cases hi : id = i
    · simp [hi, hi ▸ hlt]
    · simp [hi, Ne.symm hi]
  · obtain rfl : id = users.length := by omega
    rw [if_neg hlt]
    by_cases hi : i = users.length
    · simp [hi]
    · rw [if_neg hi, List.getElem?_append]
      by_cases hlt : i < users.length
      · rw [if_pos hlt]
      · have hpast : users.length < i := by omega
        rw [if_neg hlt, List.getElem?_eq_none (Nat.le_of_not_lt hlt), List.getElem?_eq_none]
        rw [List.length_singleton]
        omega

def EmailsDistinct (settings : KeycloakSettings) (users : List User) : Prop :=
  ∀ (i j : Nat) (u v : User), users[i]? = some u → users[j]? = some v → settings.upper u.email = settings.upper v.email → i = j

-- The blank subject is the mark of an account that is not bound.
def User.bound (user : User) : Prop := user.identitySubject ≠ ""

def SameIdentity (u v : User) : Prop := u.identityIssuer = v.identityIssuer ∧ u.identitySubject = v.identitySubject

def IdentitiesDistinct (users : List User) : Prop :=
  ∀ (i j : Nat) (u v : User), users[i]? = some u → users[j]? = some v → u.bound → SameIdentity u v → i = j

structure Consistent (settings : KeycloakSettings) (s : IdentityTables) : Prop where
  emails : EmailsDistinct settings s.users
  identities : IdentitiesDistinct s.users

-- What a login that succeeds has written: the one row of its user.
structure Bound (settings : KeycloakSettings) (call : BindCall) (users users' : List User) (id : Nat) : Prop where
  place : id ≤ users.length
  row : ∃ user, users' = store users id user ∧
    (user.identityIssuer = call.claims.iss ∧ user.identitySubject = call.claims.sub) ∧
    (user.role, user.isStaff, user.isSuperuser) = roleFromClaims settings call.claims ∧
    (∀ u : User, users[id]? = some u → u.bound → SameIdentity u user) ∧
    (∀ (i : Nat) (u : User), i ≠ id → users[i]? = some u → user.bound → ¬SameIdentity user u) ∧
    ((∃ u : User, users[id]? = some u ∧ u.email = user.email) ∨
      ∀ (i : Nat) (u : User), i ≠ id → users[i]? = some u → settings.upper u.email ≠ settings.upper user.email)

theorem User.boundTo_iff {issuer subject : String} :
    user.boundTo issuer subject = true ↔ user.identityIssuer = issuer ∧ user.identitySubject = subject := by
  simp [User.boundTo]

structure MatchedUser (settings : KeycloakSettings) (call : BindCall) (email : String) (users : List User)
    (matched : Matched) : Prop where
  place : matched.id ≤ users.length
  identity : matched.user.identityIssuer = call.claims.iss ∧ matched.user.identitySubject = call.claims.sub
  kept : ∀ u : User, users[matched.id]? = some u → u.bound → SameIdentity u matched.user
  email : (∃ u : User, users[matched.id]? = some u ∧ u.email = matched.user.email) ∨
    ∀ (i : Nat) (u : User), users[i]? = some u → settings.upper u.email ≠ settings.upper matched.user.email

theorem matchUser_matched {matched : Matched} (h : matchUser settings call email users = .ok matched) :
    MatchedUser settings call email users matched := by
  unfold matchUser at h
  cases hidentity : first (·.boundTo call.claims.iss call.claims.sub) users with
  | some found =>
    obtain ⟨hat, hbound⟩ := first_eq_some hidentity
    simp only [hidentity] at h
    cases h
    refine ⟨(List.getElem?_eq_some_iff.mp hat).1.le, User.boundTo_iff.mp hbound, ?_, .inl ⟨_, hat, rfl⟩⟩
    intro u hu _
    obtain rfl := Option.some.inj (hu.symm.trans hat)
    exact ⟨rfl, rfl⟩
  | none =>
    simp only [hidentity] at h
    cases hemail : first (emailMatches settings email) users with
    | some found =>
      obtain ⟨hat, -⟩ := first_eq_some hemail
      simp only [hemail] at h
      split at h
      · cases h
      · rename_i hfree
        cases h
        refine ⟨(List.getElem?_eq_some_iff.mp hat).1.le, ⟨rfl, rfl⟩, ?_, .inl ⟨_, hat, rfl⟩⟩
        intro u hu hbound
        obtain rfl := Option.some.inj (hu.symm.trans hat)
        by_contra hdiffers
        refine hfree ⟨hbound, ?_⟩
        by_contra hsame
        rw [not_or, not_not, not_not] at hsame
        exact hdiffers hsame
    | none =>
      simp only [hemail] at h
      cases h
      refine ⟨le_rfl, ⟨rfl, rfl⟩, ?_, .inr ?_⟩
      · intro u hu
        rw [List.getElem?_eq_none le_rfl] at hu
        cases hu
      · intro i u hu
        have hother : settings.upper u.email ≠ settings.upper email := by
          simpa [emailMatches] using first_eq_none hemail hu
        exact hother

theorem changeEmail_ok (h : changeEmail settings email users id u = .ok v) :
    v = u ∨ v = { u with email } ∧
      ∀ (i : Nat) (w : User), i ≠ id → users[i]? = some w → settings.upper w.email ≠ settings.upper v.email := by
  unfold changeEmail at h
  split at h
  · cases h
    exact .inl rfl
  · split at h
    · cases h
    · rename_i hfree
      cases h
      refine .inr ⟨rfl, fun i w hne hw => ?_⟩
      have hother := othersAny_eq_false (Bool.not_eq_true _ ▸ hfree) hw hne
      simpa [emailMatches] using hother

theorem save_ok (h : save users id user = .ok users') :
    users' = store users id user ∧ ∀ (i : Nat) (u : User), i ≠ id → users[i]? = some u → user.bound → ¬SameIdentity user u := by
  unfold save at h
  split at h
  · cases h
  · split at h
    · cases h
    · rename_i hfree
      cases h
      refine ⟨rfl, fun i u hne hu hbound hsame => ?_⟩
      have hother := othersAny_eq_false (Bool.not_eq_true _ ▸ hfree) hu hne
      have hsubject : user.identitySubject ≠ "" := hbound
      simp [User.clashes, User.boundTo, hsubject, ← hsame.1, ← hsame.2] at hother

theorem refresh_identity (settings : KeycloakSettings) (call : BindCall) (user : User) :
    SameIdentity (refresh settings call user) user := by
  simp only [SameIdentity, refresh, and_self]

theorem refresh_email (settings : KeycloakSettings) (call : BindCall) (user : User) :
    (refresh settings call user).email = user.email := by
  simp only [refresh]

theorem refresh_roles (settings : KeycloakSettings) (call : BindCall) (user : User) :
    ((refresh settings call user).role, (refresh settings call user).isStaff, (refresh settings call user).isSuperuser) =
      roleFromClaims settings call.claims := by
  simp only [refresh]

theorem changeEmail_identity (h : changeEmail settings email users id u = .ok v) : SameIdentity v u := by
  rcases changeEmail_ok h with rfl | ⟨rfl, -⟩ <;> exact ⟨rfl, rfl⟩

theorem bindUser_bound (h : bindUser settings call s = .ok (id, s')) : Bound settings call s.users s'.users id := by
  simp only [bindUser, bind_eq_ok, pure_eq_ok] at h
  obtain ⟨matched, hmatched, user, hemail, users, hsave, heq⟩ := h
  obtain ⟨hplace, hidentity, hkept, hfree⟩ := matchUser_matched hmatched
  obtain ⟨hstored, hothers⟩ := save_ok hsave
  have husers : s'.users = users := by
    obtain ⟨-, rfl⟩ := Prod.mk.inj heq
    split <;> rfl
  obtain rfl : matched.id = id := congrArg Prod.fst heq
  have hrefreshed := refresh_identity settings call user
  have hsame := changeEmail_identity hemail
  refine ⟨hplace, _, husers.trans hstored, ?_, refresh_roles settings call user, ?_, hothers, ?_⟩
  · rw [hrefreshed.1, hrefreshed.2, hsame.1, hsame.2]
    exact hidentity
  · intro u hu hbound
    obtain ⟨hissuer, hsubject⟩ := hkept u hu hbound
    exact ⟨by rw [hrefreshed.1, hsame.1, hissuer], by rw [hrefreshed.2, hsame.2, hsubject]⟩
  · rw [refresh_email]
    rcases changeEmail_ok hemail with rfl | ⟨-, hdistinct⟩
    · rcases hfree with hold | hnew
      · exact .inl hold
      · exact .inr fun i u _ hu => hnew i u hu
    · exact .inr hdistinct

theorem Consistent.bindUser (h : Consistent settings s) (hbind : bindUser settings call s = .ok (id, s')) :
    Consistent settings s' := by
  obtain ⟨hplace, user, hstored, -, -, -, hothers, hemail⟩ := bindUser_bound hbind
  have hemails : ∀ (i : Nat) (u : User), i ≠ id → s.users[i]? = some u → settings.upper u.email ≠ settings.upper user.email := by
    rcases hemail with ⟨w, hw, hsame⟩ | hfree
    · intro i u hne hu heq
      rw [← hsame] at heq
      exact hne (h.emails i id u w hu hw heq)
    · exact hfree
  constructor
  · intro i j u v hu hv hsame
    rw [hstored, getElem?_store hplace] at hu hv
    split at hu <;> split at hv
    · omega
    · rename_i hi hj
      cases hu
      exact absurd hsame.symm (hemails j v hj hv)
    · rename_i hi hj
      cases hv
      exact absurd hsame (hemails i u hi hu)
    · exact h.emails i j u v hu hv hsame
  · intro i j u v hu hv hbound hsame
    rw [hstored, getElem?_store hplace] at hu hv
    split at hu <;> split at hv
    · omega
    · rename_i hi hj
      cases hu
      exact absurd hsame (hothers j v hj hv hbound)
    · rename_i hi hj
      cases hv
      have hsubject : user.bound := by
        rw [User.bound, ← hsame.2]
        exact hbound
      exact absurd ⟨hsame.1.symm, hsame.2.symm⟩ (hothers i u hi hu hsubject)
    · exact h.identities i j u v hu hv hbound hsame

-- A bound user keeps its identity.
def Kept (users users' : List User) : Prop :=
  ∀ (id : Nat) (u : User), users[id]? = some u → u.bound → ∃ u' : User, users'[id]? = some u' ∧ SameIdentity u u'

theorem Kept.refl (users : List User) : Kept users users := fun _ u hu _ => ⟨u, hu, rfl, rfl⟩

theorem Kept.trans {users'' : List User} (h : Kept users users') (h' : Kept users' users'') : Kept users users'' := by
  intro id u hu hbound
  obtain ⟨u', hu', hissuer, hsubject⟩ := h id u hu hbound
  have hbound' : u'.bound := by
    rw [User.bound, ← hsubject]
    exact hbound
  obtain ⟨u'', hu'', hissuer', hsubject'⟩ := h' id u' hu' hbound'
  exact ⟨u'', hu'', hissuer.trans hissuer', hsubject.trans hsubject'⟩

theorem Bound.kept (h : Bound settings call users users' id) : Kept users users' := by
  obtain ⟨hplace, user, hstored, -, -, hown, -, -⟩ := h
  intro i u hu hbound
  rw [hstored, getElem?_store hplace]
  by_cases hi : i = id
  · subst hi
    exact ⟨user, if_pos rfl, hown u hu hbound⟩
  · exact ⟨u, by rw [if_neg hi, hu], rfl, rfl⟩

def step (settings : KeycloakSettings) (s : IdentityTables) (call : BindCall) : IdentityTables :=
  match bindUser settings call s with
  | .ok (_, s') => s'
  | .error _ => s

def run (settings : KeycloakSettings) (s : IdentityTables) (calls : List BindCall) : IdentityTables :=
  calls.foldl (step settings) s

theorem Consistent.step (h : Consistent settings s) (call : BindCall) : Consistent settings (step settings s call) := by
  unfold Keycloak.step
  cases hbind : Keycloak.bindUser settings call s with
  | ok result => exact h.bindUser hbind
  | error e => exact h

theorem Consistent.run (h : Consistent settings s) (calls : List BindCall) :
    Consistent settings (run settings s calls) := by
  induction calls generalizing s with
  | nil => exact h
  | cons call calls ih => exact ih (h.step call)

theorem step_kept (settings : KeycloakSettings) (s : IdentityTables) (call : BindCall) :
    Kept s.users (step settings s call).users := by
  unfold step
  cases hbind : bindUser settings call s with
  | ok result => exact (bindUser_bound hbind).kept
  | error e => exact Kept.refl s.users

theorem run_kept (settings : KeycloakSettings) (s : IdentityTables) (calls : List BindCall) :
    Kept s.users (run settings s calls).users := by
  induction calls generalizing s with
  | nil => exact Kept.refl s.users
  | cons call calls ih => exact (step_kept settings s call).trans (ih (step settings s call))

theorem Bound.written (h : Bound settings call users users' id) : ∃ user : User, users'[id]? = some user ∧
    (user.identityIssuer = call.claims.iss ∧ user.identitySubject = call.claims.sub) ∧
    (user.role, user.isStaff, user.isSuperuser) = roleFromClaims settings call.claims := by
  obtain ⟨hplace, user, hstored, hidentity, hrole, -⟩ := h
  exact ⟨user, by rw [hstored, getElem?_store hplace, if_pos rfl], hidentity, hrole⟩

-- Whatever comes in between, the identity of a login finds the same user again.
theorem bindUser_again {call' : BindCall} {s'' : IdentityTables} {id' : Nat} (h : Consistent settings s)
    (hbind : bindUser settings call s = .ok (id, s')) (hsubject : call.claims.sub ≠ "") (between : List BindCall)
    (hissuer : call'.claims.iss = call.claims.iss) (hsame : call'.claims.sub = call.claims.sub)
    (hagain : bindUser settings call' (run settings s' between) = .ok (id', s'')) : id' = id := by
  obtain ⟨user, hu, hidentity, -⟩ := (bindUser_bound hbind).written
  have hbound : user.bound := by
    rw [User.bound, hidentity.2]
    exact hsubject
  obtain ⟨later, hlater, hkept⟩ := run_kept settings s' between id user hu hbound
  have hlaterBound : later.bound := by
    rw [User.bound, ← hkept.2]
    exact hbound
  have hbound' := bindUser_bound hagain
  obtain ⟨user', hu', hidentity', -⟩ := hbound'.written
  obtain ⟨after, hafter, hkept'⟩ := hbound'.kept id later hlater hlaterBound
  have hconsistent := ((h.bindUser hbind).run between).bindUser hagain
  have hafterSame : SameIdentity user' after :=
    ⟨by rw [hidentity'.1, hissuer, ← hidentity.1, hkept.1, hkept'.1],
      by rw [hidentity'.2, hsame, ← hidentity.2, hkept.2, hkept'.2]⟩
  refine hconsistent.identities id' id user' after hu' hafter ?_ hafterSame
  rw [User.bound, hidentity'.2, hsame]
  exact hsubject

structure LoginLaw (settings : KeycloakSettings) (s : IdentityTables) (call : BindCall) : Prop where
  refused : ∀ e, bindUser settings call s = .error e → step settings s call = s
  roles : ∀ id s', bindUser settings call s = .ok (id, s') → ∃ user : User, s'.users[id]? = some user ∧
    (user.identityIssuer = call.claims.iss ∧ user.identitySubject = call.claims.sub) ∧
    (user.role, user.isStaff, user.isSuperuser) = roleFromClaims settings call.claims
  same : ∀ id s', bindUser settings call s = .ok (id, s') → call.claims.sub ≠ "" → ∀ between call' id' s'',
    call'.claims.iss = call.claims.iss → call'.claims.sub = call.claims.sub →
    bindUser settings call' (run settings s' between) = .ok (id', s'') → id' = id

theorem Consistent.loginLaw (h : Consistent settings s) (call : BindCall) : LoginLaw settings s call where
  refused e hrefused := by
    simp only [Keycloak.step, hrefused]
  roles id s' hbind := (bindUser_bound hbind).written
  same id s' hbind hsubject between call' id' s'' hissuer hsame hagain :=
    bindUser_again h hbind hsubject between hissuer hsame hagain

theorem identity_binding (h : Consistent settings s) (calls : List BindCall) :
    Consistent settings (run settings s calls) ∧
      (∀ later, Kept (run settings s calls).users (run settings (run settings s calls) later).users) ∧
      ∀ call, LoginLaw settings (run settings s calls) call :=
  have hrun := h.run calls
  ⟨hrun, run_kept settings _, hrun.loginLaw⟩

def asciiSettings : KeycloakSettings where
  clientId := "beyvra-web"
  welcomeEmailEnabled := true
  publicSiteUrl := "https://beyvra.com"
  lower text := String.ofList (text.toList.map Char.toLower)
  upper text := String.ofList (text.toList.map Char.toUpper)

def registered : IdentityTables where
  users := [{ email := "Ann@x.io", firstName := "Ann", lastName := "Lee", traderId := some 7 }]

def login (subject email : String) (traderId : Nat) : BindCall :=
  ⟨{ iss := "https://auth", sub := subject, email, realmRoles := ["beyvra-admin"] }, 0, traderId⟩

theorem registered_consistent : Consistent asciiSettings registered := by
  have hzero : ∀ {i : Nat} {u : User}, registered.users[i]? = some u → i = 0 := by
    intro i u hu
    have hlt := (List.getElem?_eq_some_iff.mp hu).1
    simpa [registered] using hlt
  exact ⟨fun i j u v hu hv _ => (hzero hu).trans (hzero hv).symm,
    fun i j u v hu hv _ _ => (hzero hu).trans (hzero hv).symm⟩

theorem identity_binding_ann :
    LoginLaw asciiSettings (run asciiSettings registered [login "kc-1" "ann@x.io" 8])
      (login "kc-1" "Ann@X.io" 9) :=
  (identity_binding registered_consistent [login "kc-1" "ann@x.io" 8]).2.2 _

-- A blank subject leaves its account unbound: the next login takes the account, and the blank one gets another.
theorem blank_subject_resolves_anew :
    (bindUser asciiSettings (login "" "ann@x.io" 8) registered).map Prod.fst = .ok 0 ∧
      (bindUser asciiSettings (login "" "bob@x.io" 9) (run asciiSettings registered
        [login "" "ann@x.io" 8, login "kc-1" "ann@x.io" 8])).map Prod.fst = .ok 1 := by
  decide +kernel

end Keycloak

end Beyvra
