import Beyvra.Foundation.Records

namespace Beyvra

open Relational

namespace Keycloak

structure KeycloakSettings where
  clientId : String
  welcomeEmailEnabled : Bool
  publicSiteUrl : String
  -- str.lower() of Python and UPPER() of the database, by which iexact compares
  lower : String → String
  upper : String → String

inductive UserRole where
  | user | admin | superAdmin
  deriving DecidableEq

structure User where
  email : String
  identityIssuer : String := ""
  identitySubject : String := ""
  firstName : String
  lastName : String
  traderId : Option Nat := none
  isActive : Bool := true
  isWalkthrough : Bool := false
  emailVerified : Bool := false
  emailVerifiedAt : Option Timestamp := none
  emailVerificationSource : String := ""
  role : UserRole := .user
  isStaff : Bool := false
  isSuperuser : Bool := false
  usablePassword : Bool := true
  deriving DecidableEq

structure Claims where
  iss : String
  sub : String
  email : String
  givenName : String := ""
  familyName : String := ""
  realmRoles : List String := []
  resourceAccess : List (String × List String) := []

structure ProvisionedEvent where
  identityRef : String
  localUserRef : Nat
  role : UserRole
  deriving DecidableEq

structure WelcomeEmail where
  email : String
  displayName : String
  frontendUrl : String
  userId : Nat
  deriving DecidableEq

-- A user's key is its place in the list.
structure IdentityTables where
  users : List User := []
  events : List ProvisionedEvent := []
  emails : List WelcomeEmail := []
  deriving DecidableEq

structure BindCall where
  claims : Claims
  now : Timestamp
  traderId : Nat

inductive BindError where
  | permissionError (code : String)
  | dataError
  deriving DecidableEq

def nameChar (c : Char) : Bool :=
  let n := c.toNat
  65 ≤ n ∧ n ≤ 90 ∨ 97 ≤ n ∧ n ≤ 122 ∨ 0xC0 ≤ n ∧ n ≤ 0xD6 ∨ 0xD8 ≤ n ∧ n ≤ 0xF6 ∨ 0xF8 ≤ n ∧ n ≤ 0xFF ∨
    n = 39 ∨ n = 32 ∨ n = 45

def cleanName (value fallback : String) : String :=
  let cleaned := strip (value.toList.filter nameChar)
  String.ofList ((if cleaned = [] then fallback.toList else cleaned).take 20)

def roleFromClaims (settings : KeycloakSettings) (claims : Claims) : UserRole × Bool × Bool :=
  let roles := claims.realmRoles ++ (claims.resourceAccess.lookup settings.clientId).getD []
  if "beyvra-super-admin" ∈ roles then (.superAdmin, true, true)
  else if "beyvra-admin" ∈ roles then (.admin, true, false)
  else (.user, false, false)

def identityReference (issuer subject : String) : String := issuer ++ "|" ++ subject

-- order_by("pk").first()
def first (p : User → Bool) : List User → Option (Nat × User)
  | [] => none
  | user :: users => if p user then some (0, user) else (first p users).map fun found => (found.1 + 1, found.2)

def User.boundTo (user : User) (issuer subject : String) : Bool :=
  user.identityIssuer = issuer && user.identitySubject = subject

def emailMatches (settings : KeycloakSettings) (email : String) (user : User) : Bool :=
  settings.upper user.email = settings.upper email

def bindingConflict : BindError := .permissionError "IDENTITY_BINDING_CONFLICT"

def emailConflict : BindError := .permissionError "IDENTITY_EMAIL_CONFLICT"

structure Matched where
  id : Nat
  user : User
  created : Bool

def newUser (call : BindCall) (email : String) : User where
  email := email
  firstName := cleanName call.claims.givenName "Beyvra"
  lastName := cleanName call.claims.familyName "User"
  traderId := some call.traderId
  isActive := true
  isWalkthrough := true

def matchUser (settings : KeycloakSettings) (call : BindCall) (email : String) (users : List User) :
    Except BindError Matched :=
  let issuer := call.claims.iss
  let subject := call.claims.sub
  let bind (user : User) : User := { user with identityIssuer := issuer, identitySubject := subject }
  match first (·.boundTo issuer subject) users with
  | some (id, user) => .ok ⟨id, user, false⟩
  | none =>
    match first (emailMatches settings email) users with
    | some (id, user) =>
      if user.identitySubject ≠ "" ∧ (user.identityIssuer ≠ issuer ∨ user.identitySubject ≠ subject) then
        .error bindingConflict
      else .ok ⟨id, bind user, false⟩
    | none => .ok ⟨users.length, bind (newUser call email), true⟩

def othersAny (users : List User) (id : Nat) (p : User → Bool) : Bool :=
  users.zipIdx.any fun entry => entry.2 ≠ id && p entry.1

def changeEmail (settings : KeycloakSettings) (email : String) (users : List User) (id : Nat) (user : User) :
    Except BindError User :=
  if settings.lower user.email = email then .ok user
  else if othersAny users id (emailMatches settings email) then .error emailConflict
  else .ok { user with email }

def nonempty (value fallback : String) : String := if value = "" then fallback else value

def refresh (settings : KeycloakSettings) (call : BindCall) (user : User) : User :=
  let roles := roleFromClaims settings call.claims
  { user with
    firstName := cleanName call.claims.givenName (nonempty user.firstName "Beyvra")
    lastName := cleanName call.claims.familyName (nonempty user.lastName "User")
    emailVerified := true
    emailVerifiedAt := some (user.emailVerifiedAt.getD call.now)
    emailVerificationSource := "keycloak"
    role := roles.1
    isStaff := roles.2.1
    isSuperuser := roles.2.2
    usablePassword := false }

-- The unique columns, the partial unique constraint on a set subject
def User.clashes (user other : User) : Bool :=
  other.email = user.email || user.identitySubject ≠ "" && other.boundTo user.identityIssuer user.identitySubject ||
    user.traderId ≠ none && other.traderId = user.traderId

def User.tooLong (user : User) : Bool :=
  254 < user.email.length || 255 < user.identityIssuer.length || 255 < user.identitySubject.length

def store (users : List User) (id : Nat) (user : User) : List User :=
  if id < users.length then users.set id user else users ++ [user]

def save (users : List User) (id : Nat) (user : User) : Except BindError (List User) :=
  if user.tooLong then .error .dataError
  else if othersAny users id user.clashes then .error bindingConflict
  else .ok (store users id user)

def provision (settings : KeycloakSettings) (call : BindCall) (id : Nat) (user : User) (s : IdentityTables) :
    IdentityTables :=
  { s with
    events := s.events ++ [⟨identityReference call.claims.iss call.claims.sub, id, user.role⟩]
    emails := if settings.welcomeEmailEnabled then
      s.emails ++ [⟨user.email, user.firstName, settings.publicSiteUrl, id⟩] else s.emails }

def bindUser (settings : KeycloakSettings) (call : BindCall) (s : IdentityTables) :
    Except BindError (Nat × IdentityTables) := do
  let email := settings.lower (String.ofList (strip call.claims.email.toList))
  let matched ← matchUser settings call email s.users
  let user ← changeEmail settings email s.users matched.id matched.user
  let user := refresh settings call user
  let users ← save s.users matched.id user
  let saved := { s with users }
  pure (matched.id, if matched.created then provision settings call matched.id user saved else saved)

end Keycloak

end Beyvra
