import Beyvra.Foundation.Records

namespace Beyvra

open Relational

namespace Sessions

structure JwtSettings where
  accessTokenLifetime : Int := 5 * 60 * microsecondsPerSecond
  refreshTokenLifetime : Int := 24 * 60 * 60 * microsecondsPerSecond
  rotateRefreshTokens : Bool := false
  emailOtpVerificationEnabled : Bool := true

structure User where
  brand : Option String := none
  isStaff : Bool := false
  isActive : Bool := true
  deriving DecidableEq

structure OperatorRole where
  user : Nat
  tenantId : String
  role : String
  deriving DecidableEq

inductive AuthStrength where
  | password | mfa
  deriving DecidableEq

structure AccountSession where
  tenantId : String
  account : Nat
  createdAt : Timestamp
  expiresAt : Timestamp
  revokedAt : Option Timestamp := none
  authStrength : AuthStrength := .password
  mfaVerifiedAt : Option Timestamp := none
  deriving DecidableEq

-- The claims of a signed token; exp and mfa_verified_at are whole seconds.
structure TokenClaims where
  userId : Nat
  exp : Int
  sessionId : Option Uuid := none
  authStrength : Option AuthStrength := none
  mfaVerifiedAt : Option Int := none
  deriving DecidableEq

structure TokenPair where
  refresh : TokenClaims
  access : TokenClaims
  deriving DecidableEq

structure SessionTables where
  users : Table Nat User := Table.empty
  operatorRoles : List OperatorRole := []
  sessions : Table Uuid AccountSession := Table.empty

inductive AuthenticationFailed where
  | tokenNotValid
  | userNotFound
  | userInactive
  | sessionNotActive
  | boundOperatorSessionRequired
  deriving DecidableEq

inductive SessionError where
  | authentication (failed : AuthenticationFailed)
  | integrityError (constraint : String)
  | emailVerificationRequired
  deriving DecidableEq

abbrev SessionOutcome := Except SessionError

def tenantFor (user : User) : String :=
  let brand := (user.brand.filter (· ≠ "")).getD "default"
  (String.ofList (strip brand.toList)).toLower

def epochSeconds (t : Timestamp) : Int := t / microsecondsPerSecond

def TokenClaims.expired (token : TokenClaims) (now : Timestamp) : Bool :=
  token.exp * microsecondsPerSecond ≤ now

def SessionTables.activeUser (s : SessionTables) (userId : Nat) : Except AuthenticationFailed User := do
  let user ← fetch s.users userId .userNotFound
  require user.isActive .userInactive
  pure user

def SessionTables.sessionActive (s : SessionTables) (sessionId : Uuid) (tenantId : String) (userId : Nat)
    (now : Timestamp) : Bool :=
  (s.sessions.find sessionId).any fun session =>
    session.tenantId = tenantId && session.account = userId && session.revokedAt = none && now < session.expiresAt

def SessionTables.operator (s : SessionTables) (userId : Nat) (user : User) : Bool :=
  user.isStaff && s.operatorRoles.any fun role => role.user = userId && role.tenantId = tenantFor user

-- SessionBoundJWTAuthentication.get_user, the clock being the token's current_time
def getUser (now : Timestamp) (token : TokenClaims) (s : SessionTables) : Except AuthenticationFailed User := do
  let user ← s.activeUser token.userId
  match token.sessionId with
  | some sessionId => require (s.sessionActive sessionId (tenantFor user) token.userId now) .sessionNotActive
  | none => require (¬s.operator token.userId user) .boundOperatorSessionRequired
  pure user

def authenticate (now : Timestamp) (token : TokenClaims) (s : SessionTables) : Except AuthenticationFailed User := do
  require (¬token.expired now) .tokenNotValid
  getUser now token s

def getToken (settings : JwtSettings) (now : Timestamp) (userId : Nat) : TokenClaims :=
  { userId, exp := epochSeconds (now + settings.refreshTokenLifetime) }

-- An access token carries every claim of its refresh token, under an expiry of its own.
def TokenClaims.accessToken (settings : JwtSettings) (now : Timestamp) (refresh : TokenClaims) : TokenClaims :=
  { refresh with exp := epochSeconds (now + settings.accessTokenLifetime) }

def TokenClaims.pair (settings : JwtSettings) (now : Timestamp) (refresh : TokenClaims) : TokenPair :=
  ⟨refresh, refresh.accessToken settings now⟩

def sessionLifetime (settings : JwtSettings) (user : User) : Int :=
  if user.isStaff then min settings.refreshTokenLifetime (30 * 60 * microsecondsPerSecond)
  else settings.refreshTokenLifetime

def issueSessionTokenPair (settings : JwtSettings) (now : Timestamp) (uuid4 : Uuid) (userId : Nat) (user : User)
    (mfaVerified : Bool) (s : SessionTables) : SessionOutcome (TokenPair × SessionTables) := do
  require (s.sessions.find uuid4 = none) (.integrityError "operations_accountsession_pkey")
  let session : AccountSession :=
    { tenantId := tenantFor user
      account := userId
      createdAt := now
      expiresAt := now + sessionLifetime settings user
      authStrength := if mfaVerified then .mfa else .password
      mfaVerifiedAt := if mfaVerified then some now else none }
  let refresh := { getToken settings now userId with
    sessionId := some uuid4
    authStrength := some session.authStrength
    mfaVerifiedAt := if mfaVerified then some (epochSeconds now) else none }
  pure (refresh.pair settings now, { s with sessions := s.sessions.put uuid4 session })

-- LoginView, the second step of a login with MFA and the Keycloak callback, once the user has proved himself
def login (settings : JwtSettings) (now : Timestamp) (uuid4 : Uuid) (userId : Nat) (mfaVerified : Bool)
    (s : SessionTables) : SessionOutcome (TokenPair × SessionTables) := do
  let user ← (s.activeUser userId).mapError .authentication
  issueSessionTokenPair settings now uuid4 userId user mfaVerified s

-- EmailVerificationVerifyView, once the code has activated the registration as a new user
def verifyRegistration (settings : JwtSettings) (now : Timestamp) (userId : Nat) (s : SessionTables) :
    SessionOutcome (TokenPair × SessionTables) := do
  require (s.users.find userId = none) (.integrityError "users_user_pkey")
  pure ((getToken settings now userId).pair settings now, { s with users := s.users.put userId {} })

-- CreateUserView, once the serializer has accepted the request; of what it takes, only the brand counts here.
def createUser (settings : JwtSettings) (now : Timestamp) (userId : Nat) (brand : Option String) (s : SessionTables) :
    SessionOutcome (TokenPair × SessionTables) := do
  require (¬settings.emailOtpVerificationEnabled) .emailVerificationRequired
  require (s.users.find userId = none) (.integrityError "users_user_pkey")
  pure ((getToken settings now userId).pair settings now, { s with users := s.users.put userId { brand } })

-- GoogleCredentialView, once the ticket has named the user
def googleCredential (settings : JwtSettings) (now : Timestamp) (userId : Nat) (s : SessionTables) :
    SessionOutcome (TokenPair × SessionTables) := do
  let _ ← (s.activeUser userId).mapError .authentication
  pure ((getToken settings now userId).pair settings now, s)

-- The library's list of refresh tokens it has withdrawn only refuses more.
def tokenRefresh (settings : JwtSettings) (now : Timestamp) (refresh : TokenClaims) (s : SessionTables) :
    SessionOutcome (TokenPair × SessionTables) := do
  require (¬refresh.expired now) (.authentication .tokenNotValid)
  let _ ← (s.activeUser refresh.userId).mapError .authentication
  let rotated := if settings.rotateRefreshTokens then
    { refresh with exp := epochSeconds (now + settings.refreshTokenLifetime) } else refresh
  pure (⟨rotated, refresh.accessToken settings now⟩, s)

def AccountSession.revoke (now : Timestamp) (session : AccountSession) : AccountSession :=
  if session.revokedAt = none then { session with revokedAt := some now } else session

-- The update of the chosen ones of a user's sessions that are not revoked yet.
def SessionTables.revokeWhere (s : SessionTables) (now : Timestamp) (userId : Nat) (chosen : Uuid → Bool) :
    SessionTables :=
  match s.users.find userId with
  | none => s
  | some user =>
    let revoked := s.sessions.mapRows fun sessionId session =>
      if session.tenantId = tenantFor user ∧ session.account = userId ∧ chosen sessionId then session.revoke now
      else session
    { s with sessions := revoked }

def revokeSessionsAfterCredentialChange (now : Timestamp) (userId : Nat) (s : SessionTables) : SessionTables :=
  s.revokeWhere now userId fun _ => true

def revokeBoundSession (now : Timestamp) (userId : Nat) (sessionId : Uuid) (s : SessionTables) : SessionTables :=
  s.revokeWhere now userId (· = sessionId)

def sessionRevokeOthers (now : Timestamp) (userId : Nat) (current : Uuid) (s : SessionTables) : SessionTables :=
  s.revokeWhere now userId (· ≠ current)

inductive SessionCommand where
  | login (now : Timestamp) (uuid4 : Uuid) (userId : Nat) (mfaVerified : Bool)
  | verifyRegistration (now : Timestamp) (userId : Nat)
  | createUser (now : Timestamp) (userId : Nat) (brand : Option String)
  | googleCredential (now : Timestamp) (userId : Nat)
  | tokenRefresh (now : Timestamp) (place : Nat)
  | revokeSession (now : Timestamp) (userId : Nat) (sessionId : Uuid)
  | revokeOthers (now : Timestamp) (userId : Nat) (current : Uuid)
  | changeCredentials (now : Timestamp) (userId : Nat)

def SessionCommand.now : SessionCommand → Timestamp
  | .login now .. | .verifyRegistration now .. | .createUser now .. | .googleCredential now .. | .tokenRefresh now ..
  | .revokeSession now .. | .revokeOthers now .. | .changeCredentials now .. => now

-- pairs holds every pair of tokens that was handed out, the newest first.
structure SessionHistory where
  tables : SessionTables
  pairs : List TokenPair := []

def SessionHistory.accessTokens (h : SessionHistory) : List TokenClaims := h.pairs.map TokenPair.access

def SessionHistory.issue (h : SessionHistory) (outcome : SessionOutcome (TokenPair × SessionTables)) : SessionHistory :=
  match outcome with
  | .ok (pair, tables) => { tables, pairs := pair :: h.pairs }
  | .error _ => h

def SessionHistory.step (settings : JwtSettings) (h : SessionHistory) : SessionCommand → SessionHistory
  | .login now uuid4 userId mfaVerified => h.issue (Sessions.login settings now uuid4 userId mfaVerified h.tables)
  | .verifyRegistration now userId => h.issue (Sessions.verifyRegistration settings now userId h.tables)
  | .createUser now userId brand => h.issue (Sessions.createUser settings now userId brand h.tables)
  | .googleCredential now userId => h.issue (Sessions.googleCredential settings now userId h.tables)
  | .tokenRefresh now place =>
    match h.pairs[place]? with
    | some pair => h.issue (Sessions.tokenRefresh settings now pair.refresh h.tables)
    | none => h
  | .revokeSession now userId sessionId => { h with tables := revokeBoundSession now userId sessionId h.tables }
  | .revokeOthers now userId current => { h with tables := sessionRevokeOthers now userId current h.tables }
  | .changeCredentials now userId => { h with tables := revokeSessionsAfterCredentialChange now userId h.tables }

end Sessions

end Beyvra
