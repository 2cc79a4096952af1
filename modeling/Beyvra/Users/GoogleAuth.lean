import Beyvra.Relational.Table
import Beyvra.Foundation.Records

namespace Beyvra

open Relational

namespace GoogleAuth

inductive IntendedAction where
  | login | register | link
  deriving DecidableEq

structure OAuthTransaction where
  stateHash : String
  intendedAction : IntendedAction
  expiresAt : Timestamp
  consumedAt : Option Timestamp := none
  deriving DecidableEq

structure GoogleUser where
  email : String
  isActive : Bool := true
  deriving DecidableEq

structure ExternalIdentity where
  providerSubject : String
  user : Nat
  deriving DecidableEq

-- token is what secrets.token_urlsafe gives, draw by draw; lower is str.lower, upper what iexact compares by, and
-- normalize is BaseUserManager.normalize_email.
structure GoogleSettings where
  token : Nat → String
  hash : String → String
  lower : String → String
  upper : String → String
  normalize : String → String
  autoCreateUsers : Bool

structure GoogleClaims where
  sub : String
  email : String
  deriving DecidableEq

-- What the PKCE verifier, the token endpoint and the check of the ID token come to
inductive CodeExchange where
  | failed (code : String)
  | claims (claims : GoogleClaims)
  deriving DecidableEq

inductive CallbackReply where
  | stateInvalid
  | error (code : String)
  | ticket (ticket : String)
  deriving DecidableEq

structure Hold where
  transaction : Nat
  lockedAt : Timestamp
  deriving DecidableEq

-- What _complete_identity finds: the account linked to the subject, and the accounts that have the email
structure Resolution where
  subject : String
  email : String
  linked : Option Nat
  owners : List Nat
  deriving DecidableEq

structure Issue where
  user : Nat
  ticket : String
  storedUntil : Timestamp
  deriving DecidableEq

inductive CallbackPhase where
  | waiting (transaction : Nat)
  -- the phases that hold the lock of their transaction
  | locked (hold : Hold)
  | refused (hold : Hold) (consumedAt : Timestamp)
  | resolved (hold : Hold) (consumedAt : Timestamp) (resolution : Resolution)
  | stored (hold : Hold) (consumedAt : Timestamp) (resolution : Resolution) (issue : Issue)
  | answered (reply : CallbackReply)
  deriving DecidableEq

structure Callback where
  code : String
  phase : CallbackPhase
  deriving DecidableEq

structure TicketEntry where
  user : Nat
  expiresAt : Timestamp
  deriving DecidableEq

inductive CredentialReply where
  | replayed | expired | disabled
  | session (user : Nat)
  deriving DecidableEq

inductive CredentialPhase where
  | added
  | got (payload : Option Nat)
  | deleted (user : Nat)
  | answered (reply : CredentialReply)
  deriving DecidableEq

structure Credential where
  ticket : String
  phase : CredentialPhase
  deriving DecidableEq

-- A ticket sent to a client
structure Sent where
  transaction : Nat
  lockedAt : Timestamp
  expiresAt : Timestamp
  resolution : Resolution
  issue : Issue
  deriving DecidableEq

structure TokenPair where
  ticket : String
  user : Nat
  deriving DecidableEq

structure GoogleSystem where
  clock : Timestamp := 0
  draws : Nat := 0
  transactions : Table Nat OAuthTransaction := Table.empty
  nextTransaction : Nat := 0
  users : Table Nat GoogleUser := Table.empty
  nextUser : Nat := 0
  identities : List ExternalIdentity := []
  tickets : Table String TicketEntry := Table.empty
  -- the used marks, with the time they disappear
  used : Table String Timestamp := Table.empty
  callbacks : Table Nat Callback := Table.empty
  credentials : Table Nat Credential := Table.empty
  sent : List Sent := []
  pairs : List TokenPair := []

def ticketSeconds : Int := 60

def usedSeconds : Int := 300

inductive GoogleStep where
  | tick (d : Nat)
  | start (state : String) (action : IntendedAction) (seconds : Nat)
  | arrive (i : Nat) (state code : String)
  | lock (i : Nat)
  | identify (i : Nat) (result : CodeExchange)
  | store (i : Nat) (raises : Bool)
  | commit (i : Nat) (ok : Bool)
  | submit (j : Nat) (ticket : String)
  | get (j : Nat)
  | delete (j : Nat)
  | mint (j : Nat)

def CallbackPhase.hold : CallbackPhase → Option Hold
  | .locked hold | .refused hold _ | .resolved hold _ _ | .stored hold _ _ _ => some hold
  | _ => none

namespace GoogleSystem

def save (s : GoogleSystem) (i : Nat) (callback : Callback) : GoogleSystem :=
  { s with callbacks := s.callbacks.put i callback }

def turn (s : GoogleSystem) (i : Nat) (callback : Callback) (phase : CallbackPhase) : GoogleSystem :=
  s.save i { callback with phase }

-- The locked block raises or returns an error: nothing of it stays.
def fail (s : GoogleSystem) (i : Nat) (callback : Callback) (code : String) : GoogleSystem :=
  s.turn i callback (.answered (.error code))

def turnCredential (s : GoogleSystem) (j : Nat) (credential : Credential) (phase : CredentialPhase) : GoogleSystem :=
  { s with credentials := s.credentials.put j { credential with phase } }

def byState (settings : GoogleSettings) (s : GoogleSystem) (state : String) : Option Nat :=
  (s.transactions.rows.find? fun p => p.2.stateHash = settings.hash state).map Prod.fst

def lockFree (s : GoogleSystem) (transaction : Nat) : Bool :=
  s.callbacks.rows.all fun p => (p.2.phase.hold.map Hold.transaction) ≠ some transaction

def linkedTo (s : GoogleSystem) (subject : String) : Option Nat :=
  (s.identities.find? fun identity => identity.providerSubject = subject).map ExternalIdentity.user

-- The accounts that email__iexact finds
def owners (settings : GoogleSettings) (s : GoogleSystem) (email : String) : List Nat :=
  (s.users.rows.filter fun p => settings.upper p.2.email = settings.upper email).map Prod.fst

end GoogleSystem

def canonicalEmail (settings : GoogleSettings) (email : String) : String :=
  settings.lower (String.ofList (strip email.toList))

def arrive (settings : GoogleSettings) (s : GoogleSystem) (i : Nat) (state code : String) : GoogleSystem :=
  match s.byState settings state with
  | none => s.save i ⟨code, .answered .stateInvalid⟩
  | some transaction => s.save i ⟨code, .waiting transaction⟩

def lock (s : GoogleSystem) (i : Nat) (callback : Callback) (transaction : Nat) : GoogleSystem :=
  match s.transactions.find transaction with
  | none => s.fail i callback "GOOGLE_AUTH_FAILED"
  | some row =>
    if row.consumedAt ≠ none ∨ row.expiresAt ≤ s.clock then s.fail i callback "OAUTH_CALLBACK_REPLAYED"
    else if callback.code = "" then s.fail i callback "GOOGLE_AUTH_CANCELLED"
    else s.turn i callback (.locked ⟨transaction, s.clock⟩)

def completeIdentity (settings : GoogleSettings) (s : GoogleSystem) (i : Nat) (callback : Callback) (hold : Hold)
    (claims : GoogleClaims) : GoogleSystem :=
  let email := canonicalEmail settings claims.email
  match s.linkedTo claims.sub with
  | some user =>
    if (s.users.find user).any (·.isActive) then
      s.turn i callback (.resolved hold s.clock ⟨claims.sub, email, some user, s.owners settings email⟩)
    else s.fail i callback "ACCOUNT_DISABLED"
  | none =>
    if s.owners settings email ≠ [] then s.turn i callback (.refused hold s.clock)
    else if (s.transactions.find hold.transaction).any (·.intendedAction = .login) ∨ settings.autoCreateUsers = false then
      s.fail i callback "ACCOUNT_LINK_REQUIRED"
    else s.turn i callback (.resolved hold s.clock ⟨claims.sub, email, none, s.owners settings email⟩)

-- The draw of the ticket and cache.set
def issue (settings : GoogleSettings) (s : GoogleSystem) (i : Nat) (callback : Callback) (hold : Hold) (consumedAt : Timestamp)
    (resolution : Resolution) (user : Nat) : GoogleSystem :=
  let ticket := settings.token s.draws
  let storedUntil := s.clock + ticketSeconds * microsecondsPerSecond
  { s with
    draws := s.draws + 1
    tickets := s.tickets.put ticket ⟨user, storedUntil⟩
    callbacks := s.callbacks.put i { callback with phase := .stored hold consumedAt resolution ⟨user, ticket, storedUntil⟩ } }

-- An uncommitted account with the same email: its insertion is waited for.
def inserting (settings : GoogleSettings) (s : GoogleSystem) (email : String) : Bool :=
  s.callbacks.rows.any fun p =>
    match p.2.phase with
    | .stored _ _ resolution _ => resolution.linked = none ∧ settings.normalize resolution.email = email
    | _ => false

def store (settings : GoogleSettings) (s : GoogleSystem) (i : Nat) (callback : Callback) (hold : Hold) (consumedAt : Timestamp)
    (resolution : Resolution) : GoogleSystem :=
  match resolution.linked with
  | some user => issue settings s i callback hold consumedAt resolution user
  | none =>
    let email := settings.normalize resolution.email
    if inserting settings s email then s
    else if s.users.rows.any fun p => p.2.email = email then s.fail i callback "GOOGLE_AUTH_FAILED"
    else issue settings { s with nextUser := s.nextUser + 1 } i callback hold consumedAt resolution s.nextUser

def consume (s : GoogleSystem) (transaction : Nat) (consumedAt : Timestamp) : GoogleSystem :=
  match s.transactions.find transaction with
  | none => s
  | some row => { s with transactions := s.transactions.put transaction { row with consumedAt := some consumedAt } }

def register (settings : GoogleSettings) (s : GoogleSystem) (resolution : Resolution) (user : Nat) : GoogleSystem :=
  match resolution.linked with
  | some _ => s
  | none =>
    { s with
      users := s.users.put user { email := settings.normalize resolution.email }
      identities := s.identities ++ [⟨resolution.subject, user⟩] }

def send (settings : GoogleSettings) (s : GoogleSystem) (i : Nat) (callback : Callback) (hold : Hold) (consumedAt : Timestamp)
    (resolution : Resolution) (issue : Issue) : GoogleSystem :=
  match s.transactions.find hold.transaction with
  | none => s.fail i callback "GOOGLE_AUTH_FAILED"
  | some row =>
    let written := (register settings (consume s hold.transaction consumedAt) resolution issue.user).turn i callback
      (.answered (.ticket issue.ticket))
    { written with sent := ⟨hold.transaction, hold.lockedAt, row.expiresAt, resolution, issue⟩ :: s.sent }

def commit (settings : GoogleSettings) (s : GoogleSystem) (i : Nat) (callback : Callback) (ok : Bool) : GoogleSystem :=
  match callback.phase with
  | .refused hold consumedAt =>
    if ok then (consume s hold.transaction consumedAt).fail i callback "ACCOUNT_LINK_REQUIRED"
    else s.fail i callback "GOOGLE_AUTH_FAILED"
  | .stored hold consumedAt resolution issue =>
    if ok then send settings s i callback hold consumedAt resolution issue else s.fail i callback "GOOGLE_AUTH_FAILED"
  | _ => s

def submit (s : GoogleSystem) (j : Nat) (ticket : String) : GoogleSystem :=
  let live := (s.used.find ticket).any fun expiresAt => s.clock < expiresAt
  if ticket = "" ∨ live then { s with credentials := s.credentials.put j ⟨ticket, .answered .replayed⟩ }
  else
    { s with
      used := s.used.put ticket (s.clock + usedSeconds * microsecondsPerSecond)
      credentials := s.credentials.put j ⟨ticket, .added⟩ }

def livePayload (s : GoogleSystem) (ticket : String) : Option Nat :=
  ((s.tickets.find ticket).filter fun entry => s.clock < entry.expiresAt).map TicketEntry.user

def mint (s : GoogleSystem) (j : Nat) (credential : Credential) (user : Nat) : GoogleSystem :=
  if (s.users.find user).any (·.isActive) then
    { s.turnCredential j credential (.answered (.session user)) with pairs := ⟨credential.ticket, user⟩ :: s.pairs }
  else s.turnCredential j credential (.answered .disabled)

def callbackStep (settings : GoogleSettings) (s : GoogleSystem) (i : Nat) (callback : Callback) : GoogleStep → GoogleSystem
  | .lock _ =>
    match callback.phase with
    | .waiting transaction => if s.lockFree transaction then lock s i callback transaction else s
    | _ => s
  | .identify _ result =>
    match callback.phase, result with
    | .locked _, .failed code => s.fail i callback code
    | .locked hold, .claims claims => completeIdentity settings s i callback hold claims
    | _, _ => s
  | .store _ raises =>
    match callback.phase with
    | .resolved hold consumedAt resolution =>
      if raises then s.fail i callback "GOOGLE_AUTH_FAILED" else store settings s i callback hold consumedAt resolution
    | _ => s
  | .commit _ ok => commit settings s i callback ok
  | _ => s

def credentialStep (s : GoogleSystem) (j : Nat) (credential : Credential) : GoogleStep → GoogleSystem
  | .get _ =>
    match credential.phase with
    | .added => s.turnCredential j credential (.got (livePayload s credential.ticket))
    | _ => s
  | .delete _ =>
    match credential.phase with
    | .got payload =>
      let s := { s with tickets := s.tickets.erase credential.ticket }
      match payload with
      | none => s.turnCredential j credential (.answered .expired)
      | some user => s.turnCredential j credential (.deleted user)
    | _ => s
  | .mint _ =>
    match credential.phase with
    | .deleted user => mint s j credential user
    | _ => s
  | _ => s

def googleStep (settings : GoogleSettings) (s : GoogleSystem) (op : GoogleStep) : GoogleSystem :=
  match op with
  | .tick d => { s with clock := s.clock + d }
  | .start state action seconds =>
    { s with
      transactions := s.transactions.put s.nextTransaction
        { stateHash := settings.hash state, intendedAction := action
          expiresAt := s.clock + seconds * microsecondsPerSecond }
      nextTransaction := s.nextTransaction + 1 }
  | .arrive i state code => if s.callbacks.find i = none then arrive settings s i state code else s
  | .submit j ticket => if s.credentials.find j = none then submit s j ticket else s
  | .lock i | .identify i _ | .store i _ | .commit i _ =>
    match s.callbacks.find i with
    | some callback => callbackStep settings s i callback op
    | none => s
  | .get j | .delete j | .mint j =>
    match s.credentials.find j with
    | some credential => credentialStep s j credential op
    | none => s

-- No callback, exchange or ticket yet; the accounts and identities are any.
def GoogleSystem.initial (users : Table Nat GoogleUser) (identities : List ExternalIdentity) : GoogleSystem where
  users
  nextUser := (users.rows.map Prod.fst).foldr max 0 + 1
  identities

end GoogleAuth

end Beyvra
