import Beyvra.Foundation.Records

namespace Beyvra

open Relational

namespace Registration

structure RegistrationSettings where
  emailRegistrationEnabled : Bool := true
  emailOtpVerificationEnabled : Bool := true
  otpLength : Nat := 6
  otpTtlSeconds : Int := 600
  otpMaxAttempts : Nat := 5
  otpResendCooldownSeconds : Int := 60
  otpMaxSendsPerHour : Nat := 5
  pendingRegistrationTtlSeconds : Int := 86400
  transactionalEmailEnabled : Bool := false
  frontendUrl : String := "/"
  isDigit : Char → Bool := Char.isDigit

inductive PendingStatus where
  | pendingEmailVerification | completed | expired
  deriving DecidableEq

def PendingStatus.text : PendingStatus → String
  | .pendingEmailVerification => "pending_email_verification"
  | .completed => "completed"
  | .expired => "expired"

structure PendingRegistration where
  emailNormalized : String
  displayName : String
  passwordHash : String
  isDecoy : Bool := false
  status : PendingStatus := .pendingEmailVerification
  locale : String
  createdAt : Timestamp
  expiresAt : Timestamp
  verifiedAt : Option Timestamp := none
  activatedUser : Option Nat := none
  deriving DecidableEq

inductive ChallengeStatus where
  | active | invalidated | locked | consumed
  deriving DecidableEq

-- otpHash stands for the code that was hashed.
structure EmailVerificationChallenge where
  registration : Uuid
  emailNormalized : String
  otpHash : String
  status : ChallengeStatus := .active
  attemptCount : Nat := 0
  maxAttempts : Nat
  sendCount : Nat
  createdAt : Timestamp
  expiresAt : Timestamp
  consumedAt : Option Timestamp := none
  invalidatedAt : Option Timestamp := none
  lastAttemptAt : Option Timestamp := none
  lastSentAt : Timestamp
  deriving DecidableEq

def EmailVerificationChallenge.invalidate (now : Timestamp) (c : EmailVerificationChallenge) :
    EmailVerificationChallenge := { c with status := .invalidated, invalidatedAt := some now }

inductive OutboxStatus where
  | pending | processing | sent | failed | deadLetter
  deriving DecidableEq

-- The key of a verification mail is otp:<registration>:<ordinal>.
inductive OutboxKey where
  | otp (registration : Uuid) (ordinal : Nat)
  | other (text : String)
  deriving DecidableEq

-- An encrypted code is the code with the token's own timestamp and random bytes.
inductive MailPayload where
  | otp (code : String) (nonce : Nat) (expiresMinutes : Int)
  | fields (payload : Payload)
  deriving DecidableEq

def MailPayload.code : MailPayload → Option String
  | .otp code _ _ => some code
  | .fields _ => none

structure TransactionalEmailOutbox where
  eventType : String
  recipientEmail : String
  templateKey : String
  locale : String := "en"
  payload : MailPayload
  status : OutboxStatus := .pending
  attemptCount : Nat := 0
  nextAttemptAt : Option Timestamp
  leaseExpiresAt : Option Timestamp := none
  sentAt : Option Timestamp := none
  providerMessageId : String := ""
  providerStatus : String := ""
  lastErrorCode : String := ""
  deriving DecidableEq

-- accounts holds the e-mail addresses of the users; a user's key is the place of his address.
structure RegistrationTables where
  accounts : List String := []
  registrations : Table Uuid PendingRegistration := Table.empty
  challenges : List EmailVerificationChallenge := []
  outbox : Table OutboxKey TransactionalEmailOutbox := Table.empty

-- What a request reads from the clock and the random source.
structure Draw where
  now : Timestamp
  id : Uuid
  code : String
  nonce : Nat

structure HttpReply where
  status : Nat
  body : Payload
  deriving DecidableEq

def seconds (n : Int) : Value := .dec n

def secondsUntil (t now : Timestamp) : Int := max 0 ((t - now) / microsecondsPerSecond)

def maskEmail (email : String) : String :=
  let localPart := email.toList.takeWhile (· ≠ '@')
  let domain := (email.toList.dropWhile (· ≠ '@')).drop 1
  let masked := if localPart.length ≤ 2 then localPart.take 1 ++ ['*']
    else localPart.take 1 ++ List.replicate (max 1 (localPart.length - 2)) '*' ++
      localPart.drop (localPart.length - 1)
  String.ofList (masked ++ '@' :: domain)

def hasAccount (accounts : List String) (email : String) : Bool :=
  accounts.any fun account => account.toLower = email.toLower

namespace RegistrationTables

def pendingFor (s : RegistrationTables) (email : String) : Option (Uuid × PendingRegistration) :=
  s.registrations.rows.find? fun p => p.2.emailNormalized = email ∧ p.2.status = .pendingEmailVerification

-- A value that is no registration id is none.
def named (s : RegistrationTables) (registrationId : Option Uuid) : Option (Uuid × PendingRegistration) :=
  registrationId.bind fun id => (s.registrations.find id).map (id, ·)

-- A registration has at most one active challenge, by its unique constraint.
def activeChallenge (s : RegistrationTables) (id : Uuid) : Option EmailVerificationChallenge :=
  s.challenges.find? fun c => c.registration = id ∧ c.status = .active

def setActive (s : RegistrationTables) (id : Uuid) (f : EmailVerificationChallenge → EmailVerificationChallenge) :
    RegistrationTables :=
  { s with challenges := s.challenges.map fun c => if c.registration = id ∧ c.status = .active then f c else c }

def expire (s : RegistrationTables) (email : String) (now : Timestamp) : RegistrationTables :=
  let due (p : PendingRegistration) : Bool :=
    p.emailNormalized = email ∧ p.status = .pendingEmailVerification ∧ p.expiresAt ≤ now
  { s with
    registrations := s.registrations.mapRows fun _ p => if due p then { p with status := .expired } else p
    challenges := s.challenges.map fun c =>
      if (s.registrations.find c.registration).any due ∧ c.status = .active then c.invalidate now else c }

def sendsWithinHour (s : RegistrationTables) (email : String) (now : Timestamp) : Nat :=
  (s.challenges.filter fun c => c.emailNormalized = email ∧ now - 3600 * microsecondsPerSecond ≤ c.createdAt).length

end RegistrationTables

def TransactionalEmailOutbox.sameIntent (stored item : TransactionalEmailOutbox) : Prop :=
  stored.eventType = item.eventType ∧ stored.recipientEmail = item.recipientEmail ∧
    stored.templateKey = item.templateKey ∧ stored.locale = item.locale ∧ stored.payload = item.payload

instance (stored item : TransactionalEmailOutbox) : Decidable (stored.sameIntent item) :=
  inferInstanceAs (Decidable (_ ∧ _))

-- The flag says that the worker is called after the commit.
def queueEmail (settings : RegistrationSettings) (key : OutboxKey) (item : TransactionalEmailOutbox)
    (s : RegistrationTables) : Outcome (RegistrationTables × Bool) :=
  match s.outbox.find key with
  | none => pure ({ s with outbox := s.outbox.put key item }, settings.transactionalEmailEnabled)
  | some stored => do
    require (stored.sameIntent item) (.valueError "transactional email idempotency conflict")
    pure (s, settings.transactionalEmailEnabled && stored.status = .pending)

def otpMail (settings : RegistrationSettings) (draw : Draw) (eventType : String) (pending : PendingRegistration) :
    TransactionalEmailOutbox where
  eventType := eventType
  recipientEmail := pending.emailNormalized
  templateKey := "email_otp"
  locale := pending.locale
  payload := .otp draw.code draw.nonce (settings.otpTtlSeconds / 60)
  nextAttemptAt := some draw.now

-- The challenge is created for every registration; only a decoy's code is not mailed.
def issueCode (settings : RegistrationSettings) (draw : Draw) (eventType : String) (id : Uuid)
    (pending : PendingRegistration) (ordinal : Nat) (s : RegistrationTables) :
    Outcome (RegistrationTables × Bool) :=
  let s := { s with challenges := s.challenges ++
    [{ registration := id, emailNormalized := pending.emailNormalized, otpHash := draw.code
       maxAttempts := settings.otpMaxAttempts, sendCount := ordinal, createdAt := draw.now
       expiresAt := draw.now + settings.otpTtlSeconds * microsecondsPerSecond, lastSentAt := draw.now }] }
  if pending.isDecoy then pure (s, false)
  else queueEmail settings (.otp id ordinal) (otpMail settings draw eventType pending) s

def pendingRegistrationResponse (settings : RegistrationSettings) (id : Uuid) (pending : PendingRegistration)
    (now : Timestamp) (s : RegistrationTables) : HttpReply where
  status := 202
  body :=
    [("registrationId", .str ("reg_" ++ id)), ("status", .str pending.status.text),
      ("maskedEmail", .str (maskEmail pending.emailNormalized)),
      ("expiresIn", seconds (((s.activeChallenge id).filter fun c => now < c.expiresAt).elim 0
        fun c => secondsUntil c.expiresAt now)),
      ("registrationExpiresIn", seconds (secondsUntil pending.expiresAt now)),
      ("resendAvailableIn", seconds settings.otpResendCooldownSeconds)]

-- The fields of a valid body; the address is stripped and in lower case.
structure RegistrationInput where
  email : String
  passwordHash : String
  displayName : String := ""
  locale : String := "en"

abbrev Answer := HttpReply × RegistrationTables × Bool

def refusal (status : Nat) (code message : String) : HttpReply :=
  ⟨status, [("code", .str code), ("message", .str message)]⟩

def registrationDisabled : HttpReply :=
  refusal 503 "EMAIL_REGISTRATION_DISABLED" "Registration is temporarily unavailable."

def registrationInvalid : HttpReply :=
  refusal 400 "REGISTRATION_INVALID"
    "Please provide valid registration details and accept the required agreement."

def RegistrationSettings.registrationOpen (settings : RegistrationSettings) : Bool :=
  settings.emailRegistrationEnabled && settings.emailOtpVerificationEnabled

def newRegistration (settings : RegistrationSettings) (now : Timestamp) (isDecoy : Bool) (data : RegistrationInput) :
    PendingRegistration where
  emailNormalized := data.email
  displayName := data.displayName
  passwordHash := data.passwordHash
  isDecoy := isDecoy
  locale := data.locale
  createdAt := now
  expiresAt := now + settings.pendingRegistrationTtlSeconds * microsecondsPerSecond

-- A body that is not valid is none.
def register (settings : RegistrationSettings) (draw : Draw) (input : Option RegistrationInput)
    (s : RegistrationTables) : Outcome Answer :=
  if !settings.registrationOpen then pure (registrationDisabled, s, false)
  else match input with
    | none => pure (registrationInvalid, s, false)
    | some data =>
      let isDecoy := hasAccount s.accounts data.email
      let s := s.expire data.email draw.now
      match s.pendingFor data.email with
      | some (id, pending) => pure (pendingRegistrationResponse settings id pending draw.now s, s, false)
      | none => do
        require (s.registrations.find draw.id = none) (.integrityError "PendingRegistration")
        let pending := newRegistration settings draw.now isDecoy data
        let s := { s with registrations := s.registrations.put draw.id pending }
        let (s, dispatch) ← issueCode settings draw "email_otp_created" draw.id pending 1 s
        pure (pendingRegistrationResponse settings draw.id pending draw.now s, s, dispatch)

def resendSent (settings : RegistrationSettings) : HttpReply where
  status := 200
  body := [("status", .str "sent"), ("expiresIn", seconds settings.otpTtlSeconds),
    ("resendAvailableIn", seconds settings.otpResendCooldownSeconds)]

-- The registration a resend is due for.
def resendable (settings : RegistrationSettings) (now : Timestamp) (registrationId : Option Uuid)
    (s : RegistrationTables) : Option (Uuid × PendingRegistration) :=
  (s.named registrationId).filter fun q =>
    q.2.status = .pendingEmailVerification ∧ now < q.2.expiresAt ∧
      (∀ previous ∈ s.activeChallenge q.1,
        settings.otpResendCooldownSeconds * microsecondsPerSecond ≤ now - previous.lastSentAt) ∧
      s.sendsWithinHour q.2.emailNormalized now < settings.otpMaxSendsPerHour

def resend (settings : RegistrationSettings) (draw : Draw) (registrationId : Option Uuid) (s : RegistrationTables) :
    Outcome Answer :=
  match resendable settings draw.now registrationId s with
  | none => pure (resendSent settings, s, false)
  | some (id, pending) => do
    let ordinal := s.sendsWithinHour pending.emailNormalized draw.now + 1
    let s := s.setActive id (.invalidate draw.now)
    let (s, dispatch) ← issueCode settings draw "email_otp_resent" id pending ordinal s
    pure (resendSent settings, s, dispatch)

def verificationStatus (now : Timestamp) (registrationId : Option Uuid) (s : RegistrationTables) : HttpReply :=
  match s.named registrationId with
  | none => ⟨200, [("status", .str "unknown")]⟩
  | some (id, pending) =>
    ⟨200, [("status", .str pending.status.text), ("maskedEmail", .str (maskEmail pending.emailNormalized)),
      ("expiresIn", seconds (secondsUntil pending.expiresAt now)),
      ("challengeExpiresIn", seconds ((s.activeChallenge id).elim 0 fun c => secondsUntil c.expiresAt now))]⟩

def otpRefusal (code : String) : HttpReply := refusal 400 code "The verification code is invalid or expired."

def firstName (displayName : String) : String :=
  let first := displayName.toList.takeWhile (· ≠ ' ')
  String.ofList ((if first = [] then "Customer".toList else first).take 20)

def welcomeMail (settings : RegistrationSettings) (pending : PendingRegistration) (now : Timestamp) :
    TransactionalEmailOutbox where
  eventType := "user.registration.completed"
  recipientEmail := pending.emailNormalized
  templateKey := "welcome_email"
  payload := .fields [("display_name", .str (firstName pending.displayName)),
    ("frontend_url", .str settings.frontendUrl)]
  nextAttemptAt := some now

def activateRegistration (settings : RegistrationSettings) (now : Timestamp) (id : Uuid)
    (pending : PendingRegistration) (s : RegistrationTables) : Outcome (Nat × RegistrationTables × Bool) := do
  require (pending.isDecoy = false) (.valueError "DECOY_REGISTRATION_CANNOT_ACTIVATE")
  require (pending.emailNormalized ∉ s.accounts) (.integrityError "User")
  let user := s.accounts.length
  let s := { s with
    accounts := s.accounts ++ [pending.emailNormalized]
    registrations := s.registrations.put id { pending with
      status := .completed, verifiedAt := some now, activatedUser := some user } }
  let (s, dispatch) ← queueEmail settings (.other ("welcome:" ++ toString user ++ ":registration"))
    (welcomeMail settings pending now) s
  pure (user, s, dispatch)

def verified (user : Nat) (email : String) : HttpReply where
  status := 200
  body := [("status", .str "verified"), ("accountStatus", .str "active"), ("welcomeEmailQueued", .flag true),
    ("nextPath", .str "/platform"), ("user", .strs [toString user, email])]

def verify (settings : RegistrationSettings) (now : Timestamp) (registrationId : Option Uuid) (code : String)
    (s : RegistrationTables) : Outcome Answer :=
  if registrationId = none ∨ code.length ≠ settings.otpLength ∨ ¬code.toList.all settings.isDigit then
    pure (otpRefusal "OTP_INVALID", s, false)
  else match s.named registrationId with
    | none => pure (otpRefusal "OTP_INVALID", s, false)
    | some (id, pending) =>
      match (s.activeChallenge id).filter fun c =>
          pending.status = .pendingEmailVerification ∧ now < pending.expiresAt ∧ now < c.expiresAt with
      | none => pure (otpRefusal "OTP_EXPIRED", s, false)
      | some challenge =>
        if challenge.maxAttempts ≤ challenge.attemptCount then
          pure (otpRefusal "OTP_LOCKED", s.setActive id fun c => { c with status := .locked }, false)
        else
          let attempted (c : EmailVerificationChallenge) : EmailVerificationChallenge :=
            { c with attemptCount := c.attemptCount + 1, lastAttemptAt := some now }
          if code ≠ challenge.otpHash ∨ pending.isDecoy then
            pure (otpRefusal "OTP_INVALID", s.setActive id attempted, false)
          else do
            let s := s.setActive id fun c => { attempted c with status := .consumed, consumedAt := some now }
            let (user, s, dispatch) ← activateRegistration settings now id pending s
            pure (verified user pending.emailNormalized, s, dispatch)

inductive RegistrationRequest where
  | register (input : Option RegistrationInput)
  | resend (registrationId : Option Uuid)
  | status (registrationId : Option Uuid)
  | verify (registrationId : Option Uuid) (code : String)

structure RegistrationCall where
  request : RegistrationRequest
  draw : Draw
  brokerUp : Bool := true

def RegistrationRequest.run (settings : RegistrationSettings) (draw : Draw) (s : RegistrationTables) :
    RegistrationRequest → Outcome Answer
  | .register input => Registration.register settings draw input s
  | .resend registrationId => Registration.resend settings draw registrationId s
  | .status registrationId => pure (verificationStatus draw.now registrationId s, s, false)
  | .verify registrationId code => Registration.verify settings draw.now registrationId code s

def serverError : HttpReply := ⟨500, []⟩

-- An exception rolls the transaction back; calling the worker fails after the commit.
def respond (brokerUp : Bool) (s : RegistrationTables) : Outcome Answer → HttpReply × RegistrationTables
  | .error _ => (serverError, s)
  | .ok (reply, s', dispatch) => (if dispatch && !brokerUp then serverError else reply, s')

def RegistrationCall.answer (settings : RegistrationSettings) (s : RegistrationTables) (call : RegistrationCall) :
    HttpReply × RegistrationTables :=
  respond call.brokerUp s (call.request.run settings call.draw s)

end Registration

end Beyvra
