import Beyvra.Users.Registration

namespace Beyvra

open Relational

namespace Registration

-- What the provider's answer names, "" where it names nothing.
structure SubmitResult where
  providerMessageId : String := ""
  notificationId : String := ""
  status : String := ""
  deriving DecidableEq

inductive DeliveryError where
  | middleware (errorClass : String) (retryable : Bool)
  | other (exceptionName : String)
  deriving DecidableEq

-- The place of a worker in process_transactional_email_outbox, with its copy of the item.
inductive WorkerStage where
  | idle
  | claimed (key : OutboxKey) (attemptCount : Nat)
  | locked (key : OutboxKey) (item : TransactionalEmailOutbox) (checkedAt : Timestamp)
  | submitted (key : OutboxKey) (item : TransactionalEmailOutbox) (result : SubmitResult)
  | failed (key : OutboxKey) (attemptCount : Nat) (error : DeliveryError)
  deriving DecidableEq

-- The row that the worker's second transaction has locked.
def WorkerStage.held : WorkerStage → Option (OutboxKey × TransactionalEmailOutbox)
  | .locked key item _ | .submitted key item _ => some (key, item)
  | _ => none

-- _otp_delivery_identity: none for None, some none for False
def otpDeliveryIdentity (key : OutboxKey) (item : TransactionalEmailOutbox) : Option (Option (Uuid × Nat)) :=
  if item.templateKey ≠ "email_otp" then none
  else match key with
    | .otp registration ordinal => some (if ordinal < 1 then none else some (registration, ordinal))
    | .other _ => some none

def otpDeliveryIsCurrent (key : OutboxKey) (item : TransactionalEmailOutbox) (now : Timestamp)
    (s : RegistrationTables) : Bool :=
  match otpDeliveryIdentity key item with
  | none => true
  | some none => false
  | some (some (registration, ordinal)) =>
    match s.registrations.find registration with
    | none => false
    | some pending =>
      pending.status = .pendingEmailVerification && now < pending.expiresAt &&
        s.challenges.any fun c =>
          c.registration = registration && c.status = .active && now < c.expiresAt && c.sendCount = ordinal

-- The registration that is locked along with the row.
def lockedRegistration (key : OutboxKey) (item : TransactionalEmailOutbox) : Option Uuid :=
  (otpDeliveryIdentity key item).join.map Prod.fst

-- The parameters that send_outbox_message makes of the payload, none where it raises.
def messageParameters (item : TransactionalEmailOutbox) : Option Payload :=
  if item.templateKey = "email_otp" then
    match item.payload with
    | .otp code _ expiresMinutes => some [("action",
        .str ("Verification code: " ++ code ++ ". Expires in " ++ toString expiresMinutes ++ " minutes."))]
    | .fields _ => none
  else match item.payload with
    | .otp code _ expiresMinutes => some [("code_encrypted", .str code), ("expires_minutes", .dec expiresMinutes)]
    | .fields payload => some payload

structure MailSystem where
  tables : RegistrationTables := {}
  workers : Table Nat WorkerStage := Table.empty

namespace MailSystem

def stage (s : MailSystem) (worker : Nat) : WorkerStage := (s.workers.find worker).getD .idle

def setStage (s : MailSystem) (worker : Nat) (stage : WorkerStage) : MailSystem :=
  { s with workers := s.workers.put worker stage }

def rowLocked (s : MailSystem) (key : OutboxKey) : Bool :=
  s.workers.values.any fun stage => stage.held.any fun row => row.1 = key

def registrationLocked (s : MailSystem) (id : Uuid) : Bool :=
  s.workers.values.any fun stage => stage.held.any fun row => lockedRegistration row.1 row.2 = some id

-- item.save(update_fields=...) writes the fields of one row.
def saveItem (s : MailSystem) (key : OutboxKey) (fields : TransactionalEmailOutbox → TransactionalEmailOutbox) :
    MailSystem :=
  match s.tables.outbox.find key with
  | none => s
  | some row => { s with tables := { s.tables with outbox := s.tables.outbox.put key (fields row) } }

end MailSystem

def TransactionalEmailOutbox.due (item : TransactionalEmailOutbox) (now : Timestamp) : Bool :=
  (item.status = .pending && item.nextAttemptAt.any (· ≤ now)) ||
    (item.status = .processing && item.leaseExpiresAt.any (· < now))

-- order_by("next_attempt_at"), the rows without one last
def comesBefore (item other : TransactionalEmailOutbox) : Bool :=
  match item.nextAttemptAt, other.nextAttemptAt with
  | some t, some t' => t ≤ t'
  | _, none => true
  | none, some _ => false

def leaseDuration : Int := 2 * 60 * microsecondsPerSecond

namespace TransactionalEmailOutbox

def claim (now : Timestamp) (item : TransactionalEmailOutbox) : TransactionalEmailOutbox :=
  { item with
    status := .processing
    leaseExpiresAt := some (now + leaseDuration)
    attemptCount := item.attemptCount + 1 }

def suppress (item : TransactionalEmailOutbox) : TransactionalEmailOutbox :=
  { item with
    status := .deadLetter
    lastErrorCode := "OTP_EXPIRED_BEFORE_DELIVERY"
    leaseExpiresAt := none }

def defer (now : Timestamp) (item : TransactionalEmailOutbox) : TransactionalEmailOutbox :=
  { item with
    status := .pending
    leaseExpiresAt := none
    nextAttemptAt := some (now + 5 * 60 * microsecondsPerSecond) }

def complete (now : Timestamp) (result : SubmitResult) (item : TransactionalEmailOutbox) : TransactionalEmailOutbox :=
  { item with
    status := .sent
    sentAt := some now
    providerMessageId := if result.providerMessageId ≠ "" then result.providerMessageId else result.notificationId
    providerStatus := if result.status ≠ "" then result.status else "QUEUED"
    leaseExpiresAt := none
    lastErrorCode := "" }

end TransactionalEmailOutbox

def retryMinutes (attemptCount : Nat) : Int := ([1, 2, 10, 60, 240] : List Int).getD (min (attemptCount - 1) 4) 240

def DeliveryError.code : DeliveryError → String
  | .middleware errorClass _ => String.ofList (errorClass.toList.take 64)
  | .other exceptionName => String.ofList (exceptionName.toList.take 64)

def DeliveryError.final (attemptCount : Nat) : DeliveryError → Bool
  | .middleware _ retryable => !retryable || 5 ≤ attemptCount
  | .other _ => 5 ≤ attemptCount

def DeliveryError.delayMinutes (attemptCount : Nat) : DeliveryError → Int
  | .middleware _ _ => retryMinutes attemptCount
  | .other _ => 10

def TransactionalEmailOutbox.fail (now : Timestamp) (attemptCount : Nat) (error : DeliveryError)
    (item : TransactionalEmailOutbox) : TransactionalEmailOutbox :=
  { item with
    status := if error.final attemptCount then .deadLetter else .pending
    lastErrorCode := error.code
    leaseExpiresAt := none
    nextAttemptAt := some (now + error.delayMinutes attemptCount * 60 * microsecondsPerSecond) }

-- Among due rows that no one has locked the query takes one that comes before all others.
def claimItem (worker : Nat) (now : Timestamp) (key : OutboxKey) (s : MailSystem) : MailSystem :=
  match s.stage worker, s.tables.outbox.find key with
  | .idle, some item =>
    let claimable (key : OutboxKey) (item : TransactionalEmailOutbox) : Bool := item.due now && !s.rowLocked key
    if claimable key item && s.tables.outbox.rows.all fun row => !claimable row.1 row.2 || comesBefore item row.2 then
      (s.saveItem key (.claim now)).setStage worker (.claimed key (item.attemptCount + 1))
    else s
  | _, _ => s

-- The worker waits while another one has locked the row or the registration.
def lockItem (worker : Nat) (now : Timestamp) (s : MailSystem) : MailSystem :=
  match s.stage worker with
  | .claimed key attemptCount =>
    match s.tables.outbox.find key with
    | none => s.setStage worker (.failed key attemptCount (.other "DoesNotExist"))
    | some item =>
      if s.rowLocked key || (lockedRegistration key item).any s.registrationLocked then s
      else if otpDeliveryIsCurrent key item now s.tables then s.setStage worker (.locked key item now)
      else (s.saveItem key .suppress).setStage worker .idle
  | _ => s

def submitItem (settings : RegistrationSettings) (worker : Nat) (now : Timestamp)
    (outcome : Except DeliveryError SubmitResult) (s : MailSystem) : MailSystem :=
  match s.stage worker with
  | .locked key item _ =>
    match messageParameters item with
    | none => s.setStage worker (.failed key item.attemptCount (.other "KeyError"))
    | some _ =>
      if !settings.transactionalEmailEnabled then (s.saveItem key (.defer now)).setStage worker .idle
      else match outcome with
        | .ok result => s.setStage worker (.submitted key item result)
        | .error e => s.setStage worker (.failed key item.attemptCount e)
  | _ => s

def completeItem (worker : Nat) (now : Timestamp) (s : MailSystem) : MailSystem :=
  match s.stage worker with
  | .submitted key _ result => (s.saveItem key (.complete now result)).setStage worker .idle
  | _ => s

-- Any other exception rolls the second transaction back.
def interruptWorker (worker : Nat) (exceptionName : String) (s : MailSystem) : MailSystem :=
  match s.stage worker with
  | .claimed key attemptCount => s.setStage worker (.failed key attemptCount (.other exceptionName))
  | .locked key item _ | .submitted key item _ =>
    s.setStage worker (.failed key item.attemptCount (.other exceptionName))
  | _ => s

-- The failure handler is outside the transaction: its update waits for the row's lock and reads nothing.
def recordFailure (worker : Nat) (now : Timestamp) (s : MailSystem) : MailSystem :=
  match s.stage worker with
  | .failed key attemptCount error =>
    if s.rowLocked key then s
    else (s.saveItem key (.fail now attemptCount error)).setStage worker .idle
  | _ => s

-- A request waits for the lock of a registration that it is about to lock or to write.
def RegistrationCall.waits (s : MailSystem) (call : RegistrationCall) : Bool :=
  match call.request with
  | .register (some data) => s.tables.registrations.rows.any fun row =>
      row.2.emailNormalized = data.email && row.2.status = .pendingEmailVerification &&
        row.2.expiresAt ≤ call.draw.now && s.registrationLocked row.1
  | .resend (some id) | .verify (some id) _ => s.registrationLocked id
  | _ => false

inductive MailStep where
  | request (call : RegistrationCall)
  | claim (worker : Nat) (now : Timestamp) (key : OutboxKey)
  | lock (worker : Nat) (now : Timestamp)
  | submit (worker : Nat) (now : Timestamp) (outcome : Except DeliveryError SubmitResult)
  | complete (worker : Nat) (now : Timestamp)
  | interrupt (worker : Nat) (exceptionName : String)
  | recordFailure (worker : Nat) (now : Timestamp)
  | crash (worker : Nat)

def MailSystem.step (settings : RegistrationSettings) (s : MailSystem) : MailStep → MailSystem
  | .request call => if call.waits s then s else { s with tables := (call.answer settings s.tables).2 }
  | .claim worker now key => claimItem worker now key s
  | .lock worker now => lockItem worker now s
  | .submit worker now outcome => submitItem settings worker now outcome s
  | .complete worker now => completeItem worker now s
  | .interrupt worker exceptionName => interruptWorker worker exceptionName s
  | .recordFailure worker now => Registration.recordFailure worker now s
  | .crash worker => s.setStage worker .idle

-- The mail that the step hands to the provider.
def MailSystem.handsOver (settings : RegistrationSettings) (s : MailSystem) :
    MailStep → Option (OutboxKey × TransactionalEmailOutbox)
  | .submit worker _ _ =>
    match s.stage worker with
    | .locked key item _ =>
      if settings.transactionalEmailEnabled ∧ (messageParameters item).isSome then some (key, item) else none
    | _ => none
  | _ => none

end Registration

end Beyvra
