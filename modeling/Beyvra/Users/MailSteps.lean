import Beyvra.Users.EmailWorkers

namespace Beyvra

open Relational

namespace Registration

section Requests

variable {settings : RegistrationSettings} {s s' : RegistrationTables} {call : RegistrationCall} {id : Uuid}
  {pending : PendingRegistration} {draw : Draw} {eventType code : String} {ordinal : Nat} {dispatch : Bool}
  {key : OutboxKey} {item : TransactionalEmailOutbox} {now : Timestamp} {reply : HttpReply}

-- A queued mail is a new row, or the row that its key has already.
inductive Queues (s : RegistrationTables) (key : OutboxKey) (item : TransactionalEmailOutbox) :
    RegistrationTables → Prop where
  | added (hfree : s.outbox.find key = none) : Queues s key item { s with outbox := s.outbox.put key item }
  | present (stored : TransactionalEmailOutbox) (hstored : s.outbox.find key = some stored)
      (hsame : stored.sameIntent item) : Queues s key item s

theorem queueEmail_eq_ok (h : queueEmail settings key item s = .ok (s', dispatch)) : Queues s key item s' := by
  unfold queueEmail at h
  cases hstored : s.outbox.find key with
  | none =>
    rw [hstored] at h
    obtain ⟨rfl, -⟩ := Prod.mk.inj (pure_eq_ok.mp h)
    exact .added hstored
  | some stored =>
    rw [hstored] at h
    obtain ⟨_, hsame, h₁⟩ := bind_eq_ok.mp h
    obtain ⟨rfl, -⟩ := Prod.mk.inj (pure_eq_ok.mp h₁)
    exact .present stored hstored (require_eq_ok.mp hsame)

def issuedChallenge (settings : RegistrationSettings) (draw : Draw) (id : Uuid) (pending : PendingRegistration)
    (ordinal : Nat) : EmailVerificationChallenge where
  registration := id
  emailNormalized := pending.emailNormalized
  otpHash := draw.code
  maxAttempts := settings.otpMaxAttempts
  sendCount := ordinal
  createdAt := draw.now
  expiresAt := draw.now + settings.otpTtlSeconds * microsecondsPerSecond
  lastSentAt := draw.now

theorem issueCode_eq_ok (h : issueCode settings draw eventType id pending ordinal s = .ok (s', dispatch)) :
    let issued := { s with challenges := s.challenges ++ [issuedChallenge settings draw id pending ordinal] }
    if pending.isDecoy then s' = issued
    else Queues issued (.otp id ordinal) (otpMail settings draw eventType pending) s' := by
  unfold issueCode at h
  cases hdecoy : pending.isDecoy with
  | true =>
    rw [hdecoy, if_pos rfl] at h
    exact (Prod.mk.inj (pure_eq_ok.mp h)).1.symm
  | false =>
    rw [hdecoy, if_neg Bool.false_ne_true] at h
    exact queueEmail_eq_ok h

-- A verification changes the states and counters of challenges only.
def KeepsCode (f : EmailVerificationChallenge → EmailVerificationChallenge) : Prop :=
  ∀ c, (f c).registration = c.registration ∧ (f c).otpHash = c.otpHash ∧ (f c).sendCount = c.sendCount

-- What a request writes.
inductive RequestEffect (settings : RegistrationSettings) (s : RegistrationTables) (call : RegistrationCall) :
    RegistrationTables → Prop where
  | nothing : RequestEffect settings s call s
  | expired (data : RegistrationInput) (hrequest : call.request = .register (some data)) :
      RequestEffect settings s call (s.expire data.email call.draw.now)
  | registered (data : RegistrationInput) (isDecoy : Bool) (s₁ s' : RegistrationTables) (dispatch : Bool)
      (hrequest : call.request = .register (some data))
      (hfresh : (s.expire data.email call.draw.now).registrations.find call.draw.id = none)
      (hput : s₁ = { s.expire data.email call.draw.now with
        registrations := (s.expire data.email call.draw.now).registrations.put call.draw.id
          (newRegistration settings call.draw.now isDecoy data) })
      (hissued : issueCode settings call.draw "email_otp_created" call.draw.id
        (newRegistration settings call.draw.now isDecoy data) 1 s₁ = .ok (s', dispatch)) :
      RequestEffect settings s call s'
  | resent (id : Uuid) (pending : PendingRegistration) (ordinal : Nat) (s' : RegistrationTables) (dispatch : Bool)
      (hrequest : call.request = .resend (some id)) (hfound : s.registrations.find id = some pending)
      (hissued : issueCode settings call.draw "email_otp_resent" id pending ordinal
        (s.setActive id (.invalidate call.draw.now)) = .ok (s', dispatch)) :
      RequestEffect settings s call s'
  | checked (id : Uuid) (code : String) (f : EmailVerificationChallenge → EmailVerificationChallenge)
      (hrequest : call.request = .verify (some id) code) (hf : KeepsCode f) :
      RequestEffect settings s call (s.setActive id f)
  | verified (id : Uuid) (code : String) (pending : PendingRegistration)
      (f : EmailVerificationChallenge → EmailVerificationChallenge) (user : Nat) (s' : RegistrationTables)
      (dispatch : Bool) (hrequest : call.request = .verify (some id) code) (hf : KeepsCode f)
      (hfound : s.registrations.find id = some pending)
      (hactivated : activateRegistration settings call.draw.now id pending (s.setActive id f) =
        .ok (user, s', dispatch)) :
      RequestEffect settings s call s'

theorem named_eq_some {registrationId : Option Uuid} (h : s.named registrationId = some (id, pending)) :
    registrationId = some id ∧ s.registrations.find id = some pending := by
  obtain ⟨id', rfl, hfound⟩ := Option.bind_eq_some_iff.mp h
  obtain ⟨pending', hpending, heq⟩ := Option.map_eq_some_iff.mp hfound
  obtain ⟨rfl, rfl⟩ := Prod.mk.inj heq
  exact ⟨rfl, hpending⟩

theorem register_effect {input : Option RegistrationInput} (hrequest : call.request = .register input)
    (h : register settings call.draw input s = .ok (reply, s', dispatch)) : RequestEffect settings s call s' := by
  unfold register at h
  split at h
  · obtain ⟨-, rfl, -⟩ := by simpa using pure_eq_ok.mp h
    exact .nothing
  · cases input with
    | none =>
      obtain ⟨-, rfl, -⟩ := by simpa using pure_eq_ok.mp h
      exact .nothing
    | some data =>
      dsimp only at h
      cases hpending : (s.expire data.email call.draw.now).pendingFor data.email with
      | some q =>
        rw [hpending] at h
        obtain ⟨-, rfl, -⟩ := by simpa using pure_eq_ok.mp h
        exact .expired data hrequest
      | none =>
        rw [hpending] at h
        obtain ⟨_, hfresh, h₁⟩ := bind_eq_ok.mp h
        obtain ⟨⟨issued, dispatched⟩, hissued, h₂⟩ := bind_eq_ok.mp h₁
        obtain ⟨-, rfl, -⟩ := by simpa using pure_eq_ok.mp h₂
        exact .registered data _ _ _ dispatched hrequest (require_eq_ok.mp hfresh) rfl hissued

theorem resend_effect {registrationId : Option Uuid} (hrequest : call.request = .resend registrationId)
    (h : resend settings call.draw registrationId s = .ok (reply, s', dispatch)) :
    RequestEffect settings s call s' := by
  unfold resend at h
  cases hdue : resendable settings call.draw.now registrationId s with
  | none =>
    rw [hdue] at h
    obtain ⟨-, rfl, -⟩ := by simpa using pure_eq_ok.mp h
    exact .nothing
  | some q =>
    rw [hdue] at h
    obtain ⟨⟨issued, dispatched⟩, hissued, h₁⟩ := bind_eq_ok.mp h
    obtain ⟨-, rfl, -⟩ := by simpa using pure_eq_ok.mp h₁
    obtain ⟨rfl, hfound⟩ := named_eq_some (Option.filter_eq_some_iff.mp hdue).1
    exact .resent q.1 q.2 _ issued dispatched hrequest hfound hissued

theorem verify_effect {registrationId : Option Uuid} (hrequest : call.request = .verify registrationId code)
    (h : verify settings call.draw.now registrationId code s = .ok (reply, s', dispatch)) :
    RequestEffect settings s call s' := by
  unfold verify at h
  split at h
  · obtain ⟨-, rfl, -⟩ := by simpa using pure_eq_ok.mp h
    exact .nothing
  · cases hnamed : s.named registrationId with
    | none =>
      rw [hnamed] at h
      obtain ⟨-, rfl, -⟩ := by simpa using pure_eq_ok.mp h
      exact .nothing
    | some q =>
      rw [hnamed] at h
      obtain ⟨rfl, hfound⟩ := named_eq_some hnamed
      dsimp only at h
      split at h
      · obtain ⟨-, rfl, -⟩ := by simpa using pure_eq_ok.mp h
        exact .nothing
      · split at h
        · obtain ⟨-, rfl, -⟩ := by simpa using pure_eq_ok.mp h
          exact .checked q.1 code _ hrequest fun _ => ⟨rfl, rfl, rfl⟩
        · split at h
          · obtain ⟨-, rfl, -⟩ := by simpa using pure_eq_ok.mp h
            exact .checked q.1 code _ hrequest fun _ => ⟨rfl, rfl, rfl⟩
          · obtain ⟨⟨user, activated, dispatched⟩, hactivated, h₁⟩ := bind_eq_ok.mp h
            obtain ⟨-, rfl, -⟩ := by simpa using pure_eq_ok.mp h₁
            refine .verified q.1 code q.2 _ user activated dispatched hrequest ?_ hfound hactivated
            exact fun _ => ⟨rfl, rfl, rfl⟩

theorem answer_effect (settings : RegistrationSettings) (s : RegistrationTables) (call : RegistrationCall) :
    RequestEffect settings s call (call.answer settings s).2 := by
  unfold RegistrationCall.answer
  cases hrun : call.request.run settings call.draw s with
  | error e => exact .nothing
  | ok answer =>
    obtain ⟨reply, s', dispatch⟩ := answer
    change RequestEffect settings s call s'
    cases hrequest : call.request with
    | register input => exact register_effect hrequest (by simpa [hrequest, RegistrationRequest.run] using hrun)
    | resend registrationId => exact resend_effect hrequest (by simpa [hrequest, RegistrationRequest.run] using hrun)
    | status registrationId =>
      rw [hrequest] at hrun
      obtain ⟨-, rfl, -⟩ := by simpa using pure_eq_ok.mp hrun
      exact .nothing
    | verify registrationId code =>
      exact verify_effect hrequest (by simpa [hrequest, RegistrationRequest.run] using hrun)

end Requests

section Workers

variable {settings : RegistrationSettings} {s : MailSystem} {worker : Nat} {key : OutboxKey}
  {item : TransactionalEmailOutbox} {now : Timestamp} {id : Uuid}

namespace MailSystem

@[simp] theorem stage_setStage_self (s : MailSystem) (worker : Nat) (stage : WorkerStage) :
    (s.setStage worker stage).stage worker = stage := by
  simp [MailSystem.stage, setStage]

theorem stage_setStage_of_ne (s : MailSystem) {worker worker' : Nat} (stage : WorkerStage) (h : worker' ≠ worker) :
    (s.setStage worker stage).stage worker' = s.stage worker' := by
  simp only [MailSystem.stage, setStage, Table.find_put_of_ne _ _ h]

@[simp] theorem setStage_tables (s : MailSystem) (worker : Nat) (stage : WorkerStage) :
    (s.setStage worker stage).tables = s.tables := rfl

@[simp] theorem saveItem_stage (s : MailSystem) (key : OutboxKey)
    (fields : TransactionalEmailOutbox → TransactionalEmailOutbox) : (s.saveItem key fields).stage = s.stage := by
  funext worker
  simp only [MailSystem.stage, saveItem]
  split <;> rfl

theorem find_saveItem (s : MailSystem) (key key' : OutboxKey)
    (fields : TransactionalEmailOutbox → TransactionalEmailOutbox) :
    (s.saveItem key fields).tables.outbox.find key' =
      if key' = key then (s.tables.outbox.find key').map fields else s.tables.outbox.find key' := by
  unfold saveItem
  by_cases hkey : key' = key
  · subst hkey
    rw [if_pos rfl]
    cases hrow : s.tables.outbox.find key' with
    | none => simpa using hrow
    | some row => simp
  · rw [if_neg hkey]
    cases s.tables.outbox.find key with
    | none => rfl
    | some row => exact Table.find_put_of_ne _ _ hkey

theorem any_workers_iff {p : WorkerStage → Bool} (hidle : p .idle = false) :
    s.workers.values.any p = true ↔ ∃ worker, p (s.stage worker) = true := by
  simp only [List.any_eq_true, Table.mem_values_iff]
  constructor
  · rintro ⟨stage, ⟨worker, hfound⟩, hp⟩
    exact ⟨worker, by rwa [MailSystem.stage, hfound, Option.getD_some]⟩
  · rintro ⟨worker, hp⟩
    cases hfound : s.workers.find worker with
    | none =>
      simp only [MailSystem.stage, hfound, Option.getD_none, hidle] at hp
      cases hp
    | some stage =>
      rw [MailSystem.stage, hfound, Option.getD_some] at hp
      exact ⟨stage, ⟨worker, hfound⟩, hp⟩

theorem rowLocked_iff : s.rowLocked key = true ↔ ∃ worker item, (s.stage worker).held = some (key, item) := by
  unfold rowLocked
  rw [any_workers_iff rfl]
  refine exists_congr fun worker => ?_
  cases hheld : (s.stage worker).held with
  | none => simp
  | some row =>
    obtain ⟨key', item⟩ := row
    simp

theorem registrationLocked_iff : s.registrationLocked id = true ↔
    ∃ worker key item, (s.stage worker).held = some (key, item) ∧ lockedRegistration key item = some id := by
  unfold registrationLocked
  rw [any_workers_iff rfl]
  refine exists_congr fun worker => ?_
  cases hheld : (s.stage worker).held with
  | none => simp
  | some row =>
    obtain ⟨key, item⟩ := row
    simp [and_assoc]

theorem rowLocked_eq_false : s.rowLocked key = false ↔ ∀ worker item, (s.stage worker).held ≠ some (key, item) := by
  rw [← Bool.not_eq_true, rowLocked_iff]
  simp only [not_exists]

end MailSystem

-- What a step does, with what it found.
inductive MailEffect (settings : RegistrationSettings) (s : MailSystem) : MailStep → MailSystem → Prop where
  | waited (op : MailStep) (hhands : s.handsOver settings op = none) : MailEffect settings s op s
  | answered (call : RegistrationCall) (tables : RegistrationTables) (hwaits : call.waits s = false)
      (heffect : RequestEffect settings s.tables call tables) :
      MailEffect settings s (.request call) { s with tables }
  | claimed (worker : Nat) (now : Timestamp) (key : OutboxKey) (item : TransactionalEmailOutbox)
      (hfound : s.tables.outbox.find key = some item) (hdue : item.due now = true) (hfree : s.rowLocked key = false) :
      MailEffect settings s (.claim worker now key)
        ((s.saveItem key (.claim now)).setStage worker (.claimed key (item.attemptCount + 1)))
  | locked (worker : Nat) (now : Timestamp) (key : OutboxKey) (attemptCount : Nat) (item : TransactionalEmailOutbox)
      (hstage : s.stage worker = .claimed key attemptCount) (hfound : s.tables.outbox.find key = some item)
      (hfree : s.rowLocked key = false) (hcurrent : otpDeliveryIsCurrent key item now s.tables = true) :
      MailEffect settings s (.lock worker now) (s.setStage worker (.locked key item now))
  | suppressed (worker : Nat) (now : Timestamp) (key : OutboxKey) (attemptCount : Nat)
      (item : TransactionalEmailOutbox) (hstage : s.stage worker = .claimed key attemptCount)
      (hfound : s.tables.outbox.find key = some item) (hfree : s.rowLocked key = false)
      (hstale : otpDeliveryIsCurrent key item now s.tables = false) :
      MailEffect settings s (.lock worker now) ((s.saveItem key .suppress).setStage worker .idle)
  | deferred (worker : Nat) (now : Timestamp) (outcome : Except DeliveryError SubmitResult) (key : OutboxKey)
      (item : TransactionalEmailOutbox) (checkedAt : Timestamp) (hstage : s.stage worker = .locked key item checkedAt)
      (hhands : s.handsOver settings (.submit worker now outcome) = none) :
      MailEffect settings s (.submit worker now outcome) ((s.saveItem key (.defer now)).setStage worker .idle)
  | submitted (worker : Nat) (now : Timestamp) (result : SubmitResult) (key : OutboxKey)
      (item : TransactionalEmailOutbox) (checkedAt : Timestamp) (hstage : s.stage worker = .locked key item checkedAt) :
      MailEffect settings s (.submit worker now (.ok result)) (s.setStage worker (.submitted key item result))
  | completed (worker : Nat) (now : Timestamp) (key : OutboxKey) (item : TransactionalEmailOutbox)
      (result : SubmitResult) (hstage : s.stage worker = .submitted key item result) :
      MailEffect settings s (.complete worker now) ((s.saveItem key (.complete now result)).setStage worker .idle)
  | released (op : MailStep) (worker : Nat) (stage : WorkerStage) (hheld : stage.held = none) :
      MailEffect settings s op (s.setStage worker stage)
  | recorded (worker : Nat) (now : Timestamp) (key : OutboxKey) (attemptCount : Nat) (error : DeliveryError)
      (hstage : s.stage worker = .failed key attemptCount error) (hfree : s.rowLocked key = false) :
      MailEffect settings s (.recordFailure worker now)
        ((s.saveItem key (.fail now attemptCount error)).setStage worker .idle)

theorem handsOver_eq_some {op : MailStep} (h : s.handsOver settings op = some (key, item)) :
    ∃ worker now outcome checkedAt, op = .submit worker now outcome ∧ s.stage worker = .locked key item checkedAt := by
  cases op with
  | submit worker now outcome =>
    simp only [MailSystem.handsOver] at h
    split at h
    · next key' item' checkedAt hstage =>
      rw [Option.ite_none_right_eq_some] at h
      obtain ⟨rfl, rfl⟩ := Prod.mk.inj (Option.some.inj h.2)
      exact ⟨worker, now, outcome, checkedAt, rfl, hstage⟩
    · cases h
  | _ => cases h

theorem claim_effect (settings : RegistrationSettings) (worker : Nat) (now : Timestamp) (key : OutboxKey)
    (s : MailSystem) : MailEffect settings s (.claim worker now key) (claimItem worker now key s) := by
  unfold claimItem
  split
  · next item _ hfound =>
    dsimp only
    split
    · next hfirst =>
      simp only [Bool.and_eq_true, Bool.not_eq_true'] at hfirst
      exact .claimed worker now key item hfound hfirst.1.1 hfirst.1.2
    · exact .waited _ rfl
  · exact .waited _ rfl

theorem lock_effect (settings : RegistrationSettings) (worker : Nat) (now : Timestamp) (s : MailSystem) :
    MailEffect settings s (.lock worker now) (lockItem worker now s) := by
  unfold lockItem
  split
  · next key attemptCount hstage =>
    cases hfound : s.tables.outbox.find key with
    | none => exact .released _ worker _ rfl
    | some item =>
      dsimp only
      split
      · exact .waited _ rfl
      · next hlocks =>
        have hfree : s.rowLocked key = false := by
          cases hrow : s.rowLocked key with
          | false => rfl
          | true => exact absurd (by rw [hrow, Bool.true_or]) hlocks
        split
        · next hcurrent => exact .locked worker now key attemptCount item hstage hfound hfree hcurrent
        · next hstale =>
          exact .suppressed worker now key attemptCount item hstage hfound hfree (Bool.not_eq_true _ ▸ hstale)
  · exact .waited _ rfl

theorem submit_effect (settings : RegistrationSettings) (worker : Nat) (now : Timestamp)
    (outcome : Except DeliveryError SubmitResult) (s : MailSystem) :
    MailEffect settings s (.submit worker now outcome) (submitItem settings worker now outcome s) := by
  unfold submitItem
  cases hstage : s.stage worker with
  | locked key item checkedAt =>
    dsimp only
    split
    · exact .released _ worker _ rfl
    · split
      · next hdisabled =>
        refine .deferred worker now outcome key item checkedAt hstage ?_
        simp only [MailSystem.handsOver, hstage]
        exact if_neg fun h => by simp [h.1] at hdisabled
      · cases outcome with
        | ok result => exact .submitted worker now result key item checkedAt hstage
        | error e => exact .released _ worker _ rfl
  | _ => exact .waited _ (by simp only [MailSystem.handsOver, hstage])

theorem step_effect (settings : RegistrationSettings) (s : MailSystem) (op : MailStep) :
    MailEffect settings s op (s.step settings op) := by
  cases op with
  | request call =>
    simp only [MailSystem.step]
    split
    · exact .waited _ rfl
    · next hwaits => exact .answered call _ (Bool.not_eq_true _ ▸ hwaits) (answer_effect settings s.tables call)
  | claim worker now key => exact claim_effect settings worker now key s
  | lock worker now => exact lock_effect settings worker now s
  | submit worker now outcome => exact submit_effect settings worker now outcome s
  | complete worker now =>
    simp only [MailSystem.step, completeItem]
    split
    · next key item result hstage => exact .completed worker now key item result hstage
    · exact .waited _ rfl
  | interrupt worker exceptionName =>
    simp only [MailSystem.step, interruptWorker]
    split
    · exact .released _ worker _ rfl
    · exact .released _ worker _ rfl
    · exact .released _ worker _ rfl
    · exact .waited _ rfl
  | recordFailure worker now =>
    simp only [MailSystem.step, Registration.recordFailure]
    split
    · next key attemptCount error hstage =>
      split
      · exact .waited _ rfl
      · next hfree => exact .recorded worker now key attemptCount error hstage (Bool.not_eq_true _ ▸ hfree)
    · exact .waited _ rfl
  | crash worker => exact .released _ worker _ rfl

end Workers

end Registration

end Beyvra
