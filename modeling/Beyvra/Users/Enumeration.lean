import Beyvra.Relational.TwoRuns
import Beyvra.Users.Registration

namespace Beyvra

open Relational

namespace Registration

def decoy (p : PendingRegistration) : PendingRegistration := { p with isDecoy := true }

-- The tables for an address without an account, and those for one that has an account.
structure Mirrors (email : String) (s d : RegistrationTables) : Prop where
  unknown : hasAccount s.accounts email = false
  known : hasAccount d.accounts email = true
  genuine : ∀ id p, s.registrations.find id = some p → p.isDecoy = false
  registrations : d.registrations = s.registrations.mapRows fun _ p => decoy p
  challenges : d.challenges = s.challenges

-- Every code the tables hold has been mailed.
def Mailed (s : RegistrationTables) : Prop :=
  ∀ c ∈ s.challenges, ∃ ordinal item,
    s.outbox.find (.otp c.registration ordinal) = some item ∧ item.payload.code = some c.otpHash

def RegistrationRequest.about (email : String) : RegistrationRequest → Prop
  | .register (some data) => data.email = email
  | _ => True

-- A verification carries none of the codes that were mailed for the registration.
def Guesses (s : RegistrationTables) (request : RegistrationRequest) : Prop :=
  ∀ id code, request = .verify (some id) code → ∀ ordinal item,
    s.outbox.find (.otp id ordinal) = some item → item.payload.code ≠ some code

-- The key of the mail is free, or is that of the very same mail, and the worker can be called.
def MailAccepted (settings : RegistrationSettings) (brokerUp : Bool) (key : OutboxKey)
    (item : TransactionalEmailOutbox) (outbox : Table OutboxKey TransactionalEmailOutbox) : Prop :=
  (∀ stored, outbox.find key = some stored → stored.sameIntent item) ∧
    (settings.transactionalEmailEnabled = true →
      (∀ stored, outbox.find key = some stored → stored.status = .pending) → brokerUp = true)

-- The e-mail that a request queues is accepted.
def Quiet (settings : RegistrationSettings) (s : RegistrationTables) (call : RegistrationCall) : Prop :=
  match call.request with
  | .register (some data) => settings.registrationOpen = true →
      (s.expire data.email call.draw.now).pendingFor data.email = none →
        (s.expire data.email call.draw.now).registrations.find call.draw.id = none →
          MailAccepted settings call.brokerUp (.otp call.draw.id 1) (otpMail settings call.draw "email_otp_created"
            (newRegistration settings call.draw.now false data)) s.outbox
  | .resend registrationId => ∀ id pending,
      resendable settings call.draw.now registrationId s = some (id, pending) →
        MailAccepted settings call.brokerUp
          (.otp id (s.sendsWithinHour pending.emailNormalized call.draw.now + 1))
          (otpMail settings call.draw "email_otp_resent" pending) s.outbox
  | _ => True

section Mirrors

variable {email : String} {s d : RegistrationTables} {id : Uuid} {p : PendingRegistration} {now : Timestamp}
  {settings : RegistrationSettings}

theorem Mirrors.find (h : Mirrors email s d) : d.registrations.find id = (s.registrations.find id).map decoy := by
  rw [h.registrations, Table.find_mapRows]

theorem Mirrors.pendingFor (h : Mirrors email s d) :
    d.pendingFor email = (s.pendingFor email).map fun q => (q.1, decoy q.2) := by
  unfold RegistrationTables.pendingFor
  rw [h.registrations, Table.mapRows, List.find?_map]
  rfl

theorem Mirrors.activeChallenge (h : Mirrors email s d) : d.activeChallenge id = s.activeChallenge id := by
  unfold RegistrationTables.activeChallenge
  rw [h.challenges]

theorem Mirrors.setActive (h : Mirrors email s d) (f : EmailVerificationChallenge → EmailVerificationChallenge) :
    Mirrors email (s.setActive id f) (d.setActive id f) :=
  { h with challenges := by simp only [RegistrationTables.setActive, h.challenges] }

theorem Mirrors.expire (h : Mirrors email s d) (now : Timestamp) :
    Mirrors email (s.expire email now) (d.expire email now) where
  unknown := h.unknown
  known := h.known
  genuine id p hp := by
    simp only [RegistrationTables.expire, Table.find_mapRows, Option.map_eq_some_iff] at hp
    obtain ⟨p', hp', rfl⟩ := hp
    split <;> exact h.genuine id p' hp'
  registrations := by
    simp only [RegistrationTables.expire, h.registrations, Table.mapRows_mapRows]
    congr 1
    funext _ p
    rw [apply_ite decoy]
    rfl
  challenges := by
    simp only [RegistrationTables.expire, h.challenges, h.find, Option.any_map]
    rfl

theorem Mirrors.put (h : Mirrors email s d) (hp : p.isDecoy = false) :
    Mirrors email { s with registrations := s.registrations.put id p }
      { d with registrations := d.registrations.put id (decoy p) } where
  unknown := h.unknown
  known := h.known
  genuine id' p' hp' := by
    rcases Table.find_put_cases hp' with ⟨-, rfl⟩ | ⟨-, hp'⟩
    · exact hp
    · exact h.genuine id' p' hp'
  registrations := by rw [Table.mapRows_put, ← h.registrations]
  challenges := h.challenges

theorem Mirrors.response (h : Mirrors email s d) : pendingRegistrationResponse settings id (decoy p) now d =
    pendingRegistrationResponse settings id p now s := by
  unfold pendingRegistrationResponse
  rw [h.activeChallenge]
  rfl

theorem Mirrors.named (h : Mirrors email s d) (registrationId : Option Uuid) :
    d.named registrationId = (s.named registrationId).map fun q => (q.1, decoy q.2) := by
  cases registrationId with
  | none => rfl
  | some id => simp [RegistrationTables.named, h.find, Function.comp_def]

theorem Mirrors.resendable (h : Mirrors email s d) (registrationId : Option Uuid) :
    Registration.resendable settings now registrationId d =
      (Registration.resendable settings now registrationId s).map fun q => (q.1, decoy q.2) := by
  unfold Registration.resendable RegistrationTables.sendsWithinHour
  rw [h.named, Option.filter_map]
  simp only [h.activeChallenge, h.challenges]
  rfl

end Mirrors

section Mail

variable {settings : RegistrationSettings} {key : OutboxKey} {item : TransactionalEmailOutbox}
  {s s' d : RegistrationTables} {brokerUp : Bool}

structure Queued (s s' : RegistrationTables) (key : OutboxKey) (item : TransactionalEmailOutbox) : Prop where
  accounts : s'.accounts = s.accounts
  registrations : s'.registrations = s.registrations
  challenges : s'.challenges = s.challenges
  kept : ∀ k x, s.outbox.find k = some x → s'.outbox.find k = some x
  stored : ∃ x, s'.outbox.find key = some x ∧ x.payload = item.payload

theorem queueEmail_cases (brokerUp : Bool) : (∃ e, queueEmail settings key item s = .error e ∧
      ¬MailAccepted settings brokerUp key item s.outbox) ∨
    ∃ s' dispatch, queueEmail settings key item s = .ok (s', dispatch) ∧ Queued s s' key item ∧
      (MailAccepted settings brokerUp key item s.outbox ↔ (dispatch && !brokerUp) = false) := by
  unfold queueEmail MailAccepted
  cases hstored : s.outbox.find key with
  | none =>
    refine .inr ⟨_, _, rfl, ⟨rfl, rfl, rfl, fun k x hx => ?_, item, Table.find_put_self .., rfl⟩, by simp⟩
    have hne : k ≠ key := by
      rintro rfl
      cases hstored.symm.trans hx
    exact (Table.find_put_of_ne _ _ hne).trans hx
  | some stored =>
    by_cases hsame : stored.sameIntent item
    · refine .inr ⟨s, settings.transactionalEmailEnabled && stored.status = .pending, ?_, ?_, ?_⟩
      · dsimp only
        rw [bind_of_ok (require_of hsame)]
        rfl
      · exact ⟨rfl, rfl, rfl, fun _ _ hx => hx, stored, hstored, hsame.2.2.2.2⟩
      · simp [hsame]
    · refine .inl ⟨.valueError "transactional email idempotency conflict", ?_, fun h => hsame (h.1 stored rfl)⟩
      dsimp only
      rw [bind_of_error (require_of_not hsame)]

-- A change of states and counters leaves a challenge with its registration and its code.
theorem Mailed.map (h : Mailed s) (f : EmailVerificationChallenge → EmailVerificationChallenge)
    (hf : ∀ c, (f c).registration = c.registration ∧ (f c).otpHash = c.otpHash)
    (hchallenges : s'.challenges = s.challenges.map f) (houtbox : s'.outbox = s.outbox) : Mailed s' := by
  intro c hc
  rw [hchallenges] at hc
  obtain ⟨c', hc', rfl⟩ := List.mem_map.mp hc
  rw [(hf c').1, (hf c').2, houtbox]
  exact h c' hc'

theorem Mailed.expire {email : String} {now : Timestamp} (h : Mailed s) : Mailed (s.expire email now) := by
  refine h.map _ ?_ rfl rfl
  intro c
  split <;> exact ⟨rfl, rfl⟩

theorem Mailed.setActive (h : Mailed s) (id : Uuid) (f : EmailVerificationChallenge → EmailVerificationChallenge)
    (hf : ∀ c, (f c).registration = c.registration ∧ (f c).otpHash = c.otpHash) : Mailed (s.setActive id f) := by
  refine h.map _ ?_ rfl rfl
  intro c
  split
  · exact hf c
  · exact ⟨rfl, rfl⟩

variable {email eventType : String} {id : Uuid} {p : PendingRegistration} {draw : Draw} {ordinal : Nat}

theorem issueCode_cases (brokerUp : Bool) (h : Mirrors email s d) (hmailed : Mailed s) (hp : p.isDecoy = false) :
    ∃ d', issueCode settings draw eventType id (decoy p) ordinal d = .ok (d', false) ∧
      ((∃ e, issueCode settings draw eventType id p ordinal s = .error e ∧
          ¬MailAccepted settings brokerUp (.otp id ordinal) (otpMail settings draw eventType p) s.outbox) ∨
        ∃ s' dispatch, issueCode settings draw eventType id p ordinal s = .ok (s', dispatch) ∧
          Mirrors email s' d' ∧ Mailed s' ∧
          (MailAccepted settings brokerUp (.otp id ordinal) (otpMail settings draw eventType p) s.outbox ↔
            (dispatch && !brokerUp) = false)) := by
  refine ⟨_, rfl, ?_⟩
  unfold issueCode
  rw [hp, if_neg Bool.false_ne_true]
  obtain ⟨e, he, hnot⟩ | ⟨s', dispatch, hs', hq, hiff⟩ := queueEmail_cases brokerUp
  · exact .inl ⟨e, he, hnot⟩
  · refine .inr ⟨s', dispatch, hs', ?_, ?_, hiff⟩
    · exact ⟨hq.accounts ▸ h.unknown, h.known, hq.registrations ▸ h.genuine, hq.registrations ▸ h.registrations,
        hq.challenges ▸ congrArg (· ++ _) h.challenges⟩
    · intro c hc
      rw [hq.challenges] at hc
      rcases List.mem_append.mp hc with hold | hnew
      · obtain ⟨ordinal', x, hx, hpayload⟩ := hmailed c hold
        exact ⟨ordinal', x, hq.kept _ _ hx, hpayload⟩
      · obtain rfl := List.mem_singleton.mp hnew
        obtain ⟨x, hx, hpayload⟩ := hq.stored
        exact ⟨ordinal, x, hx, congrArg MailPayload.code hpayload⟩

end Mail

section Answers

variable {settings : RegistrationSettings} {email eventType : String} {s s₀ d d₀ : RegistrationTables}
  {brokerUp : Bool} {id : Uuid} {p : PendingRegistration} {draw : Draw} {ordinal : Nat} {call : RegistrationCall}

structure Alike (email : String) (answer answer' : HttpReply × RegistrationTables) : Prop where
  reply : answer.1 = answer'.1
  mirrors : Mirrors email answer.2 answer'.2
  mailed : Mailed answer.2

theorem alike_issue (reply reply' : RegistrationTables → HttpReply) (h : Mirrors email s d) (hmailed : Mailed s)
    (hp : p.isDecoy = false) (hreply : ∀ s' d', Mirrors email s' d' → reply s' = reply' d')
    (haccepted : MailAccepted settings brokerUp (.otp id ordinal) (otpMail settings draw eventType p) s.outbox) :
    Alike email
      (respond brokerUp s₀ (issueCode settings draw eventType id p ordinal s >>= fun q => pure (reply q.1, q)))
      (respond brokerUp d₀
        (issueCode settings draw eventType id (decoy p) ordinal d >>= fun q => pure (reply' q.1, q))) := by
  obtain ⟨d', hd', ⟨e, -, hnot⟩ | ⟨s', dispatch, hs', hmirrors, hmailed', hiff⟩⟩ :=
    issueCode_cases brokerUp h hmailed hp
  · exact absurd haccepted hnot
  · rw [bind_of_ok hs', bind_of_ok hd']
    refine ⟨?_, hmirrors, hmailed'⟩
    change (if (dispatch && !brokerUp) = true then serverError else reply s') = reply' d'
    rw [hiff.mp haccepted, if_neg Bool.false_ne_true]
    exact hreply s' d' hmirrors

theorem accepted_of_issue (reply reply' : RegistrationTables → HttpReply) (h : Mirrors email s d)
    (hmailed : Mailed s) (hp : p.isDecoy = false) (hstatus : ∀ d', reply' d' ≠ serverError)
    (hsame : (respond brokerUp s₀
        (issueCode settings draw eventType id p ordinal s >>= fun q => pure (reply q.1, q))).1 =
      (respond brokerUp d₀
        (issueCode settings draw eventType id (decoy p) ordinal d >>= fun q => pure (reply' q.1, q))).1) :
    MailAccepted settings brokerUp (.otp id ordinal) (otpMail settings draw eventType p) s.outbox := by
  obtain ⟨d', hd', ⟨e, he, -⟩ | ⟨s', dispatch, hs', -, -, hiff⟩⟩ := issueCode_cases brokerUp h hmailed hp
  · rw [bind_of_error he, bind_of_ok hd'] at hsame
    exact absurd hsame.symm (hstatus d')
  · rw [bind_of_ok hs', bind_of_ok hd'] at hsame
    refine hiff.mpr (Bool.eq_false_iff.mpr fun hfails => hstatus d' ?_)
    change (if (dispatch && !brokerUp) = true then serverError else reply s') = reply' d' at hsame
    rw [if_pos hfails] at hsame
    exact hsame.symm

theorem alike_pure {reply reply' : HttpReply} {s' d' : RegistrationTables} (hreply : reply = reply')
    (h : Mirrors email s' d') (hmailed : Mailed s') :
    Alike email (respond brokerUp s₀ (pure (reply, s', false))) (respond brokerUp d₀ (pure (reply', d', false))) :=
  ⟨hreply, h, hmailed⟩

theorem verify_alike {now : Timestamp} {registrationId : Option Uuid} {code : String} (h : Mirrors email s d)
    (hmailed : Mailed s) (hguess : Guesses s (.verify registrationId code)) :
    Alike email (respond brokerUp s (verify settings now registrationId code s))
      (respond brokerUp d (verify settings now registrationId code d)) := by
  unfold verify
  by_cases hshape : registrationId = none ∨ code.length ≠ settings.otpLength ∨ ¬code.toList.all settings.isDigit
  · rw [if_pos hshape, if_pos hshape]
    exact alike_pure rfl h hmailed
  · rw [if_neg hshape, if_neg hshape, h.named]
    cases hnamed : s.named registrationId with
    | none => exact alike_pure rfl h hmailed
    | some q =>
      obtain ⟨id, p⟩ := q
      obtain ⟨id', rfl, hfound⟩ := Option.bind_eq_some_iff.mp hnamed
      obtain ⟨p', hp', heq⟩ := Option.map_eq_some_iff.mp hfound
      obtain ⟨rfl, rfl⟩ := Prod.mk.inj heq
      dsimp only [Option.map_some]
      rw [h.activeChallenge]
      have hstatus : (decoy p').status = p'.status := rfl
      have hexpires : (decoy p').expiresAt = p'.expiresAt := rfl
      simp only [hstatus, hexpires]
      cases hchallenge : (s.activeChallenge id').filter fun c =>
          p'.status = .pendingEmailVerification ∧ now < p'.expiresAt ∧ now < c.expiresAt with
      | none => exact alike_pure rfl h hmailed
      | some c =>
        dsimp only
        by_cases hlocked : c.maxAttempts ≤ c.attemptCount
        · rw [if_pos hlocked, if_pos hlocked]
          exact alike_pure rfl (h.setActive _) (hmailed.setActive _ _ fun _ => ⟨rfl, rfl⟩)
        · -- the code of the challenge was mailed, so it is not the one in the request
          have hwrong : code ≠ c.otpHash := by
            rintro rfl
            have hc := (Option.filter_eq_some_iff.mp hchallenge).1
            obtain ⟨ordinal, item, hitem, hpayload⟩ := hmailed c (List.mem_of_find?_eq_some hc)
            obtain ⟨hregistration, -⟩ : c.registration = id' ∧ c.status = .active := by
              simpa using List.find?_some hc
            rw [hregistration] at hitem
            exact hguess id' c.otpHash rfl ordinal item hitem hpayload
          rw [if_neg hlocked, if_neg hlocked, if_pos (.inl hwrong), if_pos (.inl hwrong)]
          exact alike_pure rfl (h.setActive _) (hmailed.setActive _ _ fun _ => ⟨rfl, rfl⟩)

variable {data : RegistrationInput}

theorem register_pending (hopen : settings.registrationOpen = true)
    (hpending : (s.expire data.email draw.now).pendingFor data.email = some (id, p)) :
    register settings draw (some data) s =
      pure (pendingRegistrationResponse settings id p draw.now (s.expire data.email draw.now),
        s.expire data.email draw.now, false) := by
  simp only [register, hopen, Bool.not_true, Bool.false_eq_true, if_false, hpending]

theorem register_taken (hopen : settings.registrationOpen = true)
    (hnone : (s.expire data.email draw.now).pendingFor data.email = none)
    (hid : (s.expire data.email draw.now).registrations.find draw.id ≠ none) :
    register settings draw (some data) s = .error (.integrityError "PendingRegistration") := by
  simp only [register, hopen, Bool.not_true, Bool.false_eq_true, if_false, hnone]
  rw [bind_of_error (require_of_not hid)]

theorem register_new (hopen : settings.registrationOpen = true)
    (hnone : (s.expire data.email draw.now).pendingFor data.email = none)
    (hid : (s.expire data.email draw.now).registrations.find draw.id = none)
    (hp : newRegistration settings draw.now (hasAccount s.accounts data.email) data = p) :
    register settings draw (some data) s =
      (issueCode settings draw "email_otp_created" draw.id p 1 { s.expire data.email draw.now with
          registrations := (s.expire data.email draw.now).registrations.put draw.id p } >>= fun q =>
        pure (pendingRegistrationResponse settings draw.id p draw.now q.1, q)) := by
  subst hp
  simp only [register, hopen, Bool.not_true, Bool.false_eq_true, if_false, hnone]
  rw [bind_of_ok (require_of hid)]

theorem resend_of_none {registrationId : Option Uuid} (h : resendable settings draw.now registrationId s = none) :
    resend settings draw registrationId s = pure (resendSent settings, s, false) := by
  unfold resend
  rw [h]

theorem resend_of_some {registrationId : Option Uuid}
    (h : resendable settings draw.now registrationId s = some (id, p)) :
    resend settings draw registrationId s =
      (issueCode settings draw "email_otp_resent" id p (s.sendsWithinHour p.emailNormalized draw.now + 1)
          (s.setActive id (.invalidate draw.now)) >>= fun q =>
        pure (resendSent settings, q)) := by
  unfold resend
  rw [h]

theorem genuine_of_resendable {registrationId : Option Uuid} (h : Mirrors email s d)
    (hresendable : resendable settings draw.now registrationId s = some (id, p)) : p.isDecoy = false := by
  obtain ⟨id', -, hfound⟩ := Option.bind_eq_some_iff.mp (Option.filter_eq_some_iff.mp hresendable).1
  obtain ⟨p', hp', heq⟩ := Option.map_eq_some_iff.mp hfound
  obtain ⟨rfl, rfl⟩ := Prod.mk.inj heq
  exact h.genuine id' p' hp'

theorem response_ne_serverError {now : Timestamp} :
    pendingRegistrationResponse settings id p now s ≠ serverError := fun h => by cases congrArg HttpReply.status h

theorem resendSent_ne_serverError : resendSent settings ≠ serverError := fun h => by cases congrArg HttpReply.status h

theorem answer_alike (h : Mirrors email s d) (hmailed : Mailed s) (habout : call.request.about email)
    (hguess : Guesses s call.request) (hquiet : Quiet settings s call) :
    Alike email (call.answer settings s) (call.answer settings d) := by
  obtain ⟨request, draw, brokerUp⟩ := call
  cases request with
  | register input =>
    cases hopen : settings.registrationOpen with
    | false =>
      simp only [RegistrationCall.answer, RegistrationRequest.run, register, hopen]
      exact alike_pure rfl h hmailed
    | true =>
      cases input with
      | none =>
        simp only [RegistrationCall.answer, RegistrationRequest.run, register, hopen]
        exact alike_pure rfl h hmailed
      | some data =>
        obtain rfl : data.email = email := habout
        have hexpired := h.expire draw.now
        simp only [RegistrationCall.answer, RegistrationRequest.run]
        cases hpending : (s.expire data.email draw.now).pendingFor data.email with
        | some q =>
          obtain ⟨id, p⟩ := q
          rw [register_pending hopen hpending,
            register_pending hopen (hexpired.pendingFor.trans (congrArg (Option.map _) hpending))]
          exact alike_pure hexpired.response.symm hexpired hmailed.expire
        | none =>
          have hpending' := hexpired.pendingFor.trans (congrArg (Option.map _) hpending)
          cases hid : (s.expire data.email draw.now).registrations.find draw.id with
          | some p =>
            rw [register_taken hopen hpending (by simp [hid]),
              register_taken hopen hpending' (by simp [hexpired.find, hid])]
            exact ⟨rfl, h, hmailed⟩
          | none =>
            have hgenuine := congrArg (newRegistration settings draw.now · data) h.unknown
            have hdecoy : newRegistration settings draw.now (hasAccount d.accounts data.email) data =
                decoy (newRegistration settings draw.now false data) := by
              rw [h.known]
              rfl
            rw [register_new hopen hpending hid hgenuine,
              register_new hopen hpending' (by simp [hexpired.find, hid]) hdecoy]
            exact alike_issue (pendingRegistrationResponse settings draw.id _ draw.now)
              (pendingRegistrationResponse settings draw.id _ draw.now) (hexpired.put rfl) hmailed.expire rfl
              (fun _ _ hissued => hissued.response.symm) (hquiet hopen hpending hid)
  | resend registrationId =>
    simp only [RegistrationCall.answer, RegistrationRequest.run]
    cases hresendable : resendable settings draw.now registrationId s with
    | none =>
      rw [resend_of_none hresendable,
        resend_of_none ((h.resendable registrationId).trans (congrArg (Option.map _) hresendable))]
      exact alike_pure rfl h hmailed
    | some q =>
      obtain ⟨id, p⟩ := q
      rw [resend_of_some hresendable,
        resend_of_some ((h.resendable registrationId).trans (congrArg (Option.map _) hresendable))]
      have hcount : d.sendsWithinHour p.emailNormalized draw.now = s.sendsWithinHour p.emailNormalized draw.now := by
        simp only [RegistrationTables.sendsWithinHour, h.challenges]
      rw [show (decoy p).emailNormalized = p.emailNormalized from rfl, hcount]
      exact alike_issue (fun _ => resendSent settings) (fun _ => resendSent settings)
        (h.setActive (.invalidate draw.now)) (hmailed.setActive id _ fun _ => ⟨rfl, rfl⟩) (genuine_of_resendable h hresendable) (fun _ _ _ => rfl) (hquiet id p hresendable)
  | status registrationId =>
    refine alike_pure ?_ h hmailed
    unfold verificationStatus
    rw [h.named]
    cases s.named registrationId with
    | none => rfl
    | some q =>
      simp only [Option.map_some, h.activeChallenge]
      rfl
  | verify registrationId code => exact verify_alike h hmailed hguess

theorem quiet_of_answer (h : Mirrors email s d) (hmailed : Mailed s) (habout : call.request.about email)
    (hsame : (call.answer settings s).1 = (call.answer settings d).1) : Quiet settings s call := by
  obtain ⟨request, draw, brokerUp⟩ := call
  cases request with
  | register input =>
    cases input with
    | none => trivial
    | some data =>
      obtain rfl : data.email = email := habout
      intro hopen hpending hid
      have hexpired := h.expire draw.now
      have hpending' := hexpired.pendingFor.trans (congrArg (Option.map _) hpending)
      have hgenuine := congrArg (newRegistration settings draw.now · data) h.unknown
      have hdecoy : newRegistration settings draw.now (hasAccount d.accounts data.email) data =
          decoy (newRegistration settings draw.now false data) := by
        rw [h.known]
        rfl
      simp only [RegistrationCall.answer, RegistrationRequest.run] at hsame
      rw [register_new hopen hpending hid hgenuine,
        register_new hopen hpending' (by simp [hexpired.find, hid]) hdecoy] at hsame
      have haccepted := accepted_of_issue (pendingRegistrationResponse settings draw.id _ draw.now)
        (pendingRegistrationResponse settings draw.id _ draw.now) (hexpired.put rfl) hmailed.expire rfl
        (fun _ => response_ne_serverError) hsame
      exact haccepted
  | resend registrationId =>
    intro id p hresendable
    simp only [RegistrationCall.answer, RegistrationRequest.run] at hsame
    rw [resend_of_some hresendable,
      resend_of_some ((h.resendable registrationId).trans (congrArg (Option.map _) hresendable))] at hsame
    have hcount : d.sendsWithinHour p.emailNormalized draw.now = s.sendsWithinHour p.emailNormalized draw.now := by
      simp only [RegistrationTables.sendsWithinHour, h.challenges]
    rw [show (decoy p).emailNormalized = p.emailNormalized from rfl, hcount] at hsame
    have haccepted := accepted_of_issue (fun _ => resendSent settings) (fun _ => resendSent settings)
      (h.setActive (.invalidate draw.now)) (hmailed.setActive id _ fun _ => ⟨rfl, rfl⟩)
      (genuine_of_resendable h hresendable) (fun _ => resendSent_ne_serverError) hsame
    exact haccepted
  | status registrationId => trivial
  | verify registrationId code => trivial

end Answers

def Probes (email : String) (s : RegistrationTables) (call : RegistrationCall) : Prop :=
  call.request.about email ∧ Guesses s call.request

theorem enumeration_iff {settings : RegistrationSettings} {email : String} {accounts accounts' : List String}
    {calls : List RegistrationCall} (hunknown : hasAccount accounts email = false)
    (hknown : hasAccount accounts' email = true)
    (hprobes : Throughout (fun s call => (call.answer settings s).2) (Probes email) calls { accounts }) :
    outputs (RegistrationCall.answer settings) calls { accounts } =
        outputs (RegistrationCall.answer settings) calls { accounts := accounts' } ↔
      Throughout (fun s call => (call.answer settings s).2) (Quiet settings) calls { accounts } := by
  have hmirrors : Mirrors email { accounts } { accounts := accounts' } :=
    ⟨hunknown, hknown, fun _ _ hp => (by cases hp), rfl, rfl⟩
  have hmailed : Mailed { accounts } := fun _ hc => by cases hc
  refine outputs_eq_iff_throughout (fun s d => Mirrors email s d ∧ Mailed s) ?_ ?_ ⟨hmirrors, hmailed⟩ hprobes
  · rintro s d call ⟨h, hmailed⟩ ⟨habout, hguess⟩ hquiet
    have halike := answer_alike h hmailed habout hguess hquiet
    exact ⟨halike.reply, halike.mirrors, halike.mailed⟩
  · rintro s d call ⟨h, hmailed⟩ ⟨habout, -⟩ hsame
    exact quiet_of_answer h hmailed habout hsame

theorem guesses_of_rows {s : RegistrationTables} {registrationId : Option Uuid} {code : String}
    (h : ∀ q ∈ s.outbox.rows, q.2.payload.code ≠ some code) : Guesses s (.verify registrationId code) := by
  rintro id code' heq ordinal item hitem
  obtain ⟨-, rfl⟩ := RegistrationRequest.verify.inj heq
  exact h _ (Table.mem_rows_iff.mpr hitem)

def probed : RegistrationCall :=
  { request := .register (some { email := "user@example.test", passwordHash := "hash" })
    draw := ⟨0, "first", "482913", 1⟩ }

def resentAt (seconds : Int) : RegistrationCall :=
  { request := .resend (some "first"), draw := ⟨seconds * microsecondsPerSecond, "second", "731904", 2⟩ }

def guessedAt (seconds : Int) : RegistrationCall :=
  { request := .verify (some "first") "000000", draw := ⟨seconds * microsecondsPerSecond, "", "", 0⟩ }

theorem enumeration_quiet_within_hour :
    Throughout (fun s call => (RegistrationCall.answer {} s call).2) (Quiet {})
      [probed, resentAt 61, guessedAt 62] {} := by
  have hknown : hasAccount ["user@example.test"] "user@example.test" = true := by simp [hasAccount]
  have hprobes : Throughout (fun s call => (RegistrationCall.answer {} s call).2) (Probes "user@example.test")
      [probed, resentAt 61, guessedAt 62] {} := by
    refine ⟨⟨rfl, nofun⟩, ⟨trivial, nofun⟩, ⟨trivial, guesses_of_rows ?_⟩, trivial⟩
    decide +kernel
  refine (enumeration_iff rfl hknown hprobes).mp ?_
  decide +kernel

-- After an hour the count of sends is back to none, and the first ordinal is used again.
theorem late_resend_tells_account : ¬∀ (settings : RegistrationSettings) (email : String)
    (accounts accounts' : List String) (calls : List RegistrationCall),
    hasAccount accounts email = false → hasAccount accounts' email = true →
      Throughout (fun s call => (RegistrationCall.answer settings s call).2) (Probes email) calls { accounts } →
        outputs (RegistrationCall.answer settings) calls { accounts } =
          outputs (RegistrationCall.answer settings) calls { accounts := accounts' } := by
  intro h
  have hknown : hasAccount ["user@example.test"] "user@example.test" = true := by simp [hasAccount]
  have hsame := h {} "user@example.test" [] ["user@example.test"] [probed, resentAt 3601] rfl hknown
    ⟨⟨rfl, nofun⟩, ⟨trivial, nofun⟩, trivial⟩
  revert hsame
  decide +kernel

end Registration

end Beyvra
