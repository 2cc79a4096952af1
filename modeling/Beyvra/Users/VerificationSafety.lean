import Beyvra.Relational.Stability
import Beyvra.Users.FreshCodes

namespace Beyvra

open Relational

namespace Registration

inductive VerificationStep where
  | request (call : RegistrationCall)
  -- A user who comes from elsewhere, by an identity provider or an administrator.
  | join (email : String)

def verificationStep (settings : RegistrationSettings) (s : RegistrationTables) : VerificationStep → RegistrationTables
  | .request call => (call.answer settings s).2
  | .join email => { s with accounts := s.accounts ++ [email] }

def RegistrationRequest.target : RegistrationRequest → Option Uuid
  | .register _ => none
  | .resend registrationId | .status registrationId | .verify registrationId _ => registrationId

structure Comparison where
  id : Uuid
  pending : PendingRegistration
  challenge : EmailVerificationChallenge

-- What a verification compares its code with, if it gets so far.
def comparison (settings : RegistrationSettings) (now : Timestamp) (registrationId : Option Uuid) (code : String)
    (s : RegistrationTables) : Option Comparison :=
  if code.length ≠ settings.otpLength ∨ ¬code.toList.all settings.isDigit then none
  else (s.named registrationId).bind fun named =>
    ((s.activeChallenge named.1).filter fun c => named.2.status = .pendingEmailVerification ∧
      now < named.2.expiresAt ∧ now < c.expiresAt ∧ c.attemptCount < c.maxAttempts).map
        fun challenge => ⟨named.1, named.2, challenge⟩

def RegistrationTables.activePlace (s : RegistrationTables) (id : Uuid) : Option Nat :=
  s.challenges.findIdx? fun c => c.registration = id ∧ c.status = .active

-- A code of the right form that is answered as invalid for a registration with an active challenge has been compared
-- with that challenge. The place is the challenge's, where the code is another than its own.
def wrongGuess (settings : RegistrationSettings) (s : RegistrationTables) : VerificationStep → Option Nat
  | .request call =>
    match call.request with
    | .verify registrationId code =>
      if (call.answer settings s).1 = otpRefusal "OTP_INVALID" ∧ code.length = settings.otpLength ∧
          code.toList.all settings.isDigit = true then
        (s.named registrationId).bind fun named => (s.activeChallenge named.1).bind fun challenge =>
          if code = challenge.otpHash then none else s.activePlace named.1
      else none
    | _ => none
  | .join _ => none

def wrongGuesses (settings : RegistrationSettings) (i : Nat) : List VerificationStep → RegistrationTables → Nat :=
  occurrences (verificationStep settings) fun s op => wrongGuess settings s op = some i

-- The registration for which the request saves a user.
def activatedBy (settings : RegistrationSettings) (s : RegistrationTables) : VerificationStep → Option Uuid
  | .request call => if (call.answer settings s).2.accounts = s.accounts then none else call.request.target
  | .join _ => none

def activations (settings : RegistrationSettings) (id : Uuid) : List VerificationStep → RegistrationTables → Nat :=
  occurrences (verificationStep settings) fun s op => activatedBy settings s op = some id

-- A verification succeeds, or a user is saved although the answer got lost.
def Accepts (settings : RegistrationSettings) (s : RegistrationTables) (call : RegistrationCall) : Prop :=
  (∃ registrationId code, call.request = .verify registrationId code ∧ (call.answer settings s).1.status = 200) ∨
    (call.answer settings s).2.accounts ≠ s.accounts

def CarriesNewestCode (s : RegistrationTables) (call : RegistrationCall) : Prop :=
  ∃ id code pending challenge, call.request = .verify (some id) code ∧ s.registrations.find id = some pending ∧
    pending.status = .pendingEmailVerification ∧ call.draw.now < pending.expiresAt ∧
    s.newestActive id = some challenge ∧ call.draw.now < challenge.expiresAt ∧ code = challenge.otpHash

structure VerificationSafe (settings : RegistrationSettings) (start : RegistrationTables)
    (ops : List VerificationStep) : Prop where
  attempts : ∀ i c, (ops.foldl (verificationStep settings) start).challenges[i]? = some c →
    wrongGuesses settings i ops start ≤ c.maxAttempts
  accepted : Throughout (verificationStep settings) (fun s op => ∀ call, op = .request call →
    Accepts settings s call → CarriesNewestCode s call) ops start
  once : ∀ id, activations settings id ops start ≤ 1
  decoys : Throughout (verificationStep settings) (fun s op => ∀ call id pending, op = .request call →
    call.request.target = some id → s.registrations.find id = some pending → pending.isDecoy = true →
      (call.answer settings s).2.accounts = s.accounts) ops start

def EmailVerificationChallenge.attempt (now : Timestamp) (c : EmailVerificationChallenge) :
    EmailVerificationChallenge := { c with attemptCount := c.attemptCount + 1, lastAttemptAt := some now }

def EmailVerificationChallenge.lock (c : EmailVerificationChallenge) : EmailVerificationChallenge :=
  { c with status := .locked }

def EmailVerificationChallenge.consume (now : Timestamp) (c : EmailVerificationChallenge) :
    EmailVerificationChallenge := { c.attempt now with status := .consumed, consumedAt := some now }

section Verify

variable {settings : RegistrationSettings} {s s' : RegistrationTables} {now : Timestamp}
  {registrationId : Option Uuid} {code : String} {q : Comparison}

structure Compares (settings : RegistrationSettings) (now : Timestamp) (registrationId : Option Uuid) (s : RegistrationTables)
    (q : Comparison) : Prop where
  target : registrationId = some q.id
  found : s.registrations.find q.id = some q.pending
  active : s.activeChallenge q.id = some q.challenge
  status : q.pending.status = .pendingEmailVerification
  pendingFresh : now < q.pending.expiresAt
  challengeFresh : now < q.challenge.expiresAt
  attemptsLeft : q.challenge.attemptCount < q.challenge.maxAttempts

theorem comparison_eq_some (h : comparison settings now registrationId code s = some q) :
    Compares settings now registrationId s q := by
  unfold comparison at h
  rw [Option.ite_none_left_eq_some] at h
  obtain ⟨⟨id, pending⟩, hnamed, hmap⟩ := Option.bind_eq_some_iff.mp h.2
  obtain ⟨challenge, hfilter, rfl⟩ := Option.map_eq_some_iff.mp hmap
  obtain ⟨hactive, hopen⟩ := Option.filter_eq_some_iff.mp hfilter
  obtain ⟨hstatus, hpending, hchallenge, hleft⟩ := of_decide_eq_true hopen
  obtain ⟨rfl, hfound⟩ := named_eq_some hnamed
  exact ⟨rfl, hfound, hactive, hstatus, hpending, hchallenge, hleft⟩

-- The five ways of a verification request.
inductive Verifies (settings : RegistrationSettings) (s : RegistrationTables) (now : Timestamp)
    (registrationId : Option Uuid) (code : String) : Outcome Answer → Prop where
  | refused (reason : String) (hnone : comparison settings now registrationId code s = none)
      (hreason : reason = "OTP_INVALID" → code.length = settings.otpLength → code.toList.all settings.isDigit = true →
        s.named registrationId = none) :
      Verifies settings s now registrationId code (.ok (otpRefusal reason, s, false))
  | locked (id : Uuid) (hnone : comparison settings now registrationId code s = none) :
      Verifies settings s now registrationId code (.ok (otpRefusal "OTP_LOCKED", s.setActive id .lock, false))
  | denied (q : Comparison) (hcompared : comparison settings now registrationId code s = some q)
      (hwrong : code ≠ q.challenge.otpHash ∨ q.pending.isDecoy = true) :
      Verifies settings s now registrationId code
        (.ok (otpRefusal "OTP_INVALID", s.setActive q.id (.attempt now), false))
  | failed (q : Comparison) (e : Error) (hcompared : comparison settings now registrationId code s = some q)
      (hcode : code = q.challenge.otpHash) : Verifies settings s now registrationId code (.error e)
  | accepted (q : Comparison) (user : Nat) (s' : RegistrationTables) (dispatch : Bool)
      (hcompared : comparison settings now registrationId code s = some q) (hcode : code = q.challenge.otpHash)
      (hactivated : activateRegistration settings now q.id q.pending (s.setActive q.id (.consume now)) =
        .ok (user, s', dispatch)) :
      Verifies settings s now registrationId code (.ok (verified user q.pending.emailNormalized, s', dispatch))

theorem verify_verifies (settings : RegistrationSettings) (s : RegistrationTables) (now : Timestamp)
    (registrationId : Option Uuid) (code : String) :
    Verifies settings s now registrationId code (verify settings now registrationId code s) := by
  unfold verify
  by_cases hbad : registrationId = none ∨ code.length ≠ settings.otpLength ∨ ¬code.toList.all settings.isDigit
  · rw [if_pos hbad]
    rcases hbad with rfl | hformat
    · exact .refused "OTP_INVALID" (by simp [comparison, RegistrationTables.named]) fun _ _ _ => rfl
    · refine .refused "OTP_INVALID" (by simp only [comparison, if_pos hformat]) fun _ hlength hdigits => ?_
      rcases hformat with hlength' | hdigits'
      · exact absurd hlength hlength'
      · exact absurd hdigits hdigits'
  · rw [if_neg hbad]
    obtain ⟨-, hformat⟩ := not_or.mp hbad
    cases hnamed : s.named registrationId with
    | none => exact .refused _ (by simp only [comparison, if_neg hformat, hnamed, Option.bind_none]) fun _ _ _ => hnamed
    | some named =>
      obtain ⟨id, pending⟩ := named
      dsimp only
      cases hopen : (s.activeChallenge id).filter fun c => pending.status = .pendingEmailVerification ∧
          now < pending.expiresAt ∧ now < c.expiresAt with
      | none =>
        refine .refused _ ?_ fun hreason => absurd hreason (by decide)
        rw [Option.filter_eq_none_iff] at hopen
        simp only [comparison, if_neg hformat, hnamed, Option.bind_some, Option.map_eq_none_iff,
          Option.filter_eq_none_iff, decide_eq_true_eq]
        exact fun c hc hall => hopen c hc (decide_eq_true ⟨hall.1, hall.2.1, hall.2.2.1⟩)
      | some challenge =>
        obtain ⟨hactive, hall⟩ := Option.filter_eq_some_iff.mp hopen
        obtain ⟨hstatus, hpending, hchallenge⟩ := of_decide_eq_true hall
        dsimp only
        by_cases hlocked : challenge.maxAttempts ≤ challenge.attemptCount
        · rw [if_pos hlocked]
          refine .locked id ?_
          simp [comparison, hnamed, hactive, Option.filter, hlocked]
        · have hcompared : comparison settings now registrationId code s = some ⟨id, pending, challenge⟩ := by
            simp only [comparison, if_neg hformat, hnamed, Option.bind_some, hactive, Option.filter_some, hstatus,
              hpending, hchallenge, not_le.mp hlocked, and_self, decide_true, if_true, Option.map_some]
          rw [if_neg hlocked]
          by_cases hwrong : code ≠ challenge.otpHash ∨ pending.isDecoy = true
          · rw [if_pos hwrong]
            exact .denied ⟨id, pending, challenge⟩ hcompared hwrong
          · rw [if_neg hwrong]
            have hcode : code = challenge.otpHash := not_not.mp (not_or.mp hwrong).1
            cases hactivated : activateRegistration settings now id pending (s.setActive id (.consume now)) with
            | error e =>
              refine (bind_of_error hactivated).symm ▸ ?_
              exact .failed ⟨id, pending, challenge⟩ e hcompared hcode
            | ok activated =>
              obtain ⟨user, s', dispatch⟩ := activated
              refine (bind_of_ok hactivated).symm ▸ ?_
              exact .accepted ⟨id, pending, challenge⟩ user s' dispatch hcompared hcode hactivated

end Verify

section Progress

variable {settings : RegistrationSettings} {s s' s'' : RegistrationTables} {op : VerificationStep}
  {call : RegistrationCall} {id : Uuid} {pending : PendingRegistration} {draw : Draw} {eventType : String}
  {ordinal : Nat} {dispatch : Bool} {f : EmailVerificationChallenge → EmailVerificationChallenge} {i : Nat}

inductive Progress (settings : RegistrationSettings) (s : RegistrationTables) :
    VerificationStep → RegistrationTables → Prop where
  | joined (email : String) : Progress settings s (.join email) { s with accounts := s.accounts ++ [email] }
  | asked (call : RegistrationCall) (s' : RegistrationTables)
      (hrequest : ∀ registrationId code, call.request ≠ .verify registrationId code)
      (heffect : RequestEffect settings s call s') : Progress settings s (.request call) s'
  | kept (call : RegistrationCall) (registrationId : Option Uuid) (code : String)
      (hrequest : call.request = .verify registrationId code)
      (hcode : ∀ q, comparison settings call.draw.now registrationId code s = some q → code = q.challenge.otpHash)
      (hrefused : (call.answer settings s).1.status ≠ 200) : Progress settings s (.request call) s
  | locked (call : RegistrationCall) (registrationId : Option Uuid) (code : String) (id : Uuid)
      (hrequest : call.request = .verify registrationId code)
      (hnone : comparison settings call.draw.now registrationId code s = none)
      (hrefused : (call.answer settings s).1.status ≠ 200) : Progress settings s (.request call) (s.setActive id .lock)
  | denied (call : RegistrationCall) (registrationId : Option Uuid) (code : String) (q : Comparison)
      (hrequest : call.request = .verify registrationId code)
      (hcompared : comparison settings call.draw.now registrationId code s = some q)
      (hrefused : (call.answer settings s).1.status ≠ 200) :
      Progress settings s (.request call) (s.setActive q.id (.attempt call.draw.now))
  | accepted (call : RegistrationCall) (registrationId : Option Uuid) (code : String) (q : Comparison) (user : Nat)
      (s' : RegistrationTables) (dispatch : Bool) (hrequest : call.request = .verify registrationId code)
      (hcompared : comparison settings call.draw.now registrationId code s = some q) (hcode : code = q.challenge.otpHash)
      (hactivated : activateRegistration settings call.draw.now q.id q.pending
        (s.setActive q.id (.consume call.draw.now)) = .ok (user, s', dispatch)) :
      Progress settings s (.request call) s'

theorem verificationStep_progress (settings : RegistrationSettings) (s : RegistrationTables) (op : VerificationStep) :
    Progress settings s op (verificationStep settings s op) := by
  cases op with
  | join email => exact .joined email
  | request call =>
    by_cases hverify : ∃ registrationId code, call.request = .verify registrationId code
    · obtain ⟨registrationId, code, hrequest⟩ := hverify
      have hanswer : call.answer settings s =
          respond call.brokerUp s (verify settings call.draw.now registrationId code s) := by
        rw [RegistrationCall.answer, hrequest]
        rfl
      have hcases := verify_verifies settings s call.draw.now registrationId code
      simp only [verificationStep]
      generalize verify settings call.draw.now registrationId code s = outcome at hcases hanswer
      have hrefused (reason : String) (s' : RegistrationTables) (heq : outcome = .ok (otpRefusal reason, s', false)) :
          (call.answer settings s).1.status ≠ 200 := by
        rw [hanswer, heq]
        exact (by decide : (400 : Nat) ≠ 200)
      cases hcases with
      | refused reason hnone _ =>
        have hkept : (call.answer settings s).2 = s := by rw [hanswer]; rfl
        rw [hkept]
        exact .kept call registrationId code hrequest (fun q hq => by rw [hnone] at hq; cases hq)
          (hrefused reason s rfl)
      | locked id hnone =>
        have hlocked : (call.answer settings s).2 = s.setActive id .lock := by rw [hanswer]; rfl
        rw [hlocked]
        exact .locked call registrationId code id hrequest hnone (hrefused _ _ rfl)
      | denied q hcompared hwrong =>
        have hdenied : (call.answer settings s).2 = s.setActive q.id (.attempt call.draw.now) := by rw [hanswer]; rfl
        rw [hdenied]
        exact .denied call registrationId code q hrequest hcompared (hrefused _ _ rfl)
      | failed q e hcompared hcode =>
        have hfailed : (call.answer settings s).1.status ≠ 200 := by
          rw [hanswer]
          exact (by decide : (500 : Nat) ≠ 200)
        have hkept : (call.answer settings s).2 = s := by rw [hanswer]; rfl
        rw [hkept]
        refine .kept call registrationId code hrequest (fun q' hq' => ?_) hfailed
        rwa [Option.some.inj (hq'.symm.trans hcompared)]
      | accepted q user s' dispatch hcompared hcode hactivated =>
        have haccepted : (call.answer settings s).2 = s' := by rw [hanswer]; rfl
        rw [haccepted]
        exact .accepted call registrationId code q user s' dispatch hrequest hcompared hcode hactivated
    · exact .asked call _ (fun registrationId code heq => hverify ⟨registrationId, code, heq⟩)
        (answer_effect settings s call)

def RegistrationTables.activatedUser (s : RegistrationTables) (id : Uuid) : Option Nat :=
  (s.registrations.find id).bind (·.activatedUser)

def RegistrationTables.attemptsAt (s : RegistrationTables) (i : Nat) : Nat := (s.challenges[i]?).elim 0 (·.attemptCount)

def KeepsAttempts (f : EmailVerificationChallenge → EmailVerificationChallenge) : Prop :=
  ∀ c, (f c).attemptCount = c.attemptCount ∧ (f c).maxAttempts = c.maxAttempts

-- No attempt is counted and no user activated.
structure Spares (s s' : RegistrationTables) : Prop where
  challenges : ∃ f new, s'.challenges = s.challenges.map f ++ new ∧ KeepsAttempts f ∧ ∀ c ∈ new, c.attemptCount = 0
  accounts : s'.accounts = s.accounts
  users : ∀ id, s'.activatedUser id = s.activatedUser id

structure Bounded (s : RegistrationTables) : Prop where
  consistent : Consistent s
  attempts : ∀ c ∈ s.challenges, c.attemptCount ≤ c.maxAttempts
  completed : ∀ id p, s.registrations.find id = some p → p.activatedUser ≠ none → p.status = .completed

theorem Spares.of_map (hf : KeepsAttempts f) (hchallenges : s'.challenges = s.challenges.map f)
    (haccounts : s'.accounts = s.accounts) (husers : ∀ id, s'.activatedUser id = s.activatedUser id) : Spares s s' :=
  ⟨⟨f, [], by rw [hchallenges, List.append_nil], hf, fun _ hc => absurd hc List.not_mem_nil⟩, haccounts, husers⟩

theorem Spares.trans (h : Spares s s') (h' : Spares s' s'') : Spares s s'' where
  challenges := by
    obtain ⟨f, new, hchallenges, hf, hnew⟩ := h.challenges
    obtain ⟨f', new', hchallenges', hf', hnew'⟩ := h'.challenges
    refine ⟨f' ∘ f, new.map f' ++ new', ?_, fun c => ?_, fun c hc => ?_⟩
    · rw [hchallenges', hchallenges, List.map_append, List.map_map, List.append_assoc]
    · exact ⟨(hf' (f c)).1.trans (hf c).1, (hf' (f c)).2.trans (hf c).2⟩
    · rcases List.mem_append.mp hc with hold | hadded
      · obtain ⟨c', hc', rfl⟩ := List.mem_map.mp hold
        exact (hf' c').1.trans (hnew c' hc')
      · exact hnew' c hadded
  accounts := h'.accounts.trans h.accounts
  users id := (h'.users id).trans (h.users id)

theorem Spares.attemptsAt (h : Spares s s') (i : Nat) : s'.attemptsAt i = s.attemptsAt i := by
  obtain ⟨f, new, hchallenges, hf, hnew⟩ := h.challenges
  unfold RegistrationTables.attemptsAt
  rw [hchallenges]
  by_cases hi : i < s.challenges.length
  · rw [List.getElem?_append_left (by simpa using hi), List.getElem?_map]
    cases s.challenges[i]? with
    | none => rfl
    | some c => exact (hf c).1
  · rw [List.getElem?_append_right (by simpa using hi), List.getElem?_eq_none (not_lt.mp hi)]
    cases hc : new[i - (s.challenges.map f).length]? with
    | none => rfl
    | some c => exact hnew c (List.mem_of_getElem? hc)

theorem Spares.attempts (h : Spares s s') (hs : ∀ c ∈ s.challenges, c.attemptCount ≤ c.maxAttempts) :
    ∀ c ∈ s'.challenges, c.attemptCount ≤ c.maxAttempts := by
  obtain ⟨f, new, hchallenges, hf, hnew⟩ := h.challenges
  intro c hc
  rcases List.mem_append.mp (hchallenges ▸ hc) with hold | hadded
  · obtain ⟨c', hc', rfl⟩ := List.mem_map.mp hold
    rw [(hf c').1, (hf c').2]
    exact hs c' hc'
  · exact (hnew c hadded).trans_le (Nat.zero_le _)

theorem KeepsAttempts.ite (hf : KeepsAttempts f) (P : EmailVerificationChallenge → Prop) [DecidablePred P] :
    KeepsAttempts fun c => if P c then f c else c := by
  intro c
  by_cases hc : P c
  · simpa only [if_pos hc] using hf c
  · simp only [if_neg hc, and_self]

theorem Spares.setActive (s : RegistrationTables) (id : Uuid) (hf : KeepsAttempts f) : Spares s (s.setActive id f) :=
  .of_map (hf.ite _) rfl rfl fun _ => rfl

theorem Spares.put (hfree : s.registrations.find id = none) (hnew : pending.activatedUser = none) :
    Spares s { s with registrations := s.registrations.put id pending } := by
  have hself : KeepsAttempts fun c => c := fun _ => ⟨rfl, rfl⟩
  refine .of_map hself (List.map_id' _).symm rfl fun id' => ?_
  simp only [RegistrationTables.activatedUser, Table.find_put]
  split
  · next heq => rw [heq, hfree, Option.bind_some, hnew, Option.bind_none]
  · rfl

theorem Spares.issue (hissued : issueCode settings draw eventType id pending ordinal s = .ok (s', dispatch)) :
    Spares s s' := by
  have hcases := issueCode_eq_ok hissued
  dsimp only at hcases
  have hself : KeepsAttempts fun c => c := fun _ => ⟨rfl, rfl⟩
  have hchallenges : ∃ f new, s.challenges ++ [issuedChallenge settings draw id pending ordinal] =
      s.challenges.map f ++ new ∧ KeepsAttempts f ∧ ∀ c ∈ new, c.attemptCount = 0 :=
    ⟨_, _, by rw [List.map_id'], hself, fun c hc => by rw [List.mem_singleton.mp hc]; rfl⟩
  split at hcases
  · rw [hcases]
    exact ⟨hchallenges, rfl, fun _ => rfl⟩
  · cases hcases with
    | added hfree => exact ⟨hchallenges, rfl, fun _ => rfl⟩
    | present stored hstored hsame => exact ⟨hchallenges, rfl, fun _ => rfl⟩

theorem Spares.expire (s : RegistrationTables) (email : String) (now : Timestamp) : Spares s (s.expire email now) := by
  have hinvalidate : KeepsAttempts (.invalidate now) := fun _ => ⟨rfl, rfl⟩
  refine .of_map (hinvalidate.ite _) rfl rfl fun id => ?_
  simp only [RegistrationTables.activatedUser, RegistrationTables.expire, Table.find_mapRows]
  cases s.registrations.find id with
  | none => rfl
  | some p =>
    rw [Option.map_some, Option.bind_some, Option.bind_some]
    split <;> rfl

theorem RequestEffect.spares (h : RequestEffect settings s call s')
    (hrequest : ∀ registrationId code, call.request ≠ .verify registrationId code) : Spares s s' := by
  have hself : KeepsAttempts fun c => c := fun _ => ⟨rfl, rfl⟩
  cases h with
  | nothing => exact .of_map hself (List.map_id' _).symm rfl fun _ => rfl
  | expired data hregister => exact .expire s data.email call.draw.now
  | registered data isDecoy s₁ _ dispatch hregister hfresh hput hissued =>
    subst hput
    have hadded : Spares (s.expire data.email call.draw.now) { s.expire data.email call.draw.now with
        registrations := (s.expire data.email call.draw.now).registrations.put call.draw.id
          (newRegistration settings call.draw.now isDecoy data) } := .put hfresh rfl
    exact ((Spares.expire s data.email call.draw.now).trans hadded).trans (.issue hissued)
  | resent id pending ordinal _ dispatch hresend hfound hissued =>
    have hinvalidate : KeepsAttempts (.invalidate call.draw.now) := fun _ => ⟨rfl, rfl⟩
    exact (Spares.setActive s id hinvalidate).trans (.issue hissued)
  | checked id code f hverify hf => exact absurd hverify (hrequest _ _)
  | verified id code pending f user _ dispatch hverify hf hfound hactivated => exact absurd hverify (hrequest _ _)

theorem issueCode_registrations
    (hissued : issueCode settings draw eventType id pending ordinal s = .ok (s', dispatch)) :
    s'.registrations = s.registrations := by
  have hcases := issueCode_eq_ok hissued
  dsimp only at hcases
  split at hcases
  · rw [hcases]
  · exact hcases.rest.1

def Completes (s : RegistrationTables) : Prop :=
  ∀ id p, s.registrations.find id = some p → p.activatedUser ≠ none → p.status = .completed

theorem Completes.expire (h : Completes s) (email : String) (now : Timestamp) : Completes (s.expire email now) := by
  intro id p hp huser
  simp only [RegistrationTables.expire, Table.find_mapRows, Option.map_eq_some_iff, decide_eq_true_eq] at hp
  obtain ⟨p', hp', rfl⟩ := hp
  by_cases hdue : p'.emailNormalized = email ∧ p'.status = .pendingEmailVerification ∧ p'.expiresAt ≤ now
  · rw [if_pos hdue] at huser
    have hcompleted := h id p' hp' huser
    rw [hdue.2.1] at hcompleted
    cases hcompleted
  · rw [if_neg hdue] at huser ⊢
    exact h id p' hp' huser

theorem Completes.put (h : Completes s) (id : Uuid) (pending : PendingRegistration)
    (hp : pending.activatedUser ≠ none → pending.status = .completed) :
    Completes { s with registrations := s.registrations.put id pending } := by
  intro id' p hfound huser
  rcases Table.find_put_cases hfound with ⟨-, rfl⟩ | ⟨-, hold⟩
  · exact hp huser
  · exact h id' p hold huser

theorem Completes.congr (h : Completes s) (hregistrations : s'.registrations = s.registrations) : Completes s' := by
  intro id p hp huser
  rw [hregistrations] at hp
  exact h id p hp huser

theorem Completes.request (h : Completes s) (heffect : RequestEffect settings s call s') : Completes s' := by
  cases heffect with
  | nothing => exact h
  | expired data hregister => exact h.expire data.email call.draw.now
  | registered data isDecoy s₁ _ dispatch hregister hfresh hput hissued =>
    subst hput
    have hadded := (h.expire data.email call.draw.now).put call.draw.id
      (newRegistration settings call.draw.now isDecoy data) fun huser => absurd rfl huser
    exact hadded.congr (issueCode_registrations hissued)
  | resent id pending ordinal _ dispatch hresend hfound hissued =>
    have hset : Completes (s.setActive id (.invalidate call.draw.now)) := h
    exact hset.congr (issueCode_registrations hissued)
  | checked id code f hverify hf => exact h
  | verified id code pending f user _ dispatch hverify hf hfound hactivated =>
    obtain ⟨-, hqueued⟩ := activateRegistration_queues hactivated
    have hset : Completes (s.setActive id f) := h
    have hput := hset.put id { pending with
      status := .completed, verifiedAt := some call.draw.now
      activatedUser := some (s.setActive id f).accounts.length } fun _ => rfl
    exact hput.congr hqueued.rest.1

end Progress

section Guesses

variable {settings : RegistrationSettings} {s s' : RegistrationTables} {op : VerificationStep} {id : Uuid} {i : Nat}
  {f : EmailVerificationChallenge → EmailVerificationChallenge} {c challenge : EmailVerificationChallenge}

theorem Consistent.active_eq (h : Consistent s) (hc : c ∈ s.challenges) (hid : c.registration = id)
    (hactive : c.status = .active) : s.newestActive id = some c ∧ s.activeChallenge id = some c := by
  have hmem : c ∈ s.activeChallenges id := List.mem_filter.mpr ⟨hc, decide_eq_true ⟨hid, hactive⟩⟩
  have hlength : (s.activeChallenges id).length ≤ 1 := by
    rw [RegistrationTables.activeChallenges, ← List.countP_eq_length_filter]
    exact h.soleActive id
  obtain ⟨c', heq⟩ := List.length_eq_one_iff.mp (le_antisymm hlength (List.length_pos_of_mem hmem))
  rw [heq, List.mem_singleton] at hmem
  subst hmem
  refine ⟨by rw [RegistrationTables.newestActive, heq, List.getLast?_singleton], ?_⟩
  rw [RegistrationTables.activeChallenge, ← List.head?_filter]
  exact congrArg List.head? heq

theorem active_of_found (h : s.activeChallenge id = some c) :
    c ∈ s.challenges ∧ c.registration = id ∧ c.status = .active := by
  have hfound := List.find?_some h
  exact ⟨List.mem_of_find?_eq_some h, of_decide_eq_true hfound⟩

theorem attemptsAt_setActive (s : RegistrationTables) (id : Uuid) (i : Nat)
    (hf : ∀ c, (f c).attemptCount = c.attemptCount + 1) :
    (decide (s.activePlace id = some i)).toNat + s.attemptsAt i ≤ (s.setActive id f).attemptsAt i := by
  simp only [RegistrationTables.attemptsAt, RegistrationTables.setActive, List.getElem?_map]
  by_cases hplace : s.activePlace id = some i
  · obtain ⟨hi, hactive, -⟩ := List.findIdx?_eq_some_iff_getElem.mp hplace
    rw [List.getElem?_eq_getElem hi, Option.map_some, if_pos (of_decide_eq_true hactive), decide_eq_true hplace]
    exact (Nat.add_comm _ _).trans_le (hf _).ge
  · rw [decide_eq_false hplace]
    cases s.challenges[i]? with
    | none => exact le_rfl
    | some c =>
      rw [Option.map_some]
      split
      · exact (Nat.zero_add _).trans_le (Nat.le_of_succ_le (hf c).ge)
      · exact (Nat.zero_add _).le

-- Only the challenge that was compared, with attempts left, is changed.
theorem attempts_setActive (h : Bounded s) (hfound : s.activeChallenge id = some challenge)
    (hleft : challenge.attemptCount < challenge.maxAttempts)
    (hf : ∀ c, (f c).attemptCount = c.attemptCount + 1 ∧ (f c).maxAttempts = c.maxAttempts) :
    ∀ c ∈ (s.setActive id f).challenges, c.attemptCount ≤ c.maxAttempts := by
  intro c hc
  obtain ⟨c', hc', rfl⟩ := List.mem_map.mp hc
  by_cases hactive : c'.registration = id ∧ c'.status = .active
  · obtain ⟨-, hsole⟩ := h.consistent.active_eq hc' hactive.1 hactive.2
    obtain rfl := Option.some.inj (hsole.symm.trans hfound)
    rw [if_pos hactive, (hf c').1, (hf c').2]
    exact hleft
  · rw [if_neg hactive]
    exact h.attempts c' hc'

theorem Bounded.setActive (h : Bounded s) (hf : KeepsCode f)
    (hattempts : ∀ c ∈ (s.setActive id f).challenges, c.attemptCount ≤ c.maxAttempts) : Bounded (s.setActive id f) :=
  ⟨h.consistent.setActive id hf, hattempts, h.completed⟩

theorem Bounded.step (settings : RegistrationSettings) (h : Bounded s) (op : VerificationStep) : Bounded (verificationStep settings s op) := by
  have hprogress := verificationStep_progress settings s op
  generalize verificationStep settings s op = s' at hprogress
  cases hprogress with
  | joined email => exact ⟨h.consistent.withAccounts _, h.attempts, h.completed⟩
  | asked call _ hrequest heffect =>
    have hcompleted : Completes s := h.completed
    exact ⟨h.consistent.request heffect, (heffect.spares hrequest).attempts h.attempts, hcompleted.request heffect⟩
  | kept => exact h
  | locked call registrationId code id =>
    have hlock : KeepsAttempts EmailVerificationChallenge.lock := fun _ => ⟨rfl, rfl⟩
    exact h.setActive (fun _ => ⟨rfl, rfl, rfl⟩) ((Spares.setActive s id hlock).attempts h.attempts)
  | denied call registrationId code q hrequest hcompared =>
    have hq := comparison_eq_some hcompared
    exact h.setActive (fun _ => ⟨rfl, rfl, rfl⟩) (attempts_setActive h hq.active hq.attemptsLeft fun _ => ⟨rfl, rfl⟩)
  | accepted call registrationId code q user _ dispatch hrequest hcompared hcode hactivated =>
    have hq := comparison_eq_some hcompared
    obtain ⟨hgenuine, hqueued⟩ := activateRegistration_queues hactivated
    have hconsumed : KeepsCode (.consume call.draw.now) := fun _ => ⟨rfl, rfl, rfl⟩
    have heffect : RequestEffect settings s call s' := by
      refine .verified q.id code q.pending _ user _ dispatch ?_ hconsumed hq.found hactivated
      rw [hrequest, hq.target]
    have hattempts : ∀ c ∈ (s.setActive q.id (.consume call.draw.now)).challenges, c.attemptCount ≤ c.maxAttempts :=
      attempts_setActive h hq.active hq.attemptsLeft fun _ => ⟨rfl, rfl⟩
    have hcompleted : Completes s := h.completed
    refine ⟨h.consistent.request heffect, ?_, hcompleted.request heffect⟩
    rw [hqueued.rest.2]
    exact hattempts

theorem wrongGuess_request {call : RegistrationCall} (h : wrongGuess settings s (.request call) = some i) :
    ∃ registrationId code q, call.request = .verify registrationId code ∧
      comparison settings call.draw.now registrationId code s = some q ∧ code ≠ q.challenge.otpHash ∧
      s.activePlace q.id = some i := by
  obtain ⟨request, draw, brokerUp⟩ := call
  cases request with
  | verify registrationId code =>
    simp only [wrongGuess, Option.ite_none_right_eq_some, Option.bind_eq_some_iff] at h
    obtain ⟨⟨hreply, hlength, hdigits⟩, named, hnamed, challenge, hactive, hwrong⟩ := h
    rw [Option.ite_none_left_eq_some] at hwrong
    have hcases := verify_verifies settings s draw.now registrationId code
    change (respond brokerUp s (verify settings draw.now registrationId code s)).1 = _ at hreply
    generalize verify settings draw.now registrationId code s = outcome at hcases hreply
    cases hcases with
    | refused reason hnone hreason =>
      have hsame : reason = "OTP_INVALID" := by simpa [respond, otpRefusal, refusal] using hreply
      rw [hreason hsame hlength hdigits] at hnamed
      cases hnamed
    | locked id hnone =>
      have hother : otpRefusal "OTP_LOCKED" ≠ otpRefusal "OTP_INVALID" := by decide
      exact absurd hreply hother
    | failed q e hcompared hcode => exact absurd (congrArg HttpReply.status hreply) (by decide : (500 : Nat) ≠ 400)
    | accepted q user s' dispatch hcompared hcode hactivated =>
      have hstatus := congrArg HttpReply.status hreply
      simp only [respond] at hstatus
      split at hstatus
      · exact absurd hstatus (by decide : (500 : Nat) ≠ 400)
      · exact absurd hstatus (by decide : (200 : Nat) ≠ 400)
    | denied q hcompared _ =>
      have hq := comparison_eq_some hcompared
      obtain ⟨htarget, -⟩ := named_eq_some hnamed
      have hid : named.1 = q.id := Option.some.inj (htarget.symm.trans hq.target)
      rw [hid] at hactive hwrong
      obtain rfl := Option.some.inj (hactive.symm.trans hq.active)
      exact ⟨registrationId, code, q, rfl, hcompared, hwrong.1, hwrong.2⟩
  | _ => cases h

end Guesses


section Activations

variable {settings : RegistrationSettings} {s s' : RegistrationTables} {op : VerificationStep} {call : RegistrationCall}
  {id : Uuid} {q : Comparison} {i : Nat}

-- The request that saves a user, and for whom.
structure Saves (settings : RegistrationSettings) (s : RegistrationTables) (call : RegistrationCall)
    (s' : RegistrationTables) (q : Comparison) : Prop where
  request : call.request = .verify (some q.id) q.challenge.otpHash
  compared : Compares settings call.draw.now (some q.id) s q
  genuine : q.pending.isDecoy = false
  user : s'.activatedUser q.id = some s.accounts.length
  others : ∀ id, id ≠ q.id → s'.activatedUser id = s.activatedUser id

structure SavesNone (s : RegistrationTables) (call : RegistrationCall) (reply : HttpReply) (s' : RegistrationTables) :
    Prop where
  accounts : s'.accounts = s.accounts
  users : ∀ id, s'.activatedUser id = s.activatedUser id
  refused : ∀ registrationId code, call.request = .verify registrationId code → reply.status ≠ 200

theorem saves_cases (settings : RegistrationSettings) (s : RegistrationTables) (call : RegistrationCall) :
    SavesNone s call (call.answer settings s).1 (call.answer settings s).2 ∨
      ∃ q, Saves settings s call (call.answer settings s).2 q := by
  have hprogress := verificationStep_progress settings s (.request call)
  rw [verificationStep] at hprogress
  generalize (call.answer settings s).2 = s' at hprogress
  cases hprogress with
  | asked _ _ hrequest heffect =>
    have hspares := heffect.spares hrequest
    exact .inl ⟨hspares.accounts, hspares.users, fun registrationId code heq => absurd heq (hrequest registrationId code)⟩
  | kept _ registrationId code hrequest hcode hrefused => exact .inl ⟨rfl, fun _ => rfl, fun _ _ _ => hrefused⟩
  | locked _ registrationId code id hrequest hnone hrefused => exact .inl ⟨rfl, fun _ => rfl, fun _ _ _ => hrefused⟩
  | denied _ registrationId code q hrequest hcompared hrefused => exact .inl ⟨rfl, fun _ => rfl, fun _ _ _ => hrefused⟩
  | accepted _ registrationId code q user _ dispatch hrequest hcompared hcode hactivated =>
    have hq := comparison_eq_some hcompared
    obtain ⟨hgenuine, hqueued⟩ := activateRegistration_queues hactivated
    have huser (id : Uuid) : s'.activatedUser id = if id = q.id then some s.accounts.length else s.activatedUser id := by
      simp only [RegistrationTables.activatedUser, hqueued.rest.1, Table.find_put]
      split <;> rfl
    refine .inr ⟨q, ?_, hq.target ▸ hq, hgenuine, ?_, fun id hid => ?_⟩
    · rw [hrequest, hq.target, hcode]
    · rw [huser, if_pos rfl]
    · rw [huser, if_neg hid]

theorem activatedBy_request {settings : RegistrationSettings} (h : activatedBy settings s op = some id) :
    ∃ call, op = .request call ∧ (call.answer settings s).2.accounts ≠ s.accounts ∧ call.request.target = some id := by
  cases op with
  | join email => cases h
  | request call =>
    rw [activatedBy, Option.ite_none_left_eq_some] at h
    exact ⟨call, rfl, h.1, h.2⟩

theorem wrongGuesses_step (settings : RegistrationSettings) (s : RegistrationTables) (op : VerificationStep) (i : Nat) :
    (decide (wrongGuess settings s op = some i)).toNat + s.attemptsAt i ≤
      (verificationStep settings s op).attemptsAt i := by
  have hnone (hright : ∀ call registrationId code q, op = .request call →
      call.request = .verify registrationId code →
        comparison settings call.draw.now registrationId code s = some q → code = q.challenge.otpHash) :
      (decide (wrongGuess settings s op = some i)).toNat = 0 := by
    refine congrArg Bool.toNat (decide_eq_false fun hguess => ?_)
    cases op with
    | join email => cases hguess
    | request call =>
      obtain ⟨registrationId, code, q, hrequest, hcompared, hwrong, -⟩ := wrongGuess_request hguess
      exact hwrong (hright call registrationId code q rfl hrequest hcompared)
  have hprogress := verificationStep_progress settings s op
  generalize verificationStep settings s op = s' at hprogress
  cases hprogress with
  | joined email => exact (Nat.zero_add _).le
  | asked call _ hrequest heffect =>
    rw [hnone fun call' registrationId code q heq hverify => ?_, (heffect.spares hrequest).attemptsAt, Nat.zero_add]
    obtain rfl := VerificationStep.request.inj heq
    exact absurd hverify (hrequest registrationId code)
  | kept call registrationId code hrequest hcode =>
    rw [hnone fun call' registrationId' code' q heq hverify hcompared => ?_, Nat.zero_add]
    obtain rfl := VerificationStep.request.inj heq
    obtain ⟨rfl, rfl⟩ := RegistrationRequest.verify.inj (hrequest.symm.trans hverify)
    exact hcode q hcompared
  | locked call registrationId code id hrequest hnothing =>
    have hlock : KeepsAttempts EmailVerificationChallenge.lock := fun _ => ⟨rfl, rfl⟩
    rw [hnone fun call' registrationId' code' q heq hverify hcompared => ?_, (Spares.setActive s id hlock).attemptsAt,
      Nat.zero_add]
    obtain rfl := VerificationStep.request.inj heq
    obtain ⟨rfl, rfl⟩ := RegistrationRequest.verify.inj (hrequest.symm.trans hverify)
    rw [hnothing] at hcompared
    cases hcompared
  | denied call registrationId code q hrequest hcompared =>
    refine le_trans (Nat.add_le_add_right ?_ _) (attemptsAt_setActive s q.id i fun _ => rfl)
    refine Bool.toNat_le_toNat (fun hguess => ?_)
    obtain ⟨registrationId', code', q', hverify, hcompared', -, hplace⟩ := wrongGuess_request (of_decide_eq_true hguess)
    obtain ⟨rfl, rfl⟩ := RegistrationRequest.verify.inj (hrequest.symm.trans hverify)
    rw [Option.some.inj (hcompared'.symm.trans hcompared)] at hplace
    exact decide_eq_true hplace
  | accepted call registrationId code q user _ dispatch hrequest hcompared hcode hactivated =>
    have hattempts : s'.attemptsAt i = (s.setActive q.id (.consume call.draw.now)).attemptsAt i := by
      rw [RegistrationTables.attemptsAt, (activateRegistration_queues hactivated).2.rest.2]
      rfl
    rw [hnone fun call' registrationId' code' q' heq hverify hcompared' => ?_, hattempts, Nat.zero_add]
    · have hconsume : ∀ c : EmailVerificationChallenge, (c.consume call.draw.now).attemptCount = c.attemptCount + 1 :=
        fun _ => rfl
      exact le_trans (Nat.le_add_left _ _) (attemptsAt_setActive s q.id i hconsume)
    · obtain rfl := VerificationStep.request.inj heq
      obtain ⟨rfl, rfl⟩ := RegistrationRequest.verify.inj (hrequest.symm.trans hverify)
      rwa [Option.some.inj (hcompared'.symm.trans hcompared)]

theorem activations_step (settings : RegistrationSettings) (h : Bounded s) (op : VerificationStep) (id : Uuid) :
    (decide (activatedBy settings s op = some id)).toNat + (s.activatedUser id).isSome.toNat ≤
      ((verificationStep settings s op).activatedUser id).isSome.toNat := by
  cases op with
  | join email => exact (Nat.zero_add _).le
  | request call =>
    simp only [verificationStep]
    rcases saves_cases settings s call with hnone | ⟨q, hsaves⟩
    · have hby : activatedBy settings s (.request call) = none := if_pos hnone.accounts
      rw [hby, hnone.users id]
      exact (Nat.zero_add _).le
    · by_cases hid : id = q.id
      · subst hid
        have hunused : s.activatedUser q.id = none := by
          rw [RegistrationTables.activatedUser, hsaves.compared.found, Option.bind_some]
          refine Option.eq_none_iff_forall_ne_some.mpr fun user huser => ?_
          have hcompleted := h.completed q.id q.pending hsaves.compared.found (by rw [huser]; exact Option.some_ne_none _)
          rw [hsaves.compared.status] at hcompleted
          cases hcompleted
        rw [hunused, hsaves.user]
        exact Bool.toNat_le _
      · have hby : activatedBy settings s (.request call) ≠ some id := fun heq => by
          obtain ⟨call', heq', -, htarget⟩ := activatedBy_request heq
          obtain rfl := VerificationStep.request.inj heq'
          rw [hsaves.request] at htarget
          exact hid (Option.some.inj htarget).symm
        rw [decide_eq_false hby, hsaves.others id hid]
        exact (Nat.zero_add _).le

theorem Accepts.carriesNewest (h : Bounded s) (haccepts : Accepts settings s call) : CarriesNewestCode s call := by
  rcases saves_cases settings s call with hnone | ⟨q, hsaves⟩
  · rcases haccepts with ⟨registrationId, code, hrequest, hstatus⟩ | haccounts
    · exact absurd hstatus (hnone.refused registrationId code hrequest)
    · exact absurd hnone.accounts haccounts
  · have hq := hsaves.compared
    obtain ⟨hmem, hid, hactive⟩ := active_of_found hq.active
    have hnewest := (h.consistent.active_eq hmem hid hactive).1
    exact ⟨q.id, _, q.pending, q.challenge, hsaves.request, hq.found, hq.status, hq.pendingFresh, hnewest,
      hq.challengeFresh, rfl⟩

theorem decoy_saves_none {pending : PendingRegistration} (htarget : call.request.target = some id)
    (hfound : s.registrations.find id = some pending) (hdecoy : pending.isDecoy = true) :
    (call.answer settings s).2.accounts = s.accounts := by
  rcases saves_cases settings s call with hnone | ⟨q, hsaves⟩
  · exact hnone.accounts
  · rw [hsaves.request] at htarget
    obtain rfl := Option.some.inj htarget
    rw [Option.some.inj (hfound.symm.trans hsaves.compared.found), hsaves.genuine] at hdecoy
    cases hdecoy

theorem empty_bounded (accounts : List String) : Bounded { accounts } := by
  refine ⟨(empty_sound accounts).tables, fun c hc => absurd hc List.not_mem_nil, fun id p hp => ?_⟩
  cases hp

theorem verification_safe (settings : RegistrationSettings) (accounts : List String) (ops : List VerificationStep) :
    VerificationSafe settings { accounts } ops := by
  have hstep : ∀ s op, Bounded s → Bounded (verificationStep settings s op) := fun _ op h => h.step settings op
  have hbounded : Throughout (verificationStep settings) (fun s _ => Bounded s) ops { accounts } :=
    throughout_of_invariant hstep (empty_bounded accounts)
  have hfinal : Bounded (ops.foldl (verificationStep settings) { accounts }) :=
    hbounded.reaches.invariant (empty_bounded accounts) fun s op h _ => hstep s op h
  refine ⟨fun i c hc => ?_, ?_, fun id => ?_, ?_⟩
  · have hcount : wrongGuesses settings i ops { accounts } + _ ≤ _ :=
      occurrences_add_le hstep (fun s op _ => wrongGuesses_step settings s op i) (empty_bounded accounts)
    have hattempts : (ops.foldl (verificationStep settings) { accounts }).attemptsAt i = c.attemptCount := by
      rw [RegistrationTables.attemptsAt, hc]
      rfl
    have hbound := hfinal.attempts c (List.mem_of_getElem? hc)
    omega
  · refine throughout_iff.mpr fun before op after heq call hop haccepts => ?_
    exact Accepts.carriesNewest (throughout_iff.mp hbounded before op after heq) haccepts
  · have hcount : activations settings id ops { accounts } + _ ≤ _ :=
      occurrences_add_le hstep (fun s op h => activations_step settings h op id) (empty_bounded accounts)
    exact (Nat.le_add_right _ _).trans (hcount.trans (Bool.toNat_le _))
  · exact throughout_iff.mpr fun before op after heq call id pending hop htarget hfound hdecoy =>
      decoy_saves_none htarget hfound hdecoy

end Activations

end Registration

end Beyvra
