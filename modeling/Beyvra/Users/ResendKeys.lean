import Beyvra.Relational.Stability
import Beyvra.Users.Enumeration
import Beyvra.Users.VerificationSafety

namespace Beyvra

open Relational

namespace Registration

def sentWithinHour (challenges : List EmailVerificationChallenge) (email : String) (now : Timestamp) : Nat :=
  (challenges.filter fun c => c.emailNormalized = email ∧ now - 3600 * microsecondsPerSecond ≤ c.createdAt).length

def OutboxKey.registration : OutboxKey → Option Uuid
  | .otp id _ => some id
  | .other _ => none

-- The verification mails of a registration, in the order in which they were queued.
def RegistrationTables.mailsFor (s : RegistrationTables) (id : Uuid) : List (OutboxKey × TransactionalEmailOutbox) :=
  s.outbox.rows.filter fun row => row.1.registration = some id

def RegistrationTables.lastQueued (s : RegistrationTables) (id : Uuid) : Option String :=
  (s.mailsFor id).getLast?.bind (·.2.payload.code)

-- A resend that is not suppressed commits, with a mail under a key that is not used yet.
def ResendQueues (settings : RegistrationSettings) (s : RegistrationTables) (op : VerificationStep) : Prop :=
  ∀ call registrationId id pending, op = .request call → call.request = .resend registrationId →
    resendable settings call.draw.now registrationId s = some (id, pending) → pending.isDecoy = false →
      ∃ s' dispatch key item, call.request.run settings call.draw s = .ok (resendSent settings, s', dispatch) ∧
        s.outbox.find key = none ∧ s'.outbox.find key = some item ∧ item.payload.code = some call.draw.code

def NewestQueued (s : RegistrationTables) : Prop :=
  ∀ id pending c, s.registrations.find id = some pending → pending.isDecoy = false → s.newestActive id = some c →
    s.lastQueued id = some c.otpHash

structure ResendsLive (settings : RegistrationSettings) (start : RegistrationTables) (ops : List VerificationStep) :
    Prop where
  queues : Throughout (verificationStep settings) (ResendQueues settings) ops start
  newest : ∀ before after, ops = before ++ after → NewestQueued (before.foldl (verificationStep settings) start)

-- The count of the last hour is not zero, and not what it was at an earlier resend of the registration.
def WindowDiffers (settings : RegistrationSettings) (s : RegistrationTables) (op : VerificationStep) : Prop :=
  ∀ call registrationId id pending, op = .request call → call.request = .resend registrationId →
    resendable settings call.draw.now registrationId s = some (id, pending) → pending.isDecoy = false →
      s.sendsWithinHour pending.emailNormalized call.draw.now ≠ 0 ∧
        ∀ before c after, s.challenges = before ++ c :: after → c.registration = id →
          (∃ earlier ∈ before, earlier.registration = id) →
            sentWithinHour before c.emailNormalized c.createdAt ≠
              s.sendsWithinHour pending.emailNormalized call.draw.now

def ordinalAfter (challenges : List EmailVerificationChallenge) (c : EmailVerificationChallenge) : Nat :=
  if ∃ earlier ∈ challenges, earlier.registration = c.registration then
    sentWithinHour challenges c.emailNormalized c.createdAt + 1
  else 1

structure Keyed (s : RegistrationTables) : Prop where
  consistent : Consistent s
  numbered : ∀ before c after, s.challenges = before ++ c :: after → c.sendCount = ordinalAfter before c
  first : ∀ id p, s.registrations.find id = some p → ∃ c ∈ s.challenges, c.registration = id ∧ c.sendCount = 1
  keyed : ∀ id ordinal item, s.outbox.find (.otp id ordinal) = some item →
    ∃ c ∈ s.challenges, c.registration = id ∧ c.sendCount = ordinal

structure KeepsIssue (f : EmailVerificationChallenge → EmailVerificationChallenge) : Prop where
  registration : ∀ c, (f c).registration = c.registration
  email : ∀ c, (f c).emailNormalized = c.emailNormalized
  code : ∀ c, (f c).otpHash = c.otpHash
  ordinal : ∀ c, (f c).sendCount = c.sendCount
  created : ∀ c, (f c).createdAt = c.createdAt
  active : ∀ c, (f c).status = .active → c.status = .active

-- The challenge of an issue, and the mail that it queues, if any.
structure Issue (s s' : RegistrationTables) (new : EmailVerificationChallenge)
    (mails : List (OutboxKey × TransactionalEmailOutbox)) : Prop where
  ordinal : new.sendCount = ordinalAfter s.challenges new
  active : new.status = .active
  known : ∀ id p', s'.registrations.find id = some p' →
    (∃ p, s.registrations.find id = some p ∧ p.isDecoy = p'.isDecoy) ∨ id = new.registration ∧ new.sendCount = 1
  queued : ∀ id, s'.mailsFor id = s.mailsFor id ++ if id = new.registration then mails else []
  mail : ∀ row ∈ mails, row.1 = .otp new.registration new.sendCount ∧ row.2.payload.code = some new.otpHash

-- Where the step is sound, every new code of a genuine registration is queued.
inductive Wrote (sound : Prop) (s s' : RegistrationTables) : Prop where
  | kept (f : EmailVerificationChallenge → EmailVerificationChallenge) (hf : KeepsIssue f)
      (hchallenges : s'.challenges = s.challenges.map f)
      (hknown : ∀ id p', s'.registrations.find id = some p' →
        ∃ p, s.registrations.find id = some p ∧ p.isDecoy = p'.isDecoy)
      (hmails : ∀ id, s'.mailsFor id = s.mailsFor id)
  | issued (f : EmailVerificationChallenge → EmailVerificationChallenge) (hf : KeepsIssue f)
      (new : EmailVerificationChallenge) (mails : List (OutboxKey × TransactionalEmailOutbox))
      (hchallenges : s'.challenges = s.challenges.map f ++ [new]) (hissue : Issue s s' new mails)
      (hqueued : sound → ∀ p, s'.registrations.find new.registration = some p → p.isDecoy = false → mails ≠ [])

section Writes

variable {settings : RegistrationSettings} {s s' : RegistrationTables} {op : VerificationStep}
  {call : RegistrationCall} {id : Uuid} {pending : PendingRegistration} {draw : Draw} {eventType : String}
  {ordinal : Nat} {dispatch : Bool} {f : EmailVerificationChallenge → EmailVerificationChallenge}
  {new : EmailVerificationChallenge} {mails : List (OutboxKey × TransactionalEmailOutbox)} {key : OutboxKey}
  {item : TransactionalEmailOutbox} {sound : Prop}

theorem mem_mailsFor {row : OutboxKey × TransactionalEmailOutbox} :
    row ∈ s.mailsFor id ↔ s.outbox.find row.1 = some row.2 ∧ row.1.registration = some id := by
  rw [RegistrationTables.mailsFor, List.mem_filter, decide_eq_true_eq]
  exact and_congr_left fun _ => Table.mem_rows_iff

theorem ordinalAfter_map (hf : KeepsIssue f) (challenges : List EmailVerificationChallenge)
    (c : EmailVerificationChallenge) : ordinalAfter (challenges.map f) c = ordinalAfter challenges c := by
  have hsent : sentWithinHour (challenges.map f) c.emailNormalized c.createdAt =
      sentWithinHour challenges c.emailNormalized c.createdAt := by
    simp only [sentWithinHour, List.filter_map, List.length_map, Function.comp_def, hf.email, hf.created]
  have hany : (∃ earlier ∈ challenges.map f, earlier.registration = c.registration) ↔
      ∃ earlier ∈ challenges, earlier.registration = c.registration := by
    simp only [List.mem_map, exists_exists_and_eq_and, hf.registration]
  unfold ordinalAfter
  simp only [hsent, hany]

theorem ordinalAfter_congr {challenges : List EmailVerificationChallenge} {c c' : EmailVerificationChallenge}
    (hregistration : c.registration = c'.registration) (hemail : c.emailNormalized = c'.emailNormalized)
    (hcreated : c.createdAt = c'.createdAt) : ordinalAfter challenges c = ordinalAfter challenges c' := by
  unfold ordinalAfter
  simp only [hregistration, hemail, hcreated]

theorem numbered_map (hf : KeepsIssue f)
    (h : ∀ before c after, s.challenges = before ++ c :: after → c.sendCount = ordinalAfter before c) :
    ∀ before c after, s.challenges.map f = before ++ c :: after → c.sendCount = ordinalAfter before c := by
  intro before c after heq
  obtain ⟨before', rest, hsplit, rfl, hrest⟩ := List.map_eq_append_iff.mp heq
  obtain ⟨c', after', rfl, rfl, rfl⟩ := List.map_eq_cons_iff.mp hrest
  rw [hf.ordinal, ordinalAfter_map hf, ordinalAfter_congr (hf.registration c') (hf.email c') (hf.created c')]
  exact h before' c' after' hsplit

theorem Wrote.keyed (h : Keyed s) (hconsistent : Consistent s') (hwrote : Wrote sound s s') : Keyed s' := by
  cases hwrote with
  | kept f hf hchallenges hknown hmails =>
    refine ⟨hconsistent, hchallenges ▸ numbered_map hf h.numbered, fun id p hp => ?_, fun id ordinal item hitem => ?_⟩
    · obtain ⟨p', hp', -⟩ := hknown id p hp
      obtain ⟨c, hc, hid, hcount⟩ := h.first id p' hp'
      exact ⟨f c, hchallenges ▸ List.mem_map_of_mem hc, (hf.registration c).trans hid, (hf.ordinal c).trans hcount⟩
    · have hmem : (OutboxKey.otp id ordinal, item) ∈ s.mailsFor id := hmails id ▸ mem_mailsFor.mpr ⟨hitem, rfl⟩
      obtain ⟨c, hc, hid, hcount⟩ := h.keyed id ordinal item (mem_mailsFor.mp hmem).1
      exact ⟨f c, hchallenges ▸ List.mem_map_of_mem hc, (hf.registration c).trans hid, (hf.ordinal c).trans hcount⟩
  | issued f hf new mails hchallenges hissue =>
    have hkept {c : EmailVerificationChallenge} (hc : c ∈ s.challenges) : f c ∈ s'.challenges :=
      hchallenges ▸ List.mem_append_left _ (List.mem_map_of_mem hc)
    have hnew : new ∈ s'.challenges := hchallenges ▸ List.mem_append_right _ List.mem_cons_self
    refine ⟨hconsistent, fun before c after heq => ?_, fun id p hp => ?_, fun id ordinal item hitem => ?_⟩
    · rw [hchallenges] at heq
      rcases List.eq_nil_or_concat after with rfl | ⟨after', last, rfl⟩
      · obtain ⟨rfl, hlast⟩ := List.append_inj' heq rfl
        obtain rfl := List.singleton_inj.mp hlast
        rw [ordinalAfter_map hf]
        exact hissue.ordinal
      · rw [List.concat_eq_append, ← List.cons_append, ← List.append_assoc] at heq
        obtain ⟨hsplit, -⟩ := List.append_inj' heq rfl
        exact numbered_map hf h.numbered before c after' hsplit
    · rcases hissue.known id p hp with ⟨p', hp', -⟩ | ⟨rfl, hcount⟩
      · obtain ⟨c, hc, hid, hcount⟩ := h.first id p' hp'
        exact ⟨f c, hkept hc, (hf.registration c).trans hid, (hf.ordinal c).trans hcount⟩
      · exact ⟨new, hnew, rfl, hcount⟩
    · have hmem : (OutboxKey.otp id ordinal, item) ∈ s'.mailsFor id := mem_mailsFor.mpr ⟨hitem, rfl⟩
      rw [hissue.queued id] at hmem
      rcases List.mem_append.mp hmem with hold | hadded
      · obtain ⟨c, hc, hid, hcount⟩ := h.keyed id ordinal item (mem_mailsFor.mp hold).1
        exact ⟨f c, hkept hc, (hf.registration c).trans hid, (hf.ordinal c).trans hcount⟩
      · have hmail : (OutboxKey.otp id ordinal, item) ∈ mails := by
          split at hadded
          · exact hadded
          · cases hadded
        obtain ⟨rfl, rfl⟩ := OutboxKey.otp.inj (hissue.mail _ hmail).1
        exact ⟨new, hnew, rfl, rfl⟩

theorem newestActive_mem (h : s.newestActive id = some new) :
    new ∈ s.challenges ∧ new.registration = id ∧ new.status = .active := by
  obtain ⟨hmem, hactive⟩ := List.mem_filter.mp (List.mem_of_getLast? h)
  exact ⟨hmem, of_decide_eq_true hactive⟩

theorem Wrote.newestQueued (h : Keyed s) (hnewest : NewestQueued s) (hconsistent : Consistent s') (hsound : sound)
    (hwrote : Wrote sound s s') : NewestQueued s' := by
  intro id pending c hfound hgenuine hactive
  obtain ⟨hc, hid, hstatus⟩ := newestActive_mem hactive
  have hold (f : EmailVerificationChallenge → EmailVerificationChallenge) (hf : KeepsIssue f)
      (hmem : c ∈ s.challenges.map f) (hmails : s'.mailsFor id = s.mailsFor id)
      (hknown : ∃ p, s.registrations.find id = some p ∧ p.isDecoy = pending.isDecoy) :
      s'.lastQueued id = some c.otpHash := by
    obtain ⟨c', hc', rfl⟩ := List.mem_map.mp hmem
    obtain ⟨p, hp, hdecoy⟩ := hknown
    have hnewest' := (h.consistent.active_eq hc' ((hf.registration c').symm.trans hid) (hf.active c' hstatus)).1
    rw [RegistrationTables.lastQueued, hmails, hf.code]
    exact hnewest id p c' hp (hdecoy.trans hgenuine) hnewest'
  cases hwrote with
  | kept f hf hchallenges hknown hmails => exact hold f hf (hchallenges ▸ hc) (hmails id) (hknown id pending hfound)
  | issued f hf new mails hchallenges hissue hqueued =>
    have hnew : new ∈ s'.challenges := hchallenges ▸ List.mem_append_right _ List.mem_cons_self
    by_cases hnewid : id = new.registration
    · have hsole := (hconsistent.active_eq hnew hnewid.symm hissue.active).1
      obtain rfl := Option.some.inj (hactive.symm.trans hsole)
      obtain ⟨rest, last, hlast⟩ := List.eq_nil_or_concat mails |>.resolve_left
        (hqueued hsound pending (hnewid ▸ hfound) hgenuine)
      have hcode := (hissue.mail last (hlast ▸ by simp)).2
      rw [RegistrationTables.lastQueued, hissue.queued id, if_pos hnewid, hlast, List.concat_eq_append,
        ← List.append_assoc, List.getLast?_concat, Option.bind_some, hcode]
    · have hmem : c ∈ s.challenges.map f := by
        rcases List.mem_append.mp (hchallenges ▸ hc) with hmem | hadded
        · exact hmem
        · exact absurd (List.mem_singleton.mp hadded ▸ hid.symm) hnewid
      refine hold f hf hmem ?_ ((hissue.known id pending hfound).resolve_right fun hnew => hnewid hnew.1)
      rw [hissue.queued id, if_neg hnewid, List.append_nil]

theorem mailsFor_put_other (s : RegistrationTables) (text : String) (item : TransactionalEmailOutbox) (id : Uuid)
    (hfree : s.outbox.find (.other text) = none) :
    { s with outbox := s.outbox.put (.other text) item }.mailsFor id = s.mailsFor id := by
  simp [RegistrationTables.mailsFor, Table.rows_put_of_none hfree, OutboxKey.registration]

theorem mailsFor_put_otp (s : RegistrationTables) (id : Uuid) (ordinal : Nat) (item : TransactionalEmailOutbox)
    (hfree : s.outbox.find (.otp id ordinal) = none) (id' : Uuid) :
    { s with outbox := s.outbox.put (.otp id ordinal) item }.mailsFor id' =
      s.mailsFor id' ++ if id' = id then [(.otp id ordinal, item)] else [] := by
  by_cases hid : id' = id
  · subst hid
    simp [RegistrationTables.mailsFor, Table.rows_put_of_none hfree, OutboxKey.registration]
  · simp [RegistrationTables.mailsFor, Table.rows_put_of_none hfree, OutboxKey.registration, hid, Ne.symm hid]

theorem issueCode_mails (hissued : issueCode settings draw eventType id pending ordinal s = .ok (s', dispatch)) :
    ∃ mails, (∀ id', s'.mailsFor id' = s.mailsFor id' ++ if id' = id then mails else []) ∧
      (∀ row ∈ mails, row.1 = .otp id ordinal ∧ row.2.payload.code = some draw.code) ∧
      (s.outbox.find (.otp id ordinal) = none → pending.isDecoy = false → mails ≠ []) := by
  have hnone : (∀ id', s.mailsFor id' = s.mailsFor id' ++ if id' = id then [] else []) ∧
      ∀ row ∈ ([] : List (OutboxKey × TransactionalEmailOutbox)),
        row.1 = .otp id ordinal ∧ row.2.payload.code = some draw.code :=
    ⟨fun id' => by rw [ite_self, List.append_nil], fun _ hrow => absurd hrow List.not_mem_nil⟩
  have hcases := issueCode_eq_ok hissued
  dsimp only at hcases
  split at hcases
  · next hdecoy =>
    subst hcases
    refine ⟨[], hnone.1, hnone.2, fun _ hgenuine => ?_⟩
    rw [hdecoy] at hgenuine
    cases hgenuine
  · cases hcases with
    | present stored hstored hsame =>
      refine ⟨[], hnone.1, hnone.2, fun hfree _ => ?_⟩
      have hstored' : s.outbox.find (.otp id ordinal) = some stored := hstored
      rw [hfree] at hstored'
      cases hstored'
    | added hfree =>
      refine ⟨[(.otp id ordinal, otpMail settings draw eventType pending)], ?_, fun row hrow => ?_, fun _ _ => by simp⟩
      · exact mailsFor_put_otp s id ordinal _ hfree
      · rw [List.mem_singleton.mp hrow]
        exact ⟨rfl, rfl⟩

theorem issueCode_challenges (hissued : issueCode settings draw eventType id pending ordinal s = .ok (s', dispatch)) :
    s'.challenges = s.challenges ++ [issuedChallenge settings draw id pending ordinal] := by
  have hcases := issueCode_eq_ok hissued
  dsimp only at hcases
  split at hcases
  · rw [hcases]
  · exact hcases.rest.2

end Writes

section Steps

variable {settings : RegistrationSettings} {s s' : RegistrationTables} {op : VerificationStep}
  {call : RegistrationCall} {id : Uuid} {pending : PendingRegistration} {registrationId : Option Uuid} {sound : Prop}
  {f : EmailVerificationChallenge → EmailVerificationChallenge}

theorem KeepsIssue.ite (hf : KeepsIssue f) (P : EmailVerificationChallenge → Prop) [DecidablePred P] :
    KeepsIssue fun c => if P c then f c else c where
  registration c := by split <;> [exact hf.registration c; rfl]
  email c := by split <;> [exact hf.email c; rfl]
  code c := by split <;> [exact hf.code c; rfl]
  ordinal c := by split <;> [exact hf.ordinal c; rfl]
  created c := by split <;> [exact hf.created c; rfl]
  active c := by split <;> [exact hf.active c; exact id]

theorem keepsIssue_self : KeepsIssue fun c => c := ⟨fun _ => rfl, fun _ => rfl, fun _ => rfl, fun _ => rfl, fun _ => rfl,
  fun _ h => h⟩

theorem keepsIssue_invalidate (now : Timestamp) : KeepsIssue (.invalidate now) :=
  ⟨fun _ => rfl, fun _ => rfl, fun _ => rfl, fun _ => rfl, fun _ => rfl, fun _ h => (by cases h)⟩

theorem Wrote.none (hchallenges : s'.challenges = s.challenges) (hregistrations : s'.registrations = s.registrations)
    (houtbox : s'.outbox = s.outbox) : Wrote sound s s' := by
  refine .kept _ keepsIssue_self (by rw [hchallenges, List.map_id']) (fun id p hp => ?_) fun id => ?_
  · exact ⟨p, hregistrations ▸ hp, rfl⟩
  · rw [RegistrationTables.mailsFor, houtbox, RegistrationTables.mailsFor]

theorem Wrote.setActive (s : RegistrationTables) (id : Uuid) (hf : KeepsIssue f) : Wrote sound s (s.setActive id f) :=
  .kept _ (hf.ite fun c => c.registration = id ∧ c.status = .active) rfl (fun _ p hp => ⟨p, hp, rfl⟩) fun _ => rfl

theorem Wrote.weaken {sound' : Prop} (h : Wrote sound s s') (hsound : sound' → sound) : Wrote sound' s s' := by
  cases h with
  | kept f hf hchallenges hknown hmails => exact .kept f hf hchallenges hknown hmails
  | issued f hf new mails hchallenges hissue hqueued =>
    exact .issued f hf new mails hchallenges hissue fun h => hqueued (hsound h)

theorem resend_wrote {draw : Draw} {dispatch : Bool} (h : Keyed s) (hfound : s.registrations.find id = some pending)
    (hissued : issueCode settings draw "email_otp_resent" id pending
      (s.sendsWithinHour pending.emailNormalized draw.now + 1) (s.setActive id (.invalidate draw.now)) =
        .ok (s', dispatch)) :
    Wrote (pending.isDecoy = false →
      s.outbox.find (.otp id (s.sendsWithinHour pending.emailNormalized draw.now + 1)) = none) s s' := by
  obtain ⟨mails, hqueued, hmail, hnonempty⟩ := issueCode_mails hissued
  have hregistrations := issueCode_registrations hissued
  refine .issued _ ((keepsIssue_invalidate draw.now).ite fun c => c.registration = id ∧ c.status = .active) _ mails
    (issueCode_challenges hissued) ⟨?_, rfl, fun id' p hp => ?_, hqueued, hmail⟩ fun hfree p hp hgenuine => ?_
  · obtain ⟨c, hc, hid, -⟩ := h.first id pending hfound
    exact (if_pos ⟨c, hc, hid⟩).symm
  · exact .inl ⟨p, hregistrations ▸ hp, rfl⟩
  · have hsame : p = pending := by
      have hp' : s.registrations.find id = some p := hregistrations ▸ hp
      exact Option.some.inj (hp'.symm.trans hfound)
    subst hsame
    exact hnonempty (hfree hgenuine) hgenuine

theorem resendable_found {settings : RegistrationSettings} {now : Timestamp}
    (h : resendable settings now registrationId s = some (id, pending)) : s.registrations.find id = some pending :=
  (named_eq_some (Option.filter_eq_some_iff.mp h).1).2

theorem WindowDiffers.keyFree (h : Keyed s) (hwindow : WindowDiffers settings s (.request call))
    (hrequest : call.request = .resend registrationId)
    (hdue : resendable settings call.draw.now registrationId s = some (id, pending)) (hgenuine : pending.isDecoy = false) :
    s.outbox.find (.otp id (s.sendsWithinHour pending.emailNormalized call.draw.now + 1)) = none := by
  obtain ⟨hsome, hdiffers⟩ := hwindow call registrationId id pending rfl hrequest hdue hgenuine
  refine Option.eq_none_iff_forall_ne_some.mpr fun item hitem => ?_
  obtain ⟨c, hc, hid, hcount⟩ := h.keyed _ _ item hitem
  obtain ⟨before, after, hsplit⟩ := List.append_of_mem hc
  have hordinal := h.numbered before c after hsplit
  unfold ordinalAfter at hordinal
  split at hordinal
  · next hearlier =>
    rw [hid] at hearlier
    exact hdiffers before c after hsplit hid hearlier (by omega)
  · omega

theorem register_wrote (h : Keyed s) (hresend : ∀ registrationId, call.request ≠ .resend registrationId)
    (hverify : ∀ registrationId code, call.request ≠ .verify registrationId code)
    (heffect : RequestEffect settings s call s') : Wrote sound s s' := by
  have hexpire (data : RegistrationInput) : KeepsIssue fun c : EmailVerificationChallenge =>
      if (s.registrations.find c.registration).any (fun p => p.emailNormalized = data.email ∧
        p.status = .pendingEmailVerification ∧ p.expiresAt ≤ call.draw.now) ∧ c.status = .active
      then c.invalidate call.draw.now else c :=
    (keepsIssue_invalidate call.draw.now).ite _
  have hknown (data : RegistrationInput) (id : Uuid) (p' : PendingRegistration)
      (hp' : (s.expire data.email call.draw.now).registrations.find id = some p') :
      ∃ p, s.registrations.find id = some p ∧ p.isDecoy = p'.isDecoy := by
    simp only [RegistrationTables.expire, Table.find_mapRows, Option.map_eq_some_iff] at hp'
    obtain ⟨p, hp, rfl⟩ := hp'
    exact ⟨p, hp, by split <;> rfl⟩
  cases heffect with
  | nothing => exact .none rfl rfl rfl
  | expired data hrequest => exact .kept _ (hexpire data) rfl (hknown data) fun _ => rfl
  | registered data isDecoy s₁ _ dispatch hrequest hfresh hput hissued =>
    subst hput
    obtain ⟨mails, hqueued, hmail, hnonempty⟩ := issueCode_mails hissued
    have hregistrations := issueCode_registrations hissued
    have hnone : s.registrations.find call.draw.id = none := by
      cases hfound : s.registrations.find call.draw.id with
      | none => rfl
      | some p =>
        rw [RegistrationTables.expire, Table.find_mapRows, hfound, Option.map_some] at hfresh
        cases hfresh
    refine .issued _ (hexpire data) _ mails (issueCode_challenges hissued)
      ⟨?_, rfl, fun id p hp => ?_, hqueued, hmail⟩ fun _ p hp hgenuine => ?_
    · refine (if_neg ?_).symm
      rintro ⟨c, hc, hid⟩
      obtain ⟨p, hp⟩ := h.consistent.known c hc
      have hid' : c.registration = call.draw.id := hid
      rw [hid', hnone] at hp
      cases hp
    · rw [hregistrations] at hp
      rcases Table.find_put_cases hp with ⟨rfl, -⟩ | ⟨-, hold⟩
      · exact .inr ⟨rfl, rfl⟩
      · exact .inl (hknown data id p hold)
    · rw [hregistrations] at hp
      have hp' : newRegistration settings call.draw.now isDecoy data = p :=
        Option.some.inj ((Table.find_put_self ..).symm.trans hp)
      subst hp'
      refine hnonempty (Option.eq_none_iff_forall_ne_some.mpr fun item hitem => ?_) hgenuine
      obtain ⟨p, hp, -⟩ := h.consistent.posted call.draw.id 1 item hitem
      rw [hnone] at hp
      cases hp
  | resent id pending ordinal _ dispatch hrequest => exact absurd hrequest (hresend _)
  | checked id code f hrequest => exact absurd hrequest (hverify _ _)
  | verified id code pending f user _ dispatch hrequest => exact absurd hrequest (hverify _ _)

theorem activated_wrote {now : Timestamp} {user : Nat} {dispatch : Bool}
    (hfound : s.registrations.find id = some pending)
    (hactivated : activateRegistration settings now id pending (s.setActive id (.consume now)) =
      .ok (user, s', dispatch)) : Wrote sound s s' := by
  have hconsume : KeepsIssue (.consume now) :=
    ⟨fun _ => rfl, fun _ => rfl, fun _ => rfl, fun _ => rfl, fun _ => rfl, fun _ h => (by cases h)⟩
  obtain ⟨-, hqueued⟩ := activateRegistration_queues hactivated
  have hmails : ∀ id', s'.mailsFor id' = s.mailsFor id' := by
    intro id'
    cases hqueued with
    | added hfree => exact mailsFor_put_other _ _ _ id' hfree
    | present stored hstored hsame => rfl
  refine .kept _ (hconsume.ite fun c => c.registration = id ∧ c.status = .active) hqueued.rest.2
    (fun id' p hp => ?_) hmails
  rw [hqueued.rest.1] at hp
  rcases Table.find_put_cases hp with ⟨rfl, rfl⟩ | ⟨-, hold⟩
  · exact ⟨pending, hfound, rfl⟩
  · exact ⟨p, hold, rfl⟩

theorem step_wrote (settings : RegistrationSettings) (h : Keyed s) (op : VerificationStep) :
    Wrote (WindowDiffers settings s op) s (verificationStep settings s op) := by
  by_cases hresend : ∃ call registrationId, op = .request call ∧ call.request = .resend registrationId
  · obtain ⟨call, registrationId, rfl, hrequest⟩ := hresend
    have hanswer : (call.answer settings s).2 =
        (respond call.brokerUp s (resend settings call.draw registrationId s)).2 := by
      rw [RegistrationCall.answer, hrequest]
      rfl
    rw [verificationStep, hanswer]
    cases hdue : resendable settings call.draw.now registrationId s with
    | none =>
      rw [resend_of_none hdue]
      exact .none rfl rfl rfl
    | some due =>
      obtain ⟨id, pending⟩ := due
      rw [resend_of_some hdue]
      cases hissued : issueCode settings call.draw "email_otp_resent" id pending
          (s.sendsWithinHour pending.emailNormalized call.draw.now + 1) (s.setActive id (.invalidate call.draw.now)) with
      | error e =>
        rw [bind_of_error rfl]
        exact .none rfl rfl rfl
      | ok issued =>
        obtain ⟨s', dispatch⟩ := issued
        rw [bind_of_ok rfl]
        refine (resend_wrote h (resendable_found hdue) hissued).weaken fun hwindow hgenuine => ?_
        exact hwindow.keyFree h hrequest hdue hgenuine
  · have hprogress := verificationStep_progress settings s op
    generalize verificationStep settings s op = s' at hprogress
    cases hprogress with
    | joined email => exact .none rfl rfl rfl
    | asked call _ hverify heffect =>
      exact register_wrote h (fun registrationId heq => hresend ⟨call, registrationId, rfl, heq⟩) hverify heffect
    | kept => exact .none rfl rfl rfl
    | locked call registrationId code id =>
      exact .setActive s id ⟨fun _ => rfl, fun _ => rfl, fun _ => rfl, fun _ => rfl, fun _ => rfl, fun _ h => (by cases h)⟩
    | denied call registrationId code q =>
      exact .setActive s q.id ⟨fun _ => rfl, fun _ => rfl, fun _ => rfl, fun _ => rfl, fun _ => rfl, fun _ h => h⟩
    | accepted call registrationId code q user _ dispatch hrequest hcompared hcode hactivated =>
      exact activated_wrote (comparison_eq_some hcompared).found hactivated

theorem verificationStep_consistent (settings : RegistrationSettings) (h : Consistent s) (op : VerificationStep) :
    Consistent (verificationStep settings s op) := by
  cases op with
  | join email => exact h.withAccounts _
  | request call => exact h.request (answer_effect settings s call)

theorem Keyed.step (settings : RegistrationSettings) (h : Keyed s) (op : VerificationStep) :
    Keyed (verificationStep settings s op) :=
  (step_wrote settings h op).keyed h (verificationStep_consistent settings h.consistent op)

theorem queues_iff_differs (h : Keyed s) (op : VerificationStep) :
    ResendQueues settings s op ↔ WindowDiffers settings s op := by
  constructor
  · intro hqueues call registrationId id pending hop hrequest hdue hgenuine
    obtain ⟨s', dispatch, key, item, hrun, hfree, hqueued, -⟩ :=
      hqueues call registrationId id pending hop hrequest hdue hgenuine
    have hresend : resend settings call.draw registrationId s = .ok (resendSent settings, s', dispatch) := by
      rw [hrequest] at hrun
      exact hrun
    rw [resend_of_some hdue] at hresend
    obtain ⟨⟨issued, dispatched⟩, hissued, hpure⟩ := bind_eq_ok.mp hresend
    obtain ⟨rfl, -⟩ := Prod.mk.inj (Prod.mk.inj (pure_eq_ok.mp hpure)).2
    have hcases := issueCode_eq_ok hissued
    rw [hgenuine, if_neg Bool.false_ne_true] at hcases
    -- a mail that is there already leaves no new key
    have hunused : s.outbox.find (.otp id (s.sendsWithinHour pending.emailNormalized call.draw.now + 1)) = none := by
      cases hcases with
      | added hunused => exact hunused
      | present stored hstored hsame =>
        have hsame' : s.outbox.find key = some item := hqueued
        rw [hfree] at hsame'
        cases hsame'
    have hnumber (c : EmailVerificationChallenge) (hc : c ∈ s.challenges) (hid : c.registration = id) :
        c.sendCount ≠ s.sendsWithinHour pending.emailNormalized call.draw.now + 1 := by
      intro hcount
      obtain ⟨item, hitem, -⟩ := h.consistent.mailed c hc pending (hid ▸ resendable_found hdue) hgenuine
      rw [hid, hcount, hunused] at hitem
      cases hitem
    refine ⟨fun hzero => ?_, fun before c after hsplit hid hearlier hsame => ?_⟩
    · obtain ⟨c, hc, hid, hcount⟩ := h.first id pending (resendable_found hdue)
      exact hnumber c hc hid (by omega)
    · have hordinal := h.numbered before c after hsplit
      rw [ordinalAfter, hid, if_pos hearlier, hsame] at hordinal
      exact hnumber c (hsplit ▸ List.mem_append_right _ List.mem_cons_self) hid hordinal
  · rintro hwindow call registrationId id pending rfl hrequest hdue hgenuine
    have hfree := hwindow.keyFree h hrequest hdue hgenuine
    have hissue : issueCode settings call.draw "email_otp_resent" id pending
        (s.sendsWithinHour pending.emailNormalized call.draw.now + 1) (s.setActive id (.invalidate call.draw.now)) =
          .ok ({ s.setActive id (.invalidate call.draw.now) with
            challenges := (s.setActive id (.invalidate call.draw.now)).challenges ++ [issuedChallenge settings call.draw
              id pending (s.sendsWithinHour pending.emailNormalized call.draw.now + 1)]
            outbox := s.outbox.put (.otp id (s.sendsWithinHour pending.emailNormalized call.draw.now + 1))
              (otpMail settings call.draw "email_otp_resent" pending) }, settings.transactionalEmailEnabled) := by
      rw [issueCode, hgenuine, if_neg Bool.false_ne_true, queueEmail]
      have hfree' : (s.setActive id (.invalidate call.draw.now)).outbox.find
          (.otp id (s.sendsWithinHour pending.emailNormalized call.draw.now + 1)) = none := hfree
      simp only [hfree']
      rfl
    have hresend := resend_of_some hdue
    rw [bind_of_ok hissue] at hresend
    rw [hrequest]
    exact ⟨_, _, _, otpMail settings call.draw "email_otp_resent" pending, hresend, hfree, Table.find_put_self .., rfl⟩

theorem empty_keyed (accounts : List String) : Keyed { accounts } := by
  refine ⟨(empty_sound accounts).tables, fun before c after heq => ?_, fun id p hp => ?_, fun id ordinal item hitem => ?_⟩
  · exact absurd heq.symm (by simp)
  · cases hp
  · cases hitem

theorem resends_live_iff {settings : RegistrationSettings} {accounts : List String} {ops : List VerificationStep} :
    ResendsLive settings { accounts } ops ↔
      Throughout (verificationStep settings) (WindowDiffers settings) ops { accounts } := by
  have hiff : Throughout (verificationStep settings) (ResendQueues settings) ops { accounts } ↔
      Throughout (verificationStep settings) (WindowDiffers settings) ops { accounts } :=
    throughout_congr (fun s op h _ => Keyed.step settings h op) (fun s op h => queues_iff_differs h op)
      (empty_keyed accounts)
  refine ⟨fun h => hiff.mp h.queues, fun h => ⟨hiff.mpr h, ?_⟩⟩
  rintro before after rfl
  have hbefore := (throughout_append.mp h).1
  have hstart : Keyed { accounts } ∧ NewestQueued { accounts } :=
    ⟨empty_keyed accounts, fun id pending c hfound => (by cases hfound)⟩
  have hkeeps (s : RegistrationTables) (op : VerificationStep) (hs : Keyed s ∧ NewestQueued s)
      (hwindow : WindowDiffers settings s op) :
      Keyed (verificationStep settings s op) ∧ NewestQueued (verificationStep settings s op) := by
    have hwrote := step_wrote settings hs.1 op
    have hconsistent := verificationStep_consistent settings hs.1.consistent op
    exact ⟨hwrote.keyed hs.1 hconsistent, hwrote.newestQueued hs.1 hs.2 hconsistent hwindow⟩
  exact (hbefore.reaches.invariant hstart hkeeps).2

-- After an hour the count of sends is back to none, and the key of the first mail is used again.
theorem late_resend_raises : ¬∀ settings accounts ops, ResendsLive settings { accounts } ops := by
  intro h
  have hqueues := throughout_iff.mp (h {} [] [.request probed, .request (resentAt 3601)]).queues [.request probed]
    (.request (resentAt 3601)) [] rfl
  have hdue : ((resendable {} (resentAt 3601).draw.now (some "first") (verificationStep {} {} (.request probed))).map
      fun due => (due.1, due.2.isDecoy)) = some ("first", false) := by decide +kernel
  obtain ⟨⟨id, pending⟩, hdue, heq⟩ := Option.map_eq_some_iff.mp hdue
  obtain ⟨rfl, hgenuine⟩ := Prod.mk.inj heq
  obtain ⟨s', dispatch, key, item, hrun, -⟩ := hqueues _ _ _ _ rfl rfl hdue hgenuine
  have hraises : ((resentAt 3601).request.run {} (resentAt 3601).draw (verificationStep {} {} (.request probed))).isOk =
      false := by decide +kernel
  have hrun' : (resentAt 3601).request.run {} (resentAt 3601).draw (verificationStep {} {} (.request probed)) =
      .ok (resendSent {}, s', dispatch) := hrun
  rw [hrun'] at hraises
  cases hraises

end Steps

end Registration

end Beyvra
