import Beyvra.Users.SentMail

namespace Beyvra

open Relational

namespace Registration

def RegistrationTables.activeChallenges (s : RegistrationTables) (id : Uuid) : List EmailVerificationChallenge :=
  s.challenges.filter fun c => c.registration = id ∧ c.status = .active

-- The challenges stand in the order of their creation.
def RegistrationTables.newestActive (s : RegistrationTables) (id : Uuid) : Option EmailVerificationChallenge :=
  (s.activeChallenges id).getLast?

-- The mail carries the code of the newest active challenge of a pending registration, neither expired by then.
def CurrentCode (s : RegistrationTables) (time : Timestamp) (key : OutboxKey) (item : TransactionalEmailOutbox) :
    Prop :=
  ∃ id ordinal pending challenge, key = .otp id ordinal ∧ s.registrations.find id = some pending ∧
    pending.status = .pendingEmailVerification ∧ time < pending.expiresAt ∧
    s.newestActive id = some challenge ∧ time < challenge.expiresAt ∧ item.payload.code = some challenge.otpHash

def MailStep.time : MailStep → Option Timestamp
  | .request call => some call.draw.now
  | .claim _ now _ | .lock _ now | .submit _ now _ | .complete _ now | .recordFailure _ now => some now
  | .interrupt _ _ | .crash _ => none

namespace MailSystem

variable (settings : RegistrationSettings) (s : MailSystem) (op : MailStep)

-- At the moment of the step that hands it over the code is current.
def HandsFresh : Prop :=
  ∀ worker now outcome key item, op = .submit worker now outcome → s.handsOver settings op = some (key, item) →
    item.templateKey = "email_otp" → CurrentCode s.tables now key item

-- The tables at the hand-over, against the clock as the worker read it when it locked the row.
def HandsChecked : Prop :=
  ∀ worker now outcome key item, op = .submit worker now outcome → s.handsOver settings op = some (key, item) →
    item.templateKey = "email_otp" → ∃ checkedAt, s.stage worker = .locked key item checkedAt ∧
      CurrentCode s.tables checkedAt key item

-- A mail whose code is not current when its row is locked becomes a dead letter; locking may have to wait.
def SuppressesStale : Prop :=
  ∀ worker now key attemptCount item, op = .lock worker now → s.stage worker = .claimed key attemptCount →
    s.tables.outbox.find key = some item → item.templateKey = "email_otp" → ¬CurrentCode s.tables now key item →
    (s.rowLocked key ∨ (lockedRegistration key item).any s.registrationLocked) ∧ s.step settings op = s ∨
      (s.step settings op).tables.outbox.find key = some item.suppress ∧ (s.step settings op).stage worker = .idle

end MailSystem

-- One active challenge at most, and the mail of every challenge of a genuine registration carries its code.
structure Consistent (s : RegistrationTables) : Prop where
  soleActive : ∀ id, s.challenges.countP (fun c => c.registration = id ∧ c.status = .active) ≤ 1
  known : ∀ c ∈ s.challenges, ∃ p, s.registrations.find c.registration = some p
  posted : ∀ id ordinal item, s.outbox.find (.otp id ordinal) = some item →
    ∃ p, s.registrations.find id = some p ∧ p.isDecoy = false
  mailed : ∀ c ∈ s.challenges, ∀ p, s.registrations.find c.registration = some p → p.isDecoy = false →
    ∃ item, s.outbox.find (.otp c.registration c.sendCount) = some item ∧ item.payload.code = some c.otpHash

section Tables

variable {settings : RegistrationSettings} {s s' : RegistrationTables} {call : RegistrationCall} {id : Uuid}
  {pending : PendingRegistration} {draw : Draw} {eventType : String} {ordinal : Nat} {dispatch : Bool}
  {key : OutboxKey} {item : TransactionalEmailOutbox} {now : Timestamp}
  {f : EmailVerificationChallenge → EmailVerificationChallenge}

theorem Consistent.mapChallenges (h : Consistent s) (hf : KeepsCode f)
    (hactive : ∀ c, (f c).status = .active → c.status = .active) :
    Consistent { s with challenges := s.challenges.map f } where
  soleActive id := by
    rw [List.countP_map]
    refine le_trans (List.countP_mono_left fun c _ hc => ?_) (h.soleActive id)
    simp only [Function.comp_apply, decide_eq_true_eq, (hf c).1] at hc ⊢
    exact ⟨hc.1, hactive c hc.2⟩
  known c hc := by
    obtain ⟨c', hc', rfl⟩ := List.mem_map.mp hc
    rw [(hf c').1]
    exact h.known c' hc'
  posted := h.posted
  mailed c hc := by
    obtain ⟨c', hc', rfl⟩ := List.mem_map.mp hc
    rw [(hf c').1, (hf c').2.1, (hf c').2.2]
    exact h.mailed c' hc'

theorem Consistent.mapRegistrations (h : Consistent s) {g : Uuid → PendingRegistration → PendingRegistration}
    (hg : ∀ id p, (g id p).isDecoy = p.isDecoy) :
    Consistent { s with registrations := s.registrations.mapRows g } where
  soleActive := h.soleActive
  known c hc := by
    obtain ⟨p, hp⟩ := h.known c hc
    exact ⟨_, by rw [Table.find_mapRows, hp, Option.map_some]⟩
  posted id ordinal item hitem := by
    obtain ⟨p, hp, hgenuine⟩ := h.posted id ordinal item hitem
    exact ⟨_, by rw [Table.find_mapRows, hp, Option.map_some], (hg id p).trans hgenuine⟩
  mailed c hc p hp hgenuine := by
    rw [Table.find_mapRows, Option.map_eq_some_iff] at hp
    obtain ⟨p', hp', rfl⟩ := hp
    exact h.mailed c hc p' hp' ((hg _ p').symm.trans hgenuine)

theorem Consistent.putRegistration (h : Consistent s) (id : Uuid) (pending : PendingRegistration)
    (hsame : ∀ p, s.registrations.find id = some p → p.isDecoy = pending.isDecoy) :
    Consistent { s with registrations := s.registrations.put id pending } where
  soleActive := h.soleActive
  known c hc := by
    obtain ⟨p, hp⟩ := h.known c hc
    by_cases hid : c.registration = id
    · exact ⟨pending, by rw [hid, Table.find_put_self]⟩
    · exact ⟨p, (Table.find_put_of_ne _ _ hid).trans hp⟩
  posted id' ordinal item hitem := by
    obtain ⟨p, hp, hgenuine⟩ := h.posted id' ordinal item hitem
    by_cases hid : id' = id
    · subst hid
      exact ⟨pending, Table.find_put_self .., (hsame p hp).symm.trans hgenuine⟩
    · exact ⟨p, (Table.find_put_of_ne _ _ hid).trans hp, hgenuine⟩
  mailed c hc p hp hgenuine := by
    obtain ⟨p', hp'⟩ := h.known c hc
    refine h.mailed c hc p' hp' ?_
    rcases Table.find_put_cases hp with ⟨hid, rfl⟩ | ⟨-, hp⟩
    · exact (hsame p' (hid ▸ hp')).trans hgenuine
    · rwa [Option.some.inj (hp'.symm.trans hp)]

theorem Consistent.withAccounts (h : Consistent s) (accounts : List String) : Consistent { s with accounts } :=
  ⟨h.soleActive, h.known, h.posted, h.mailed⟩

theorem KeepsCode.ite (hf : KeepsCode f) (P : EmailVerificationChallenge → Prop) [DecidablePred P] :
    KeepsCode fun c => if P c then f c else c := by
  intro c
  by_cases hc : P c
  · simpa only [if_pos hc] using hf c
  · simp only [if_neg hc, and_self]

theorem Consistent.mapActive (h : Consistent s) (hf : KeepsCode f) (P : EmailVerificationChallenge → Prop)
    [DecidablePred P] (hactive : ∀ c, P c → c.status = .active) :
    Consistent { s with challenges := s.challenges.map fun c => if P c then f c else c } := by
  refine h.mapChallenges (hf.ite P) fun c hc => ?_
  by_cases hpc : P c
  · exact hactive c hpc
  · rwa [if_neg hpc] at hc

theorem Consistent.setActive (h : Consistent s) (id : Uuid) (hf : KeepsCode f) : Consistent (s.setActive id f) :=
  h.mapActive hf (fun c => c.registration = id ∧ c.status = .active) fun _ hc => hc.2

theorem Consistent.expire (h : Consistent s) (email : String) (now : Timestamp) : Consistent (s.expire email now) := by
  let due (p : PendingRegistration) : Bool :=
    p.emailNormalized = email ∧ p.status = .pendingEmailVerification ∧ p.expiresAt ≤ now
  have hmarked := h.mapRegistrations (g := fun _ p => if due p then { p with status := .expired } else p) fun _ p => by
    split <;> rfl
  have hkeeps : KeepsCode (.invalidate now) := fun _ => ⟨rfl, rfl, rfl⟩
  exact hmarked.mapActive hkeeps (fun c => (s.registrations.find c.registration).any due ∧ c.status = .active)
    fun _ hc => hc.2

theorem Consistent.queueOther (h : Consistent s) {text : String} (hq : Queues s (.other text) item s') :
    Consistent s' := by
  cases hq with
  | present stored hstored hsame => exact h
  | added hfree =>
    have hfind (id : Uuid) (ordinal : Nat) :
        (s.outbox.put (.other text) item).find (.otp id ordinal) = s.outbox.find (.otp id ordinal) :=
      Table.find_put_of_ne _ _ nofun
    refine ⟨h.soleActive, h.known, fun id ordinal stored hstored => ?_, fun c hc p hp hgenuine => ?_⟩
    · exact h.posted id ordinal stored ((hfind id ordinal).symm.trans hstored)
    · obtain ⟨stored, hstored, hcode⟩ := h.mailed c hc p hp hgenuine
      exact ⟨stored, (hfind _ _).trans hstored, hcode⟩

theorem Queues.kept (hq : Queues s key item s') {key' : OutboxKey} {row : TransactionalEmailOutbox}
    (hrow : s.outbox.find key' = some row) : s'.outbox.find key' = some row := by
  cases hq with
  | present stored hstored hsame => exact hrow
  | added hfree =>
    have hne : key' ≠ key := by
      rintro rfl
      rw [hfree] at hrow
      cases hrow
    exact (Table.find_put_of_ne _ _ hne).trans hrow

theorem Queues.stored (hq : Queues s key item s') :
    ∃ row, s'.outbox.find key = some row ∧ row.payload = item.payload := by
  cases hq with
  | present stored hstored hsame => exact ⟨stored, hstored, hsame.2.2.2.2⟩
  | added hfree => exact ⟨item, Table.find_put_self .., rfl⟩

theorem Queues.others (hq : Queues s key item s') {key' : OutboxKey} (hne : key' ≠ key) :
    s'.outbox.find key' = s.outbox.find key' := by
  cases hq with
  | present stored hstored hsame => rfl
  | added hfree => exact Table.find_put_of_ne _ _ hne

theorem Queues.rest (hq : Queues s key item s') :
    s'.registrations = s.registrations ∧ s'.challenges = s.challenges := by
  cases hq <;> exact ⟨rfl, rfl⟩

theorem Consistent.issue (h : Consistent s) (hfound : s.registrations.find id = some pending)
    (hnone : s.challenges.countP (fun c => c.registration = id ∧ c.status = .active) = 0)
    (hissued : issueCode settings draw eventType id pending ordinal s = .ok (s', dispatch)) : Consistent s' := by
  have hcases := issueCode_eq_ok hissued
  dsimp only at hcases
  have hsole (id' : Uuid) : (s.challenges ++ [issuedChallenge settings draw id pending ordinal]).countP
      (fun c => c.registration = id' ∧ c.status = .active) ≤ 1 := by
    rw [List.countP_append, List.countP_singleton]
    by_cases hid : id' = id
    · rw [hid, hnone, zero_add]
      split <;> simp
    · have hother : ¬((issuedChallenge settings draw id pending ordinal).registration = id' ∧
          (issuedChallenge settings draw id pending ordinal).status = .active) := fun heq => hid heq.1.symm
      simpa [hother] using h.soleActive id'
  have hknown : ∀ c ∈ s.challenges ++ [issuedChallenge settings draw id pending ordinal],
      ∃ p, s.registrations.find c.registration = some p := by
    intro c hc
    rcases List.mem_append.mp hc with hold | hnew
    · exact h.known c hold
    · rw [List.mem_singleton.mp hnew]
      exact ⟨pending, hfound⟩
  split at hcases
  · next hdecoy =>
    subst hcases
    refine ⟨hsole, hknown, h.posted, fun c hc p hp hgenuine => ?_⟩
    rcases List.mem_append.mp hc with hold | hnew
    · exact h.mailed c hold p hp hgenuine
    · rw [List.mem_singleton.mp hnew] at hp
      rw [← Option.some.inj (hfound.symm.trans hp), hdecoy] at hgenuine
      cases hgenuine
  · next hgenuine =>
    obtain ⟨hregistrations, hchallenges⟩ := hcases.rest
    refine ⟨hchallenges ▸ hsole, hchallenges ▸ hregistrations ▸ hknown, fun id' ordinal' row hrow => ?_, ?_⟩
    · rw [hregistrations]
      by_cases hkey : OutboxKey.otp id' ordinal' = .otp id ordinal
      · obtain ⟨rfl, rfl⟩ := OutboxKey.otp.inj hkey
        exact ⟨pending, hfound, Bool.eq_false_iff.mpr hgenuine⟩
      · exact h.posted id' ordinal' row ((hcases.others hkey).symm.trans hrow)
    · rw [hchallenges, hregistrations]
      intro c hc p hp hp'
      rcases List.mem_append.mp hc with hold | hnew
      · obtain ⟨row, hrow, hcode⟩ := h.mailed c hold p hp hp'
        exact ⟨row, hcases.kept hrow, hcode⟩
      · obtain ⟨row, hrow, hpayload⟩ := hcases.stored
        rw [List.mem_singleton.mp hnew]
        exact ⟨row, hrow, congrArg MailPayload.code hpayload⟩

theorem setActive_invalidate_countP (s : RegistrationTables) (id : Uuid) (now : Timestamp) :
    (s.setActive id (.invalidate now)).challenges.countP (fun c => c.registration = id ∧ c.status = .active) = 0 := by
  simp only [RegistrationTables.setActive, List.countP_eq_zero, List.mem_map, decide_eq_true_eq]
  rintro _ ⟨c, -, rfl⟩ hactive
  split at hactive
  · cases hactive.2
  · next hinactive => exact hinactive hactive

theorem Consistent.request (h : Consistent s) (heffect : RequestEffect settings s call s') : Consistent s' := by
  cases heffect with
  | nothing => exact h
  | expired data hrequest => exact h.expire data.email call.draw.now
  | registered data isDecoy s₁ _ dispatch hrequest hfresh hput hissued =>
    subst hput
    have hexpired := h.expire data.email call.draw.now
    have hadded := hexpired.putRegistration call.draw.id
      (newRegistration settings call.draw.now isDecoy data) fun p hp => by rw [hfresh] at hp; cases hp
    refine hadded.issue (Table.find_put_self ..) ?_ hissued
    -- a challenge of the new id would belong to a registration that is there already
    refine List.countP_eq_zero.mpr fun c hc hactive => ?_
    obtain ⟨p, hp⟩ := hexpired.known c hc
    rw [(of_decide_eq_true hactive).1, hfresh] at hp
    cases hp
  | resent id pending ordinal _ dispatch hrequest hfound hissued =>
    have hinvalidated := h.setActive id (f := .invalidate call.draw.now) fun _ => ⟨rfl, rfl, rfl⟩
    exact hinvalidated.issue hfound (setActive_invalidate_countP s id call.draw.now) hissued
  | checked id code f hrequest hf => exact h.setActive id hf
  | verified id code pending f user _ dispatch hrequest hf hfound hactivated =>
    obtain ⟨hgenuine, hqueued⟩ := activateRegistration_queues hactivated
    have hput := (h.setActive id hf).putRegistration id { pending with
      status := .completed, verifiedAt := some call.draw.now
      activatedUser := some (s.setActive id f).accounts.length } fun p hp => by
        rw [Option.some.inj (hp.symm.trans hfound)]
    exact (hput.withAccounts _).queueOther hqueued

-- The registration and its challenges are the same in both.
structure SameFor (id : Uuid) (s s' : RegistrationTables) : Prop where
  registration : s'.registrations.find id = s.registrations.find id
  challenges : s'.challenges.filter (·.registration = id) = s.challenges.filter (·.registration = id)

theorem SameFor.refl (id : Uuid) (s : RegistrationTables) : SameFor id s s := ⟨rfl, rfl⟩

theorem SameFor.trans {s'' : RegistrationTables} (h : SameFor id s s') (h' : SameFor id s' s'') : SameFor id s s'' :=
  ⟨h'.registration.trans h.registration, h'.challenges.trans h.challenges⟩

theorem SameFor.put {id' : Uuid} {p : PendingRegistration} (hid : id' ≠ id) :
    SameFor id s { s with registrations := s.registrations.put id' p } :=
  ⟨Table.find_put_of_ne _ _ hid.symm, rfl⟩

theorem filter_map_others {g : EmailVerificationChallenge → EmailVerificationChallenge}
    {challenges : List EmailVerificationChallenge} (hg : KeepsCode g) (hothers : ∀ c, c.registration = id → g c = c) :
    (challenges.map g).filter (·.registration = id) = challenges.filter (·.registration = id) := by
  rw [List.filter_map]
  have hsame : ((fun c : EmailVerificationChallenge => decide (c.registration = id)) ∘ g) =
      fun c => decide (c.registration = id) := by
    funext c
    simp only [Function.comp_apply, (hg c).1]
  rw [hsame]
  refine (List.map_congr_left fun c hc => ?_).trans (List.map_id _)
  exact hothers c (of_decide_eq_true (List.mem_filter.mp hc).2)

theorem SameFor.setActive {id' : Uuid} (hid : id' ≠ id) (hf : KeepsCode f) : SameFor id s (s.setActive id' f) where
  registration := rfl
  challenges := by
    refine filter_map_others (hf.ite _) fun c hc => if_neg ?_
    rintro ⟨hregistration, -⟩
    exact hid (hregistration.symm.trans hc)

theorem SameFor.issue {id' : Uuid} (hid : id' ≠ id)
    (hissued : issueCode settings draw eventType id' pending ordinal s = .ok (s', dispatch)) : SameFor id s s' := by
  have hcases := issueCode_eq_ok hissued
  dsimp only at hcases
  have hfilter : (s.challenges ++ [issuedChallenge settings draw id' pending ordinal]).filter (·.registration = id) =
      s.challenges.filter (·.registration = id) := by
    have hother : decide ((issuedChallenge settings draw id' pending ordinal).registration = id) = false :=
      decide_eq_false hid
    rw [List.filter_append, List.filter_singleton, hother, cond_false, List.append_nil]
  split at hcases
  · rw [hcases]
    exact ⟨rfl, hfilter⟩
  · obtain ⟨hregistrations, hchallenges⟩ := hcases.rest
    exact ⟨by rw [hregistrations], by rw [hchallenges, hfilter]⟩

theorem SameFor.expire {email : String} (hfound : s.registrations.find id = some pending)
    (hdue : ¬(pending.emailNormalized = email ∧ pending.status = .pendingEmailVerification ∧ pending.expiresAt ≤ now)) :
    SameFor id s (s.expire email now) where
  registration := by
    simp only [RegistrationTables.expire, Table.find_mapRows, hfound, Option.map_some, decide_eq_true_eq, if_neg hdue]
  challenges := by
    have hkeeps : KeepsCode (.invalidate now) := fun _ => ⟨rfl, rfl, rfl⟩
    refine filter_map_others (hkeeps.ite _) fun c hc => if_neg ?_
    rintro ⟨hany, -⟩
    rw [hc, hfound, Option.any_some, decide_eq_true_eq] at hany
    exact hdue hany

theorem otpDeliveryIsCurrent_congr (hsame : ∀ id, lockedRegistration key item = some id → SameFor id s s') :
    otpDeliveryIsCurrent key item now s' = otpDeliveryIsCurrent key item now s := by
  unfold otpDeliveryIsCurrent
  cases hidentity : otpDeliveryIdentity key item with
  | none => rfl
  | some identity =>
    cases identity with
    | none => rfl
    | some pair =>
      obtain ⟨id, ordinal⟩ := pair
      have hlocked : SameFor id s s' := hsame id (by rw [lockedRegistration, hidentity]; rfl)
      dsimp only
      rw [hlocked.registration]
      have hany := congrArg (List.any · fun c =>
        c.status = .active && now < c.expiresAt && c.sendCount = ordinal) hlocked.challenges
      simp only [List.any_filter, Bool.and_assoc] at hany ⊢
      rw [hany]

theorem RequestEffect.sameFor {m : MailSystem} (heffect : RequestEffect settings m.tables call s')
    (hwaits : call.waits m = false) (hlocked : m.registrationLocked id = true)
    (hfound : m.tables.registrations.find id = some pending) : SameFor id m.tables s' := by
  have hdue (data : RegistrationInput) (hrequest : call.request = .register (some data)) :
      SameFor id m.tables (m.tables.expire data.email call.draw.now) := by
    refine .expire hfound fun ⟨hemail, hstatus, hexpired⟩ => ?_
    simp only [RegistrationCall.waits, hrequest, List.any_eq_false] at hwaits
    exact hwaits _ (Table.mem_rows_iff.mpr hfound) (by simp [hemail, hstatus, hexpired, hlocked])
  have hother (id' : Uuid) (hlock : m.registrationLocked id' = false) : id' ≠ id := by
    rintro rfl
    rw [hlock] at hlocked
    cases hlocked
  cases heffect with
  | nothing => exact .refl id m.tables
  | expired data hrequest => exact hdue data hrequest
  | registered data isDecoy s₁ _ dispatch hrequest hfresh hput hissued =>
    subst hput
    have hsame := hdue data hrequest
    have hne : call.draw.id ≠ id := by
      rintro rfl
      rw [hsame.registration, hfound] at hfresh
      cases hfresh
    have hput := SameFor.put (s := m.tables.expire data.email call.draw.now)
      (p := newRegistration settings call.draw.now isDecoy data) hne
    exact hsame.trans (hput.trans (.issue hne hissued))
  | resent id' pending ordinal _ dispatch hrequest hfound' hissued =>
    have hne := hother id' (by simpa only [RegistrationCall.waits, hrequest] using hwaits)
    have hinvalidated : SameFor id m.tables (m.tables.setActive id' (.invalidate call.draw.now)) :=
      .setActive hne fun _ => ⟨rfl, rfl, rfl⟩
    exact hinvalidated.trans (.issue hne hissued)
  | checked id' code f hrequest hf =>
    exact .setActive (hother id' (by simpa only [RegistrationCall.waits, hrequest] using hwaits)) hf
  | verified id' code pending f user _ dispatch hrequest hf hfound' hactivated =>
    have hne := hother id' (by simpa only [RegistrationCall.waits, hrequest] using hwaits)
    obtain ⟨-, hqueued⟩ := activateRegistration_queues hactivated
    obtain ⟨hregistrations, hchallenges⟩ := hqueued.rest
    have hset : SameFor id m.tables (m.tables.setActive id' f) := .setActive hne hf
    refine hset.trans ⟨?_, by rw [hchallenges]⟩
    rw [hregistrations]
    exact Table.find_put_of_ne _ _ hne.symm

theorem currentCode_of_current (h : Consistent s) {row : TransactionalEmailOutbox}
    (hrow : s.outbox.find key = some row) (hpayload : row.payload = item.payload)
    (htemplate : item.templateKey = "email_otp") (hcurrent : otpDeliveryIsCurrent key item now s = true) :
    CurrentCode s now key item := by
  cases key with
  | other text =>
    simp [otpDeliveryIsCurrent, otpDeliveryIdentity, htemplate] at hcurrent
  | otp id ordinal =>
    obtain ⟨pending, hfound, hgenuine⟩ := h.posted id ordinal row hrow
    have hidentity : otpDeliveryIdentity (.otp id ordinal) item =
        some (if ordinal < 1 then none else some (id, ordinal)) := by
      simp only [otpDeliveryIdentity, htemplate, ne_eq, not_true_eq_false, if_false]
    rw [otpDeliveryIsCurrent, hidentity] at hcurrent
    by_cases hordinal : ordinal < 1
    · rw [if_pos hordinal] at hcurrent
      cases hcurrent
    · rw [if_neg hordinal] at hcurrent
      simp only [hfound, Bool.and_eq_true, decide_eq_true_eq, List.any_eq_true] at hcurrent
      obtain ⟨⟨hstatus, hexpires⟩, c, hc, ⟨⟨hregistration, hactive⟩, hunexpired⟩, hcount⟩ := hcurrent
      have hmem : c ∈ s.activeChallenges id :=
        List.mem_filter.mpr ⟨hc, decide_eq_true ⟨hregistration, hactive⟩⟩
      have hlength : (s.activeChallenges id).length ≤ 1 := by
        rw [RegistrationTables.activeChallenges, ← List.countP_eq_length_filter]
        exact h.soleActive id
      have hsole : s.activeChallenges id = [c] := by
        obtain ⟨c', heq⟩ := List.length_eq_one_iff.mp (le_antisymm hlength (List.length_pos_of_mem hmem))
        rw [heq, List.mem_singleton] at hmem
        rw [heq, hmem]
      obtain ⟨stored, hstored, hcode⟩ := h.mailed c hc pending (hregistration ▸ hfound) hgenuine
      rw [hregistration, hcount, hrow] at hstored
      obtain rfl := Option.some.inj hstored
      exact ⟨id, ordinal, pending, c, rfl, hfound, hstatus, hexpires, by rw [RegistrationTables.newestActive, hsole]; rfl,
        hunexpired, hpayload ▸ hcode⟩

end Tables

section Mails

open MailSystem

variable {settings : RegistrationSettings} {s : MailSystem} {key : OutboxKey} {op : MailStep}
  {fields : TransactionalEmailOutbox → TransactionalEmailOutbox}

-- A worker that holds a row has read its payload, and what it checked still stands.
structure Checked (s : MailSystem) : Prop where
  row : ∀ worker key item checkedAt, s.stage worker = .locked key item checkedAt →
    ∃ row, s.tables.outbox.find key = some row ∧ row.payload = item.payload
  current : ∀ worker key item checkedAt, s.stage worker = .locked key item checkedAt →
    otpDeliveryIsCurrent key item checkedAt s.tables = true

def KeepsPayload (fields : TransactionalEmailOutbox → TransactionalEmailOutbox) : Prop :=
  ∀ row, (fields row).payload = row.payload

theorem Consistent.saveItem (h : Consistent s.tables) (hfields : KeepsPayload fields) :
    Consistent (s.saveItem key fields).tables := by
  unfold MailSystem.saveItem
  cases hrow : s.tables.outbox.find key with
  | none => exact h
  | some row =>
    refine ⟨h.soleActive, h.known, fun id ordinal item hitem => ?_, fun c hc p hp hgenuine => ?_⟩
    · rcases Table.find_put_cases hitem with ⟨hkey, -⟩ | ⟨-, hold⟩
      · exact h.posted id ordinal row (hkey ▸ hrow)
      · exact h.posted id ordinal item hold
    · obtain ⟨item, hitem, hcode⟩ := h.mailed c hc p hp hgenuine
      by_cases hkey : OutboxKey.otp c.registration c.sendCount = key
      · subst hkey
        obtain rfl := Option.some.inj (hrow.symm.trans hitem)
        exact ⟨fields row, Table.find_put_self .., (congrArg MailPayload.code (hfields row)).trans hcode⟩
      · exact ⟨item, (Table.find_put_of_ne _ _ hkey).trans hitem, hcode⟩

theorem saveItem_sameFor (s : MailSystem) (key : OutboxKey)
    (fields : TransactionalEmailOutbox → TransactionalEmailOutbox) (id : Uuid) :
    SameFor id s.tables (s.saveItem key fields).tables := by
  unfold MailSystem.saveItem
  split <;> exact ⟨rfl, rfl⟩

theorem Checked.save (h : Checked s) (hfields : KeepsPayload fields) : Checked (s.saveItem key fields) where
  row worker key' item checkedAt hstage := by
    rw [saveItem_stage] at hstage
    obtain ⟨row, hrow, hpayload⟩ := h.row worker key' item checkedAt hstage
    rw [find_saveItem]
    split
    · next hkey =>
      subst hkey
      exact ⟨fields row, by rw [hrow, Option.map_some], (hfields row).trans hpayload⟩
    · exact ⟨row, hrow, hpayload⟩
  current worker key' item checkedAt hstage := by
    rw [saveItem_stage] at hstage
    rw [otpDeliveryIsCurrent_congr fun id _ => saveItem_sameFor s key fields id]
    exact h.current worker key' item checkedAt hstage

theorem Checked.move (h : Checked s) (worker : Nat) {stage : WorkerStage}
    (hstage : ∀ key item checkedAt, stage = .locked key item checkedAt →
      s.tables.outbox.find key = some item ∧ otpDeliveryIsCurrent key item checkedAt s.tables = true) :
    Checked (s.setStage worker stage) := by
  have hcases (worker' : Nat) (key : OutboxKey) (item : TransactionalEmailOutbox) (checkedAt : Timestamp)
      (hlocked : (s.setStage worker stage).stage worker' = .locked key item checkedAt) :
      stage = .locked key item checkedAt ∨ s.stage worker' = .locked key item checkedAt := by
    by_cases hworker : worker' = worker
    · subst hworker
      exact .inl (stage_setStage_self s worker' stage ▸ hlocked)
    · exact .inr (stage_setStage_of_ne s stage hworker ▸ hlocked)
  constructor
  · intro worker' key item checkedAt hlocked
    rcases hcases worker' key item checkedAt hlocked with hnew | hold
    · exact ⟨item, (hstage key item checkedAt hnew).1, rfl⟩
    · exact h.row worker' key item checkedAt hold
  · intro worker' key item checkedAt hlocked
    rcases hcases worker' key item checkedAt hlocked with hnew | hold
    · exact (hstage key item checkedAt hnew).2
    · exact h.current worker' key item checkedAt hold

theorem lockedRegistration_of_current {s : RegistrationTables} {item : TransactionalEmailOutbox} {now : Timestamp}
    {id : Uuid} (hcurrent : otpDeliveryIsCurrent key item now s = true) (hid : lockedRegistration key item = some id) :
    ∃ pending, s.registrations.find id = some pending := by
  obtain ⟨⟨id', ordinal⟩, hidentity, rfl⟩ := Option.map_eq_some_iff.mp hid
  rw [otpDeliveryIsCurrent, Option.join_eq_some_iff.mp hidentity] at hcurrent
  cases hfound : s.registrations.find id' with
  | none =>
    dsimp only at hcurrent
    rw [hfound] at hcurrent
    cases hcurrent
  | some pending => exact ⟨pending, rfl⟩

theorem Checked.request (h : Checked s) {call : RegistrationCall} {tables : RegistrationTables}
    (heffect : RequestEffect settings s.tables call tables) (hwaits : call.waits s = false) :
    Checked { s with tables } where
  row worker key item checkedAt hstage := by
    obtain ⟨row, hrow, hpayload⟩ := h.row worker key item checkedAt hstage
    rcases heffect.grows key with hsame | ⟨hnone, -⟩
    · exact ⟨row, hsame.trans hrow, hpayload⟩
    · rw [hnone] at hrow
      cases hrow
  current worker key item checkedAt hstage := by
    have hcurrent := h.current worker key item checkedAt hstage
    refine (otpDeliveryIsCurrent_congr fun id hid => ?_).trans hcurrent
    obtain ⟨pending, hfound⟩ := lockedRegistration_of_current hcurrent hid
    have hstage' : s.stage worker = .locked key item checkedAt := hstage
    exact heffect.sameFor hwaits (registrationLocked_iff.mpr ⟨worker, key, item, by rw [hstage']; rfl, hid⟩) hfound

structure Sound (s : MailSystem) : Prop where
  tables : Consistent s.tables
  workers : Checked s

theorem Sound.release (h : Sound s) (worker : Nat) {stage : WorkerStage} (hheld : stage.held = none) :
    Sound (s.setStage worker stage) :=
  ⟨h.tables, h.workers.move worker fun key item checkedAt heq => by rw [heq] at hheld; cases hheld⟩

theorem Sound.save (h : Sound s) (hfields : KeepsPayload fields) (worker : Nat) :
    Sound ((s.saveItem key fields).setStage worker .idle) :=
  Sound.release ⟨h.tables.saveItem hfields, h.workers.save hfields⟩ worker rfl

theorem step_sound (h : Sound s) (op : MailStep) : Sound (s.step settings op) := by
  have heffect := step_effect settings s op
  generalize s.step settings op = s' at heffect
  cases heffect with
  | waited => exact h
  | answered call tables hwaits heffect => exact ⟨h.tables.request heffect, h.workers.request heffect hwaits⟩
  | claimed worker now key item hfound hdue hfree =>
    have hkeeps : KeepsPayload (.claim now) := fun _ => rfl
    exact Sound.release ⟨h.tables.saveItem hkeeps, h.workers.save hkeeps⟩ worker rfl
  | locked worker now key attemptCount item hstage hfound hfree hcurrent =>
    refine ⟨h.tables, h.workers.move worker fun key' item' checkedAt heq => ?_⟩
    obtain ⟨rfl, rfl, rfl⟩ := WorkerStage.locked.inj heq
    exact ⟨hfound, hcurrent⟩
  | suppressed worker now key attemptCount item hstage hfound hfree hstale =>
    have hkeeps : KeepsPayload .suppress := fun _ => rfl
    exact h.save hkeeps worker
  | deferred worker now outcome key item checkedAt hstage =>
    have hkeeps : KeepsPayload (.defer now) := fun _ => rfl
    exact h.save hkeeps worker
  | submitted worker now result key item checkedAt hstage =>
    exact ⟨h.tables, h.workers.move worker fun _ _ _ heq => by cases heq⟩
  | completed worker now key item result hstage =>
    have hkeeps : KeepsPayload (.complete now result) := fun _ => rfl
    exact h.save hkeeps worker
  | released op worker stage hheld => exact h.release worker hheld
  | recorded worker now key attemptCount error hstage hfree =>
    have hkeeps : KeepsPayload (.fail now attemptCount error) := fun _ => rfl
    exact h.save hkeeps worker

theorem Sound.handsChecked (h : Sound s) (op : MailStep) : s.HandsChecked settings op := by
  rintro worker now outcome key item rfl hhands htemplate
  obtain ⟨worker', now', outcome', checkedAt, heq, hstage⟩ := handsOver_eq_some hhands
  obtain ⟨rfl, rfl, rfl⟩ := MailStep.submit.inj heq
  obtain ⟨row, hrow, hpayload⟩ := h.workers.row worker key item checkedAt hstage
  exact ⟨checkedAt, hstage, currentCode_of_current h.tables hrow hpayload htemplate
    (h.workers.current worker key item checkedAt hstage)⟩

theorem Sound.suppressesStale (h : Sound s) (op : MailStep) : s.SuppressesStale settings op := by
  rintro worker now key attemptCount item rfl hstage hfound htemplate hstale
  have hcurrent : otpDeliveryIsCurrent key item now s.tables = false := by
    cases heq : otpDeliveryIsCurrent key item now s.tables with
    | false => rfl
    | true => exact absurd (currentCode_of_current h.tables hfound rfl htemplate heq) hstale
  simp only [MailSystem.step, lockItem, hstage, hfound, hcurrent, Bool.or_eq_true, Bool.false_eq_true, if_false]
  split
  · next hlocked => exact .inl ⟨hlocked, rfl⟩
  · refine .inr ⟨?_, stage_setStage_self _ worker .idle⟩
    rw [setStage_tables, find_saveItem, if_pos rfl, hfound, Option.map_some]

theorem empty_sound (accounts : List String) : Sound { tables := { accounts } } := by
  refine ⟨⟨fun _ => Nat.zero_le 1, ?_, ?_, ?_⟩, ⟨?_, ?_⟩⟩
  · exact fun c hc => absurd hc List.not_mem_nil
  · intro id ordinal item hitem
    cases hitem
  · exact fun c hc => absurd hc List.not_mem_nil
  · intro worker key item checkedAt hstage
    cases hstage
  · intro worker key item checkedAt hstage
    cases hstage

theorem fresh_delivery {settings : RegistrationSettings} {accounts : List String} {ops : List MailStep} :
    Throughout (MailSystem.step settings) (fun s op => s.HandsChecked settings op ∧ s.SuppressesStale settings op) ops
      { tables := { accounts } } := by
  have hsound : Throughout (MailSystem.step settings) (fun s _ => Sound s) ops { tables := { accounts } } :=
    throughout_of_invariant (fun _ op h => step_sound h op) (empty_sound accounts)
  refine throughout_iff.mpr fun before op after heq => ?_
  have hat := throughout_iff.mp hsound before op after heq
  exact ⟨hat.handsChecked op, hat.suppressesStale op⟩

end Mails

-- The worker reads the clock, looks the challenge up, and calls the provider two seconds later.
def slowHandOver : List MailStep :=
  [.request ⟨.register (some { email := "ann@example.com", passwordHash := "h" }), ⟨0, "r1", "482913", 0⟩, true⟩,
    .claim 1 (atSecond 598) (.otp "r1" 1), .lock 1 (atSecond 599)]

theorem code_expired_when_handed : ¬∀ settings accounts ops, (ops.filterMap MailStep.time).Pairwise (· ≤ ·) →
    Throughout (MailSystem.step settings) (MailSystem.HandsFresh settings) ops { tables := { accounts } } := by
  intro hclaim
  have htimed : ((slowHandOver ++ [MailStep.submit 1 (atSecond 601) (.ok {})]).filterMap MailStep.time).Pairwise
      (· ≤ ·) := by decide
  have hfresh := throughout_iff.mp (hclaim mailOn [] _ htimed) slowHandOver (.submit 1 (atSecond 601) (.ok {})) [] rfl
  have hhands : ((MailSystem.run mailOn { tables := {} } slowHandOver).handsOver mailOn
      (.submit 1 (atSecond 601) (.ok {}))).map (fun row => (row.1, row.2.templateKey)) =
        some (.otp "r1" 1, "email_otp") := by decide +kernel
  obtain ⟨⟨key, item⟩, hitem, heq⟩ := Option.map_eq_some_iff.mp hhands
  obtain ⟨rfl, htemplate⟩ := Prod.mk.inj heq
  obtain ⟨id, ordinal, pending, challenge, hkey, -, -, -, hnewest, hunexpired, -⟩ :=
    hfresh 1 (atSecond 601) (.ok {}) _ item rfl hitem htemplate
  obtain ⟨rfl, rfl⟩ := OutboxKey.otp.inj hkey
  have hexpires : ((MailSystem.run mailOn { tables := {} } slowHandOver).tables.newestActive "r1").map (·.expiresAt) =
      some (atSecond 600) := by decide +kernel
  have hnewest' : (MailSystem.run mailOn { tables := {} } slowHandOver).tables.newestActive "r1" = some challenge :=
    hnewest
  rw [hnewest'] at hexpires
  have hexpiry : challenge.expiresAt = atSecond 600 := Option.some.inj hexpires
  rw [hexpiry] at hunexpired
  exact absurd hunexpired (by decide)

end Registration

end Beyvra
