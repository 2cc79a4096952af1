import Beyvra.Users.MailSteps

namespace Beyvra

open Relational

namespace Registration

namespace MailSystem

def Sent (s : MailSystem) (key : OutboxKey) : Prop :=
  ∃ row, s.tables.outbox.find key = some row ∧ row.status = .sent

def run (settings : RegistrationSettings) (s : MailSystem) (ops : List MailStep) : MailSystem :=
  ops.foldl (MailSystem.step settings) s

-- Once sent, an item is sent after any further steps, and no step hands it over.
def SentForGood (settings : RegistrationSettings) (s : MailSystem) (ops : List MailStep) : Prop :=
  ∀ before between after, ops = before ++ between ++ after → ∀ key, (s.run settings before).Sent key →
    (s.run settings (before ++ between)).Sent key ∧
      ∀ op rest, after = op :: rest → ∀ item, (s.run settings (before ++ between)).handsOver settings op ≠ some (key, item)

-- No worker locks a row for sending, or records a failure in it, that another one has sent meanwhile.
def InTime (s : MailSystem) : MailStep → Prop
  | .lock worker _ => ∀ key attemptCount, s.stage worker = .claimed key attemptCount → ¬s.Sent key
  | .recordFailure worker _ => ∀ key attemptCount error, s.stage worker = .failed key attemptCount error → ¬s.Sent key
  | _ => True

structure Exclusive (s : MailSystem) : Prop where
  sole : ∀ worker worker' key item item', (s.stage worker).held = some (key, item) →
    (s.stage worker').held = some (key, item') → worker = worker'
  unsent : ∀ worker key item, (s.stage worker).held = some (key, item) → ¬s.Sent key

end MailSystem

section Sent

variable {settings : RegistrationSettings} {s : MailSystem} {key key' : OutboxKey}
  {item : TransactionalEmailOutbox} {fields : TransactionalEmailOutbox → TransactionalEmailOutbox}

namespace MailSystem

@[simp] theorem sent_setStage {worker : Nat} {stage : WorkerStage} : (s.setStage worker stage).Sent key ↔ s.Sent key :=
  Iff.rfl

theorem sent_saveItem : (s.saveItem key fields).Sent key' ↔
    if key' = key then ∃ row, s.tables.outbox.find key = some row ∧ (fields row).status = .sent else s.Sent key' := by
  unfold Sent
  rw [find_saveItem]
  by_cases hkey : key' = key
  · subst hkey
    simp
  · rw [if_neg hkey, if_neg hkey]

theorem Sent.saveItem (h : s.Sent key') (hkey : key' ≠ key) : (s.saveItem key fields).Sent key' :=
  sent_saveItem.mpr (by rwa [if_neg hkey])

theorem sent_of_saveItem (hfields : ∀ row, (fields row).status ≠ .sent) (h : (s.saveItem key fields).Sent key') :
    s.Sent key' := by
  have hsent := sent_saveItem.mp h
  split at hsent
  · obtain ⟨row, -, hrow⟩ := hsent
    exact absurd hrow (hfields row)
  · exact hsent

theorem Exclusive.move (h : s.Exclusive) (worker : Nat) {stage : WorkerStage}
    (hheld : ∀ row, stage.held = some row → (s.stage worker).held = some row) :
    (s.setStage worker stage).Exclusive := by
  have hold (worker' : Nat) (row : OutboxKey × TransactionalEmailOutbox)
      (hrow : ((s.setStage worker stage).stage worker').held = some row) : (s.stage worker').held = some row := by
    by_cases hworker : worker' = worker
    · subst hworker
      exact hheld row (stage_setStage_self s worker' stage ▸ hrow)
    · exact stage_setStage_of_ne s stage hworker ▸ hrow
  constructor
  · intro worker₁ worker₂ key item item' h₁ h₂
    exact h.sole worker₁ worker₂ key item item' (hold _ _ h₁) (hold _ _ h₂)
  · intro worker₁ key item h₁
    exact h.unsent worker₁ key item (hold _ _ h₁)

theorem Exclusive.release (h : s.Exclusive) (worker : Nat) {stage : WorkerStage} (hheld : stage.held = none) :
    (s.setStage worker stage).Exclusive :=
  h.move worker fun row hrow => by rw [hheld] at hrow; cases hrow

theorem Exclusive.save (h : s.Exclusive) (hfields : ∀ row, (fields row).status ≠ .sent) :
    (s.saveItem key fields).Exclusive := by
  constructor
  · simpa only [saveItem_stage] using h.sole
  · intro worker key' item hrow hsent
    rw [saveItem_stage] at hrow
    exact h.unsent worker key' item hrow (sent_of_saveItem hfields hsent)

theorem Exclusive.complete (h : s.Exclusive) {worker : Nat} (hheld : (s.stage worker).held = some (key, item)) :
    ((s.saveItem key fields).setStage worker .idle).Exclusive := by
  have hrest (worker' : Nat) (key' : OutboxKey) (item' : TransactionalEmailOutbox)
      (hrow : (((s.saveItem key fields).setStage worker .idle).stage worker').held = some (key', item')) :
      worker' ≠ worker ∧ (s.stage worker').held = some (key', item') := by
    by_cases hworker : worker' = worker
    · subst hworker
      rw [stage_setStage_self] at hrow
      cases hrow
    · rw [stage_setStage_of_ne _ _ hworker, saveItem_stage] at hrow
      exact ⟨hworker, hrow⟩
  constructor
  · intro worker₁ worker₂ key' item₁ item₂ h₁ h₂
    exact h.sole worker₁ worker₂ key' item₁ item₂ (hrest _ _ _ h₁).2 (hrest _ _ _ h₂).2
  · intro worker' key' item' hrow hsent
    obtain ⟨hworker, hrow'⟩ := hrest _ _ _ hrow
    have hkey : key' ≠ key := by
      rintro rfl
      exact hworker (h.sole _ _ _ _ _ hrow' hheld)
    rw [sent_setStage, sent_saveItem, if_neg hkey] at hsent
    exact h.unsent worker' key' item' hrow' hsent

theorem Exclusive.lock (h : s.Exclusive) {worker : Nat} {checkedAt : Timestamp} (hfree : s.rowLocked key = false)
    (hunsent : ¬s.Sent key) : (s.setStage worker (.locked key item checkedAt)).Exclusive := by
  have hnobody := rowLocked_eq_false.mp hfree
  have hcases (worker' : Nat) (key' : OutboxKey) (item' : TransactionalEmailOutbox)
      (hrow : ((s.setStage worker (.locked key item checkedAt)).stage worker').held = some (key', item')) :
      (worker' = worker ∧ key' = key) ∨ (s.stage worker').held = some (key', item') := by
    by_cases hworker : worker' = worker
    · subst hworker
      rw [stage_setStage_self] at hrow
      exact .inl ⟨rfl, (Prod.mk.inj (Option.some.inj hrow)).1.symm⟩
    · exact .inr (stage_setStage_of_ne s _ hworker ▸ hrow)
  constructor
  · intro worker₁ worker₂ key' item₁ item₂ h₁ h₂
    rcases hcases _ _ _ h₁ with ⟨rfl, rfl⟩ | hold₁ <;> rcases hcases _ _ _ h₂ with ⟨rfl, hkey⟩ | hold₂
    · rfl
    · exact absurd hold₂ (hnobody _ _)
    · exact absurd (hkey ▸ hold₁) (hnobody _ _)
    · exact h.sole _ _ _ _ _ hold₁ hold₂
  · intro worker' key' item' hrow
    rcases hcases _ _ _ hrow with ⟨-, rfl⟩ | hold
    · exact hunsent
    · exact h.unsent _ _ _ hold

end MailSystem

section Requests

variable {t t' : RegistrationTables} {call : RegistrationCall}

-- A request keeps the rows of the outbox; a row it adds is pending.
def OutboxGrows (outbox outbox' : Table OutboxKey TransactionalEmailOutbox) : Prop :=
  ∀ key, outbox'.find key = outbox.find key ∨
    outbox.find key = none ∧ ∃ row, outbox'.find key = some row ∧ row.status = .pending

theorem OutboxGrows.refl (outbox : Table OutboxKey TransactionalEmailOutbox) : OutboxGrows outbox outbox :=
  fun _ => .inl rfl

theorem Queues.grows (h : Queues t key item t') (hpending : item.status = .pending) :
    OutboxGrows t.outbox t'.outbox := by
  intro key'
  cases h with
  | added hfree =>
    by_cases hkey : key' = key
    · subst hkey
      exact .inr ⟨hfree, item, Table.find_put_self .., hpending⟩
    · exact .inl (Table.find_put_of_ne _ _ hkey)
  | present stored hstored hsame => exact .inl rfl

theorem issueCode_grows {draw : Draw} {eventType : String} {id : Uuid} {pending : PendingRegistration} {ordinal : Nat}
    {dispatch : Bool} (h : issueCode settings draw eventType id pending ordinal t = .ok (t', dispatch)) :
    OutboxGrows t.outbox t'.outbox := by
  have hissued := issueCode_eq_ok h
  dsimp only at hissued
  split at hissued
  · rw [hissued]
    exact .refl _
  · exact hissued.grows rfl

theorem activateRegistration_queues {now : Timestamp} {id : Uuid} {pending : PendingRegistration} {user : Nat}
    {dispatch : Bool} (h : activateRegistration settings now id pending t = .ok (user, t', dispatch)) :
    pending.isDecoy = false ∧ Queues { t with
      accounts := t.accounts ++ [pending.emailNormalized]
      registrations := t.registrations.put id { pending with
        status := .completed, verifiedAt := some now, activatedUser := some t.accounts.length } }
      (.other ("welcome:" ++ toString t.accounts.length ++ ":registration")) (welcomeMail settings pending now) t' := by
  obtain ⟨_, hgenuine, h₁⟩ := bind_eq_ok.mp h
  obtain ⟨-, -, h₂⟩ := bind_eq_ok.mp h₁
  obtain ⟨⟨queued, dispatched⟩, hqueued, h₃⟩ := bind_eq_ok.mp h₂
  obtain ⟨-, rfl, -⟩ := by simpa using pure_eq_ok.mp h₃
  exact ⟨require_eq_ok.mp hgenuine, queueEmail_eq_ok hqueued⟩

theorem RequestEffect.grows (h : RequestEffect settings t call t') : OutboxGrows t.outbox t'.outbox := by
  cases h with
  | nothing => exact .refl _
  | expired data hrequest => exact .refl _
  | registered data isDecoy t₁ _ dispatch hrequest hfresh hput hissued =>
    subst hput
    have hgrows := issueCode_grows hissued
    exact hgrows
  | resent id pending ordinal _ dispatch hrequest hfound hissued =>
    have hgrows := issueCode_grows hissued
    exact hgrows
  | checked id code f hrequest hf => exact .refl _
  | verified id code pending f user _ dispatch hrequest hf hfound hactivated =>
    exact (activateRegistration_queues hactivated).2.grows rfl

theorem OutboxGrows.sent_iff (h : OutboxGrows s.tables.outbox t.outbox) :
    MailSystem.Sent { s with tables := t } key ↔ s.Sent key := by
  unfold MailSystem.Sent
  rcases h key with hsame | ⟨hnone, row, hrow, hpending⟩
  · rw [hsame]
  · simp [hnone, hrow, hpending]

end Requests

theorem fail_unsent (now : Timestamp) (attemptCount : Nat) (error : DeliveryError) (row : TransactionalEmailOutbox) :
    (row.fail now attemptCount error).status ≠ .sent := by
  unfold TransactionalEmailOutbox.fail
  dsimp only
  split <;> decide

namespace MailSystem

variable {op : MailStep}

theorem step_exclusive (h : s.Exclusive) (htime : s.InTime op) : (s.step settings op).Exclusive := by
  have heffect := step_effect settings s op
  generalize s.step settings op = s' at heffect
  cases heffect with
  | waited => exact h
  | answered call tables hwaits heffect =>
    refine ⟨h.sole, fun worker key item hrow hsent => ?_⟩
    exact h.unsent worker key item hrow (heffect.grows.sent_iff.mp hsent)
  | claimed worker now key item hfound hdue hfree => exact (h.save (by rintro _ ⟨⟩)).release worker rfl
  | locked worker now key attemptCount item hstage hfound hfree hcurrent =>
    exact h.lock hfree (htime key attemptCount hstage)
  | suppressed worker now key attemptCount item hstage hfound hfree hstale =>
    exact (h.save (by rintro _ ⟨⟩)).release worker rfl
  | deferred worker now outcome key item checkedAt hstage => exact (h.save (by rintro _ ⟨⟩)).release worker rfl
  | submitted worker now result key item checkedAt hstage =>
    exact h.move worker fun row hrow => by rwa [hstage]
  | completed worker now key item result hstage => exact h.complete (by rw [hstage]; rfl)
  | released op worker stage hheld => exact h.release worker hheld
  | recorded worker now key attemptCount error hstage hfree =>
    exact (h.save (fail_unsent now attemptCount error)).release worker rfl

theorem not_sent_of_due {now : Timestamp} (hfound : s.tables.outbox.find key = some item) (hdue : item.due now = true) :
    ¬s.Sent key := by
  rintro ⟨row, hrow, hsent⟩
  obtain rfl := Option.some.inj (hfound.symm.trans hrow)
  simp [TransactionalEmailOutbox.due, hsent] at hdue

theorem step_sent (h : s.Exclusive) (htime : s.InTime op) (hsent : s.Sent key) : (s.step settings op).Sent key := by
  have heffect := step_effect settings s op
  generalize s.step settings op = s' at heffect
  cases heffect with
  | waited => exact hsent
  | answered call tables hwaits heffect => exact heffect.grows.sent_iff.mpr hsent
  | claimed worker now key' item hfound hdue hfree =>
    refine hsent.saveItem ?_
    rintro rfl
    exact not_sent_of_due hfound hdue hsent
  | locked worker now key' attemptCount item hstage hfound hfree hcurrent => exact hsent
  | suppressed worker now key' attemptCount item hstage hfound hfree hstale =>
    refine hsent.saveItem ?_
    rintro rfl
    exact htime _ attemptCount hstage hsent
  | deferred worker now outcome key' item checkedAt hstage =>
    refine hsent.saveItem ?_
    rintro rfl
    exact h.unsent worker _ item (by rw [hstage]; rfl) hsent
  | submitted worker now result key' item checkedAt hstage => exact hsent
  | completed worker now key' item result hstage =>
    refine hsent.saveItem ?_
    rintro rfl
    exact h.unsent worker _ item (by rw [hstage]; rfl) hsent
  | released op worker stage hheld => exact hsent
  | recorded worker now key' attemptCount error hstage hfree =>
    refine hsent.saveItem ?_
    rintro rfl
    exact htime _ attemptCount error hstage hsent

theorem not_handed_of_sent (h : s.Exclusive) (hsent : s.Sent key) (op : MailStep) :
    s.handsOver settings op ≠ some (key, item) := by
  intro hhands
  obtain ⟨worker, now, outcome, checkedAt, rfl, hstage⟩ := handsOver_eq_some hhands
  exact h.unsent worker key item (by rw [hstage]; rfl) hsent

theorem run_sent {ops : List MailStep} (h : s.Exclusive) (htime : Throughout (MailSystem.step settings) InTime ops s) :
    (s.run settings ops).Exclusive ∧ ∀ key, s.Sent key → (s.run settings ops).Sent key := by
  induction ops generalizing s with
  | nil => exact ⟨h, fun _ hsent => hsent⟩
  | cons op ops ih =>
    obtain ⟨hop, hrest⟩ := htime
    obtain ⟨hexclusive, hkept⟩ := ih (step_exclusive h hop) hrest
    exact ⟨hexclusive, fun key hsent => hkept key (step_sent h hop hsent)⟩

theorem idle_exclusive (tables : RegistrationTables) : Exclusive { tables } where
  sole _ _ _ _ _ hrow := by cases hrow
  unsent _ _ _ hrow := by cases hrow

theorem sent_for_good {settings : RegistrationSettings} {tables : RegistrationTables} {ops : List MailStep}
    (htime : Throughout (MailSystem.step settings) InTime ops { tables }) :
    SentForGood settings { tables } ops := by
  rintro before between after rfl key hsent
  obtain ⟨hfirst, -⟩ := throughout_append.mp htime
  obtain ⟨hbefore, hbetween⟩ := throughout_append.mp hfirst
  have hexclusive := (run_sent (idle_exclusive tables) hbefore).1
  have hrun : MailSystem.run settings { tables } (before ++ between) =
      (MailSystem.run settings { tables } before).run settings between := List.foldl_append ..
  obtain ⟨hlast, hkept⟩ := run_sent hexclusive hbetween
  rw [hrun]
  exact ⟨hkept key hsent, fun op rest _ item => not_handed_of_sent hlast (hkept key hsent) op⟩

end MailSystem

end Sent

def mailOn : RegistrationSettings := { transactionalEmailEnabled := true }

def welcomeKey : OutboxKey := .other "welcome:0:registration"

def welcomeQueued : RegistrationTables where
  accounts := ["ann@example.com"]
  outbox := Table.empty.put welcomeKey
    { eventType := "user.registration.completed", recipientEmail := "ann@example.com"
      templateKey := "welcome_email", payload := .fields [("display_name", .str "Ann")], nextAttemptAt := some 0 }

def sentOnce : List MailStep :=
  [.claim 1 0 welcomeKey, .lock 1 1, .submit 1 2 (.ok {}), .complete 1 3]

theorem sent_for_good_once : MailSystem.SentForGood mailOn { tables := welcomeQueued } sentOnce := by
  refine MailSystem.sent_for_good ⟨trivial, ?_, trivial, trivial, trivial⟩
  rintro key attemptCount hstage ⟨row, hrow, hsent⟩
  obtain ⟨rfl, -⟩ := WorkerStage.claimed.inj hstage
  have hclaimed : (((MailSystem.step mailOn { tables := welcomeQueued } (.claim 1 0 welcomeKey)).tables.outbox.find
      welcomeKey).map (·.status)) = some .processing := by decide +kernel
  rw [hrow] at hclaimed
  cases hsent.symm.trans (Option.some.inj hclaimed)

def atSecond (n : Int) : Timestamp := n * microsecondsPerSecond

-- The first worker sleeps past its lease; the second one sends the mail before the first goes on.
def sentByAnother : List MailStep :=
  [.claim 1 0 welcomeKey, .claim 2 (atSecond 121) welcomeKey, .lock 2 (atSecond 122), .submit 2 (atSecond 123) (.ok {}),
    .complete 2 (atSecond 124), .lock 1 (atSecond 125)]

theorem sent_again : ¬∀ settings tables ops, MailSystem.SentForGood settings { tables } ops := by
  intro hclaim
  have hstatus : ((MailSystem.run mailOn { tables := welcomeQueued } sentByAnother).tables.outbox.find
      welcomeKey).map (·.status) = some .sent := by decide +kernel
  obtain ⟨row, hrow, hsent⟩ := Option.map_eq_some_iff.mp hstatus
  have hhands : ((MailSystem.run mailOn { tables := welcomeQueued } sentByAnother).handsOver mailOn
      (.submit 1 (atSecond 126) (.ok {}))).map Prod.fst = some welcomeKey := by decide +kernel
  obtain ⟨⟨key, item⟩, hitem, rfl⟩ := Option.map_eq_some_iff.mp hhands
  have hnever := hclaim mailOn welcomeQueued (sentByAnother ++ [.submit 1 (atSecond 126) (.ok {})]) sentByAnother []
    [.submit 1 (atSecond 126) (.ok {})] rfl welcomeKey ⟨row, hrow, hsent⟩
  exact hnever.2 _ [] rfl item hitem

end Registration

end Beyvra
