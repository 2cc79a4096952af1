import Beyvra.Foundation.Integers

namespace Beyvra

open Relational

namespace Webhooks

inductive DeliveryStatus where
  | pending | successful | failed | deadLetter
  deriving DecidableEq

def DeliveryStatus.value : DeliveryStatus → Char
  | .pending => 'P'
  | .successful => 'S'
  | .failed => 'F'
  | .deadLetter => 'D'

def versionText (status : DeliveryStatus) (attempts : Nat) : String :=
  String.ofList (status.value :: ':' :: (toString attempts).toList)

structure WebhookDelivery where
  status : DeliveryStatus := .pending
  attempts : Nat := 0
  attemptLimit : Nat := 5
  responseCode : Option Nat := none
  lastError : String := ""
  deliveredAt : Option Timestamp := none
  updatedAt : Timestamp
  deriving DecidableEq

-- What post_webhook comes to: a status, with the text its exception would have, or a request error
inductive Receiver where
  | responds (statusCode : Nat) (httpError : String)
  | raises (error : String)

def maxAttempts : Nat := 32767

namespace WebhookDelivery

def limit (delivery : WebhookDelivery) : Nat := min delivery.attemptLimit maxAttempts

def version (delivery : WebhookDelivery) : String := versionText delivery.status delivery.attempts

def dead (delivery : WebhookDelivery) (now : Timestamp) (lastError : String) : WebhookDelivery :=
  { delivery with status := .deadLetter, lastError, updatedAt := now }

def failedWith (delivery : WebhookDelivery) (now : Timestamp) (error : String) : WebhookDelivery :=
  { delivery with
    status := if delivery.limit ≤ delivery.attempts then .deadLetter else .failed
    lastError := String.ofList (error.toList.take 500)
    updatedAt := now }

def posted (delivery : WebhookDelivery) (now : Timestamp) (receiver : Receiver) : WebhookDelivery :=
  let delivery := { delivery with attempts := min (delivery.attempts + 1) maxAttempts }
  match receiver with
  | .raises error => delivery.failedWith now error
  | .responds statusCode httpError =>
    let delivery := { delivery with responseCode := some statusCode }
    if 400 ≤ statusCode ∧ statusCode < 600 then delivery.failedWith now httpError
    else if 200 ≤ statusCode ∧ statusCode < 300 then
      { delivery with status := .successful, deliveredAt := some now, lastError := "", updatedAt := now }
    else delivery.failedWith now "Webhook receiver returned a non-success status"

end WebhookDelivery

structure WebhookSystem where
  delivery : WebhookDelivery
  isActive : Bool := true
  -- the If-Match of the commands recorded under their keys
  commands : Table String String := Table.empty
  posts : Nat := 0
  -- the If-Match of the accepted retry commands, the latest first
  accepted : List String := []
  -- the posts made when a retry last took the delivery out of the dead letters
  revivedAt : Option Nat := none

inductive WebhookReply where
  | accepted
  | recorded
  | idempotencyConflict
  | notFound
  | versionConflict
  | exhausted
  deriving DecidableEq

def deliverLockedWebhook (now : Timestamp) (receiver : Receiver) (s : WebhookSystem) : WebhookSystem :=
  if s.delivery.status = .successful ∨ s.delivery.status = .deadLetter then s
  else if s.delivery.limit ≤ s.delivery.attempts then
    { s with delivery := s.delivery.dead now "maximum delivery attempts exceeded" }
  else if s.isActive = false then
    { s with delivery := s.delivery.dead now "webhook subscription is inactive" }
  else { s with delivery := s.delivery.posted now receiver, posts := s.posts + 1 }

def WebhookDelivery.retried (delivery : WebhookDelivery) (now : Timestamp) : WebhookDelivery :=
  { delivery with
    status := .pending
    lastError := ""
    attemptLimit := min (delivery.attempts + 5) maxAttempts
    updatedAt := now }

-- A refused command deletes its record again.
def retry (now : Timestamp) (key expectedVersion : String) (s : WebhookSystem) : WebhookReply × WebhookSystem :=
  match s.commands.find key with
  | some recorded => (if recorded = expectedVersion then .recorded else .idempotencyConflict, s)
  | none =>
    if s.delivery.status ≠ .failed ∧ s.delivery.status ≠ .deadLetter then (.notFound, s)
    else if expectedVersion ≠ s.delivery.version then (.versionConflict, s)
    else if maxAttempts ≤ s.delivery.attempts then (.exhausted, s)
    else (.accepted, { s with
      delivery := s.delivery.retried now
      commands := s.commands.put key expectedVersion
      accepted := expectedVersion :: s.accepted
      revivedAt := if s.delivery.status = .deadLetter then some s.posts else s.revivedAt })

inductive WebhookStep where
  | deliver (now : Timestamp) (receiver : Receiver)
  | retry (now : Timestamp) (key expectedVersion : String)
  | activate (isActive : Bool)

def webhookStep (s : WebhookSystem) : WebhookStep → WebhookSystem
  | .deliver now receiver => deliverLockedWebhook now receiver s
  | .retry now key expectedVersion => (retry now key expectedVersion s).2
  | .activate isActive => { s with isActive }

def created (now : Timestamp) (isActive : Bool) (commands : Table String String) : WebhookSystem :=
  { delivery := { updatedAt := now }, isActive, commands }

variable {s s' : WebhookSystem} {op : WebhookStep} {ops : List WebhookStep} {delivery : WebhookDelivery}
  {now : Timestamp} {key expectedVersion : String}

theorem DeliveryStatus.value_injective {status status' : DeliveryStatus} (h : status.value = status'.value) :
    status = status' := by
  cases status <;> cases status' <;> first | rfl | exact absurd h (by decide)

theorem versionText_injective {status status' : DeliveryStatus} {m n : Nat}
    (h : versionText status m = versionText status' n) : status = status' ∧ m = n := by
  obtain ⟨hvalue, htail⟩ := List.cons.inj (String.ofList_injective h)
  obtain ⟨-, hdigits⟩ := List.cons.inj htail
  exact ⟨DeliveryStatus.value_injective hvalue, toString_injective (String.toList_inj.mp hdigits)⟩

-- The checks of an accepted retry
structure Admits (s : WebhookSystem) (key expectedVersion : String) : Prop where
  fresh : s.commands.find key = none
  status : s.delivery.status = .failed ∨ s.delivery.status = .deadLetter
  version : expectedVersion = s.delivery.version
  attempts : s.delivery.attempts < maxAttempts

-- A retry of a dead letter is accepted only when a post was made since the last such retry.
def PostedSince (s : WebhookSystem) : WebhookStep → Prop
  | .retry _ key expectedVersion => Admits s key expectedVersion → s.delivery.status = .deadLetter →
      ∀ posts, s.revivedAt = some posts → posts < s.posts
  | _ => True

def retriedSystem (s : WebhookSystem) (now : Timestamp) (key expectedVersion : String) : WebhookSystem :=
  { s with
    delivery := s.delivery.retried now
    commands := s.commands.put key expectedVersion
    accepted := expectedVersion :: s.accepted
    revivedAt := if s.delivery.status = .deadLetter then some s.posts else s.revivedAt }

theorem retry_of_admits (h : Admits s key expectedVersion) :
    webhookStep s (.retry now key expectedVersion) = retriedSystem s now key expectedVersion := by
  have hstatus : ¬(s.delivery.status ≠ .failed ∧ s.delivery.status ≠ .deadLetter) := by
    rintro ⟨hfailed, hdead⟩
    exact h.status.elim hfailed hdead
  simp only [webhookStep, retry, h.fresh, if_neg hstatus, h.version, ne_eq, not_true_eq_false, if_false,
    if_neg (Nat.not_le.mpr h.attempts)]
  rfl

theorem retry_of_not_admits (h : ¬Admits s key expectedVersion) : webhookStep s (.retry now key expectedVersion) = s := by
  simp only [webhookStep, retry]
  split
  · rfl
  · rename_i hfresh
    split
    · rfl
    · rename_i hstatus
      split
      · rfl
      · rename_i hversion
        split
        · rfl
        · rename_i hattempts
          refine absurd ⟨hfresh, ?_, not_not.mp hversion, Nat.not_le.mp hattempts⟩ h
          by_cases hfailed : s.delivery.status = .failed
          · exact .inl hfailed
          · exact .inr (not_not.mp fun hdead => hstatus ⟨hfailed, hdead⟩)

structure Open (s : WebhookSystem) : Prop where
  successful : s.delivery.status ≠ .successful
  deadLetter : s.delivery.status ≠ .deadLetter

inductive WebhookChange (s : WebhookSystem) : WebhookSystem → Prop where
  | nothing : WebhookChange s s
  | switched (isActive : Bool) : WebhookChange s { s with isActive }
  | died (now : Timestamp) (lastError : String) (hopen : Open s) :
      WebhookChange s { s with delivery := s.delivery.dead now lastError }
  | posted (now : Timestamp) (receiver : Receiver) (hopen : Open s) (hlimit : s.delivery.attempts < s.delivery.limit) :
      WebhookChange s { s with delivery := s.delivery.posted now receiver, posts := s.posts + 1 }
  | retried {now : Timestamp} {key expectedVersion : String} (hadmits : Admits s key expectedVersion) :
      WebhookChange s (retriedSystem s now key expectedVersion)

theorem webhookStep_change (s : WebhookSystem) (op : WebhookStep) : WebhookChange s (webhookStep s op) := by
  cases op with
  | deliver now receiver =>
    simp only [webhookStep, deliverLockedWebhook]
    split
    · exact .nothing
    · rename_i hclosed
      have hopen : Open s := ⟨fun h => hclosed (.inl h), fun h => hclosed (.inr h)⟩
      split
      · exact .died now _ hopen
      · rename_i hlimit
        split
        · exact .died now _ hopen
        · exact .posted now receiver hopen (Nat.not_le.mp hlimit)
  | retry now key expectedVersion =>
    by_cases hadmits : Admits s key expectedVersion
    · rw [retry_of_admits hadmits]
      exact .retried hadmits
    · rw [retry_of_not_admits hadmits]
      exact .nothing
  | activate isActive => exact .switched isActive

theorem limit_le (delivery : WebhookDelivery) : delivery.limit ≤ delivery.attemptLimit ∧ delivery.limit ≤ maxAttempts :=
  ⟨Nat.min_le_left _ _, Nat.min_le_right _ _⟩

@[simp] theorem failedWith_attempts (error : String) : (delivery.failedWith now error).attempts = delivery.attempts := rfl

@[simp] theorem failedWith_attemptLimit (error : String) :
    (delivery.failedWith now error).attemptLimit = delivery.attemptLimit := rfl

theorem posted_attempts (receiver : Receiver) (h : delivery.attempts < delivery.limit) :
    (delivery.posted now receiver).attempts = delivery.attempts + 1 := by
  have hroom : min (delivery.attempts + 1) maxAttempts = delivery.attempts + 1 :=
    Nat.min_eq_left (h.trans_le (limit_le delivery).2)
  cases receiver with
  | raises error => exact hroom
  | responds statusCode httpError =>
    simp only [WebhookDelivery.posted]
    split
    · exact hroom
    · split <;> exact hroom

theorem posted_attemptLimit (receiver : Receiver) : (delivery.posted now receiver).attemptLimit = delivery.attemptLimit := by
  cases receiver with
  | raises error => rfl
  | responds statusCode httpError =>
    simp only [WebhookDelivery.posted]
    split
    · rfl
    · split <;> rfl

-- What every run keeps of the counters, of the versions accepted and of the last retry of a dead letter
structure Counted (s : WebhookSystem) : Prop where
  posts : s.posts = s.delivery.attempts
  limit : s.delivery.attempts ≤ s.delivery.attemptLimit
  dead : ∀ n, versionText .deadLetter n ∈ s.accepted → ∃ posts, s.revivedAt = some posts ∧ n ≤ posts
  revived : ∀ posts, s.revivedAt = some posts → posts ≤ s.posts ∧ versionText .deadLetter posts ∈ s.accepted
  failed : ∀ n, versionText .failed n ∈ s.accepted → n ≤ s.posts ∧ (s.delivery.status = .failed → n < s.posts)

theorem Counted.created (now : Timestamp) (isActive : Bool) (commands : Table String String) :
    Counted (created now isActive commands) where
  posts := rfl
  limit := Nat.zero_le _
  dead n h := by cases h
  revived posts h := by cases h
  failed n h := by cases h

theorem Counted.retried (h : Counted s) (hadmits : Admits s key expectedVersion) :
    Counted (retriedSystem s now key expectedVersion) where
  posts := h.posts
  limit := Nat.le_min.mpr ⟨Nat.le_add_right _ _, hadmits.attempts.le⟩
  dead := by
    intro n hn
    simp only [retriedSystem]
    rcases List.mem_cons.mp hn with hnew | hold
    · obtain ⟨hstatus, hattempts⟩ := versionText_injective (hnew.trans hadmits.version)
      exact ⟨s.posts, if_pos hstatus.symm, by rw [hattempts, h.posts]⟩
    · obtain ⟨posts, hrevived, hle⟩ := h.dead n hold
      split
      · exact ⟨s.posts, rfl, hle.trans (h.revived posts hrevived).1⟩
      · exact ⟨posts, hrevived, hle⟩
  revived := by
    intro posts hrevived
    simp only [retriedSystem] at hrevived ⊢
    split at hrevived
    · rename_i hdead
      obtain rfl := Option.some.inj hrevived
      refine ⟨le_rfl, List.mem_cons.mpr (.inl ?_)⟩
      rw [hadmits.version, WebhookDelivery.version, hdead, h.posts]
    · obtain ⟨hle, hmem⟩ := h.revived posts hrevived
      exact ⟨hle, List.mem_cons_of_mem _ hmem⟩
  failed := by
    intro n hn
    refine ⟨?_, fun hstatus => by cases hstatus⟩
    rcases List.mem_cons.mp hn with hnew | hold
    · obtain ⟨-, hattempts⟩ := versionText_injective (hnew.trans hadmits.version)
      exact (hattempts.trans h.posts.symm).le
    · exact (h.failed n hold).1

theorem Counted.change (h : Counted s) (hchange : WebhookChange s s') : Counted s' := by
  cases hchange with
  | nothing => exact h
  | switched isActive => exact ⟨h.posts, h.limit, h.dead, h.revived, h.failed⟩
  | died now lastError hopen =>
    exact ⟨h.posts, h.limit, h.dead, h.revived, fun n hn => ⟨(h.failed n hn).1, fun hstatus => by cases hstatus⟩⟩
  | posted now receiver hopen hlimit =>
    constructor
    · rw [posted_attempts receiver hlimit, h.posts]
    · rw [posted_attempts receiver hlimit, posted_attemptLimit]
      exact hlimit.trans_le (limit_le _).1
    · exact h.dead
    · exact fun posts hrevived => ⟨Nat.le_succ_of_le (h.revived posts hrevived).1, (h.revived posts hrevived).2⟩
    · intro n hn
      have hle := (h.failed n hn).1
      exact ⟨Nat.le_succ_of_le hle, fun _ => Nat.lt_succ_of_le hle⟩
  | retried hadmits => exact h.retried hadmits

-- Versions can only repeat where a dead letter is revived without a post since the last time.
theorem Counted.version_fresh_iff (h : Counted s) (hadmits : Admits s key expectedVersion) :
    expectedVersion ∉ s.accepted ↔
      (s.delivery.status = .deadLetter → ∀ posts, s.revivedAt = some posts → posts < s.posts) := by
  rw [hadmits.version, WebhookDelivery.version, ← h.posts]
  rcases hadmits.status with hfailed | hdead
  · rw [hfailed]
    refine iff_of_true (fun hmem => ?_) fun hdead => by cases hdead
    exact absurd ((h.failed _ hmem).2 hfailed) (lt_irrefl _)
  · rw [hdead]
    constructor
    · intro hfresh _ posts hrevived
      obtain ⟨hle, hmem⟩ := h.revived posts hrevived
      refine lt_of_le_of_ne hle ?_
      rintro rfl
      exact hfresh hmem
    · intro hposted hmem
      obtain ⟨posts, hrevived, hle⟩ := h.dead _ hmem
      exact absurd (hposted rfl posts hrevived) (Nat.not_lt.mpr hle)

theorem accepted_change (hchange : WebhookChange s s') : s'.accepted = s.accepted ∨
    ∃ now key expectedVersion, Admits s key expectedVersion ∧ s' = retriedSystem s now key expectedVersion := by
  cases hchange with
  | nothing => exact .inl rfl
  | switched isActive => exact .inl rfl
  | died now lastError hopen => exact .inl rfl
  | posted now receiver hopen hlimit => exact .inl rfl
  | retried hadmits => exact .inr ⟨_, _, _, hadmits, rfl⟩

theorem accepted_grows (s : WebhookSystem) (ops : List WebhookStep) :
    ∃ more, (ops.foldl webhookStep s).accepted = more ++ s.accepted := by
  induction ops generalizing s with
  | nil => exact ⟨[], rfl⟩
  | cons op ops ih =>
    obtain ⟨more, hmore⟩ := ih (webhookStep s op)
    rcases accepted_change (webhookStep_change s op) with hsame | ⟨now, key, expectedVersion, -, hstep⟩
    · exact ⟨more, by rw [List.foldl_cons, hmore, hsame]⟩
    · refine ⟨more ++ [expectedVersion], ?_⟩
      rw [List.foldl_cons, hmore, hstep]
      simp [retriedSystem]

-- A run that accepts nothing accepts nothing at its first step either.
theorem quiet_of_cons (h : ((op :: ops).foldl webhookStep s).accepted = s.accepted) :
    (webhookStep s op).accepted = s.accepted ∧
      (ops.foldl webhookStep (webhookStep s op)).accepted = (webhookStep s op).accepted := by
  rw [List.foldl_cons] at h
  rcases accepted_change (webhookStep_change s op) with hsame | ⟨now, key, expectedVersion, -, hstep⟩
  · exact ⟨hsame, h.trans hsame.symm⟩
  · obtain ⟨more, hmore⟩ := accepted_grows (webhookStep s op) ops
    have hlength := congrArg List.length (hmore.symm.trans h)
    rw [hstep] at hlength
    simp only [retriedSystem, List.length_append, List.length_cons] at hlength
    omega

theorem successful_kept (hstatus : s.delivery.status = .successful) (ops : List WebhookStep) :
    (ops.foldl webhookStep s).delivery = s.delivery ∧ (ops.foldl webhookStep s).posts = s.posts := by
  induction ops generalizing s with
  | nil => exact ⟨rfl, rfl⟩
  | cons op ops ih =>
    have hstep : (webhookStep s op).delivery = s.delivery ∧ (webhookStep s op).posts = s.posts := by
      have hchange := webhookStep_change s op
      generalize webhookStep s op = s' at hchange
      cases hchange with
      | nothing => exact ⟨rfl, rfl⟩
      | switched isActive => exact ⟨rfl, rfl⟩
      | died now lastError hopen => exact absurd hstatus hopen.successful
      | posted now receiver hopen hlimit => exact absurd hstatus hopen.successful
      | retried hadmits => exact absurd hadmits.status (by simp [hstatus])
    obtain ⟨hdelivery, hposts⟩ := ih (hstep.1 ▸ hstatus)
    exact ⟨hdelivery.trans hstep.1, hposts.trans hstep.2⟩

theorem deadLetter_unposted (hstatus : s.delivery.status = .deadLetter) (ops : List WebhookStep)
    (hquiet : (ops.foldl webhookStep s).accepted = s.accepted) : (ops.foldl webhookStep s).posts = s.posts := by
  induction ops generalizing s with
  | nil => rfl
  | cons op ops ih =>
    obtain ⟨hfirst, hrest⟩ := quiet_of_cons hquiet
    have hstep : (webhookStep s op).delivery.status = .deadLetter ∧ (webhookStep s op).posts = s.posts := by
      have hchange := webhookStep_change s op
      generalize webhookStep s op = s' at hchange hfirst
      cases hchange with
      | nothing => exact ⟨hstatus, rfl⟩
      | switched isActive => exact ⟨hstatus, rfl⟩
      | died now lastError hopen => exact absurd hstatus hopen.deadLetter
      | posted now receiver hopen hlimit => exact absurd hstatus hopen.deadLetter
      | retried hadmits => exact absurd hfirst (List.cons_ne_self _ _)
    exact (ih hstep.1 hrest).trans hstep.2

theorem attemptLimit_kept (ops : List WebhookStep) (hquiet : (ops.foldl webhookStep s).accepted = s.accepted) :
    (ops.foldl webhookStep s).delivery.attemptLimit = s.delivery.attemptLimit := by
  induction ops generalizing s with
  | nil => rfl
  | cons op ops ih =>
    obtain ⟨hfirst, hrest⟩ := quiet_of_cons hquiet
    have hstep : (webhookStep s op).delivery.attemptLimit = s.delivery.attemptLimit := by
      have hchange := webhookStep_change s op
      generalize webhookStep s op = s' at hchange hfirst
      cases hchange with
      | nothing => rfl
      | switched isActive => rfl
      | died now lastError hopen => rfl
      | posted now receiver hopen hlimit => exact posted_attemptLimit receiver
      | retried hadmits => exact absurd hfirst (List.cons_ne_self _ _)
    exact (ih hrest).trans hstep

theorem Counted.run (h : Counted s) (ops : List WebhookStep) : Counted (ops.foldl webhookStep s) := by
  induction ops generalizing s with
  | nil => exact h
  | cons op ops ih => exact ih (h.change (webhookStep_change s op))

structure DeliveryBudget (s : WebhookSystem) : Prop where
  counted : s.posts = s.delivery.attempts ∧ s.delivery.attempts ≤ s.delivery.attemptLimit
  successful : s.delivery.status = .successful → ∀ ops : List WebhookStep,
    (ops.foldl webhookStep s).delivery = s.delivery ∧ (ops.foldl webhookStep s).posts = s.posts
  deadLetter : s.delivery.status = .deadLetter → ∀ ops : List WebhookStep,
    (ops.foldl webhookStep s).accepted = s.accepted → (ops.foldl webhookStep s).posts = s.posts
  retried : ∀ op, (webhookStep s op).accepted ≠ s.accepted → ∀ ops : List WebhookStep,
    (ops.foldl webhookStep (webhookStep s op)).accepted = (webhookStep s op).accepted →
      (ops.foldl webhookStep (webhookStep s op)).posts ≤ s.posts + 5
  versions : s.accepted.Nodup

theorem Counted.budget_iff (h : Counted s) : DeliveryBudget s ↔ s.accepted.Nodup := by
  refine ⟨DeliveryBudget.versions, fun hversions => ⟨⟨h.posts, h.limit⟩, successful_kept, deadLetter_unposted, ?_, hversions⟩⟩
  intro op haccepts ops hquiet
  rcases accepted_change (webhookStep_change s op) with hsame | ⟨now, key, expectedVersion, hadmits, hstep⟩
  · exact absurd hsame haccepts
  · rw [hstep] at hquiet ⊢
    have hretried : Counted (retriedSystem s now key expectedVersion) := h.retried hadmits
    have hafter := hretried.run ops
    have hlimit := attemptLimit_kept ops hquiet
    calc (ops.foldl webhookStep (retriedSystem s now key expectedVersion)).posts
        = (ops.foldl webhookStep (retriedSystem s now key expectedVersion)).delivery.attempts := hafter.posts
      _ ≤ (ops.foldl webhookStep (retriedSystem s now key expectedVersion)).delivery.attemptLimit := hafter.limit
      _ = min (s.delivery.attempts + 5) maxAttempts := hlimit
      _ ≤ s.posts + 5 := by rw [h.posts]; exact Nat.min_le_left _ _

theorem deliver_accepted (now : Timestamp) (receiver : Receiver) (s : WebhookSystem) :
    (deliverLockedWebhook now receiver s).accepted = s.accepted := by
  unfold deliverLockedWebhook
  split
  · rfl
  · split
    · rfl
    · split <;> rfl

theorem Counted.versions_iff (h : Counted s) (op : WebhookStep) (hversions : s.accepted.Nodup) :
    (webhookStep s op).accepted.Nodup ↔ PostedSince s op := by
  cases op with
  | deliver now receiver =>
    have hsame : (webhookStep s (.deliver now receiver)).accepted = s.accepted := deliver_accepted now receiver s
    rw [hsame]
    exact iff_of_true hversions trivial
  | activate isActive => exact iff_of_true hversions trivial
  | retry now key expectedVersion =>
    by_cases hadmits : Admits s key expectedVersion
    · rw [retry_of_admits hadmits, retriedSystem, List.nodup_cons, h.version_fresh_iff hadmits]
      exact ⟨fun hfresh _ => hfresh.1, fun hposted => ⟨hposted hadmits, hversions⟩⟩
    · rw [retry_of_not_admits hadmits]
      exact iff_of_true hversions fun hadmits' => absurd hadmits' hadmits

theorem delivery_budget_iff (now : Timestamp) (isActive : Bool) (commands : Table String String) (ops : List WebhookStep) :
    (∀ before after, ops = before ++ after → DeliveryBudget (before.foldl webhookStep (created now isActive commands))) ↔
      Throughout webhookStep PostedSince ops (created now isActive commands) :=
  always_iff_throughout (fun s op h => h.change (webhookStep_change s op))
    (fun s op h hbudget => (h.change (webhookStep_change s op)).budget_iff.trans (h.versions_iff op hbudget.versions))
    (Counted.created now isActive commands) ((Counted.created now isActive commands).budget_iff.mpr List.nodup_nil)

-- The subscription is switched off while the retried delivery is pending: no post, and the same version again.
def revivedTwice : List WebhookStep :=
  [.activate false, .deliver 1 (.raises "timeout"), .retry 2 "k1" "D:0", .deliver 3 (.raises "timeout"),
    .retry 4 "k2" "D:0"]

theorem retry_version_repeated : ¬∀ (now : Timestamp) (isActive : Bool) (commands : Table String String)
    (ops before after : List WebhookStep), ops = before ++ after →
      DeliveryBudget (before.foldl webhookStep (created now isActive commands)) := by
  intro hclaim
  have hbudget := hclaim 0 true Table.empty revivedTwice revivedTwice [] (List.append_nil _).symm
  have haccepted : (revivedTwice.foldl webhookStep (created 0 true Table.empty)).accepted = ["D:0", "D:0"] := by
    decide +kernel
  have hversions := hbudget.versions
  rw [haccepted] at hversions
  exact absurd hversions (by decide)

end Webhooks

end Beyvra
