import Beyvra.Foundation.Records
import Beyvra.Relational.Stability

namespace Beyvra

open Relational

namespace OperationalNotifications

inductive NotificationStatus where
  | queued | sent | failed | read
  deriving DecidableEq

structure Notification where
  tenantId : String
  account : Nat
  channel : String
  dedupKey : String
  status : NotificationStatus := .queued
  sentAt : Option Timestamp := none
  readAt : Option Timestamp := none
  attempts : Nat := 0
  failureReasonSafe : String := ""
  -- the committed deliveries that handed it to its channel
  handed : Nat := 0
  -- a cancellation of it was successful
  cancelled : Bool := false
  deriving DecidableEq

structure OutboxEvent where
  tenantId : String
  topic : String
  notificationId : Uuid
  reason : String := ""
  publishedAt : Option Timestamp := none
  deriving DecidableEq

-- An instance that a caller of the service has loaded
structure LoadedNotification where
  id : Uuid
  status : NotificationStatus
  deriving DecidableEq

structure NotificationSystem where
  notifications : Table Uuid Notification := Table.empty
  events : Table Uuid OutboxEvent := Table.empty
  -- the events that operations.notification.delivery.v1 has processed
  processed : List Uuid := []
  loaded : Table Nat LoadedNotification := Table.empty

def createdTopic : String := "notification.created"

def deadLetterTopic : String := "notification.dead_letter"

def Notification.sameEffect (n : Notification) (tenantId : String) (account : Nat) (channel dedupKey : String) : Bool :=
  n.tenantId = tenantId ∧ n.account = account ∧ n.channel = channel ∧ n.dedupKey = dedupKey

-- The keys of the new rows are fresh; a notification that is there already is returned as it is.
def createNotification (id eventId : Uuid) (tenantId : String) (account : Nat) (channel dedupKey : String)
    (s : NotificationSystem) : NotificationSystem :=
  if s.notifications.values.any fun n => n.sameEffect tenantId account channel dedupKey then s
  else if s.notifications.find id ≠ none ∨ s.events.find eventId ≠ none then s
  else
    { s with
      notifications := s.notifications.put id { tenantId, account, channel, dedupKey }
      events := s.events.put eventId { tenantId, topic := createdTopic, notificationId := id } }

def recordDeliveryFailure (transient : Bool) (reason : String) (maxAttempts : Nat) (n : Notification) :
    Notification × Bool :=
  let attempts := n.attempts + 1
  let failureReasonSafe := String.ofList (reason.toList.take 255)
  if transient ∧ attempts < maxAttempts then ({ n with attempts, failureReasonSafe, status := .queued }, false)
  else ({ n with attempts, failureReasonSafe, status := .failed }, true)

-- The only adapter is the disabled one: its send always raises.
def disabledSend (_ : Notification) : Except String Unit := .error "PROVIDER_DISABLED"

-- What deliver() does to its notification, and whether it leaves a dead letter
def delivered (now : Timestamp) (n : Notification) : Notification × Bool :=
  if n.channel = "IN_APP" then ({ n with status := .sent, sentAt := some now }, false)
  else
    match disabledSend n with
    | .ok () => (n, false)
    | .error _ => recordDeliveryFailure false "delivery provider unavailable" 5 n

-- The notification that a run for the event finds to publish
def unpublished (s : NotificationSystem) (eventId : Uuid) : Option (OutboxEvent × Notification) :=
  match s.events.find eventId with
  | none => none
  | some event =>
    if event.publishedAt ≠ none ∨ event.topic ≠ createdTopic then none
    else
      match s.notifications.find event.notificationId with
      | none => none
      | some n => if n.tenantId = event.tenantId then some (event, n) else none

def NotificationSystem.publish (s : NotificationSystem) (eventId : Uuid) (event : OutboxEvent) (now : Timestamp) :
    NotificationSystem :=
  { s with events := s.events.put eventId { event with publishedAt := some now } }

def NotificationSystem.handOver (s : NotificationSystem) (eventId : Uuid) (event : OutboxEvent) (n : Notification)
    (now : Timestamp) (deadLetterId : Uuid) : NotificationSystem :=
  let result := delivered now n
  { s with
    notifications := s.notifications.put event.notificationId { result.1 with handed := n.handed + 1 }
    events := if result.2 then s.events.put deadLetterId
        { tenantId := n.tenantId, topic := deadLetterTopic, notificationId := event.notificationId
          reason := result.1.failureReasonSafe }
      else s.events
    processed := eventId :: s.processed }

-- A run that raises rolls back; a dead letter takes a fresh key.
def deliverNotificationOutboxEvent (eventId : Uuid) (raises : Bool) (now : Timestamp) (deadLetterId : Uuid)
    (s : NotificationSystem) : NotificationSystem :=
  match unpublished s eventId with
  | none => s
  | some (event, n) =>
    if raises ∨ s.events.find deadLetterId ≠ none then s
    else if eventId ∈ s.processed then s.publish eventId event now
    else (s.handOver eventId event n now deadLetterId).publish eventId event now

def Notification.markRead (n : Notification) (now : Timestamp) : Notification :=
  { n with status := .read, readAt := some now }

def Notification.of (n : Notification) (tenantId : String) (account : Nat) : Bool :=
  n.tenantId = tenantId ∧ n.account = account

def notificationRead (id : Uuid) (tenantId : String) (account : Nat) (now : Timestamp) (s : NotificationSystem) :
    NotificationSystem :=
  match s.notifications.find id with
  | none => s
  | some n =>
    if n.of tenantId account then { s with notifications := s.notifications.put id (n.markRead now) } else s

def notificationReadAll (tenantId : String) (account : Nat) (now : Timestamp) (s : NotificationSystem) :
    NotificationSystem :=
  { s with
    notifications := s.notifications.mapRows fun _ n =>
      if n.of tenantId account ∧ n.readAt = none then n.markRead now else n }

-- NotificationService.cancel asks the adapter about the loaded instance and saves two columns of it.
def cancel (i : Nat) (s : NotificationSystem) : NotificationSystem :=
  match s.loaded.find i with
  | none => s
  | some copy =>
    if copy.status = .queued then
      match s.notifications.find copy.id with
      | none => s
      | some n =>
        { s with
          notifications := s.notifications.put copy.id
            { n with status := .failed, failureReasonSafe := "cancelled", cancelled := true }
          loaded := s.loaded.put i { copy with status := .failed } }
    else s

def load (i : Nat) (id : Uuid) (s : NotificationSystem) : NotificationSystem :=
  match s.notifications.find id with
  | none => s
  | some n => { s with loaded := s.loaded.put i { id, status := n.status } }

inductive NotificationStep where
  | create (id eventId : Uuid) (tenantId : String) (account : Nat) (channel dedupKey : String)
  | deliver (eventId : Uuid) (raises : Bool) (now : Timestamp) (deadLetterId : Uuid)
  | read (id : Uuid) (tenantId : String) (account : Nat) (now : Timestamp)
  | readAll (tenantId : String) (account : Nat) (now : Timestamp)
  | load (i : Nat) (id : Uuid)
  | cancel (i : Nat)

def notificationStep (s : NotificationSystem) : NotificationStep → NotificationSystem
  | .create id eventId tenantId account channel dedupKey => createNotification id eventId tenantId account channel dedupKey s
  | .deliver eventId raises now deadLetterId => deliverNotificationOutboxEvent eventId raises now deadLetterId s
  | .read id tenantId account now => notificationRead id tenantId account now s
  | .readAll tenantId account now => notificationReadAll tenantId account now s
  | .load i id => load i id s
  | .cancel i => cancel i s

variable {s s' : NotificationSystem} {op : NotificationStep} {ops : List NotificationStep} {id eventId deadLetterId : Uuid}
  {event : OutboxEvent} {n n' : Notification} {now : Timestamp} {tenantId : String} {account : Nat}

def Notification.final (n : Notification) : Prop := n.status = .read ∨ n.cancelled = true

-- A notification that is read or cancelled is so afterwards, with the status it had.
def Keeps (s s' : NotificationSystem) : Prop := ∀ id n, s.notifications.find id = some n → n.final →
  ∃ n', s'.notifications.find id = some n' ∧ n'.final ∧ n'.status = n.status

-- Every write of the status finds a notification that it may follow.
def Spares (s : NotificationSystem) : NotificationStep → Prop
  | .deliver eventId raises _ deadLetterId => raises = false → s.events.find deadLetterId = none → eventId ∉ s.processed →
      ∀ event n, unpublished s eventId = some (event, n) →
        n.status ≠ .read ∧ (n.cancelled = true → n.channel ≠ "IN_APP")
  | .read id tenantId account _ => ∀ n, s.notifications.find id = some n → n.of tenantId account = true → n.cancelled = false
  | .readAll tenantId account _ => ∀ id n, s.notifications.find id = some n → n.of tenantId account = true →
      n.readAt = none → n.cancelled = false
  | .cancel i => ∀ copy n, s.loaded.find i = some copy → copy.status = .queued →
      s.notifications.find copy.id = some n → n.status ≠ .read
  | _ => True

theorem Keeps.refl (s : NotificationSystem) : Keeps s s := fun _ n hn hfinal => ⟨n, hn, hfinal, rfl⟩

theorem Keeps.trans (s t u : NotificationSystem) (hst : Keeps s t) (htu : Keeps t u) : Keeps s u := by
  intro id n hn hfinal
  obtain ⟨n', hn', hfinal', hstatus'⟩ := hst id n hn hfinal
  obtain ⟨n'', hn'', hfinal'', hstatus''⟩ := htu id n' hn' hfinal'
  exact ⟨n'', hn'', hfinal'', hstatus''.trans hstatus'⟩

theorem keeps_of_same (h : s'.notifications = s.notifications) : Keeps s s' :=
  fun _ n hn hfinal => ⟨n, h ▸ hn, hfinal, rfl⟩

theorem keeps_put (hn : s.notifications.find id = some n) (h : s'.notifications = s.notifications.put id n') :
    Keeps s s' ↔ (n.final → n'.final ∧ n'.status = n.status) := by
  constructor
  · intro hkeeps hfinal
    obtain ⟨kept, hkept, hfinal', hstatus⟩ := hkeeps id n hn hfinal
    rw [h, Table.find_put_self] at hkept
    obtain rfl := Option.some.inj hkept
    exact ⟨hfinal', hstatus⟩
  · intro hrow id' m hm hfinal
    rw [h]
    by_cases heq : id' = id
    · subst heq
      obtain rfl := Option.some.inj (hn.symm.trans hm)
      exact ⟨n', Table.find_put_self _ _ _, hrow hfinal⟩
    · exact ⟨m, (Table.find_put_of_ne _ _ heq).trans hm, hfinal, rfl⟩

theorem unpublished_eq_some (h : unpublished s eventId = some (event, n)) :
    s.events.find eventId = some event ∧ event.publishedAt = none ∧ event.topic = createdTopic ∧
      s.notifications.find event.notificationId = some n ∧ n.tenantId = event.tenantId := by
  unfold unpublished at h
  split at h
  · cases h
  · rename_i event' hevent
    split at h
    · cases h
    · rename_i hopen
      obtain ⟨hpublished, htopic⟩ := not_or.mp hopen
      split at h
      · cases h
      · rename_i n' hn
        split at h
        · rename_i htenant
          obtain ⟨rfl, rfl⟩ := Prod.mk.inj (Option.some.inj h)
          exact ⟨hevent, not_not.mp hpublished, not_not.mp htopic, hn, htenant⟩
        · cases h

theorem delivered_inApp (h : n.channel = "IN_APP") : delivered now n = ({ n with status := .sent, sentAt := some now }, false) := by
  rw [delivered, if_pos h]

theorem delivered_other (h : n.channel ≠ "IN_APP") :
    (delivered now n).1.status = .failed ∧ (delivered now n).1.cancelled = n.cancelled := by
  simp [delivered, if_neg h, disabledSend, recordDeliveryFailure]

-- The shapes of what a step does to the rows
inductive NotificationChange (s : NotificationSystem) : NotificationStep → NotificationSystem → Prop where
  | kept {op : NotificationStep} {s' : NotificationSystem} (hrows : s'.notifications = s.notifications)
      (hevents : s'.events = s.events) (hspares : Spares s op) : NotificationChange s op s'
  | created {id eventId : Uuid} {tenantId : String} {account : Nat} {channel dedupKey : String}
      (hid : s.notifications.find id = none) (hevent : s.events.find eventId = none) :
      NotificationChange s (.create id eventId tenantId account channel dedupKey) { s with
        notifications := s.notifications.put id { tenantId, account, channel, dedupKey }
        events := s.events.put eventId { tenantId, topic := createdTopic, notificationId := id } }
  | published {op : NotificationStep} {eventId : Uuid} {event : OutboxEvent} (now : Timestamp)
      (hevent : s.events.find eventId = some event) (hspares : Spares s op) :
      NotificationChange s op (s.publish eventId event now)
  | handed {eventId deadLetterId : Uuid} {event : OutboxEvent} {n : Notification} (now : Timestamp)
      (hdue : unpublished s eventId = some (event, n)) (hfresh : s.events.find deadLetterId = none)
      (hprocessed : eventId ∉ s.processed) :
      NotificationChange s (.deliver eventId false now deadLetterId)
        ((s.handOver eventId event n now deadLetterId).publish eventId event now)
  | read {id : Uuid} {n : Notification} {tenantId : String} {account : Nat} (now : Timestamp)
      (hn : s.notifications.find id = some n) (hof : n.of tenantId account = true) :
      NotificationChange s (.read id tenantId account now)
        { s with notifications := s.notifications.put id (n.markRead now) }
  | readAll (tenantId : String) (account : Nat) (now : Timestamp) :
      NotificationChange s (.readAll tenantId account now) (notificationReadAll tenantId account now s)
  | cancelled {i : Nat} {copy : LoadedNotification} {n : Notification} (hcopy : s.loaded.find i = some copy)
      (hqueued : copy.status = .queued) (hn : s.notifications.find copy.id = some n) :
      NotificationChange s (.cancel i) { s with
        notifications := s.notifications.put copy.id
          { n with status := .failed, failureReasonSafe := "cancelled", cancelled := true }
        loaded := s.loaded.put i { copy with status := .failed } }

theorem create_change (id eventId : Uuid) (tenantId : String) (account : Nat) (channel dedupKey : String) :
    NotificationChange s (.create id eventId tenantId account channel dedupKey)
      (createNotification id eventId tenantId account channel dedupKey s) := by
  unfold createNotification
  split
  · exact .kept rfl rfl trivial
  · split
    · exact .kept rfl rfl trivial
    · rename_i hkeys
      obtain ⟨hid, hevent⟩ := not_or.mp hkeys
      exact .created (not_not.mp hid) (not_not.mp hevent)

theorem deliver_change (eventId : Uuid) (raises : Bool) (now : Timestamp) (deadLetterId : Uuid) :
    NotificationChange s (.deliver eventId raises now deadLetterId)
      (deliverNotificationOutboxEvent eventId raises now deadLetterId s) := by
  unfold deliverNotificationOutboxEvent
  split
  · rename_i hdue
    refine .kept rfl rfl fun _ _ _ event n heq => ?_
    rw [hdue] at heq
    cases heq
  · rename_i event n hdue
    split
    · rename_i hstops
      refine .kept rfl rfl fun hraises hfresh _ event n heq => ?_
      rcases hstops with hraised | hused
      · rw [hraises] at hraised
        cases hraised
      · exact absurd hfresh hused
    · rename_i hgoes
      obtain ⟨hraises, hfresh⟩ := not_or.mp hgoes
      obtain rfl : raises = false := Bool.eq_false_iff.mpr hraises
      split
      · rename_i hprocessed
        exact .published now (unpublished_eq_some hdue).1 fun _ _ hnew => absurd hprocessed hnew
      · rename_i hprocessed
        exact .handed now hdue (not_not.mp hfresh) hprocessed

theorem notificationStep_change (s : NotificationSystem) (op : NotificationStep) :
    NotificationChange s op (notificationStep s op) := by
  cases op with
  | create id eventId tenantId account channel dedupKey => exact create_change id eventId tenantId account channel dedupKey
  | deliver eventId raises now deadLetterId => exact deliver_change eventId raises now deadLetterId
  | read id tenantId account now =>
    simp only [notificationStep, notificationRead]
    split
    · rename_i hn
      refine .kept rfl rfl fun n hfound _ => ?_
      rw [hn] at hfound
      cases hfound
    · rename_i n hn
      split
      · rename_i hof
        exact .read now hn hof
      · rename_i hof
        refine .kept rfl rfl fun m hm hof' => ?_
        obtain rfl := Option.some.inj (hn.symm.trans hm)
        exact absurd hof' hof
  | readAll tenantId account now => exact .readAll tenantId account now
  | load i id =>
    simp only [notificationStep, load]
    split
    · exact .kept rfl rfl trivial
    · exact .kept rfl rfl trivial
  | cancel i =>
    simp only [notificationStep, cancel]
    split
    · rename_i hcopy
      refine .kept rfl rfl fun copy n hfound _ _ => ?_
      rw [hcopy] at hfound
      cases hfound
    · rename_i copy hcopy
      split
      · rename_i hqueued
        split
        · rename_i hn
          refine .kept rfl rfl fun copy' n hfound _ hrow => ?_
          obtain rfl := Option.some.inj (hcopy.symm.trans hfound)
          rw [hn] at hrow
          cases hrow
        · rename_i n hn
          exact .cancelled hcopy hqueued hn
      · rename_i hqueued
        refine .kept rfl rfl fun copy' n hfound hqueued' _ => ?_
        obtain rfl := Option.some.inj (hcopy.symm.trans hfound)
        exact absurd hqueued' hqueued

-- A cancelled notification is FAILED.
def CancelledFailed (s : NotificationSystem) : Prop :=
  ∀ id n, s.notifications.find id = some n → n.cancelled = true → n.status = .failed

theorem CancelledFailed.put (h : CancelledFailed s) (hrows : s'.notifications = s.notifications.put id n')
    (hn' : n'.cancelled = true → n'.status = .failed) : CancelledFailed s' := by
  intro id' m hm hcancelled
  rw [hrows] at hm
  rcases Table.find_put_cases hm with ⟨-, rfl⟩ | ⟨-, hold⟩
  · exact hn' hcancelled
  · exact h id' m hold hcancelled

theorem find_readAll (s : NotificationSystem) (id : Uuid) : (notificationReadAll tenantId account now s).notifications.find id =
    (s.notifications.find id).map fun n => if n.of tenantId account ∧ n.readAt = none then n.markRead now else n :=
  Table.find_mapRows _ _ _

theorem CancelledFailed.change (h : CancelledFailed s) (hspares : Spares s op) (hchange : NotificationChange s op s') :
    CancelledFailed s' := by
  cases hchange with
  | kept hrows hevents _ =>
    intro id n hn
    rw [hrows] at hn
    exact h id n hn
  | created hid hevent => exact h.put rfl fun hcancelled => by cases hcancelled
  | published now hevent _ => exact h
  | @handed eventId deadLetterId event n now hdue hfresh hprocessed =>
    obtain ⟨-, -, -, hn, -⟩ := unpublished_eq_some hdue
    obtain ⟨-, hchannel⟩ := hspares rfl hfresh hprocessed event n hdue
    refine h.put rfl fun hcancelled => ?_
    by_cases hinApp : n.channel = "IN_APP"
    · rw [delivered_inApp hinApp] at hcancelled
      exact absurd hinApp (hchannel hcancelled)
    · exact (delivered_other hinApp).1
  | @read id n tenantId account now hn hof =>
    refine h.put rfl fun hcancelled => ?_
    rw [Notification.markRead, hspares n hn hof] at hcancelled
    cases hcancelled
  | readAll tenantId account now =>
    intro id m hm hcancelled
    rw [find_readAll] at hm
    obtain ⟨n, hn, rfl⟩ := Option.map_eq_some_iff.mp hm
    split at hcancelled
    · rename_i hmarked
      rw [Notification.markRead, hspares id n hn hmarked.1 hmarked.2] at hcancelled
      cases hcancelled
    · rename_i hmarked
      rw [if_neg hmarked]
      exact h id n hn hcancelled
  | cancelled hcopy hqueued hn => exact h.put rfl fun _ => rfl

theorem CancelledFailed.keeps_iff (h : CancelledFailed s) (hchange : NotificationChange s op s') : Keeps s s' ↔ Spares s op := by
  cases hchange with
  | kept hrows hevents hspares => exact iff_of_true (keeps_of_same hrows) hspares
  | @created id eventId tenantId account channel dedupKey hid hevent =>
    refine iff_of_true (fun id' n hn hfinal => ?_) trivial
    have hne : id' ≠ id := by
      rintro rfl
      rw [hid] at hn
      cases hn
    exact ⟨n, (Table.find_put_of_ne _ _ hne).trans hn, hfinal, rfl⟩
  | published now hevent hspares => exact iff_of_true (keeps_of_same rfl) hspares
  | @handed eventId deadLetterId event n now hdue hfresh hprocessed =>
    obtain ⟨-, -, -, hn, -⟩ := unpublished_eq_some hdue
    rw [keeps_put hn rfl]
    constructor
    · intro hkeeps _ _ _ event' m hdue'
      obtain ⟨-, rfl⟩ := Prod.mk.inj (Option.some.inj (hdue.symm.trans hdue'))
      by_cases hinApp : n.channel = "IN_APP"
      · rw [delivered_inApp hinApp] at hkeeps
        have hopen : ¬n.final := by
          intro hfinal
          have hsent : NotificationStatus.sent = n.status := (hkeeps hfinal).2
          rcases hfinal with hread | hcancelled
          · exact absurd (hsent.trans hread) (by decide)
          · exact absurd (hsent.trans (h _ n hn hcancelled)) (by decide)
        exact ⟨fun hread => hopen (.inl hread), fun hcancelled => absurd (.inr hcancelled) hopen⟩
      · refine ⟨fun hread => ?_, fun _ => hinApp⟩
        have hfailed : (delivered now n).1.status = n.status := (hkeeps (.inl hread)).2
        rw [hread, (delivered_other hinApp).1] at hfailed
        exact absurd hfailed (by decide)
    · intro hspares hfinal
      obtain ⟨hread, hchannel⟩ := hspares rfl hfresh hprocessed event n hdue
      have hcancelled : n.cancelled = true := hfinal.resolve_left hread
      have hfailed : (delivered now n).1.status = .failed ∧ (delivered now n).1.cancelled = n.cancelled :=
        delivered_other (hchannel hcancelled)
      obtain ⟨hstatus, hsame⟩ := hfailed
      exact ⟨.inr (hsame.trans hcancelled), hstatus.trans (h _ n hn hcancelled).symm⟩
  | @read id n tenantId account now hn hof =>
    rw [keeps_put hn rfl]
    constructor
    · intro hkeeps m hm _
      obtain rfl := Option.some.inj (hn.symm.trans hm)
      cases hcancelled : n.cancelled with
      | false => rfl
      | true =>
        have hstatus : NotificationStatus.read = n.status := (hkeeps (.inr hcancelled)).2
        exact absurd (hstatus.trans (h id n hn hcancelled)) (by decide)
    · intro hspares hfinal
      have hread : n.status = .read := hfinal.resolve_right (by simp [hspares n hn hof])
      exact ⟨.inl rfl, hread.symm⟩
  | readAll tenantId account now =>
    constructor
    · intro hkeeps id n hn hof hunread
      cases hcancelled : n.cancelled with
      | false => rfl
      | true =>
        obtain ⟨m, hm, -, hstatus⟩ := hkeeps id n hn (.inr hcancelled)
        rw [find_readAll, hn, Option.map_some, if_pos ⟨hof, hunread⟩] at hm
        obtain rfl := Option.some.inj hm
        have hread : NotificationStatus.read = n.status := hstatus
        exact absurd (hread.trans (h id n hn hcancelled)) (by decide)
    · intro hspares id n hn hfinal
      refine ⟨_, (find_readAll s id).trans (congrArg _ hn), ?_⟩
      beta_reduce
      split
      · rename_i hmarked
        have hread : n.status = .read := hfinal.resolve_right (by simp [hspares id n hn hmarked.1 hmarked.2])
        exact ⟨.inl rfl, hread.symm⟩
      · exact ⟨hfinal, rfl⟩
  | @cancelled i copy n hcopy hqueued hn =>
    rw [keeps_put hn rfl]
    constructor
    · intro hkeeps copy' m hcopy' _ hm
      obtain rfl := Option.some.inj (hcopy.symm.trans hcopy')
      obtain rfl := Option.some.inj (hn.symm.trans hm)
      intro hread
      have hstatus : NotificationStatus.failed = n.status := (hkeeps (.inl hread)).2
      rw [hread] at hstatus
      exact absurd hstatus (by decide)
    · intro hspares hfinal
      have hcancelled : n.cancelled = true := hfinal.resolve_left (hspares copy n hcopy hqueued hn)
      exact ⟨.inr rfl, (h _ n hn hcancelled).symm⟩

-- What every run keeps of the events and of the deliveries
structure Tracked (s : NotificationSystem) : Prop where
  sole : ∀ e f event event', s.events.find e = some event → s.events.find f = some event' → event.topic = createdTopic →
    event'.topic = createdTopic → event.notificationId = event'.notificationId → e = f
  known : ∀ e event, s.events.find e = some event → event.topic = createdTopic →
    s.notifications.find event.notificationId ≠ none
  fresh : ∀ e event n, s.events.find e = some event → event.topic = createdTopic → event.publishedAt = none →
    s.notifications.find event.notificationId = some n → n.handed = 0
  once : ∀ id n, s.notifications.find id = some n → n.handed ≤ 1

def SameHanded (s s' : NotificationSystem) : Prop := ∀ id,
  (s'.notifications.find id).map Notification.handed = (s.notifications.find id).map Notification.handed

theorem SameHanded.back (h : SameHanded s s') (hn : s'.notifications.find id = some n') :
    ∃ n, s.notifications.find id = some n ∧ n.handed = n'.handed := by
  have hid := h id
  rw [hn] at hid
  obtain ⟨n, hfound, heq⟩ := Option.map_eq_some_iff.mp hid.symm
  exact ⟨n, hfound, heq⟩

theorem SameHanded.put (hn : s.notifications.find id = some n) (hrows : s'.notifications = s.notifications.put id n')
    (hhanded : n'.handed = n.handed) : SameHanded s s' := by
  intro id'
  rw [hrows, Table.find_put]
  split
  · rename_i heq
    rw [heq, hn]
    exact congrArg some hhanded
  · rfl

theorem Tracked.same (h : Tracked s) (hevents : s'.events = s.events) (hrows : SameHanded s s') : Tracked s' where
  sole := by
    rw [hevents]
    exact h.sole
  known e event he htopic hnone := by
    rw [hevents] at he
    have hid := hrows event.notificationId
    rw [hnone] at hid
    exact h.known e event he htopic (Option.map_eq_none_iff.mp hid.symm)
  fresh e event n he htopic hpublished hn := by
    rw [hevents] at he
    obtain ⟨old, hold, heq⟩ := hrows.back hn
    exact heq.symm.trans (h.fresh e event old he htopic hpublished hold)
  once id n hn := by
    obtain ⟨old, hold, heq⟩ := hrows.back hn
    exact heq ▸ h.once id old hold

theorem Tracked.created (h : Tracked s) (hid : s.notifications.find id = none) (tenantId : String)
    (new : Notification) (hnew : new.handed = 0) : Tracked { s with
      notifications := s.notifications.put id new
      events := s.events.put eventId { tenantId, topic := createdTopic, notificationId := id } } where
  sole e f event event' he hf htopic htopic' heq := by
    rcases Table.find_put_cases he with ⟨rfl, rfl⟩ | ⟨-, heold⟩
    · rcases Table.find_put_cases hf with ⟨rfl, -⟩ | ⟨-, hfold⟩
      · rfl
      · exact absurd (heq ▸ hid) (h.known f event' hfold htopic')
    · rcases Table.find_put_cases hf with ⟨rfl, rfl⟩ | ⟨-, hfold⟩
      · exact absurd (heq.symm ▸ hid) (h.known e event heold htopic)
      · exact h.sole e f event event' heold hfold htopic htopic' heq
  known e event he htopic hnone := by
    obtain ⟨hne, hnone⟩ := Table.find_put_none hnone
    rcases Table.find_put_cases he with ⟨-, rfl⟩ | ⟨-, he⟩
    · exact hne rfl
    · exact h.known e event he htopic hnone
  fresh e event n he htopic hpublished hn := by
    rcases Table.find_put_cases hn with ⟨-, rfl⟩ | ⟨hne, hn⟩
    · exact hnew
    · rcases Table.find_put_cases he with ⟨-, rfl⟩ | ⟨-, he⟩
      · exact absurd rfl hne
      · exact h.fresh e event n he htopic hpublished hn
  once id' n hn := by
    rcases Table.find_put_cases hn with ⟨-, rfl⟩ | ⟨-, hn⟩
    · exact hnew ▸ Nat.zero_le 1
    · exact h.once id' n hn

theorem Tracked.published (h : Tracked s) (hevent : s.events.find eventId = some event) (now : Timestamp) :
    Tracked (s.publish eventId event now) where
  sole e f event' event'' he hf htopic htopic' heq := by
    have hback (g : Uuid) (found : OutboxEvent) (hg : (s.publish eventId event now).events.find g = some found) :
        ∃ old, s.events.find g = some old ∧ old.topic = found.topic ∧ old.notificationId = found.notificationId := by
      rcases Table.find_put_cases hg with ⟨rfl, rfl⟩ | ⟨-, hold⟩
      · exact ⟨event, hevent, rfl, rfl⟩
      · exact ⟨found, hold, rfl, rfl⟩
    obtain ⟨old, hold, hsame, hid⟩ := hback e event' he
    obtain ⟨old', hold', hsame', hid'⟩ := hback f event'' hf
    exact h.sole e f old old' hold hold' (hsame.trans htopic) (hsame'.trans htopic') (hid.trans (heq.trans hid'.symm))
  known e event' he htopic := by
    rcases Table.find_put_cases he with ⟨rfl, rfl⟩ | ⟨-, hold⟩
    · exact h.known e event hevent htopic
    · exact h.known e event' hold htopic
  fresh e event' n he htopic hpublished hn := by
    rcases Table.find_put_cases he with ⟨-, rfl⟩ | ⟨-, hold⟩
    · cases hpublished
    · exact h.fresh e event' n hold htopic hpublished hn
  once := h.once

theorem Tracked.handed (h : Tracked s) (hdue : unpublished s eventId = some (event, n)) (now : Timestamp) :
    Tracked ((s.handOver eventId event n now deadLetterId).publish eventId event now) := by
  obtain ⟨hevent, hpublished, htopic, hn, -⟩ := unpublished_eq_some hdue
  have hzero := h.fresh eventId event n hevent htopic hpublished hn
  -- an event for created notifications is an old one, or this one
  have hback (g : Uuid) (found : OutboxEvent) (hg : ((s.handOver eventId event n now deadLetterId).publish eventId event
      now).events.find g = some found) (hcreated : found.topic = createdTopic) :
      (g = eventId ∧ found = { event with publishedAt := some now }) ∨ (g ≠ eventId ∧ s.events.find g = some found) := by
    rcases Table.find_put_cases hg with hthis | ⟨hne, hold⟩
    · exact .inl hthis
    · simp only [NotificationSystem.handOver] at hold
      split at hold
      · rcases Table.find_put_cases hold with ⟨-, rfl⟩ | ⟨-, hold⟩
        · have htopics : deadLetterTopic = createdTopic := hcreated
          exact absurd htopics (by decide)
        · exact .inr ⟨hne, hold⟩
      · exact .inr ⟨hne, hold⟩
  constructor
  · intro e f event' event'' he hf htopic' htopic'' heq
    rcases hback e event' he htopic' with ⟨rfl, rfl⟩ | ⟨-, heold⟩
    · rcases hback f event'' hf htopic'' with ⟨rfl, -⟩ | ⟨-, hfold⟩
      · rfl
      · exact h.sole e f event event'' hevent hfold htopic htopic'' heq
    · rcases hback f event'' hf htopic'' with ⟨rfl, rfl⟩ | ⟨-, hfold⟩
      · exact h.sole e f event' event heold hevent htopic' htopic heq
      · exact h.sole e f event' event'' heold hfold htopic' htopic'' heq
  · intro e event' he htopic' hnone
    obtain ⟨hother, hnone⟩ := Table.find_put_none hnone
    rcases hback e event' he htopic' with ⟨-, rfl⟩ | ⟨-, he⟩
    · exact hother rfl
    · exact h.known e event' he htopic' hnone
  · intro e event' m he htopic' hpublished' hm
    rcases hback e event' he htopic' with ⟨-, rfl⟩ | ⟨hne, he⟩
    · cases hpublished'
    · rcases Table.find_put_cases hm with ⟨hid, -⟩ | ⟨-, hm⟩
      · exact absurd (h.sole e eventId event' event he hevent htopic' htopic hid) hne
      · exact h.fresh e event' m he htopic' hpublished' hm
  · intro id m hm
    rcases Table.find_put_cases hm with ⟨-, rfl⟩ | ⟨-, hm⟩
    · simp [hzero]
    · exact h.once id m hm

theorem Tracked.change (h : Tracked s) (hchange : NotificationChange s op s') : Tracked s' := by
  cases hchange with
  | kept hrows hevents hspares =>
    refine h.same hevents fun id => ?_
    rw [hrows]
  | created hid hevent => exact h.created hid _ _ rfl
  | published now hevent hspares => exact h.published hevent now
  | handed now hdue hfresh hprocessed => exact h.handed hdue now
  | read now hn hof => exact h.same rfl (.put hn rfl rfl)
  | readAll tenantId account now =>
    refine h.same rfl fun id => ?_
    rw [find_readAll, Option.map_map]
    refine congrArg (Option.map · _) (funext fun n => ?_)
    simp only [Function.comp_apply]
    split <;> rfl
  | cancelled hcopy hqueued hn => exact h.same rfl (.put hn rfl rfl)

theorem Tracked.run (h : Tracked s) (ops : List NotificationStep) : Tracked (ops.foldl notificationStep s) := by
  induction ops generalizing s with
  | nil => exact h
  | cons op ops ih => exact ih (h.change (notificationStep_change s op))

-- The law of the life of a notification, at all points of a run
structure Lifecycle (ops : List NotificationStep) : Prop where
  once : ∀ before after, ops = before ++ after → ∀ id n,
    (before.foldl notificationStep {}).notifications.find id = some n → n.handed ≤ 1
  final : ∀ before mid after, ops = before ++ (mid ++ after) →
    Keeps (before.foldl notificationStep {}) ((before ++ mid).foldl notificationStep {})

theorem lifecycle_iff (ops : List NotificationStep) : Lifecycle ops ↔ Throughout notificationStep Spares ops {} := by
  have hstart : CancelledFailed {} := fun id n hn => by cases hn
  have htracked : Tracked {} := ⟨fun e f event event' he => (by cases he), fun e event he => (by cases he),
    fun e event n he => (by cases he), fun id n hn => (by cases hn)⟩
  have hkept : Throughout notificationStep Spares ops {} ↔
      Throughout notificationStep (fun s op => Keeps s (notificationStep s op)) ops {} :=
    throughout_congr (fun s op h hspares => h.change hspares (notificationStep_change s op))
      (fun s op h => (h.keeps_iff (notificationStep_change s op)).symm) hstart
  rw [hkept, ← related_iff_throughout Keeps.refl Keeps.trans]
  exact ⟨Lifecycle.final, fun hfinal => ⟨fun before _ _ id n hn => (htracked.run before).once id n hn, hfinal⟩⟩

-- The customer reads the notification before its delivery runs.
def readFirst : List NotificationStep :=
  [.create "n" "e" "tenant" 1 "IN_APP" "welcome", .read "n" "tenant" 1 5, .deliver "e" false 6 "d"]

theorem read_notification_sent : ¬∀ ops, Lifecycle ops := by
  intro hclaim
  have hkeeps := (hclaim readFirst).final (readFirst.take 2) (readFirst.drop 2) [] rfl
  have hbefore : ((readFirst.take 2).foldl notificationStep {}).notifications.find "n" =
      some { tenantId := "tenant", account := 1, channel := "IN_APP", dedupKey := "welcome", status := .read
             readAt := some 5 } := by
    decide +kernel
  obtain ⟨n, hn, -, hstatus⟩ := hkeeps "n" _ hbefore (.inl rfl)
  have hafter : ((readFirst.take 2 ++ readFirst.drop 2).foldl notificationStep {}).notifications.find "n" =
      some { tenantId := "tenant", account := 1, channel := "IN_APP", dedupKey := "welcome", status := .sent
             readAt := some 5, sentAt := some 6, handed := 1 } := by
    decide +kernel
  obtain rfl := Option.some.inj (hafter.symm.trans hn)
  exact absurd hstatus (by decide)

end OperationalNotifications

end Beyvra
