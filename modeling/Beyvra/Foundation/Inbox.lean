import Beyvra.Foundation.Services
import Beyvra.Relational.InboxReplies

namespace Beyvra

open Relational

def consumedBefore (digest : Digest) (existing : ProcessedEvent) : Outcome Bool :=
  if existing.payloadHash ≠ digest then .error (.valueError "EVENT_PAYLOAD_CONFLICT") else .ok false

def consumeOnceBody (digest : Digest) : Inbox.Txn ProcessedEvent Error :=
  .selectForUpdate fun
    | some existing => .finish (consumedBefore digest existing)
    | none => .mutate (.insert (.finish (.ok true)))

-- Only an IntegrityError leaves the atomic block for the handler; the row is then read with .get().
def consumeOnceRecover (digest : Digest) : Error → Option (Option ProcessedEvent → Outcome Bool)
  | .integrityError _ => some fun row => do
    let existing ← demand row (.doesNotExist "ProcessedEvent")
    consumedBefore digest existing
  | _ => none

def consumeOnceDelivery (env : Env) (eventId : Uuid) (payload : Payload) (consumerName : String) :
    Inbox.Delivery (Uuid × String) ProcessedEvent Error where
  key := (eventId, consumerName)
  row := { payloadHash := payloadHash payload, processedAt := env.now }
  body := consumeOnceBody (payloadHash payload)
  duplicate := .integrityError "event_id, consumer_name"
  recover := consumeOnceRecover (payloadHash payload)

section Sound

variable {digest : Digest} {env : Env} {eventId : Uuid} {payload : Payload} {consumerName : String}

theorem consumedBefore_ne (existing : ProcessedEvent) : consumedBefore digest existing ≠ .ok true := by
  unfold consumedBefore
  split <;> simp

theorem consumedBefore_escapes {existing : ProcessedEvent} {e : Error}
    (h : consumedBefore digest existing = .error e) : consumeOnceRecover digest e = none := by
  unfold consumedBefore at h
  split at h
  · cases h
    rfl
  · cases h

theorem consumeOnceRecover_ne {e : Error} {handler : Option ProcessedEvent → Outcome Bool}
    (h : consumeOnceRecover digest e = some handler) (row : Option ProcessedEvent) :
    handler row ≠ .ok true := by
  cases e with
  | integrityError constraint =>
    obtain rfl := Option.some.inj h
    cases row with
    | none => simp [demand, bind, Except.bind]
    | some existing => exact consumedBefore_ne existing
  | _ => cases h

theorem consumeOnceDelivery_sound : (consumeOnceDelivery env eventId payload consumerName).Sound where
  leads row := by
    refine ⟨rfl, ?_⟩
    intro row' _
    cases row' with
    | none => exact ⟨rfl, rfl, .inl ⟨rfl, rfl, rfl⟩⟩
    | some existing => exact .inr ⟨rfl, rfl, existing, rfl, rfl⟩
  quiet _ := trivial
  escapes _ _ h := consumedBefore_escapes h
  loses := rfl
  harmless _ _ row h := consumeOnceRecover_ne h row

end Sound

abbrev ConsumerSession := Inbox.Session (Uuid × String) ProcessedEvent Error Database

def Database.inbox (db : Database) : Inbox.Store (Uuid × String) ProcessedEvent Error Database where
  business := db
  processed := db.foundation.processedEvents

section Alone

variable {env : Env} {eventId : Uuid} {payload : Payload} {consumerName : String}
  {mutation : Database → Outcome Database} {db : Database}

def consumeOnceSession (env : Env) (eventId : Uuid) (payload : Payload) (consumerName : String)
    (txn : Inbox.Txn ProcessedEvent Error) : ConsumerSession where
  delivery := consumeOnceDelivery env eventId payload consumerName
  phase := .running txn

theorem consumeOnce_start (db : Database) :
    db.inbox.step (.start 0 (consumeOnceDelivery env eventId payload consumerName)) =
      db.inbox.save 0 (consumeOnceSession env eventId payload consumerName
        (consumeOnceBody (payloadHash payload))) := rfl

theorem consumeOnce_alone_before (env : Env) {existing : ProcessedEvent}
    (hrow : db.foundation.processedEvents.find (eventId, consumerName) = some existing)
    (outcome : Except Error (Database → Database)) :
    ∃ x, ((db.inbox.step (.start 0 (consumeOnceDelivery env eventId payload consumerName))).drive 0
        outcome 4).sessions.find 0 = some x ∧
      x.phase = .done (consumedBefore (payloadHash payload) existing) := by
  let x := consumeOnceSession env eventId payload consumerName (consumeOnceBody (payloadHash payload))
  let result := consumedBefore (payloadHash payload) existing
  have hselect : (db.inbox.save 0 x).perform 0 x outcome =
      db.inbox.save 0 { x with phase := .running (.finish result), locked := true } := by
    have hvisible : (db.inbox.save 0 x).visible x = some existing := hrow
    have hfree : (db.inbox.save 0 x).free 0 x.key = true := Inbox.Store.free_alone rfl x.key
    change (db.inbox.save 0 x).execute 0 x outcome (consumeOnceBody (payloadHash payload)) = _
    simp only [consumeOnceBody, Inbox.Store.execute, hvisible, hfree, if_true, Inbox.Store.save_save]
    rfl
  have hfinish (y : ConsumerSession)
      (hy : y = { x with phase := .running (.finish result), locked := true }) :
      (db.inbox.save 0 y).perform 0 y outcome = db.inbox.save 0 (y.ends (.done result)) := by
    have hphase : y.phase = .running (.finish result) := by rw [hy]
    simp only [Inbox.Store.perform, hphase]
    cases hresult : result with
    | ok b =>
      have hidle := Inbox.Store.commit_idle (s := db.inbox.save 0 y) (x := y) (i := 0) (by rw [hy]; rfl)
        (by rw [hy]; rfl) b
      exact hidle.trans (Inbox.Store.save_save _ _ _ _)
    | error e =>
      have hescapes : y.delivery.recover e = none := by
        rw [hy]
        exact consumedBefore_escapes hresult
      simp only [Inbox.Store.execute, Inbox.Session.fail, hescapes, Inbox.Store.save_save]
  rw [consumeOnce_start, Inbox.Store.drive_save hselect, Inbox.Store.drive_save (hfinish _ rfl),
    Inbox.Store.drive_done (Table.find_put_self _ _ _) rfl]
  exact ⟨_, Table.find_put_self _ _ _, rfl⟩

theorem consumeOnce_alone_select
    (hnone : db.foundation.processedEvents.find (eventId, consumerName) = none)
    (outcome : Except Error (Database → Database)) (n : Nat) :
    (db.inbox.step (.start 0 (consumeOnceDelivery env eventId payload consumerName))).drive 0 outcome
        (n + 1) =
      (db.inbox.save 0 (consumeOnceSession env eventId payload consumerName
        (.mutate (.insert (.finish (.ok true)))))).drive 0 outcome n := by
  let x := consumeOnceSession env eventId payload consumerName (consumeOnceBody (payloadHash payload))
  rw [consumeOnce_start]
  refine Inbox.Store.drive_save ?_ n
  have hvisible : (db.inbox.save 0 x).visible x = none := hnone
  change (db.inbox.save 0 x).execute 0 x outcome (consumeOnceBody (payloadHash payload)) = _
  simp only [consumeOnceBody, Inbox.Store.execute, hvisible, Inbox.Store.save_save]
  rfl

theorem consumeOnce_alone_raised {e : Error}
    (hnone : db.foundation.processedEvents.find (eventId, consumerName) = none)
    (hmutation : mutation db = .error e) :
    ∃ x, ((db.inbox.step (.start 0 (consumeOnceDelivery env eventId payload consumerName))).drive 0
        (.error e) 4).sessions.find 0 = some x ∧
      x.phase = .done ((consumeOnce env eventId payload consumerName mutation db).map Prod.fst) := by
  let x := consumeOnceSession env eventId payload consumerName (.mutate (.insert (.finish (.ok true))))
  have hfresh : consumeFresh env (eventId, consumerName) (payloadHash payload) mutation db = .error e := by
    unfold consumeFresh
    rw [hnone]
    exact bind_of_error hmutation
  have hraise : (db.inbox.save 0 x).perform 0 x (.error e) =
      db.inbox.save 0 ({ x with raised := true }.fail e) := by
    change (db.inbox.save 0 x).execute 0 x (.error e) (.mutate (.insert (.finish (.ok true)))) = _
    simp only [Inbox.Store.execute, Inbox.Store.save_save]
  have hrecover : x.delivery.recover e = consumeOnceRecover (payloadHash payload) e := rfl
  rw [consumeOnce_alone_select hnone, Inbox.Store.drive_save hraise]
  simp only [Inbox.Session.fail, hrecover, consumeOnce, hfresh]
  cases e with
  | integrityError constraint =>
    have hhandle (y : ConsumerSession) (hkey : y.key = (eventId, consumerName))
        {handler : Option ProcessedEvent → Outcome Bool} (hphase : y.phase = .recovering handler) :
        (db.inbox.save 0 y).perform 0 y (.error (.integrityError constraint)) =
          db.inbox.save 0 (y.ends (.done (handler none))) := by
      have hstored : (db.inbox.save 0 y).stored y = none := by
        unfold Inbox.Store.stored
        rw [hkey]
        exact hnone
      simp only [Inbox.Store.perform, hphase, hstored, Inbox.Store.save_save]
    simp only [consumeOnceRecover]
    rw [Inbox.Store.drive_save (hhandle _ rfl rfl), Inbox.Store.drive_done (Table.find_put_self _ _ _) rfl]
    have hfetch : fetch db.foundation.processedEvents (eventId, consumerName)
        (Error.doesNotExist "ProcessedEvent") = .error (.doesNotExist "ProcessedEvent") := by
      unfold fetch
      rw [hnone]
    refine ⟨_, Table.find_put_self _ _ _, ?_⟩
    rw [bind_of_error hfetch]
    rfl
  | _ =>
    simp only [consumeOnceRecover]
    rw [Inbox.Store.drive_done (Table.find_put_self _ _ _) rfl]
    exact ⟨_, Table.find_put_self _ _ _, rfl⟩

theorem consumeOnce_alone_written {written : Database}
    (hnone : db.foundation.processedEvents.find (eventId, consumerName) = none)
    (hmutation : mutation db = .ok written)
    (hkeeps : written.foundation.processedEvents.find (eventId, consumerName) = none) :
    ∃ x, ((db.inbox.step (.start 0 (consumeOnceDelivery env eventId payload consumerName))).drive 0
        (.ok fun _ => written) 4).sessions.find 0 = some x ∧
      x.phase = .done ((consumeOnce env eventId payload consumerName mutation db).map Prod.fst) := by
  let row : ProcessedEvent := { payloadHash := payloadHash payload, processedAt := env.now }
  let x := consumeOnceSession env eventId payload consumerName (.mutate (.insert (.finish (.ok true))))
  let y : ConsumerSession :=
    { x with phase := .running (.insert (.finish (.ok true))), effect := some fun _ => written }
  let z := { y with phase := .running (.finish (.ok true)), inserted := true }
  have hmutate : (db.inbox.save 0 x).perform 0 x (.ok fun _ => written) = db.inbox.save 0 y := by
    change (db.inbox.save 0 x).execute 0 x (.ok fun _ => written) (.mutate (.insert (.finish (.ok true)))) = _
    simp only [Inbox.Store.execute, Inbox.Store.save_save]
    rfl
  have hinsert : (db.inbox.save 0 y).perform 0 y (.ok fun _ => written) = db.inbox.save 0 z := by
    have hvisible : (db.inbox.save 0 y).visible y = none := hnone
    have hclaimed : (db.inbox.save 0 y).claimed 0 y.key = false := Inbox.Store.unclaimed_alone rfl y.key
    change (db.inbox.save 0 y).execute 0 y (.ok fun _ => written) (.insert (.finish (.ok true))) = _
    simp only [Inbox.Store.execute, hvisible, hclaimed, Inbox.Store.save_save, Option.isSome_none,
      Bool.false_eq_true, if_false]
    rfl
  have hconsumed : consumeOnce env eventId payload consumerName mutation db =
      .ok (true, written.withProcessed (eventId, consumerName) row) :=
    (consumeOnce_of_unprocessed hnone).mpr ⟨rfl, written, hmutation, hkeeps, rfl⟩
  rw [consumeOnce_alone_select hnone, Inbox.Store.drive_save hmutate, Inbox.Store.drive_save hinsert,
    hconsumed]
  exact ⟨z.ends (.done (.ok true)), Table.find_put_self _ _ _, rfl⟩

-- Alone in the inbox, a delivery replies what the sequential consume_once replies.
theorem consumeOnce_alone (hkeeps : ∀ written, mutation db = .ok written →
      written.foundation.processedEvents.find (eventId, consumerName) =
        db.foundation.processedEvents.find (eventId, consumerName)) :
    ∃ x, ((db.inbox.step (.start 0 (consumeOnceDelivery env eventId payload consumerName))).drive 0
        ((mutation db).map fun written _ => written) 4).sessions.find 0 = some x ∧
      x.phase = .done ((consumeOnce env eventId payload consumerName mutation db).map Prod.fst) := by
  cases hrow : db.foundation.processedEvents.find (eventId, consumerName) with
  | some existing =>
    obtain ⟨x, hx, hdone⟩ := consumeOnce_alone_before env hrow
      ((mutation db).map fun written _ => written)
    refine ⟨x, hx, hdone.trans ?_⟩
    by_cases hsame : existing.payloadHash = payloadHash payload
    · rw [consumeOnce_of_processed hrow hsame]
      simp [consumedBefore, hsame, Except.map]
    · rw [consumeOnce_of_conflict hrow hsame]
      simp [consumedBefore, hsame, Except.map]
  | none =>
    cases hmutation : mutation db with
    | error e => exact consumeOnce_alone_raised hrow hmutation
    | ok written => exact consumeOnce_alone_written hrow hmutation ((hkeeps written hmutation).trans hrow)

end Alone

end Beyvra
