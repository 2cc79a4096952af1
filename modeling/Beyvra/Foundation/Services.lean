import Beyvra.Database

namespace Beyvra

open Relational

namespace Database

def enqueueEvent (db : Database) (env : Env) (aggregateType aggregateId eventType : String)
    (payload : Payload) (tenantRef : String) (correlationId : Option Uuid := none) : Database :=
  { db with foundation.outbox := db.foundation.outbox ++
      [{ aggregateType, aggregateId, eventType, payload, tenantRef, occurredAt := env.now
         correlationId := correlationId.getD (env.uuid4 eventType) }] }

def audit (db : Database) (env : Env) (actorRef action resourceType resourceId : String)
    (correlationId : Uuid) (reason : String := "simulation") : Database :=
  { db with foundation.audits := db.foundation.audits ++
      [{ actorRef, action, resourceType, resourceId, correlationId, reason, occurredAt := env.now }] }

def withProcessed (db : Database) (key : Uuid × String) (event : ProcessedEvent) : Database :=
  { db with foundation.processedEvents := db.foundation.processedEvents.put key event }

def withIdempotency (db : Database) (scope : IdempotencyScope) (record : IdempotencyRecord) : Database :=
  { db with foundation.idempotency := db.foundation.idempotency.put scope record }

end Database

def createProcessedEvent (env : Env) (key : Uuid × String) (digest : Digest) (db : Database) :
    Outcome Database := do
  require (db.foundation.processedEvents.find key = none) (.integrityError "event_id, consumer_name")
  pure (db.withProcessed key { payloadHash := digest, processedAt := env.now })

def consumeFresh (env : Env) (key : Uuid × String) (digest : Digest)
    (mutation : Database → Outcome Database) (db : Database) : Outcome (Bool × Database) :=
  match db.foundation.processedEvents.find key with
  | some existing => do
    require (existing.payloadHash = digest) (.valueError "EVENT_PAYLOAD_CONFLICT")
    pure (false, db)
  | none => do
    let db ← mutation db
    let db ← createProcessedEvent env key digest db
    pure (true, db)

def consumeOnce (env : Env) (eventId : Uuid) (payload : Payload) (consumerName : String)
    (mutation : Database → Outcome Database) (db : Database) : Outcome (Bool × Database) :=
  match consumeFresh env (eventId, consumerName) (payloadHash payload) mutation db with
  | .error (.integrityError _) => do
    let existing ← fetch db.foundation.processedEvents (eventId, consumerName)
      (.doesNotExist "ProcessedEvent")
    require (existing.payloadHash = payloadHash payload) (.valueError "EVENT_PAYLOAD_CONFLICT")
    pure (false, db)
  | outcome => outcome

section ConsumeOnce

variable {env : Env} {eventId : Uuid} {payload : Payload} {consumerName : String}
  {mutation : Database → Outcome Database} {db db' : Database} {consumed : Bool}

theorem consumeOnce_of_processed {existing : ProcessedEvent}
    (h : db.foundation.processedEvents.find (eventId, consumerName) = some existing)
    (hd : existing.payloadHash = payloadHash payload) :
    consumeOnce env eventId payload consumerName mutation db = .ok (false, db) := by
  simp [consumeOnce, consumeFresh, h, require_of hd, bind, Except.bind, pure, Except.pure]

theorem consumeOnce_of_conflict {existing : ProcessedEvent}
    (h : db.foundation.processedEvents.find (eventId, consumerName) = some existing)
    (hd : existing.payloadHash ≠ payloadHash payload) :
    consumeOnce env eventId payload consumerName mutation db =
      .error (.valueError "EVENT_PAYLOAD_CONFLICT") := by
  simp [consumeOnce, consumeFresh, h, require_of_not hd, bind, Except.bind]

theorem consumeOnce_of_unprocessed
    (h : db.foundation.processedEvents.find (eventId, consumerName) = none) :
    consumeOnce env eventId payload consumerName mutation db = .ok (consumed, db') ↔
      consumed = true ∧ ∃ written, mutation db = .ok written ∧
        written.foundation.processedEvents.find (eventId, consumerName) = none ∧
        db' = written.withProcessed (eventId, consumerName)
          { payloadHash := payloadHash payload, processedAt := env.now } := by
  have hfresh : consumeFresh env (eventId, consumerName) (payloadHash payload) mutation db =
      .ok (consumed, db') ↔ consumed = true ∧ ∃ written, mutation db = .ok written ∧
        written.foundation.processedEvents.find (eventId, consumerName) = none ∧
        db' = written.withProcessed (eventId, consumerName)
          { payloadHash := payloadHash payload, processedAt := env.now } := by
    simp only [consumeFresh, h, createProcessedEvent, bind_eq_ok, require_eq_ok, pure_eq_ok,
      Prod.mk.injEq]
    constructor
    · rintro ⟨written, hw, _, ⟨_, hnone, rfl⟩, hc, rfl⟩
      exact ⟨hc.symm, written, hw, hnone, rfl⟩
    · rintro ⟨hc, written, hw, hnone, rfl⟩
      exact ⟨written, hw, _, ⟨(), hnone, rfl⟩, hc.symm, rfl⟩
  rw [← hfresh]
  unfold consumeOnce
  cases hrun : consumeFresh env (eventId, consumerName) (payloadHash payload) mutation db with
  | ok p => rfl
  | error e =>
    cases e with
    | integrityError constraint =>
      simp [fetch, h, bind, Except.bind]
    | _ => rfl

theorem consumeOnce_cases (h : consumeOnce env eventId payload consumerName mutation db = .ok (consumed, db')) :
    (consumed = false ∧ db' = db ∧ ∃ existing,
      db.foundation.processedEvents.find (eventId, consumerName) = some existing ∧
      existing.payloadHash = payloadHash payload) ∨
    (consumed = true ∧ db.foundation.processedEvents.find (eventId, consumerName) = none ∧
      ∃ written, mutation db = .ok written ∧
        written.foundation.processedEvents.find (eventId, consumerName) = none ∧
        db' = written.withProcessed (eventId, consumerName)
          { payloadHash := payloadHash payload, processedAt := env.now }) := by
  cases hp : db.foundation.processedEvents.find (eventId, consumerName) with
  | none =>
    obtain ⟨hc, hwritten⟩ := (consumeOnce_of_unprocessed hp).mp h
    exact .inr ⟨hc, rfl, hwritten⟩
  | some existing =>
    by_cases hd : existing.payloadHash = payloadHash payload
    · rw [consumeOnce_of_processed hp hd] at h
      cases h
      exact .inl ⟨rfl, rfl, existing, rfl, hd⟩
    · rw [consumeOnce_of_conflict hp hd] at h
      cases h

end ConsumeOnce

def idempotencyTtl : Int := microsecondsPerDay

def canonicalRequestHash (data : Payload) : Digest := payloadHash data

def beginIdempotentRequest (env : Env) (scope : IdempotencyScope) (requestData : Payload) (db : Database) :
    Outcome ((IdempotencyRecord × Bool) × Database) :=
  match db.foundation.idempotency.find scope with
  | none =>
    let record : IdempotencyRecord :=
      { requestHash := canonicalRequestHash requestData, expiresAt := env.now + idempotencyTtl }
    pure ((record, true), db.withIdempotency scope record)
  | some record => do
    require (record.requestHash = canonicalRequestHash requestData) .idempotencyConflict
    pure ((record, false), db)

def completeIdempotentRequest (scope : IdempotencyScope) (status : Nat) (body : Payload)
    (resourceType resourceId : String) (db : Database) : Outcome Database := do
  let record ← fetch db.foundation.idempotency scope (.doesNotExist "IdempotencyRecord")
  pure (db.withIdempotency scope
    { record with responseStatus := some status, responseBody := some body, resourceType, resourceId })

end Beyvra
