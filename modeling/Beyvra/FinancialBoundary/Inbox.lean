import Beyvra.FinancialBoundary.Outbox
import Beyvra.Foundation.Inbox

namespace Beyvra

open Relational

structure FinancialProcessedEvent where
  eventType : String
  tenantRef : Uuid
  payloadHash : String
  processedAt : Timestamp
  deriving DecidableEq

def processedEventOf (now : Timestamp) (envelope : FinancialEventEnvelope) : FinancialProcessedEvent where
  eventType := envelope.eventType
  tenantRef := envelope.tenantRef
  payloadHash := envelope.payloadHash
  processedAt := now

def replayedBefore (envelope : FinancialEventEnvelope) (existing : FinancialProcessedEvent) :
    Except EventError Bool :=
  if existing.eventType ≠ envelope.eventType ∨ existing.tenantRef ≠ envelope.tenantRef ∨
      existing.payloadHash ≠ envelope.payloadHash then
    .error (.replayConflict "event_id was replayed with different tenant, type, or payload")
  else .ok false

def consumeFinancialEventBody : Inbox.Txn FinancialProcessedEvent EventError :=
  .insert (.mutate (.finish (.ok true)))

-- An IntegrityError with no row for the event is the handler's own and is raised again.
def consumeFinancialEventRecover (envelope : FinancialEventEnvelope) :
    EventError → Option (Option FinancialProcessedEvent → Except EventError Bool)
  | .integrityError constraint => some fun
    | none => .error (.integrityError constraint)
    | some existing => replayedBefore envelope existing
  | _ => none

def consumeFinancialEventDelivery (now : Timestamp) (envelope : FinancialEventEnvelope) :
    Inbox.Delivery Uuid FinancialProcessedEvent EventError where
  key := envelope.eventId
  row := processedEventOf now envelope
  body := consumeFinancialEventBody
  duplicate := .integrityError "event_id"
  recover := consumeFinancialEventRecover envelope

section Sound

variable {now : Timestamp} {envelope : FinancialEventEnvelope}

theorem replayedBefore_ne (existing : FinancialProcessedEvent) :
    replayedBefore envelope existing ≠ .ok true := by
  unfold replayedBefore
  split <;> simp

theorem replayedBefore_escapes {existing : FinancialProcessedEvent} {e : EventError}
    (h : replayedBefore envelope existing = .error e) : consumeFinancialEventRecover envelope e = none := by
  unfold replayedBefore at h
  split at h
  · cases h
    rfl
  · cases h

theorem consumeFinancialEventRecover_ne {e : EventError}
    {handler : Option FinancialProcessedEvent → Except EventError Bool}
    (h : consumeFinancialEventRecover envelope e = some handler) (row : Option FinancialProcessedEvent) :
    handler row ≠ .ok true := by
  cases e with
  | integrityError constraint =>
    obtain rfl := Option.some.inj h
    cases row with
    | none => simp
    | some existing => exact replayedBefore_ne existing
  | _ => cases h

theorem consumeFinancialEventDelivery_sound : (consumeFinancialEventDelivery now envelope).Sound where
  leads _ := ⟨rfl, rfl, .inl ⟨rfl, rfl, rfl⟩⟩
  quiet _ := trivial
  escapes _ _ h := replayedBefore_escapes h
  loses := rfl
  harmless _ _ row h := consumeFinancialEventRecover_ne h row

end Sound

def ConsumesOnce {B : Type} : Inbox.Action (Uuid × String) ProcessedEvent Error B → Prop
  | .start _ delivery => ∃ env eventId payload consumerName,
    delivery = consumeOnceDelivery env eventId payload consumerName
  | _ => True

def ConsumesFinancialEvents {B : Type} : Inbox.Action Uuid FinancialProcessedEvent EventError B → Prop
  | .start _ delivery => ∃ now envelope, delivery = consumeFinancialEventDelivery now envelope
  | _ => True

section Run

variable {B : Type}

theorem ConsumesOnce.starts {action : Inbox.Action (Uuid × String) ProcessedEvent Error B}
    (h : ConsumesOnce action) : Inbox.Starts action := by
  cases action with
  | start i delivery =>
    obtain ⟨env, eventId, payload, consumerName, rfl⟩ := h
    exact consumeOnceDelivery_sound
  | advance i outcome => trivial
  | abandon i => trivial

theorem ConsumesFinancialEvents.starts {action : Inbox.Action Uuid FinancialProcessedEvent EventError B}
    (h : ConsumesFinancialEvents action) : Inbox.Starts action := by
  cases action with
  | start i delivery =>
    obtain ⟨now, envelope, rfl⟩ := h
    exact consumeFinancialEventDelivery_sound
  | advance i outcome => trivial
  | abandon i => trivial

theorem consumeOnceDelivery_answer (env : Env) (eventId : Uuid) (payload : Payload) (consumerName : String)
    (existing : ProcessedEvent) :
    (consumeOnceDelivery env eventId payload consumerName).answer existing =
      if existing.payloadHash = payloadHash payload then .ok false
      else .error (.valueError "EVENT_PAYLOAD_CONFLICT") := by
  change consumedBefore (payloadHash payload) existing = _
  unfold consumedBefore
  rw [ite_not]

theorem consumeFinancialEventDelivery_answer (now : Timestamp) (envelope : FinancialEventEnvelope)
    (existing : FinancialProcessedEvent) :
    (consumeFinancialEventDelivery now envelope).answer existing =
      if existing.eventType = envelope.eventType ∧ existing.tenantRef = envelope.tenantRef ∧
          existing.payloadHash = envelope.payloadHash then .ok false
      else .error (.replayConflict "event_id was replayed with different tenant, type, or payload") := by
  change replayedBefore envelope existing = _
  unfold replayedBefore
  simp only [← not_and_or, ite_not]

end Run

theorem inbox_exactly_once {B : Type} :
    (∀ start s : Inbox.Store (Uuid × String) ProcessedEvent Error B,
      start.sessions = Table.empty → start.log = [] →
      Reaches Inbox.Store.step (fun _ action => ConsumesOnce action) start s →
      Inbox.ExactlyOnce start s ∧
      ∀ s' i env eventId payload consumerName existing, s.sessions.find i = none →
        s.processed.find (eventId, consumerName) = some existing →
        Reaches Inbox.Store.step (fun _ action => ConsumesOnce action)
          (s.step (.start i (consumeOnceDelivery env eventId payload consumerName))) s' →
        Inbox.Replies (consumeOnceDelivery env eventId payload consumerName)
          (if existing.payloadHash = payloadHash payload then .ok false
            else .error (.valueError "EVENT_PAYLOAD_CONFLICT")) i s') ∧
    ∀ start s : Inbox.Store Uuid FinancialProcessedEvent EventError B,
      start.sessions = Table.empty → start.log = [] →
      Reaches Inbox.Store.step (fun _ action => ConsumesFinancialEvents action) start s →
      Inbox.ExactlyOnce start s ∧
      ∀ s' i now envelope existing, s.sessions.find i = none →
        s.processed.find envelope.eventId = some existing →
        Reaches Inbox.Store.step (fun _ action => ConsumesFinancialEvents action)
          (s.step (.start i (consumeFinancialEventDelivery now envelope))) s' →
        Inbox.Replies (consumeFinancialEventDelivery now envelope)
          (if existing.eventType = envelope.eventType ∧ existing.tenantRef = envelope.tenantRef ∧
              existing.payloadHash = envelope.payloadHash then .ok false
            else .error (.replayConflict "event_id was replayed with different tenant, type, or payload"))
          i s' := by
  refine ⟨?_, ?_⟩
  · intro start s hsessions hlog hrun
    have hconsistent := Inbox.Consistent.serve (fun _ h => h.starts) hsessions hlog hrun
    refine ⟨hconsistent.exactlyOnce, ?_⟩
    intro s' i env eventId payload consumerName existing hnew hrow hlater
    rw [← consumeOnceDelivery_answer env eventId payload consumerName existing]
    exact hconsistent.replies (fun _ h => h.starts) consumeOnceDelivery_sound hnew hrow hlater
  · intro start s hsessions hlog hrun
    have hconsistent := Inbox.Consistent.serve (fun _ h => h.starts) hsessions hlog hrun
    refine ⟨hconsistent.exactlyOnce, ?_⟩
    intro s' i now envelope existing hnew hrow hlater
    rw [← consumeFinancialEventDelivery_answer now envelope existing]
    exact hconsistent.replies (fun _ h => h.starts) consumeFinancialEventDelivery_sound hnew hrow hlater

def raceTime : Timestamp := calendarSeedDate * microsecondsPerDay

theorem raceTime_seeded : calendarSeedDate ≤ Timestamp.date raceTime := by
  decide

def raceEnv : Env where
  now := raceTime
  settings := { simulatedExecutionPrices := [] }
  uuid4 := id
  seeded := raceTime_seeded

def replyOf {K D E B : Type} (s : Inbox.Store K D E B) (i : Nat) : Option (Except E Bool) :=
  (s.sessions.find i).bind fun x => match x.phase with
    | .done result => some result
    | _ => none

def creditOnce (eventId : Uuid) (amount : ℚ) : Inbox.Delivery (Uuid × String) ProcessedEvent Error :=
  consumeOnceDelivery raceEnv eventId [("amount", .dec amount)] "ledger"

def credit {K D E : Type} (i : Nat) : Inbox.Action K D E Nat := .advance i (.ok (· + 1))

-- Two deliveries of one event run side by side; the mutation of the third, of another event, raises.
def race : List (Inbox.Action (Uuid × String) ProcessedEvent Error Nat) :=
  [.start 0 (creditOnce "E1" 5), .start 1 (creditOnce "E1" 5), .start 2 (creditOnce "E2" 5), credit 0,
    credit 1, credit 2, credit 0, credit 1, .advance 2 (.error (.valueError "INSUFFICIENT")), credit 1,
    credit 0, credit 1, credit 0, credit 0]

def raced : Inbox.Store (Uuid × String) ProcessedEvent Error Nat :=
  race.foldl Inbox.Store.step { business := 0 }

def grantOnce : List (Inbox.Action Uuid FinancialProcessedEvent EventError Nat) :=
  [.start 0 (consumeFinancialEventDelivery 0 reservationRequested), credit 0, credit 0, credit 0]

def granted : Inbox.Store Uuid FinancialProcessedEvent EventError Nat :=
  grantOnce.foldl Inbox.Store.step { business := 0 }

theorem race_consumes : ∀ action ∈ race, ConsumesOnce action := by
  simp only [race, List.forall_mem_cons]
  exact ⟨⟨_, _, _, _, rfl⟩, ⟨_, _, _, _, rfl⟩, ⟨_, _, _, _, rfl⟩, trivial, trivial, trivial, trivial,
    trivial, trivial, trivial, trivial, trivial, trivial, trivial, List.forall_mem_nil _⟩

theorem grantOnce_consumes : ∀ action ∈ grantOnce, ConsumesFinancialEvents action := by
  simp only [grantOnce, List.forall_mem_cons]
  exact ⟨⟨_, _, rfl⟩, trivial, trivial, trivial, List.forall_mem_nil _⟩

theorem inbox_exactly_once_raced :
    (replyOf raced 0 = some (.ok false) ∧ replyOf raced 1 = some (.ok true) ∧ raced.business = 1) ∧
      Inbox.ExactlyOnce { business := 0 } raced ∧
      Inbox.Replies (creditOnce "E1" 6) (.error (.valueError "EVENT_PAYLOAD_CONFLICT")) 3
        (raced.step (.start 3 (creditOnce "E1" 6))) ∧
      Inbox.Replies (consumeFinancialEventDelivery 7 reservationRequested) (.ok false) 1
        (granted.step (.start 1 (consumeFinancialEventDelivery 7 reservationRequested))) := by
  have honce := inbox_exactly_once.1 { business := 0 } raced rfl rfl
    (Reaches.of_foldl fun _ action hmem => race_consumes action hmem)
  have hgranted := inbox_exactly_once.2 { business := 0 } granted rfl rfl
    (Reaches.of_foldl fun _ action hmem => grantOnce_consumes action hmem)
  have hrow : raced.processed.find ("E1", "ledger") =
      some { payloadHash := payloadHash [("amount", .dec 5)], processedAt := raceTime } := by
    decide +kernel
  have hreceipt : granted.processed.find "E1" = some (processedEventOf 0 reservationRequested) := by
    decide +kernel
  have hnew : (raced.sessions.find 3).isNone = true := by decide +kernel
  have hunused : (granted.sessions.find 1).isNone = true := by decide +kernel
  refine ⟨by decide +kernel, honce.1, ?_, ?_⟩
  · exact honce.2 _ 3 raceEnv "E1" [("amount", .dec 6)] "ledger" _ (Option.isNone_iff_eq_none.mp hnew) hrow
      .refl
  · exact hgranted.2 _ 1 7 reservationRequested _ (Option.isNone_iff_eq_none.mp hunused) hreceipt .refl

end Beyvra
