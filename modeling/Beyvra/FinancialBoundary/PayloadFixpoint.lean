import Mathlib.Data.List.Lex
import Beyvra.FinancialBoundary.Eventing
import Beyvra.FinancialBoundary.SecretKeys

namespace Beyvra

open Relational Text

namespace PythonPayload

mutual

-- In every dictionary the keys, as the sort leaves them, strictly increase in JSON.
def PyValue.inOrder : PyValue → Prop
  | .dict entries => ((layOut entries).map fun e => ofUnits e.1).Pairwise (· < ·) ∧ entriesInOrder entries
  | .list items => itemsInOrder items
  | .tuple items => itemsInOrder items
  | _ => True

def entriesInOrder : List (Key × PyValue) → Prop
  | [] => True
  | (_, value) :: rest => value.inOrder ∧ entriesInOrder rest

def itemsInOrder : List PyValue → Prop
  | [] => True
  | value :: rest => value.inOrder ∧ itemsInOrder rest

end

mutual

def Document.inOrder : Document → Prop
  | .obj fields => (fields.map fun f => ofUnits f.1).Pairwise (· < ·) ∧ fieldsInOrder fields
  | .arr items => documentsInOrder items
  | _ => True

def fieldsInOrder : List (List CodeUnit × Document) → Prop
  | [] => True
  | (_, value) :: rest => value.inOrder ∧ fieldsInOrder rest

def documentsInOrder : List Document → Prop
  | [] => True
  | value :: rest => value.inOrder ∧ documentsInOrder rest

end

def Document.isLeaf : Document → Bool
  | .obj _ => false
  | .arr _ => false
  | _ => true

theorem Document.byParts {motive : Document → Prop} (leaf : ∀ d, d.isLeaf = true → motive d)
    (arr : ∀ items, (∀ d ∈ items, motive d) → motive (.arr items))
    (obj : ∀ fields : List (List CodeUnit × Document), (∀ f ∈ fields, motive f.2) → motive (.obj fields))
    (d : Document) : motive d :=
  @Document.rec motive (fun items => ∀ d ∈ items, motive d) (fun fields => ∀ f ∈ fields, motive f.2)
    (fun f => motive f.2) (leaf _ rfl) (fun _ => leaf _ rfl) (fun _ => leaf _ rfl) (fun _ => leaf _ rfl)
    (fun _ => leaf _ rfl) arr obj (fun _ hd => nomatch hd)
    (fun _ _ hvalue hrest => List.forall_mem_cons.mpr ⟨hvalue, hrest⟩) (fun _ hf => nomatch hf)
    (fun _ _ hfield hrest => List.forall_mem_cons.mpr ⟨hfield, hrest⟩) (fun _ _ hvalue => hvalue) d

section Layout

variable {V : Type}

end Layout

structure FinancialAuditEvent where
  action : String
  tenantRef : Uuid
  accountRef : Option Uuid
  actorRef : Option Uuid
  correlationId : Uuid
  subjectRef : String
  payloadHash : Document
  safeMetadata : PyValue

def appendFinancialAudit (action : String) (tenantRef correlationId : Uuid) (payload : PyValue)
    (accountRef actorRef : Option Uuid) (subjectRef : String) : Except EventError FinancialAuditEvent := do
  require (action ∈ auditActions) (.contract "unsupported financial audit action")
  require (opaqueSubject subjectRef) (.contract "audit subject reference must be opaque and non-PII")
  let (safePayload, payloadHash) ← canonicalPayload payload
  pure { action, tenantRef, accountRef, actorRef, correlationId, subjectRef, payloadHash, safeMetadata := safePayload }

structure FinancialEventEnvelope where
  eventId : Uuid
  eventType : String
  schemaVersion : Nat
  occurredAt : Timestamp
  correlationId : Uuid
  causationId : Option Uuid
  tenantRef : Uuid
  payload : PyValue

def financialEventEnvelope (eventId : Uuid) (eventType : String) (schemaVersion : Nat) (occurredAt : Timestamp)
    (correlationId : Uuid) (causationId : Option Uuid) (tenantRef : Uuid) (payload : PyValue) :
    Except EventError FinancialEventEnvelope := do
  require (versionedEventType eventType) (.contract "event_type is not a versioned financial event")
  require (1 ≤ schemaVersion) (.contract "schema_version must be a positive integer")
  require (endsWithVersion eventType schemaVersion) (.contract "event_type version and schema_version disagree")
  let (payload, _) ← canonicalPayload payload
  pure { eventId, eventType, schemaVersion, occurredAt, correlationId, causationId, tenantRef, payload }

structure FinancialOutboxEvent extends FinancialEventEnvelope where
  payloadHash : Document
  nextAttemptAt : Timestamp

-- The digest is taken of the payload that the envelope has already read back.
def enqueueFinancialEvent (now : Timestamp) (inAtomicBlock : Bool) (envelope : FinancialEventEnvelope) :
    Except EventError FinancialOutboxEvent := do
  require (inAtomicBlock = true) (.runtimeError "financial outbox writes require transaction.atomic")
  let (_, payloadHash) ← canonicalPayload envelope.payload
  pure { envelope with payloadHash, nextAttemptAt := now }

section Stored

-- What a JSON column gives back of a value
variable (column : PyValue → PyValue)

-- It is the same JSON, its keys in any order.
def Keeps (value : PyValue) : Prop := ∃ d : Document, column value = d.loads ∧ d.loads.document = value.document

def Recomputed (stored : PyValue) (payloadHash : Document) : Prop :=
  ∃ again, canonicalPayload (column stored) = .ok (again, payloadHash)

structure Settled (payload q : PyValue) (h : Document) : Prop where
  fixed : canonicalPayload q = .ok (q, h)
  audited : ∀ action tenantRef correlationId accountRef actorRef subjectRef event,
    appendFinancialAudit action tenantRef correlationId payload accountRef actorRef subjectRef = .ok event →
      Recomputed column event.safeMetadata event.payloadHash
  enqueued : ∀ eventId eventType schemaVersion occurredAt correlationId causationId tenantRef envelope now row,
    financialEventEnvelope eventId eventType schemaVersion occurredAt correlationId causationId tenantRef payload =
      .ok envelope → enqueueFinancialEvent now true envelope = .ok row → Recomputed column row.payload row.payloadHash

variable {column} {payload q : PyValue} {h : Document}

end Stored

end PythonPayload

end Beyvra
