import Beyvra.FinancialBoundary.Canonical

namespace Beyvra

open Relational

def identifierSegment : List Char → Bool
  | [] => false
  | c :: cs => c.isLower && cs.all fun d => d.isLower || d.isDigit || d = '_'

def versionSegment : List Char → Bool
  | 'v' :: c :: cs => c.isDigit && c ≠ '0' && cs.all Char.isDigit
  | _ => false

-- The segments between the dots of financial.<name>...<name>.v<version>.
def versionedEventType (eventType : String) : Bool :=
  match eventType.toList.splitOn '.' with
  | [] => false
  | root :: segments =>
    root = "financial".toList && 2 ≤ segments.length && segments.dropLast.all identifierSegment &&
      segments.getLast?.any versionSegment

def endsWithVersion (eventType : String) (schemaVersion : Nat) : Bool :=
  (".v" ++ toString schemaVersion).toList.isSuffixOf eventType.toList

structure FinancialEventEnvelope where
  eventId : Uuid
  eventType : String
  schemaVersion : Nat
  occurredAt : Timestamp
  correlationId : Uuid
  causationId : Option Uuid
  tenantRef : Uuid
  payload : Json
  payloadHash : String
  versioned : versionedEventType eventType = true
  positive : 1 ≤ schemaVersion
  agrees : endsWithVersion eventType schemaVersion = true
  canonical : canonicalPayload payload = .ok (payload, payloadHash)

def financialEventEnvelope (eventId : Uuid) (eventType : String) (schemaVersion : Nat)
    (occurredAt : Timestamp) (correlationId : Uuid) (causationId : Option Uuid) (tenantRef : Uuid)
    (payload : Json) : Except EventError FinancialEventEnvelope :=
  if versioned : versionedEventType eventType = true then
    if positive : 1 ≤ schemaVersion then
      if agrees : endsWithVersion eventType schemaVersion = true then
        match h : canonicalPayload payload with
        | .ok (canonical, payloadHash) =>
          .ok { eventId, eventType, schemaVersion, occurredAt, correlationId, causationId, tenantRef
                payload := canonical, payloadHash, versioned, positive, agrees
                canonical := canonicalPayload_idempotent h }
        | .error e => .error e
      else .error (.contract "event_type version and schema_version disagree")
    else .error (.contract "schema_version must be a positive integer")
  else .error (.contract "event_type is not a versioned financial event")

structure FinancialAuditEvent where
  action : String
  tenantRef : Uuid
  accountRef : Option Uuid := none
  actorRef : Option Uuid
  correlationId : Uuid
  subjectRef : String
  payloadHash : String
  safeMetadata : Json
  occurredAt : Timestamp

def auditActions : List String :=
  ["reservation.requested", "reservation.released", "settlement.requested", "deposit_intent.requested",
    "withdrawal.requested", "withdrawal.cancelled", "transfer.requested", "provider_operation.denied",
    "compliance_gate.denied", "security_gate.denied", "financial_halt.requested",
    "financial_halt.approved"]

def opaqueChar (c : Char) : Bool := c.isAlphanum || c ∈ ['_', '.', ':', '-']

def opaqueSubject (subjectRef : String) : Bool :=
  subjectRef.length ≤ 128 && subjectRef.toList.all opaqueChar

def appendFinancialAudit (now : Timestamp) (action : String) (tenantRef correlationId : Uuid)
    (payload : Json) (actorRef : Option Uuid) (subjectRef : String) :
    Except EventError FinancialAuditEvent := do
  require (action ∈ auditActions) (.contract "unsupported financial audit action")
  require (opaqueSubject subjectRef)
    (.contract "audit subject reference must be opaque and non-PII")
  let (safeMetadata, payloadHash) ← canonicalPayload payload
  pure { action, tenantRef, actorRef, correlationId, subjectRef, payloadHash, safeMetadata
         occurredAt := now }

end Beyvra
