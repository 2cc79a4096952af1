import Beyvra.Relational.Journal
import Beyvra.FinancialBoundary.Eventing

namespace Beyvra

open Relational

def financialRealtimeTopics : List (String × String) :=
  [("wallet.updated.v1", "/api/v1/wallets/"), ("deposit.updated.v1", "/api/v1/deposits/"),
    ("withdrawal.updated.v1", "/api/v1/withdrawals/"),
    ("transfer.updated.v1", "/api/v1/transfers/")]

def snapshotEndpoint (eventType : String) : Option String :=
  (financialRealtimeTopics.find? fun p => p.1 = eventType).map Prod.snd

-- The code points of the decimal digit zero: str.isdecimal accepts each of the ten digits from there.
def decimalZeros : List Nat :=
  [0x30, 0x660, 0x6f0, 0x7c0, 0x966, 0x9e6, 0xa66, 0xae6, 0xb66, 0xbe6, 0xc66, 0xce6, 0xd66, 0xde6,
    0xe50, 0xed0, 0xf20, 0x1040, 0x1090, 0x17e0, 0x1810, 0x1946, 0x19d0, 0x1a80, 0x1a90, 0x1b50,
    0x1bb0, 0x1c40, 0x1c50, 0xa620, 0xa8d0, 0xa900, 0xa9d0, 0xa9f0, 0xaa50, 0xabf0, 0xff10, 0x104a0,
    0x10d30, 0x11066, 0x110f0, 0x11136, 0x111d0, 0x112f0, 0x11450, 0x114d0, 0x11650, 0x116c0,
    0x11730, 0x118e0, 0x11950, 0x11c50, 0x11d50, 0x11da0, 0x16a60, 0x16ac0, 0x16b50, 0x1d7ce,
    0x1d7d8, 0x1d7e2, 0x1d7ec, 0x1d7f6, 0x1e140, 0x1e2f0, 0x1e950, 0x1fbf0]

def decimalChar (c : Char) : Bool :=
  decimalZeros.any fun first => first ≤ c.toNat && c.toNat < first + 10

def subjectIdentifier (subjectRef : String) : Bool :=
  subjectRef ≠ "" && subjectRef.length ≤ 64 && subjectRef.toList.all decimalChar

def Json.hasKey (key : String) : Json → Bool
  | .obj fields => fields.any fun p => p.1 = key
  | _ => false

def naturalNumber (value : Json) : Option Nat :=
  match value with
  | .int n => if n < 0 then none else some n.toNat
  | _ => none

structure FinancialProjectionEvent where
  eventId : Uuid
  eventType : String
  tenantRef : Uuid
  subjectRef : String
  sequence : Nat
  occurredAt : Timestamp
  payload : Json
  topic : (snapshotEndpoint eventType).isSome = true
  positive : 1 ≤ sequence
  subject : subjectIdentifier subjectRef = true
  canonical : ∃ digest, canonicalPayload payload = .ok (payload, digest)
  anonymous : payload.hasKey "user_id" = false ∧ payload.hasKey "tenant_ref" = false

def financialProjectionEvent (eventId : Uuid) (eventType : String) (tenantRef : Uuid)
    (subjectRef : String) (sequence : Json) (occurredAt : Timestamp) (payload : Json) :
    Except EventError FinancialProjectionEvent :=
  let number := (naturalNumber sequence).getD 0
  if topic : (snapshotEndpoint eventType).isSome = true then
    if positive : 1 ≤ number then
      if subject : subjectIdentifier subjectRef = true then
        match h : canonicalPayload payload with
        | .ok (canonical, digest) =>
          if anonymous : canonical.hasKey "user_id" = false ∧ canonical.hasKey "tenant_ref" = false then
            .ok { eventId, eventType, tenantRef, subjectRef, sequence := number, occurredAt
                  payload := canonical, topic, positive, subject
                  canonical := ⟨digest, canonicalPayload_idempotent h⟩, anonymous }
          else .error (.contract "financial event identity cannot be supplied in payload")
        | .error e => .error e
      else .error (.contract "subject_ref must be a server-derived user identifier")
    else .error (.contract "financial sequence must be a positive integer")
  else .error (.contract "unsupported financial realtime event")

structure CursorScope where
  tenantRef : Uuid
  subjectRef : String
  eventType : String
  deriving DecidableEq

def FinancialProjectionEvent.scope (event : FinancialProjectionEvent) : CursorScope where
  tenantRef := event.tenantRef
  subjectRef := event.subjectRef
  eventType := event.eventType

structure FinancialProjectionCursor where
  lastSequence : Nat := 0
  lastEventId : Option Uuid := none
  snapshotVersion : Nat := 0
  projection : Json := .obj []
  projectionHash : String := ""

abbrev CursorTable := Table CursorScope FinancialProjectionCursor

inductive ProjectionStatus where
  | applied | duplicate | stale | gapRecoveryRequired | snapshotReplaced
  deriving DecidableEq

structure ProjectionResult where
  status : ProjectionStatus
  lastSequence : Nat
  expectedSequence : Nat
  snapshotEndpoint : Option String := none
  deriving DecidableEq

-- A reducer may raise any exception of its own.
abbrev Reducer := Json → Json → Except String Json

def cursorAt (t : CursorTable) (scope : CursorScope) : FinancialProjectionCursor :=
  (t.find scope).getD {}

def getOrCreateCursor (scope : CursorScope) (t : CursorTable) : CursorTable :=
  match t.find scope with
  | some _ => t
  | none => t.put scope {}

def bigIntMax : Nat := 9223372036854775807

def saveCursor (scope : CursorScope) (cursor : FinancialProjectionCursor) (t : CursorTable) :
    Except EventError CursorTable := do
  require (cursor.lastSequence ≤ bigIntMax) (.dataError "last_sequence")
  require (cursor.snapshotVersion ≤ bigIntMax) (.dataError "snapshot_version")
  pure (t.put scope cursor)

def applyNext (event : FinancialProjectionEvent) (reducer : Reducer) (t : CursorTable) :
    Except EventError (ProjectionResult × CursorTable) := do
  let cursor := cursorAt t event.scope
  let reduced ← (reducer cursor.projection event.payload).mapError .raised
  let (projection, projectionHash) ← canonicalPayload reduced
  let t ← saveCursor event.scope
    { cursor with
      projection, projectionHash
      lastSequence := event.sequence
      lastEventId := some event.eventId } t
  pure ({ status := .applied, lastSequence := event.sequence
          expectedSequence := event.sequence + 1 }, t)

def applyProjectionEvent (event : FinancialProjectionEvent) (reducer : Reducer) (t : CursorTable) :
    Except EventError (ProjectionResult × CursorTable) :=
  let t := getOrCreateCursor event.scope t
  let cursor := cursorAt t event.scope
  let expected := cursor.lastSequence + 1
  let unchanged (status : ProjectionStatus) (endpoint : Option String) : ProjectionResult :=
    { status, lastSequence := cursor.lastSequence, expectedSequence := expected
      snapshotEndpoint := endpoint }
  if event.sequence = cursor.lastSequence then
    if cursor.lastEventId = some event.eventId then .ok (unchanged .duplicate none, t)
    else .error (.sequenceConflict "same sequence was reused by a different event")
  else if event.sequence < expected then .ok (unchanged .stale none, t)
  else if expected < event.sequence then
    .ok (unchanged .gapRecoveryRequired (snapshotEndpoint event.eventType), t)
  else applyNext event reducer t

-- The entries of a snapshot; the two references as str() prints them.
structure Snapshot where
  tenantRef : String
  subjectRef : String
  sequence : Json
  version : Json
  projection : Json

def replaceProjectionFromSnapshot (scope : CursorScope) (snapshot : Snapshot) (t : CursorTable) :
    Except EventError (ProjectionResult × CursorTable) := do
  require ((snapshotEndpoint scope.eventType).isSome)
    (.contract "unsupported financial realtime event")
  require (snapshot.tenantRef = scope.tenantRef ∧ snapshot.subjectRef = scope.subjectRef)
    (.contract "snapshot authority does not match authenticated scope")
  let sequence ← demand (naturalNumber snapshot.sequence) (.contract "snapshot sequence is invalid")
  let version ← demand (naturalNumber snapshot.version) (.contract "snapshot version is invalid")
  let (projection, projectionHash) ← canonicalPayload snapshot.projection
  let t := getOrCreateCursor scope t
  let cursor := cursorAt t scope
  require (cursor.lastSequence ≤ sequence ∧ cursor.snapshotVersion ≤ version)
    (.sequenceConflict "snapshot would move projection backwards")
  let t ← saveCursor scope
    { lastSequence := sequence, lastEventId := none, snapshotVersion := version, projection
      projectionHash } t
  pure ({ status := .snapshotReplaced, lastSequence := sequence, expectedSequence := sequence + 1 }, t)

inductive ProjectionCall where
  | apply (event : FinancialProjectionEvent)
  | replace (scope : CursorScope) (snapshot : Snapshot)

def ProjectionCall.scope : ProjectionCall → CursorScope
  | .apply event => event.scope
  | .replace scope _ => scope

def ProjectionCall.run (reducer : Reducer) (t : CursorTable) :
    ProjectionCall → Except EventError (ProjectionResult × CursorTable)
  | .apply event => applyProjectionEvent event reducer t
  | .replace scope snapshot => replaceProjectionFromSnapshot scope snapshot t

def projectionStep (reducer : Reducer) (t : CursorTable) (call : ProjectionCall) : CursorTable :=
  commit (call.run reducer) t

end Beyvra
