import Beyvra.Relational.Transaction

namespace Beyvra

open Relational

abbrev Uuid := String

abbrev Timestamp := Int

abbrev Date := Int

def microsecondsPerSecond : Int := 1000000

def microsecondsPerDay : Int := 86400000000

def Timestamp.date (t : Timestamp) : Date := t / microsecondsPerDay

def uuid5 (name : String) : Uuid := "uuid5:" ++ name

theorem uuid5_injective {a b : String} (h : uuid5 a = uuid5 b) : a = b := by
  have hl := congrArg String.toList h
  simpa [uuid5, String.toList_append, String.toList_inj] using hl

-- The characters str.strip() removes.
def pythonSpaces : List Nat :=
  [9, 10, 11, 12, 13, 28, 29, 30, 31, 32, 133, 160, 5760, 8192, 8193, 8194, 8195, 8196, 8197, 8198, 8199,
    8200, 8201, 8202, 8232, 8233, 8239, 8287, 12288]

def strip (text : List Char) : List Char :=
  let leading := text.dropWhile fun c => c.toNat ∈ pythonSpaces
  (leading.reverse.dropWhile fun c => c.toNat ∈ pythonSpaces).reverse

inductive Error where
  | valueError (code : String)
  | simulationFinancialError (code : String)
  | invalidOrderTransition (message : String)
  | idempotencyConflict
  | doesNotExist (model : String)
  | integrityError (constraint : String)
  | invalidOperation
  | overflow
  | validationError (field : String)
  | dataError (column : String)
  deriving DecidableEq

abbrev Outcome := Except Error

inductive Value where
  | null
  | str (s : String)
  | dec (q : ℚ)
  | flag (b : Bool)
  | time (t : Timestamp)
  | strs (l : List String)
  deriving DecidableEq

abbrev Payload := List (String × Value)

abbrev Digest := Payload

def payloadHash (payload : Payload) : Digest := payload

inductive OutboxState where
  | pending | claimed | published | deadLetter
  deriving DecidableEq

structure OutboxEvent where
  aggregateType : String
  aggregateId : String
  eventType : String
  payload : Payload
  tenantRef : String
  correlationId : Uuid
  occurredAt : Timestamp
  state : OutboxState := .pending
  attemptCount : Nat := 0
  claimedAt : Option Timestamp := none
  publishedAt : Option Timestamp := none
  nextAttemptAt : Option Timestamp := none
  lastError : String := ""
  deriving DecidableEq

structure ProcessedEvent where
  payloadHash : Digest
  processedAt : Timestamp
  deriving DecidableEq

structure IdempotencyScope where
  key : String
  tenantRef : String
  actorRef : String
  endpoint : String
  method : String
  deriving DecidableEq

structure IdempotencyRecord where
  requestHash : Digest
  responseStatus : Option Nat := none
  responseBody : Option Payload := none
  resourceType : String := ""
  resourceId : String := ""
  expiresAt : Timestamp
  deriving DecidableEq

structure ApplicationAuditEvent where
  actorRef : String
  action : String
  resourceType : String
  resourceId : String
  correlationId : Uuid
  reason : String
  occurredAt : Timestamp
  deriving DecidableEq

inductive ControlState where
  | active | closeOnly | cancelOnly | halted | maintenance
  deriving DecidableEq

inductive ControlScope where
  | platform | assetClass | instrument | account | provider
  deriving DecidableEq

structure TradingControl where
  scope : ControlScope
  scopeRef : String
  state : ControlState
  createdAt : Timestamp
  deriving DecidableEq

structure FoundationTables where
  outbox : List OutboxEvent := []
  processedEvents : Table (Uuid × String) ProcessedEvent := Table.empty
  idempotency : Table IdempotencyScope IdempotencyRecord := Table.empty
  audits : List ApplicationAuditEvent := []
  controls : List TradingControl := []

end Beyvra
