import Beyvra.Surveillance.Detection
import Beyvra.Surveillance.Restrictions
import Beyvra.Numeric.Column
import Beyvra.Relational.Revisions

namespace Beyvra

open Numeric Relational

namespace Surveillance

inductive CaseStatus where
  | opened | inReview | escalated | restricted | resolved | closed
  deriving DecidableEq

inductive CaseEventType where
  | opened | assigned | escalated | resolved
  deriving DecidableEq

structure CaseKey where
  tenantRef : String
  accountRef : String
  caseType : String
  deriving DecidableEq

structure SurveillanceEvent where
  tenantRef : String
  accountRef : String
  instrumentId : String
  detectedAt : Timestamp
  finding : Finding
  score : ℚ
  evidenceHash : String
  sourceEventId : Option Uuid
  deriving DecidableEq

def SurveillanceEvent.key (event : SurveillanceEvent) : CaseKey :=
  ⟨event.tenantRef, event.accountRef, event.finding.eventType⟩

structure SurveillanceCase where
  key : CaseKey
  severity : String
  status : CaseStatus := .opened
  assignedTo : String := ""
  openedAt : Timestamp
  updatedAt : Timestamp
  resolvedAt : Option Timestamp := none
  resolutionCode : String := ""
  policyVersion : String
  evidenceHash : String
  deriving DecidableEq

structure SurveillanceCaseEvent where
  case : Nat
  eventType : CaseEventType
  actorRef : String
  reason : String
  evidenceHash : String
  occurredAt : Timestamp

inductive Resource where
  | event (id : Nat)
  | case (id : Nat)
  deriving DecidableEq

structure SurveillanceAudit where
  tenantRef : String
  actorRef : String
  action : String
  resource : Resource
  reason : String
  evidenceHash : String
  occurredAt : Timestamp

structure SurveillanceNotice where
  aggregate : Resource
  eventType : String
  payload : Payload
  tenantRef : String
  occurredAt : Timestamp

structure DeadLetter where
  tenantRef : String
  failureCategory : String
  firstFailedAt : Timestamp
  lastFailedAt : Timestamp

-- The scope of a stored answer; the endpoint names the case and the action.
structure CaseScope where
  key : String
  actorRef : String
  case : Nat
  action : CaseEventType
  deriving DecidableEq

structure CaseRequest where
  reason : String
  assignedTo : String
  resolutionCode : String
  expectedVersion : String
  deriving DecidableEq

structure CaseBody where
  row : SurveillanceCase
  events : List Nat
  deriving DecidableEq

-- Rows are named by the place in which they were made.
structure CaseTables where
  events : List SurveillanceEvent := []
  cases : List SurveillanceCase := []
  -- a case and an event of it
  links : List (Nat × Nat) := []
  timeline : List SurveillanceCaseEvent := []
  audits : List SurveillanceAudit := []
  applicationAudits : List (Nat × String × CaseEventType) := []
  notices : List SurveillanceNotice := []
  processed : Table Uuid String := Table.empty
  deadLetters : Table (Uuid × String) DeadLetter := Table.empty
  commands : Table CaseScope (CaseRequest × CaseBody) := Table.empty

-- What `evidence_hash` is taken of
inductive Hashed where
  | evidence (evidence : Evidence)
  | rule (id : Uuid) (version : Nat)
  | state (status : CaseStatus) (assignedTo resolutionCode : String)
  | nothing

def openStatuses : List CaseStatus := [.opened, .inReview, .escalated, .restricted]

-- The open case that a transaction sees; a concurrent one may have closed it or opened another since.
structure CaseLookup where
  find : CaseTables → CaseKey → Option Nat
  found : ∀ s key id, find s key = some id → ∃ case, s.cases[id]? = some case ∧ case.key = key

-- No other transaction comes in between.
def CaseLookup.Current (look : CaseLookup) : Prop :=
  ∀ s key, look.find s key = none → ∀ case ∈ s.cases, case.key = key → case.status ∉ openStatuses

-- The query of the source, on the tables as they are
def firstOpen : CaseLookup where
  find s key := (placesOf (fun case => case.key = key ∧ case.status ∈ openStatuses) s.cases).head?
  found s key id h := by
    obtain ⟨case, hcase, hkey⟩ := mem_placesOf.mp (List.mem_of_mem_head? h)
    exact ⟨case, hcase, (of_decide_eq_true hkey).1⟩

theorem firstOpen_current : firstOpen.Current := by
  intro s key hnone case hmem hkey hopen
  obtain ⟨id, hid⟩ := List.mem_iff_getElem?.mp hmem
  have hplace : id ∈ placesOf (fun case => case.key = key ∧ case.status ∈ openStatuses) s.cases :=
    mem_placesOf.mpr ⟨case, hid, decide_eq_true ⟨hkey, hopen⟩⟩
  rw [List.head?_eq_none_iff.mp hnone] at hplace
  cases hplace

-- The arguments of `persist_findings` beside the findings
structure Origin where
  tenantRef : String
  accountRef : String
  instrumentId : String
  sourceEventId : Option Uuid := none
  actorRef : String := "system"

def scoreColumn : Column := ⟨8, 5⟩

def severe (finding : Finding) : Bool := finding.severity = "HIGH" ∨ finding.severity = "CRITICAL"

section Persist

variable (sha : Hashed → String) (look : CaseLookup) (now : Timestamp) (origin : Origin)

def eventOf (finding : Finding) (score : ℚ) : SurveillanceEvent where
  tenantRef := origin.tenantRef
  accountRef := origin.accountRef
  instrumentId := origin.instrumentId
  detectedAt := now
  finding := finding
  score := score
  evidenceHash := sha (.evidence finding.evidence)
  sourceEventId := origin.sourceEventId

def CaseTables.withEvent (s : CaseTables) (actorRef : String) (event : SurveillanceEvent) : CaseTables :=
  { s with
    events := s.events ++ [event]
    audits := s.audits ++ [{
      tenantRef := event.tenantRef
      actorRef := actorRef
      action := "surveillance.event.generated"
      resource := .event s.events.length
      reason := event.finding.eventType
      evidenceHash := sha (.rule event.finding.ruleId event.finding.ruleVersion)
      occurredAt := event.detectedAt }]
    notices := s.notices ++ [{
      aggregate := .event s.events.length
      eventType := "regulatory.surveillance.alert.created.v1"
      payload := [("event_id", .str (toString s.events.length)), ("event_type", .str event.finding.eventType),
        ("severity", .str event.finding.severity), ("account_ref", .str event.accountRef),
        ("instrument_id", .str event.instrumentId)]
      tenantRef := event.tenantRef
      occurredAt := event.detectedAt }] }

def caseOf (event : SurveillanceEvent) : SurveillanceCase where
  key := event.key
  severity := event.finding.severity
  openedAt := event.detectedAt
  updatedAt := event.detectedAt
  policyVersion := event.finding.policyVersion
  evidenceHash := event.evidenceHash

def CaseTables.withCase (s : CaseTables) (event : SurveillanceEvent) : CaseTables :=
  { s with
    cases := s.cases ++ [caseOf event]
    timeline := s.timeline ++ [{
      case := s.cases.length
      eventType := .opened
      actorRef := "system"
      reason := event.finding.eventType
      evidenceHash := event.evidenceHash
      occurredAt := event.detectedAt }]
    audits := s.audits ++ [{
      tenantRef := event.tenantRef
      actorRef := "system"
      action := "surveillance.case.opened"
      resource := .case s.cases.length
      reason := event.finding.eventType
      evidenceHash := sha .nothing
      occurredAt := event.detectedAt }]
    notices := s.notices ++ [{
      aggregate := .case s.cases.length
      eventType := "regulatory.surveillance.case.opened.v1"
      payload := [("case_id", .str (toString s.cases.length)), ("case_type", .str event.finding.eventType),
        ("severity", .str event.finding.severity), ("account_ref", .str event.accountRef)]
      tenantRef := event.tenantRef
      occurredAt := event.detectedAt }] }

def CaseTables.linked (s : CaseTables) (case event : Nat) : CaseTables := { s with links := s.links ++ [(case, event)] }

-- The event that was made last and its case
def CaseTables.filed (s : CaseTables) (event : SurveillanceEvent) : CaseTables :=
  match look.find s event.key with
  | some case => s.linked case (s.events.length - 1)
  | none => (s.withCase sha event).linked s.cases.length (s.events.length - 1)

def known (s : CaseTables) (finding : Finding) : Prop :=
  origin.sourceEventId ≠ none ∧
    ∃ event ∈ s.events, event.sourceEventId = origin.sourceEventId ∧ event.finding.ruleId = finding.ruleId

instance (s : CaseTables) (finding : Finding) : Decidable (known origin s finding) := inferInstanceAs (Decidable (_ ∧ _))

def persistFinding (s : CaseTables) (finding : Finding) : Except String CaseTables := do
  if known origin s finding then pure s
  else
    let score ← demand (scoreColumn.store finding.score) "DataError"
    let event := eventOf sha now origin finding score
    let s := s.withEvent sha origin.actorRef event
    pure (if severe finding then s.filed sha look event else s)

def persistFindings (findings : List Finding) (s : CaseTables) : Except String CaseTables :=
  findings.foldlM (persistFinding sha look now origin) s

end Persist

structure Envelope where
  eventId : Uuid
  eventType : String
  tenantRef : String
  accountRef : String
  instrumentId : String
  windowEvents : List WindowEvent
  payloadHash : String

def Envelope.origin (envelope : Envelope) : Origin where
  tenantRef := envelope.tenantRef
  accountRef := envelope.accountRef
  instrumentId := envelope.instrumentId
  sourceEventId := some envelope.eventId

section Ingest

variable (sha : Hashed → String) (look : CaseLookup) (now : Timestamp) (rules : SurveillanceEngine.RuleTable)
  (envelope : Envelope)

-- The transaction of `consume_once` for the consumer surveillance-v1
def consume (s : CaseTables) : Except String (Bool × CaseTables) := do
  match s.processed.find envelope.eventId with
  | some payloadHash =>
    require (payloadHash = envelope.payloadHash) "ValueError"
    pure (false, s)
  | none =>
    let findings ← SurveillanceEngine.evaluateWindow rules now envelope.windowEvents
    let s ← persistFindings sha look now envelope.origin findings s
    pure (true, { s with processed := s.processed.put envelope.eventId envelope.payloadHash })

def CaseTables.withDeadLetter (s : CaseTables) (error : String) : CaseTables :=
  let row : DeadLetter := ⟨envelope.tenantRef, error, now, now⟩
  { s with deadLetters := s.deadLetters.put (envelope.eventId, (envelope.eventType.take 128).toString) row }

def ingestEvent (s : CaseTables) : CaseTables × Except String Bool :=
  match consume sha look now rules envelope s with
  | .ok (fresh, s) => (s, .ok fresh)
  | .error error => (s.withDeadLetter now envelope error, .error error)

end Ingest

structure CaseActor where
  pk : String
  superuser : Bool := false
  groups : List String := []
  mfa : Bool := false

namespace CaseActor

def holds (actor : CaseActor) (roles : List String) : Bool := actor.superuser || actor.groups.any (· ∈ roles)

def analyst (actor : CaseActor) : Bool := actor.holds ["surveillance_analyst", "surveillance_manager", "platform_admin"]

end CaseActor

structure CaseCommand where
  action : CaseEventType
  case : Nat
  actor : CaseActor
  headers : CommandHeaders
  expectedVersion : String
  reason : String
  assignedTo : String := ""
  resolutionCode : String := "REVIEW_COMPLETE"

inductive CaseReply where
  | denied
  | notFound
  | validationError
  | permissionDenied
  | idempotencyConflict
  | refused (code : String)
  | replayed (body : CaseBody)
  | accepted (body : CaseBody)

def CaseCommand.request (command : CaseCommand) : CaseRequest where
  reason := stripped command.reason
  assignedTo := if command.assignedTo = "" then command.actor.pk else command.assignedTo
  resolutionCode := (command.resolutionCode.take 64).toString
  expectedVersion := command.expectedVersion

def actionText : CaseEventType → String
  | .opened => "surveillance.case.opened"
  | .assigned => "surveillance.case.assign"
  | .escalated => "surveillance.case.escalate"
  | .resolved => "surveillance.case.resolve"

section Command

variable (sha : Hashed → String) (isoformat : Timestamp → String) (now : Timestamp) (users : String → Option CaseActor)
  (command : CaseCommand)

-- The change of the locked row; no command opens a case.
def changedCase (row : SurveillanceCase) : Except CaseReply SurveillanceCase := do
  match command.action with
  | .opened => .error (.refused "INVALID_CASE_TRANSITION")
  | .assigned =>
    require (row.status ∈ [.opened, .escalated]) (.refused "INVALID_CASE_TRANSITION")
    let assignee ← demand (users command.request.assignedTo) (.refused "INVALID_CASE_ASSIGNEE")
    require (assignee.analyst = true) (.refused "INVALID_CASE_ASSIGNEE")
    require (command.request.assignedTo.length ≤ 128) (.refused "DataError")
    pure { row with assignedTo := command.request.assignedTo, status := .inReview, updatedAt := now }
  | .escalated =>
    require (row.status ∈ [.opened, .inReview]) (.refused "INVALID_CASE_TRANSITION")
    pure { row with status := .escalated, updatedAt := now }
  | .resolved =>
    require (row.status ∈ openStatuses) (.refused "INVALID_CASE_TRANSITION")
    require (¬(row.severity = "CRITICAL" ∧ row.assignedTo = command.actor.pk)) (.refused "SELF_APPROVAL_FORBIDDEN")
    pure { row with
      status := .resolved
      resolutionCode := command.request.resolutionCode
      resolvedAt := some now
      updatedAt := now }

def CaseTables.changed (s : CaseTables) (key : String) (row : SurveillanceCase) : CaseTables × CaseBody :=
  let body : CaseBody := ⟨row, (s.links.filter (·.1 = command.case)).map (·.2)⟩
  ({ s with
    cases := s.cases.set command.case row
    timeline := s.timeline ++ [{
      case := command.case
      eventType := command.action
      actorRef := command.actor.pk
      reason := command.request.reason
      evidenceHash := sha (.state row.status row.assignedTo row.resolutionCode)
      occurredAt := now }]
    audits := s.audits ++ [{
      tenantRef := row.key.tenantRef
      actorRef := command.actor.pk
      action := actionText command.action
      resource := .case command.case
      reason := command.request.reason
      evidenceHash := sha .nothing
      occurredAt := now }]
    applicationAudits := s.applicationAudits ++ [(command.case, command.actor.pk, command.action)]
    commands := s.commands.put ⟨key, command.actor.pk, command.case, command.action⟩ (command.request, body) }, body)

def runCommand (key : String) (row : SurveillanceCase) (s : CaseTables) : Except CaseReply (CaseReply × CaseTables) := do
  match s.commands.find ⟨key, command.actor.pk, command.case, command.action⟩ with
  | some (request, body) =>
    require (request = command.request) .idempotencyConflict
    pure (.replayed body, s)
  | none =>
    require (isoformat row.updatedAt = command.expectedVersion) (.refused "VERSION_CONFLICT")
    let row ← changedCase now users command row
    require (command.request.reason.length ≤ 255) (.refused "DataError")
    let (s, body) := s.changed sha now command key row
    pure (.accepted body, s)

def postCase (s : CaseTables) : Except CaseReply (CaseReply × CaseTables) := do
  require (command.actor.mfa = true ∧ command.actor.analyst = true) .denied
  let row ← demand (s.cases[command.case]?.filter (·.key.tenantRef = "default")) .notFound
  let key ← demand (commandKey command.headers) .validationError
  require (command.expectedVersion ≠ "" ∧ command.request.reason ≠ "") .validationError
  require (command.action = .resolved ∧ row.severity = "CRITICAL" →
    command.actor.holds ["surveillance_manager"] = true) .permissionDenied
  runCommand sha isoformat now users command key row s

end Command

inductive SurveillanceOp where
  | persist (look : CaseLookup) (now : Timestamp) (tenantRef accountRef instrumentId actorRef : String)
    (findings : List Finding)
  | ingest (look : CaseLookup) (now : Timestamp) (rules : SurveillanceEngine.RuleTable) (envelope : Envelope)
  | command (now : Timestamp) (users : String → Option CaseActor) (command : CaseCommand)

namespace CaseTables

variable (sha : Hashed → String) (isoformat : Timestamp → String)

def step (s : CaseTables) : SurveillanceOp → CaseTables
  | .persist look now tenantRef accountRef instrumentId actorRef findings =>
    commitState (persistFindings sha look now { tenantRef, accountRef, instrumentId, actorRef } findings) s
  | .ingest look now rules envelope => (ingestEvent sha look now rules envelope s).1
  | .command now users command => commit (postCase sha isoformat now users command) s

def after (s : CaseTables) (ops : List SurveillanceOp) : CaseTables := ops.foldl (step sha isoformat) s

end CaseTables

-- The checks of `reconcile_surveillance` on events and cases: each gives the resources that it finds.
namespace Reconciler

def criticalEventWithoutCase (s : CaseTables) : List Nat :=
  (placesOf (fun event => event.finding.severity = "CRITICAL") s.events).filter fun id => id ∉ s.links.map (·.2)

def eventAuditGap (s : CaseTables) : List Nat :=
  (placesOf (fun event => event.finding.severity = "CRITICAL") s.events).filter fun id =>
    .event id ∉ s.audits.map (·.resource)

def caseWithoutEvents (s : CaseTables) : List Nat :=
  (List.range s.cases.length).filter fun id => id ∉ s.links.map (·.1)

def outboxGap (s : CaseTables) : List Nat :=
  (List.range s.events.length).filter fun id => .event id ∉ s.notices.map (·.aggregate)

def reconcileSurveillance (s : CaseTables) : List Nat :=
  criticalEventWithoutCase s ++ eventAuditGap s ++ caseWithoutEvents s ++ outboxGap s

end Reconciler

end Surveillance

end Beyvra
