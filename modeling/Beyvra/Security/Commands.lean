import Beyvra.Realtime.TenantSelection

namespace Beyvra

open Relational

namespace SecurityCommands

open TenantSelection

-- datetime.isoformat, beside what the selection of the tenant needs
structure CommandSite (Id : Type) extends Site Id where
  isoformat : Timestamp → String
  isoformat_injective : Function.Injective isoformat
  isoformat_ne : ∀ t, isoformat t ≠ "NONE"

-- A singleton is found by get_command_object and may be missing, any other target by get_object.
structure Target where
  model : String
  pk : String
  singleton : Bool
  deriving DecidableEq

structure Command (Id : Type) where
  idempotencyKey : String
  requestId : String
  correlationId : String
  ifMatch : String
  request : TenantRequest Id
  path : String
  method : String
  route : List (String × String)
  body : String
  action : String
  versioned : Bool
  target : Target

structure Scope (Id : Type) where
  key : String
  tenantRef : Id
  actorRef : Nat
  endpoint : String
  method : String
  deriving DecidableEq

structure CommandPayload where
  route : List (String × String)
  body : String
  expectedVersion : String
  deriving DecidableEq

inductive Body where
  | dict (fields : List (String × String))
  | other (text : String)
  deriving DecidableEq

structure Response where
  status : Nat
  body : Body
  deriving DecidableEq

structure IdempotencyRecord where
  requestHash : CommandPayload
  response : Option Response := none
  resourceId : String := ""
  deriving DecidableEq

structure AuditEvent (Id : Type) where
  actorRef : Nat
  action : String
  resourceId : String
  requestId : String
  tenantRef : Id
  deriving DecidableEq

-- The last update time stays after a deletion; the row is then not present.
structure TargetRow where
  updatedAt : Timestamp
  present : Bool := true
  deriving DecidableEq

inductive TargetWrite where
  | saved (updatedAt : Timestamp)
  | deleted

-- What a handler writes: rows that carry a version, and everything else
structure Effect (B : Type) where
  business : B → B
  writes : List (Target × TargetWrite)

-- What the statements of a step come to: an exception, or what the handler answers and writes
inductive Outcome (B : Type) where
  | raises
  | responds (response : Response) (effect : Effect B)

structure Tables (Id B : Type) where
  tenants : TenantTables Id
  records : Table (Scope Id) IdempotencyRecord
  targets : Table Target TargetRow
  audits : List (AuditEvent Id)
  business : B

inductive Answer (Id : Type) where
  | executed (scope : Scope Id) (response : Response)
  | replayed (scope : Scope Id) (response : Response)
  | rejected (response : Response)
  | raised

-- staging: the tenant came from the fallback, which creates its rows where they are missing.
inductive Phase (Id : Type) where
  | arrived
  | resolved (tenant : Id) (staging : Bool)
  | inserted (tenant : Id) (staging : Bool)
  | ready (tenant : Id) (staging : Bool)
  | answered (answer : Answer Id)

structure Session (Id : Type) where
  command : Command Id
  phase : Phase Id := .arrived

-- A committed execution of a handler
structure Execution (Id B : Type) where
  scope : Scope Id
  command : Command Id
  effect : Effect B
  response : Response

structure Store (Id B : Type) where
  tables : Tables Id B
  sessions : Table Nat (Session Id) := Table.empty
  log : List (Execution Id B) := []

variable {Id B : Type}

def stripText (text : String) : String := String.ofList (strip text.toList)

def detail (text : String) : Body := .dict [("detail", text)]

def Body.withVersion (version : String) : Body → Body
  | .dict fields => .dict (fields.filter (·.1 ≠ "version") ++ [("version", version)])
  | .other text => .other text

def Body.isDict : Body → Bool
  | .dict _ => true
  | .other _ => false

namespace Command

def key (c : Command Id) : String := stripText c.idempotencyKey

def expectedVersion (c : Command Id) : String := stripText c.ifMatch

def payload (c : Command Id) : CommandPayload := ⟨c.route, c.body, c.expectedVersion⟩

def scope (c : Command Id) (tenant : Id) : Scope Id := ⟨c.key, tenant, c.request.user.id, c.path, c.method⟩

def correlation (c : Command Id) : String := if c.correlationId = "" then stripText c.requestId else c.correlationId

def resourceId (c : Command Id) : String :=
  (c.route.lookup "user_id").getD ((c.route.lookup "pk").getD (toString c.request.user.id))

-- The identifiers of a request, before any statement
def refusal (site : CommandSite Id) (c : Command Id) : Option Body :=
  let requestId := stripText c.requestId
  if c.key = "" ∨ 255 < c.key.length ∨ requestId = "" ∨ 128 < requestId.length then
    some (detail "Idempotency-Key and X-Request-ID are required")
  else if site.parse requestId = none ∨ site.parse c.correlation = none then
    some (detail "request and correlation identifiers must be UUIDs")
  else none

def lacksIfMatch (c : Command Id) : Prop := c.versioned = true ∧ c.expectedVersion = ""

instance (c : Command Id) : Decidable c.lacksIfMatch := inferInstanceAs (Decidable (_ ∧ _))

end Command

section Rows

def versionText (site : CommandSite Id) : Option Timestamp → String
  | none => "NONE"
  | some updatedAt => site.isoformat updatedAt

theorem versionText_injective (site : CommandSite Id) : Function.Injective (versionText site) := by
  intro old old' h
  cases old with
  | none =>
    cases old' with
    | none => rfl
    | some updatedAt => exact absurd h.symm (site.isoformat_ne updatedAt)
  | some updatedAt =>
    cases old' with
    | none => exact absurd h (site.isoformat_ne updatedAt)
    | some updatedAt' => exact congrArg some (site.isoformat_injective h)

def version (targets : Table Target TargetRow) (target : Target) : Option Timestamp :=
  ((targets.find target).filter (·.present)).map (·.updatedAt)

def writeTarget (targets : Table Target TargetRow) (write : Target × TargetWrite) : Table Target TargetRow :=
  match write.2 with
  | .saved updatedAt => targets.put write.1 ⟨updatedAt, true⟩
  | .deleted =>
    match targets.find write.1 with
    | some row => targets.put write.1 { row with present := false }
    | none => targets

def Effect.targets (effect : Effect B) (targets : Table Target TargetRow) : Table Target TargetRow :=
  effect.writes.foldl writeTarget targets

variable [DecidableEq Id]

def stagingOrganization (site : Site Id) (tenants : TenantTables Id) : TenantTables Id :=
  let organization := (tenants.organizations.find site.stagingTenantId).getD ⟨"Beyvra staging", true⟩
  { tenants with organizations := tenants.organizations.put site.stagingTenantId organization }

def stagingMembership (site : Site Id) (user : User) : TenantSelection.OrganizationMembership Id :=
  ⟨user.id, site.stagingTenantId, if user.isStaff then "owner" else "member", true⟩

def provisioned (site : Site Id) (tenants : TenantTables Id) (user : User) : TenantTables Id :=
  ((stagingOrganization site tenants).getOrCreate (stagingMembership site user)).2

end Rows

namespace Store

variable [DecidableEq Id]

def save (s : Store Id B) (i : Nat) (x : Session Id) : Store Id B := { s with sessions := s.sessions.put i x }

def answer (s : Store Id B) (i : Nat) (x : Session Id) (answer : Answer Id) : Store Id B :=
  s.save i { x with phase := .answered answer }

end Store

-- The rows of the tenant that a commit of the session leaves
def tenantsOf [DecidableEq Id] (site : CommandSite Id) (tables : Tables Id B) (c : Command Id) (staging : Bool) :
    TenantTables Id :=
  if staging then provisioned site.toSite tables.tenants c.request.user else tables.tenants

def Session.claims (x : Session Id) : Option (Scope Id) :=
  match x.phase with
  | .inserted tenant _ => some (x.command.scope tenant)
  | .ready tenant _ => some (x.command.scope tenant)
  | _ => none

def Session.locks (x : Session Id) : Option Target :=
  match x.phase with
  | .ready _ _ => if x.command.versioned then some x.command.target else none
  | _ => none

section Steps

variable [DecidableEq Id] (site : CommandSite Id) (s : Store Id B) (i : Nat)

def claimed (scope : Scope Id) : Bool := s.sessions.rows.any fun row => row.1 ≠ i && row.2.claims = some scope

def lockedByOther (target : Target) : Bool := s.sessions.rows.any fun row => row.1 ≠ i && row.2.locks = some target

-- Answers that leave the transaction to commit
def settle (x : Session Id) (staging : Bool) (answer : Answer Id) : Store Id B :=
  ({ s with tables := { s.tables with tenants := tenantsOf site s.tables x.command staging } } : Store Id B).answer i x answer

def recorded (x : Session Id) (scope : Scope Id) (record : IdempotencyRecord) : Answer Id :=
  if record.requestHash ≠ x.command.payload then .rejected ⟨409, detail "IDEMPOTENCY_CONFLICT"⟩
  else match record.response with
    | none => .rejected ⟨409, detail "command result is not yet available"⟩
    | some response => .replayed scope response

def resolve (x : Session Id) : Store Id B :=
  match x.command.refusal site with
  | some body => s.answer i x (.rejected ⟨400, body⟩)
  | none =>
    match tenantContextForRequest site.toSite s.tables.tenants x.command.request with
    | .error _ => s.answer i x .raised
    | .ok (context, _) =>
      s.save i { x with phase := .resolved context.organization (context.source = "staging-fallback") }

def begin (x : Session Id) (tenant : Id) (staging : Bool) : Store Id B :=
  if x.command.lacksIfMatch then settle site s i x staging (.rejected ⟨428, detail "If-Match is required"⟩)
  else if claimed s i (x.command.scope tenant) then s
  else match s.tables.records.find (x.command.scope tenant) with
    | some record => settle site s i x staging (recorded x (x.command.scope tenant) record)
    | none => s.save i { x with phase := .inserted tenant staging }

def lockTarget (x : Session Id) (tenant : Id) (staging : Bool) : Store Id B :=
  if x.command.versioned then
    if lockedByOther s i x.command.target then s
    else
      let row := version s.tables.targets x.command.target
      if row = none ∧ x.command.target.singleton = false then s.answer i x .raised
      else if x.command.expectedVersion ≠ versionText site row then
        s.answer i x (.rejected ⟨409, detail "VERSION_CONFLICT"⟩)
      else s.save i { x with phase := .ready tenant staging }
  else s.save i { x with phase := .ready tenant staging }

def committed (x : Session Id) (tenant : Id) (staging : Bool) (effect : Effect B) (response : Response) : Store Id B where
  tables :=
    { tenants := tenantsOf site s.tables x.command staging
      records := s.tables.records.put (x.command.scope tenant) ⟨x.command.payload, some response, x.command.resourceId⟩
      targets := effect.targets s.tables.targets
      audits := s.tables.audits ++ [⟨x.command.request.user.id, x.command.action, x.command.resourceId,
        stripText x.command.requestId, tenant⟩]
      business := effect.business s.tables.business }
  sessions := s.sessions.put i { x with phase := .answered (.executed (x.command.scope tenant) response) }
  log := s.log ++ [⟨x.command.scope tenant, x.command, effect, response⟩]

-- A write waits for the session that has its row locked.
def handle (x : Session Id) (tenant : Id) (staging : Bool) (response : Response) (effect : Effect B) : Store Id B :=
  if 400 ≤ response.status then s.answer i x (.rejected response)
  else if effect.writes.any fun write => lockedByOther s i write.1 then s
  else if x.command.versioned ∧ response.body.isDict ∧ response.status ≠ 204 then
    match version (effect.targets s.tables.targets) x.command.target with
    | none => s.answer i x .raised
    | some updatedAt =>
      committed site s i x tenant staging effect
        ⟨response.status, response.body.withVersion (versionText site (some updatedAt))⟩
  else committed site s i x tenant staging effect response

def advance (x : Session Id) (outcome : Outcome B) : Store Id B :=
  match x.phase, outcome with
  | .answered _, _ => s
  | _, .raises => s.answer i x .raised
  | .arrived, _ => resolve site s i x
  | .resolved tenant staging, _ => begin site s i x tenant staging
  | .inserted tenant staging, _ => lockTarget site s i x tenant staging
  | .ready tenant staging, .responds response effect => handle site s i x tenant staging response effect

end Steps

inductive CommandStep (Id B : Type) where
  | arrive (i : Nat) (command : Command Id)
  | advance (i : Nat) (outcome : Outcome B)

def commandStep [DecidableEq Id] (site : CommandSite Id) (s : Store Id B) : CommandStep Id B → Store Id B
  | .arrive i command => if s.sessions.find i = none then s.save i { command } else s
  | .advance i outcome =>
    match s.sessions.find i with
    | some x => advance site s i x outcome
    | none => s

end SecurityCommands

end Beyvra
