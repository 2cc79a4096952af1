import Mathlib.Data.Prod.Lex
import Mathlib.Data.String.Basic
import Beyvra.Foundation.Records
import Beyvra.Relational.Table
import Beyvra.Relational.Latest

namespace Beyvra

open Relational

namespace Workspace

structure Instrument where
  canonicalSymbol : String
  active : Bool

-- The reference data and what the libraries make of a text: parseUuid gives the canonical text of a UUID.
structure WorkspaceEnv where
  instruments : Table Uuid Instrument
  parseUuid : String → Option Uuid
  upper : String → String
  lower : String → String

structure WatchlistItem where
  id : Uuid
  instrumentId : Uuid
  sortOrder : Nat := 0
  createdAt : Timestamp
  deriving DecidableEq

structure Watchlist where
  name : String
  isDefault : Bool := false
  version : Nat := 1
  createdAt : Timestamp
  updatedAt : Timestamp
  items : List WatchlistItem := []
  deriving DecidableEq

inductive ResponseBody where
  | empty
  | invalid (field : String)
  | error (code : String) (currentVersion : Option Nat)
  | watchlist (id : Uuid) (row : Watchlist) (items : List (WatchlistItem × Option String))
  | item (item : WatchlistItem) (symbol : Option String) (watchlistVersion : Nat)
  deriving DecidableEq

structure Reply where
  status : Nat
  body : ResponseBody
  deriving DecidableEq

def errorBody (code : String) : ResponseBody := .error code none

inductive Endpoint where
  | collection
  | detail (watchlist : Uuid)
  | items (watchlist : Uuid)
  | item (watchlist : Uuid) (reference : String)
  deriving DecidableEq

structure RecordScope where
  key : String
  endpoint : Endpoint
  method : String
  deriving DecidableEq

inductive CommandPayload where
  | none
  | name (name : String)
  | addItem (instrumentId : String) (sortOrder : Int)
  | removeItem (instrumentId : String)
  deriving DecidableEq

-- The text whose hash a record keeps.
structure SemanticRequest where
  operation : String
  resourceRef : String
  expectedVersion : Option Nat
  payload : CommandPayload
  deriving DecidableEq

structure IdempotencyRecord where
  request : SemanticRequest
  responseStatus : Option Nat := none
  responseBody : ResponseBody := .empty
  resourceType : String := ""
  resourceId : String := ""
  expiresAt : Timestamp
  deriving DecidableEq

structure ApplicationAuditEvent where
  action : String
  resourceType : String
  resourceId : String
  requestId : String
  occurredAt : Timestamp
  deriving DecidableEq

-- The rows of one user in one organization.
structure WorkspaceTables where
  watchlists : Table Uuid Watchlist := Table.empty
  records : Table RecordScope IdempotencyRecord := Table.empty
  audits : List ApplicationAuditEvent := []

inductive RawVersion where
  | absent
  | integer (n : Int)
  | text (value : String)
  | other

-- A name or a sort order that is no text or no integer is given as a blank one or a negative one.
inductive WatchlistCommand where
  | create (name : Option String)
  | rename (watchlist : Uuid) (name : Option String)
  | delete (watchlist : Uuid)
  | addItem (watchlist : Uuid) (instrumentId : Option String) (sortOrder : Int)
  | removeItem (watchlist : Uuid) (reference : String)

structure WorkspaceRequest where
  idempotencyKey : String
  requestId : String
  version : RawVersion
  command : WatchlistCommand
  now : Timestamp
  uuid4 : Uuid

def stripText (text : String) : String := String.ofList (strip text.toList)

def resolveActiveInstrument (env : WorkspaceEnv) (reference : String) : Except String (Uuid × Instrument) :=
  let value := stripText reference
  if value = "" then .error "INSTRUMENT_REQUIRED"
  else match env.parseUuid value with
    | some id =>
      match (env.instruments.find id).filter (·.active) with
      | some instrument => .ok (id, instrument)
      | none => .error "INSTRUMENT_UNAVAILABLE"
    | none =>
      match env.instruments.rows.filter fun p => p.2.canonicalSymbol = env.upper value && p.2.active with
      | [] => .error "INSTRUMENT_UNAVAILABLE"
      | [p] => .ok p
      | _ => .error "INSTRUMENT_AMBIGUOUS"

def normalizeRemovalReference (env : WorkspaceEnv) (reference : String) : Except String Uuid :=
  let value := stripText reference
  if value = "" then .error "INSTRUMENT_REQUIRED"
  else match env.parseUuid value with
    | some id => .ok id
    | none => (resolveActiveInstrument env value).map Prod.fst

def symbolOf (env : WorkspaceEnv) (item : WatchlistItem) : Option String :=
  match resolveActiveInstrument env item.instrumentId with
  | .ok (_, instrument) => some instrument.canonicalSymbol
  | .error _ => none

def itemKey (item : WatchlistItem) : Nat ×ₗ Timestamp ×ₗ Uuid := toLex (item.sortOrder, toLex (item.createdAt, item.id))

def serializeWatchlist (env : WorkspaceEnv) (id : Uuid) (row : Watchlist) : ResponseBody :=
  .watchlist id row ((row.items.insertionSort fun x y => itemKey x ≤ itemKey y).map fun item => (item, symbolOf env item))

def serializeItem (env : WorkspaceEnv) (item : WatchlistItem) (watchlistVersion : Nat) : ResponseBody :=
  .item item (symbolOf env item) watchlistVersion

def words (text : List Char) : List (List Char) :=
  (text.splitOnP fun c => c.toNat ∈ pythonSpaces).filter (· ≠ [])

-- The name field: a text of at most 80 characters, stripped, with its words one space apart
def validateName (value : String) : Option String :=
  let stripped := strip value.toList
  if stripped = [] ∨ 80 < stripped.length then none
  else some (String.ofList ([' '].intercalate (words stripped)))

def validateSortOrder (value : Int) : Option Nat :=
  if 0 ≤ value ∧ value ≤ 2147483647 then some value.toNat else none

structure ParsedCommand where
  key : String
  requestId : String
  expectedVersion : Option Nat

-- The digits of int(), which refuses more than 4300 of them
def parseDigits (text : String) : Option Nat :=
  let digits := text.toList
  if digits ≠ [] ∧ digits.all Char.isDigit ∧ digits.length ≤ 4300 then
    some (digits.foldl (fun n c => 10 * n + (c.toNat - '0'.toNat)) 0)
  else none

def parseVersion (raw : RawVersion) : Except Reply (Option Nat) :=
  let invalid : Reply := ⟨400, errorBody "VERSION_INVALID"⟩
  let positive (n : Option Nat) : Except Reply (Option Nat) :=
    match n with
    | some n => if n < 1 then .error invalid else .ok (some n)
    | none => .error invalid
  match raw with
  | .absent => .ok none
  | .integer n => positive (if 0 ≤ n then some n.toNat else none)
  | .text value => if value = "" then .ok none else positive (parseDigits value)
  | .other => .error invalid

def parseCommand (request : WorkspaceRequest) (requireVersion : Bool) : Except Reply ParsedCommand := do
  let key := stripText request.idempotencyKey
  let requestId := stripText request.requestId
  require (key ≠ "" ∧ key.length ≤ 255 ∧ requestId ≠ "" ∧ requestId.length ≤ 128)
    ⟨400, errorBody "COMMAND_HEADERS_REQUIRED"⟩
  let expectedVersion ← parseVersion request.version
  require (requireVersion → expectedVersion ≠ none) ⟨428, errorBody "VERSION_REQUIRED"⟩
  pure { key, requestId, expectedVersion }

-- What a command is before it meets the tables: where its record is kept and what the record hashes.
structure PreparedCommand where
  scope : RecordScope
  request : SemanticRequest
  requestId : String

def WatchlistCommand.endpoint : WatchlistCommand → Endpoint
  | .create _ => .collection
  | .rename watchlist _ | .delete watchlist => .detail watchlist
  | .addItem watchlist _ _ => .items watchlist
  | .removeItem watchlist reference => .item watchlist reference

def WatchlistCommand.method : WatchlistCommand → String
  | .create _ | .addItem _ _ _ => "POST"
  | .rename _ _ => "PATCH"
  | .delete _ | .removeItem _ _ => "DELETE"

def WorkspaceRequest.scope (request : WorkspaceRequest) : RecordScope :=
  ⟨stripText request.idempotencyKey, request.command.endpoint, request.command.method⟩

def requestName (name : Option String) (missing : Reply) : Except Reply String :=
  match name with
  | none => .error missing
  | some value => demand (validateName value) ⟨400, .invalid "name"⟩

def instrumentStatus (removal : Bool) (code : String) : Nat :=
  if code = "INSTRUMENT_AMBIGUOUS" then 409
  else if code = "INSTRUMENT_UNAVAILABLE" ∨ removal then 404
  else 400

-- What every view does ahead of begin_command.
def prepare (env : WorkspaceEnv) (request : WorkspaceRequest) : Except Reply PreparedCommand :=
  let prepared (requireVersion : Bool) (operation resourceRef : String) (payload : CommandPayload) :
      Except Reply PreparedCommand := do
    let command ← parseCommand request requireVersion
    pure ⟨request.scope, ⟨operation, resourceRef, command.expectedVersion, payload⟩, command.requestId⟩
  match request.command with
  | .create name => do
    let name ← requestName name ⟨400, .invalid "name"⟩
    prepared false "watchlist.create" "collection" (.name name)
  | .rename watchlist name => do
    let name ← requestName name ⟨400, errorBody "WATCHLIST_NAME_REQUIRED"⟩
    prepared true "watchlist.rename" watchlist (.name name)
  | .delete watchlist => prepared true "watchlist.delete" watchlist .none
  | .addItem watchlist instrumentId sortOrder =>
    prepared true "watchlist_item.add" watchlist (.addItem (stripText (instrumentId.getD "")) sortOrder)
  | .removeItem watchlist reference =>
    match normalizeRemovalReference env reference with
    | .error code => .error ⟨instrumentStatus true code, errorBody code⟩
    | .ok reference =>
      prepared true "watchlist_item.delete" (watchlist ++ ":" ++ reference) (.removeItem reference)

def recordTtl : Int := 24 * 3600 * microsecondsPerSecond

-- An error is the reply of a replay, a conflict or a command in progress.
def beginCommand (prepared : PreparedCommand) (now : Timestamp) (s : WorkspaceTables) : Except Reply WorkspaceTables :=
  match s.records.find prepared.scope with
  | none => .ok { s with
      records := s.records.put prepared.scope { request := prepared.request, expiresAt := now + recordTtl } }
  | some record =>
    if record.request ≠ prepared.request then .error ⟨409, errorBody "IDEMPOTENCY_CONFLICT"⟩
    else match record.responseStatus with
      | none =>
        if record.expiresAt ≤ now then
          .ok { s with records := s.records.put prepared.scope { record with expiresAt := now + recordTtl } }
        else .error ⟨409, errorBody "COMMAND_IN_PROGRESS"⟩
      | some status => .error ⟨status, if status = 204 then .empty else record.responseBody⟩

def completeResponse (scope : RecordScope) (reply : Reply) (resourceType resourceId : String) (s : WorkspaceTables) :
    Reply × WorkspaceTables :=
  match s.records.find scope with
  | none => (reply, s)
  | some record => (reply, { s with records := s.records.put scope { record with
      responseStatus := some reply.status, responseBody := reply.body, resourceType, resourceId } })

def audited (request : WorkspaceRequest) (action resourceType resourceId : String) (s : WorkspaceTables) :
    WorkspaceTables :=
  { s with audits := s.audits ++ [⟨action, resourceType, resourceId, stripText request.requestId, request.now⟩] }

-- The unique index on LOWER(name)
def nameTaken (env : WorkspaceEnv) (watchlists : Table Uuid Watchlist) (id : Uuid) (name : String) : Bool :=
  watchlists.rows.any fun p => p.1 ≠ id && env.lower p.2.name = env.lower name

def alreadyExists : Reply := ⟨409, errorBody "WATCHLIST_ALREADY_EXISTS"⟩

def notFound : Reply := ⟨404, errorBody "RESOURCE_NOT_FOUND"⟩

def createWatchlist (env : WorkspaceEnv) (request : WorkspaceRequest) (scope : RecordScope) (name : String)
    (s : WorkspaceTables) : Reply × WorkspaceTables :=
  let id := request.uuid4
  if s.watchlists.find id ≠ none ∨ nameTaken env s.watchlists id name then
    completeResponse scope alreadyExists "workspace_watchlist" "collection" s
  else
    let row : Watchlist :=
      { name, isDefault := s.watchlists.rows.isEmpty, createdAt := request.now, updatedAt := request.now }
    completeResponse scope ⟨201, serializeWatchlist env id row⟩ "workspace_watchlist" id
      (audited request "workspace.watchlist.created" "workspace_watchlist" id
        { s with watchlists := s.watchlists.put id row })

-- What the four versioned commands do alike: the row must be there, at the version the client has seen.
def withVersion (scope : RecordScope) (expected : Option Nat) (id : Uuid) (s : WorkspaceTables)
    (body : Watchlist → Reply × WorkspaceTables) : Reply × WorkspaceTables :=
  match s.watchlists.find id with
  | none => completeResponse scope notFound "workspace_watchlist" id s
  | some row =>
    if some row.version ≠ expected then
      completeResponse scope ⟨409, .error "VERSION_CONFLICT" (some row.version)⟩ "workspace_watchlist" id s
    else body row

def renameWatchlist (env : WorkspaceEnv) (request : WorkspaceRequest) (scope : RecordScope) (id : Uuid) (name : String)
    (s : WorkspaceTables) (row : Watchlist) : Reply × WorkspaceTables :=
  if nameTaken env s.watchlists id name then completeResponse scope alreadyExists "workspace_watchlist" id s
  else
    let renamed := { row with name, version := row.version + 1, updatedAt := request.now }
    completeResponse scope ⟨200, serializeWatchlist env id renamed⟩ "workspace_watchlist" id
      (audited request "workspace.watchlist.renamed" "workspace_watchlist" id
        { s with watchlists := s.watchlists.put id renamed })

def creationKey (p : Uuid × Watchlist) : (Timestamp ×ₗ Uuid)ᵒᵈ := OrderDual.toDual (toLex (p.2.createdAt, p.1))

-- order_by("created_at", "id").first()
def oldest (watchlists : Table Uuid Watchlist) : Option (Uuid × Watchlist) :=
  latest (descending creationKey) watchlists.rows

def promote (now : Timestamp) (watchlists : Table Uuid Watchlist) : Table Uuid Watchlist :=
  match oldest watchlists with
  | none => watchlists
  | some (id, row) => watchlists.put id { row with isDefault := true, version := row.version + 1, updatedAt := now }

def deleteWatchlist (request : WorkspaceRequest) (scope : RecordScope) (id : Uuid) (s : WorkspaceTables)
    (row : Watchlist) : Reply × WorkspaceTables :=
  let remaining := s.watchlists.erase id
  let watchlists := if row.isDefault then promote request.now remaining else remaining
  completeResponse scope ⟨204, .empty⟩ "workspace_watchlist" id
    (audited request "workspace.watchlist.deleted" "workspace_watchlist" id { s with watchlists })

def addWatchlistItem (env : WorkspaceEnv) (request : WorkspaceRequest) (scope : RecordScope) (id instrument : Uuid)
    (sortOrder : Nat) (s : WorkspaceTables) (row : Watchlist) : Reply × WorkspaceTables :=
  match row.items.find? (·.instrumentId = instrument) with
  | some existing =>
    completeResponse scope ⟨200, serializeItem env existing row.version⟩ "workspace_watchlist_item" existing.id s
  | none =>
    let item : WatchlistItem := { id := request.uuid4, instrumentId := instrument, sortOrder, createdAt := request.now }
    let changed := { row with items := row.items ++ [item], version := row.version + 1, updatedAt := request.now }
    completeResponse scope ⟨201, serializeItem env item changed.version⟩ "workspace_watchlist_item" item.id
      (audited request "workspace.watchlist_item.added" "workspace_watchlist_item" item.id
        { s with watchlists := s.watchlists.put id changed })

def removeWatchlistItem (request : WorkspaceRequest) (scope : RecordScope) (id : Uuid) (reference : Uuid)
    (s : WorkspaceTables) (row : Watchlist) : Reply × WorkspaceTables :=
  match row.items.find? (·.instrumentId = reference) with
  | none => completeResponse scope notFound "workspace_watchlist_item" reference s
  | some item =>
    let changed := { row with
      items := row.items.filter (·.instrumentId ≠ reference), version := row.version + 1, updatedAt := request.now }
    completeResponse scope ⟨204, .empty⟩ "workspace_watchlist_item" item.id
      (audited request "workspace.watchlist_item.deleted" "workspace_watchlist_item" item.id
        { s with watchlists := s.watchlists.put id changed })

-- The views from begin_command on: begun are the tables with the record that begin_command has made.
def perform (env : WorkspaceEnv) (request : WorkspaceRequest) (prepared : PreparedCommand) (s begun : WorkspaceTables) :
    Reply × WorkspaceTables :=
  let versioned (id : Uuid) := withVersion prepared.scope prepared.request.expectedVersion id begun
  match request.command, prepared.request.payload with
  | .create _, .name name => createWatchlist env request prepared.scope name begun
  | .rename id _, .name name => versioned id (renameWatchlist env request prepared.scope id name begun)
  | .delete id, _ => versioned id (deleteWatchlist request prepared.scope id begun)
  | .addItem id instrumentId sortOrder, _ =>
    match resolveActiveInstrument env (instrumentId.getD "") with
    | .error code => (⟨instrumentStatus false code, errorBody code⟩,
        { begun with records := begun.records.erase prepared.scope })
    | .ok (instrument, _) =>
      -- an exception rolls everything back
      match validateSortOrder sortOrder with
      | none => (⟨400, .invalid "sort_order"⟩, s)
      | some sortOrder => versioned id (addWatchlistItem env request prepared.scope id instrument sortOrder begun)
  | .removeItem id _, .removeItem reference =>
    versioned id (removeWatchlistItem request prepared.scope id reference begun)
  | _, _ => (⟨500, .empty⟩, s)

def answer (env : WorkspaceEnv) (request : WorkspaceRequest) (s : WorkspaceTables) : Reply × WorkspaceTables :=
  match prepare env request with
  | .error reply => (reply, s)
  | .ok prepared =>
    match beginCommand prepared request.now s with
    | .error reply => (reply, s)
    | .ok begun => perform env request prepared s begun

end Workspace

end Beyvra
