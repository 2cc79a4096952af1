import Beyvra.Relational.Transaction
import Beyvra.Foundation.Records

namespace Beyvra

open Relational

namespace Surveillance

inductive RestrictionStatus where
  | pending | active | removed | expired | rejected
  deriving DecidableEq

structure TradingRestriction where
  scopeType : String
  scopeRef : String
  restrictionType : String
  effectiveFrom : Timestamp
  effectiveTo : Option Timestamp := none
  createdBy : Nat
  approvedBy : Option Nat := none
  status : RestrictionStatus := .pending
  updatedAt : Timestamp
  -- who removed it; the source keeps that in its audit records only
  removedBy : Option Nat := none
  deriving DecidableEq

def scopeTypes : List String := ["ACCOUNT", "TENANT", "INSTRUMENT", "ASSET_CLASS", "VENUE", "JURISDICTION"]

def restrictionTypes : List String :=
  ["BLOCK_NEW_ORDERS", "CANCEL_ONLY", "CLOSE_ONLY", "BLOCK_BUYS", "BLOCK_SELLS", "BLOCK_INSTRUMENT",
    "BLOCK_ASSET_CLASS", "BLOCK_VENUE", "REVIEW_REQUIRED"]

namespace TradingRestriction

def clean (row : TradingRestriction) : Bool :=
  row.approvedBy ≠ some row.createdBy ∧ ∀ effectiveTo ∈ row.effectiveTo, row.effectiveFrom < effectiveTo

def fullClean (row : TradingRestriction) : Bool :=
  row.scopeType ∈ scopeTypes ∧ row.restrictionType ∈ restrictionTypes ∧ row.scopeRef ≠ "" ∧
    row.scopeRef.length ≤ 128 ∧ row.clean = true

end TradingRestriction

inductive CommandBody where
  | request (scopeType scopeRef restrictionType reason : String) (effectiveTo : Option Timestamp)
  | approve (id : Uuid) (reason expectedVersion : String)
  | remove (id : Uuid) (reason expectedVersion : String)
  deriving DecidableEq

inductive Endpoint where
  | restrictions
  | approve (id : Uuid)
  | remove (id : Uuid)
  deriving DecidableEq

def CommandBody.endpoint : CommandBody → Endpoint
  | .request .. => .restrictions
  | .approve id .. => .approve id
  | .remove id .. => .remove id

structure CommandHeaders where
  idempotencyKey : String
  requestId : String
  deriving DecidableEq

structure CommandScope where
  key : String
  actor : Nat
  endpoint : Endpoint
  deriving DecidableEq

structure Response where
  status : Nat
  row : TradingRestriction
  deriving DecidableEq

structure CommandRecord where
  body : CommandBody
  response : Option Response := none
  deriving DecidableEq

inductive Reply where
  | notFound
  | selfApprovalForbidden
  | validationError (status : Nat)
  | idempotencyConflict
  | versionConflict
  | invalidTransition
  | raised
  | replayed (response : Response)
  | accepted (response : Response)
  deriving DecidableEq

-- What a request has read or built before its transaction
inductive Preparation where
  | built (row : TradingRestriction)
  | creator (createdBy : Nat)
  | approver (approvedBy : Option Nat)
  deriving DecidableEq

inductive Phase where
  | ready (preparation : Preparation)
  | answered (reply : Reply)
  deriving DecidableEq

structure Request where
  actor : Nat
  key : String
  body : CommandBody
  phase : Phase
  deriving DecidableEq

inductive Kind where
  | requested | approved | removed
  deriving DecidableEq

-- A change of a restriction by an accepted command
structure Change where
  scope : CommandScope
  id : Uuid
  kind : Kind
  deriving DecidableEq

structure RestrictionSystem where
  restrictions : Table Uuid TradingRestriction := Table.empty
  records : Table CommandScope CommandRecord := Table.empty
  requests : Table Nat Request := Table.empty
  -- the latest first
  changes : List Change := []

def stripped (text : String) : String := String.ofList (strip text.toList)

-- The key of a request whose headers are accepted; the version is checked by the versioned commands.
def commandKey (headers : CommandHeaders) : Option String :=
  let key := stripped headers.idempotencyKey
  let requestId := stripped headers.requestId
  if key.length ≤ 255 ∧ requestId.length ≤ 128 ∧ key ≠ "" ∧ requestId ≠ "" then some key else none

def stripReason : CommandBody → CommandBody
  | .request scopeType scopeRef restrictionType reason effectiveTo =>
    .request scopeType scopeRef restrictionType (stripped reason) effectiveTo
  | .approve id reason expectedVersion => .approve id (stripped reason) expectedVersion
  | .remove id reason expectedVersion => .remove id (stripped reason) expectedVersion

-- The versioned commands on a row, after the check of their actor
def prepareVersioned (headers : CommandHeaders) (reason expectedVersion : String) (preparation : Preparation) : Phase × String :=
  match commandKey headers with
  | none => (.answered (.validationError 422), "")
  | some key =>
    if expectedVersion = "" ∨ stripped reason = "" then (.answered (.validationError 422), "")
    else (.ready preparation, key)

-- What a request does before its transaction, with the key that it goes on with
def prepare (s : RestrictionSystem) (actor : Nat) (headers : CommandHeaders) (now : Timestamp) :
    CommandBody → Phase × String
  | .request scopeType scopeRef restrictionType reason effectiveTo =>
    match commandKey headers with
    | none => (.answered (.validationError 422), "")
    | some key =>
      if scopeType = "" ∨ scopeRef = "" ∨ restrictionType = "" ∨ reason = "" then (.answered (.validationError 422), "")
      else
        let row : TradingRestriction :=
          { scopeType, scopeRef, restrictionType, effectiveFrom := now, effectiveTo, createdBy := actor, updatedAt := now }
        if row.fullClean then (.ready (.built row), key) else (.answered (.validationError 400), "")
  | .approve id reason expectedVersion =>
    match s.restrictions.find id with
    | none => (.answered .notFound, "")
    | some row =>
      if row.createdBy = actor then (.answered .selfApprovalForbidden, "")
      else prepareVersioned headers reason expectedVersion (.creator row.createdBy)
  | .remove id reason expectedVersion =>
    match s.restrictions.find id with
    | none => (.answered .notFound, "")
    | some row =>
      if row.approvedBy = some actor then (.answered .selfApprovalForbidden, "")
      else prepareVersioned headers reason expectedVersion (.approver row.approvedBy)

structure Transition where
  id : Uuid
  row : TradingRestriction
  kind : Kind
  status : Nat

-- The writes of a transaction whose key is new; isoformat is the text of a version.
def transition (isoformat : Timestamp → String) (now : Timestamp) (newId : Uuid) (s : RestrictionSystem) (x : Request) :
    Preparation → Except Reply Transition
  | .built row =>
    if s.restrictions.find newId = none then .ok ⟨newId, { row with updatedAt := now }, .requested, 201⟩ else .error .raised
  | .creator _ =>
    match x.body with
    | .approve id _ expectedVersion =>
      match s.restrictions.find id with
      | none => .error .raised
      | some row =>
        if isoformat row.updatedAt ≠ expectedVersion then .error .versionConflict
        else if row.status ≠ .pending then .error .invalidTransition
        else
          let row := { row with approvedBy := some x.actor, status := .active }
          if row.fullClean then .ok ⟨id, { row with updatedAt := now }, .approved, 200⟩ else .error .raised
    | _ => .error .raised
  | .approver _ =>
    match x.body with
    | .remove id _ expectedVersion =>
      match s.restrictions.find id with
      | none => .error .raised
      | some row =>
        if isoformat row.updatedAt ≠ expectedVersion then .error .versionConflict
        else if row.status ≠ .active then .error .invalidTransition
        else
          .ok ⟨id, { row with status := .removed, effectiveTo := some now, updatedAt := now, removedBy := some x.actor },
            .removed, 200⟩
    | _ => .error .raised

def Request.scope (x : Request) : CommandScope := ⟨x.key, x.actor, x.body.endpoint⟩

-- begin_idempotent_request: a stored response, or leave to go on
def beginCommand (s : RestrictionSystem) (x : Request) : Except Reply (Option Response) :=
  match s.records.find x.scope with
  | none => .ok none
  | some record => if record.body = x.body then .ok record.response else .error .idempotencyConflict

namespace RestrictionSystem

def answer (s : RestrictionSystem) (i : Nat) (x : Request) (reply : Reply) : RestrictionSystem :=
  { s with requests := s.requests.put i { x with phase := .answered reply } }

def committed (s : RestrictionSystem) (i : Nat) (x : Request) (t : Transition) : RestrictionSystem :=
  { s with
    restrictions := s.restrictions.put t.id t.row
    records := s.records.put x.scope { body := x.body, response := some ⟨t.status, t.row⟩ }
    requests := s.requests.put i { x with phase := .answered (.accepted ⟨t.status, t.row⟩) }
    changes := ⟨x.scope, t.id, t.kind⟩ :: s.changes }

end RestrictionSystem

-- The locked transaction; one that does not commit leaves nothing.
def execute (isoformat : Timestamp → String) (now : Timestamp) (newId : Uuid) (s : RestrictionSystem) (i : Nat) (x : Request)
    (preparation : Preparation) : RestrictionSystem :=
  match beginCommand s x with
  | .error reply => s.answer i x reply
  | .ok (some response) => s.answer i x (.replayed response)
  | .ok none =>
    match transition isoformat now newId s x preparation with
    | .error reply => s.answer i x reply
    | .ok t => s.committed i x t

inductive RestrictionStep where
  | arrive (i : Nat) (actor : Nat) (headers : CommandHeaders) (body : CommandBody) (now : Timestamp)
  | execute (i : Nat) (now : Timestamp) (newId : Uuid)

def restrictionStep (isoformat : Timestamp → String) (s : RestrictionSystem) : RestrictionStep → RestrictionSystem
  | .arrive i actor headers body now =>
    match s.requests.find i with
    | some _ => s
    | none =>
      let prepared := prepare s actor headers now body
      { s with requests := s.requests.put i ⟨actor, prepared.2, stripReason body, prepared.1⟩ }
  | .execute i now newId =>
    match s.requests.find i with
    | none => s
    | some x =>
      match x.phase with
      | .answered _ => s
      | .ready preparation => execute isoformat now newId s i x preparation

end Surveillance

end Beyvra
