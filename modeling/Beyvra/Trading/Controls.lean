import Beyvra.Foundation.Services
import Beyvra.Relational.Latest

namespace Beyvra

open Relational

def ControlState.value : ControlState → String
  | .active => "ACTIVE"
  | .closeOnly => "CLOSE_ONLY"
  | .cancelOnly => "CANCEL_ONLY"
  | .halted => "HALTED"
  | .maintenance => "MAINTENANCE"

def ControlScope.value : ControlScope → String
  | .platform => "PLATFORM"
  | .assetClass => "ASSET_CLASS"
  | .instrument => "INSTRUMENT"
  | .account => "ACCOUNT"
  | .provider => "PROVIDER"

-- The two class attributes in which the views differ.
structure TradingControlView where
  scope : ControlScope := .platform
  state : ControlState := .halted

def platformHaltView : TradingControlView := {}

def platformResumeView : TradingControlView := { state := .active }

def instrumentHaltView : TradingControlView := { scope := .instrument }

def instrumentResumeView : TradingControlView := { instrumentHaltView with state := .active }

structure ControlRequest where
  instrument : Option String := none
  key : String
  reason : String
  requestId : String
  user : String
  path : String
  data : Payload
  correlationId : Uuid

def ControlRequest.idempotencyScope (request : ControlRequest) : IdempotencyScope where
  key := request.key
  tenantRef := "platform"
  actorRef := request.user
  endpoint := request.path
  method := "POST"

def ControlRequest.scopeRef (request : ControlRequest) : String :=
  match request.instrument with
  | none => "*"
  | some instrument => if instrument = "" then "*" else instrument

inductive ControlReply where
  | validationError
  | idempotencyConflict
  | replayed (body : Payload)
  | applied (body : Payload)

def TradingControl.named (c : TradingControl) (scope : ControlScope) (scopeRef : String) : Bool :=
  c.scope = scope && c.scopeRef = scopeRef

-- created_at is set when the row is created and kept by every later update.
def updateOrCreateControl (now : Timestamp) (scope : ControlScope) (scopeRef : String)
    (state : ControlState) (controls : List TradingControl) : List TradingControl :=
  if controls.any (·.named scope scopeRef) then
    controls.map fun c => if c.named scope scopeRef then { c with state } else c
  else controls ++ [{ scope, scopeRef, state, createdAt := now }]

-- Rows are named by the place in which they were made.
def controlPk (scope : ControlScope) (scopeRef : String) (controls : List TradingControl) : String :=
  toString (controls.findIdx (·.named scope scopeRef))

def Database.withControls (db : Database) (controls : List TradingControl) : Database :=
  { db with foundation.controls := controls }

namespace TradingControlView

def body (view : TradingControlView) (request : ControlRequest) : Payload :=
  [("scope", .str view.scope.value), ("scope_ref", .str request.scopeRef), ("state", .str view.state.value)]

def apply (view : TradingControlView) (env : Env) (request : ControlRequest) (db : Database) :
    Outcome (ControlReply × Database) := do
  let controls := updateOrCreateControl env.now view.scope request.scopeRef view.state db.foundation.controls
  let pk := controlPk view.scope request.scopeRef controls
  let db := (db.withControls controls).audit env request.user ("trading.control." ++ view.state.value.toLower)
    "trading_control" pk request.correlationId (String.ofList (strip request.reason.toList))
  let db ← completeIdempotentRequest request.idempotencyScope 200 (view.body request) "trading_control" pk db
  pure (.applied (view.body request), db)

def post (view : TradingControlView) (env : Env) (request : ControlRequest) (db : Database) :
    Outcome (ControlReply × Database) :=
  if request.key = "" ∨ strip request.reason.toList = [] ∨ request.requestId = "" then
    pure (.validationError, db)
  else
    match beginIdempotentRequest env request.idempotencyScope request.data db with
    | .error _ => pure (.idempotencyConflict, db)
    | .ok ((_, true), db) => view.apply env request db
    | .ok ((record, false), db) =>
      match record.responseBody with
      | some body => pure (.replayed body, db)
      | none => view.apply env request db

end TradingControlView

structure ControlCommand where
  view : TradingControlView
  env : Env
  request : ControlRequest

def controlStep (db : Database) (command : ControlCommand) : Database :=
  commit (command.view.post command.env command.request) db

section Controls

variable {db db' : Database} {env : Env} {view : TradingControlView} {request : ControlRequest}
  {controls : List TradingControl} {now : Timestamp} {scope : ControlScope} {scopeRef : String}
  {state : ControlState} {command : ControlCommand}

theorem completeIdempotentRequest_controls {scope : IdempotencyScope} {status : Nat} {body : Payload}
    {resourceType resourceId : String}
    (h : completeIdempotentRequest scope status body resourceType resourceId db = .ok db') :
    db'.foundation.controls = db.foundation.controls := by
  obtain ⟨record, -, h₁⟩ := bind_eq_ok.mp h
  obtain rfl := pure_eq_ok.mp h₁
  rfl

theorem beginIdempotentRequest_controls {scope : IdempotencyScope} {data : Payload}
    {record : IdempotencyRecord × Bool} (h : beginIdempotentRequest env scope data db = .ok (record, db')) :
    db'.foundation.controls = db.foundation.controls := by
  unfold beginIdempotentRequest at h
  split at h
  · obtain ⟨-, rfl⟩ := Prod.mk.inj (pure_eq_ok.mp h)
    rfl
  · obtain ⟨_, -, h₁⟩ := bind_eq_ok.mp h
    obtain ⟨-, rfl⟩ := Prod.mk.inj (pure_eq_ok.mp h₁)
    rfl

theorem apply_controls {reply : ControlReply} (h : view.apply env request db = .ok (reply, db')) :
    db'.foundation.controls =
      updateOrCreateControl env.now view.scope request.scopeRef view.state db.foundation.controls := by
  obtain ⟨written, hwritten, h₁⟩ := bind_eq_ok.mp h
  obtain ⟨-, rfl⟩ := Prod.mk.inj (pure_eq_ok.mp h₁)
  exact completeIdempotentRequest_controls hwritten

theorem post_controls {reply : ControlReply} (h : view.post env request db = .ok (reply, db')) :
    db'.foundation.controls = db.foundation.controls ∨ db'.foundation.controls =
      updateOrCreateControl env.now view.scope request.scopeRef view.state db.foundation.controls := by
  unfold TradingControlView.post at h
  split at h
  · obtain ⟨-, rfl⟩ := Prod.mk.inj (pure_eq_ok.mp h)
    exact .inl rfl
  · split at h
    · obtain ⟨-, rfl⟩ := Prod.mk.inj (pure_eq_ok.mp h)
      exact .inl rfl
    · rename_i hbegin
      exact .inr (beginIdempotentRequest_controls hbegin ▸ apply_controls h)
    · rename_i hbegin
      split at h
      · obtain ⟨-, rfl⟩ := Prod.mk.inj (pure_eq_ok.mp h)
        exact .inl (beginIdempotentRequest_controls hbegin)
      · exact .inr (beginIdempotentRequest_controls hbegin ▸ apply_controls h)

theorem controlStep_controls (db : Database) (command : ControlCommand) :
    (controlStep db command).foundation.controls = db.foundation.controls ∨
      (controlStep db command).foundation.controls = updateOrCreateControl command.env.now
        command.view.scope command.request.scopeRef command.view.state db.foundation.controls := by
  rcases commit_cases (command.view.post command.env command.request) db with
    ⟨reply, db', hok, hdb⟩ | ⟨-, hdb⟩
  · have hcontrols := post_controls hok
    rwa [← hdb] at hcontrols
  · exact .inl (congrArg (·.foundation.controls) hdb)

-- Rows stand in the order of their creation.
def CreatedInOrder (controls : List TradingControl) : Prop :=
  controls.Pairwise fun a b => a.createdAt < b.createdAt

theorem updateOrCreateControl_created :
    (updateOrCreateControl now scope scopeRef state controls).map (·.createdAt) =
        controls.map (·.createdAt) ∨
      (updateOrCreateControl now scope scopeRef state controls).map (·.createdAt) =
        controls.map (·.createdAt) ++ [now] := by
  unfold updateOrCreateControl
  split
  · refine .inl ?_
    rw [List.map_map]
    refine List.map_congr_left fun c _ => ?_
    simp only [Function.comp_apply]
    split <;> rfl
  · exact .inr List.map_append

theorem controlStep_created (db : Database) (command : ControlCommand) :
    (controlStep db command).foundation.controls.map (·.createdAt) = db.foundation.controls.map (·.createdAt) ∨
      (controlStep db command).foundation.controls.map (·.createdAt) =
        db.foundation.controls.map (·.createdAt) ++ [command.env.now] := by
  rcases controlStep_controls db command with h | h
  · exact .inl (congrArg _ h)
  · rw [h]
    exact updateOrCreateControl_created

theorem created_run (history : List ControlCommand) (db : Database)
    (hchron : (db.foundation.controls.map (·.createdAt) ++ history.map (·.env.now)).Pairwise (· < ·)) :
    CreatedInOrder (history.foldl controlStep db).foundation.controls := by
  induction history generalizing db with
  | nil => simpa [CreatedInOrder, List.pairwise_map] using hchron
  | cons command history ih =>
    refine ih (controlStep db command) ?_
    rw [List.map_cons] at hchron
    rcases controlStep_created db command with h | h
    · rw [h]
      exact hchron.sublist ((List.sublist_cons_self _ _).append_left _)
    · rwa [h, List.append_assoc, List.singleton_append]

end Controls

end Beyvra
