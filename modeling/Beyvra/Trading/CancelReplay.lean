import Beyvra.Trading.EligibilityGate

namespace Beyvra

open Relational

inductive CancelReply where
  | body (body : Payload)
  | code (code : Value)
  | raised (error : Error)
  deriving DecidableEq

inductive CancelPhase where
  | opened
  | conflicted
  | answered (reply : CancelReply)
  deriving DecidableEq

structure Cancelling where
  db : Database
  requests : Table Nat (CancelRequest × CancelPhase) := Table.empty

inductive CancelMove where
  | begin (i : Nat) (env : Env) (request : CancelRequest)
  | settle (i : Nat) (env : Env)
  | conflict (i : Nat)

def CancelEntry.phase : CancelEntry → CancelPhase
  | .proceed => .opened
  | .replayed body => .answered (.body body)
  | .refused code => .answered (.code code)

namespace Cancelling

def advance (s : Cancelling) (i : Nat) (request : CancelRequest) (phase : CancelPhase) (db : Database) :
    Cancelling :=
  { db, requests := s.requests.put i (request, phase) }

def beginRequest (s : Cancelling) (i : Nat) (env : Env) (request : CancelRequest) : Cancelling :=
  match beginCancel env request s.db with
  | .ok (entry, db) => s.advance i request entry.phase db
  | .error error => s.advance i request (.answered (.raised error)) s.db

def settleRequest (s : Cancelling) (i : Nat) (env : Env) (request : CancelRequest) : Cancelling :=
  match cancelLocked env request s.db with
  | .ok (.cancelled body, db) => s.advance i request (.answered (.body body)) db
  | .ok (.versionConflict, db) => s.advance i request .conflicted db
  | .error error => s.advance i request (.answered (.raised error)) s.db

def conflictRequest (s : Cancelling) (i : Nat) (request : CancelRequest) : Cancelling :=
  match completeConflict request s.db with
  | .ok db => s.advance i request (.answered (.code (.str "VERSION_CONFLICT"))) db
  | .error error => s.advance i request (.answered (.raised error)) s.db

def step (s : Cancelling) : CancelMove → Cancelling
  | .begin i env request => if (s.requests.find i).isNone then s.beginRequest i env request else s
  | .settle i env =>
    match s.requests.find i with
    | some (request, .opened) => s.settleRequest i env request
    | _ => s
  | .conflict i =>
    match s.requests.find i with
    | some (request, .conflicted) => s.conflictRequest i request
    | _ => s

-- The stored response that the completion of request i is about to write over.
def overwritten (s : Cancelling) (i : Nat) : Option Nat :=
  match s.requests.find i with
  | some (request, .conflicted) => (s.db.foundation.idempotency.find request.scope).bind (·.responseStatus)
  | _ => none

def spares (s : Cancelling) : CancelMove → Bool
  | .conflict i => s.overwritten i ≠ some 200
  | _ => true

end Cancelling

abbrev Database.stored (db : Database) (scope : IdempotencyScope) : Option IdempotencyRecord :=
  db.foundation.idempotency.find scope

structure Replays (db : Database) (request : CancelRequest) (body : Payload) : Prop where
  stored : ∃ record, db.stored request.scope = some record ∧ record.responseStatus = some 200 ∧
    record.responseBody = some body
  replayed : ∀ env request', request'.scope = request.scope → request'.payload = request.payload →
    beginCancel env request' db = .ok (.replayed body, db)

structure Coherent (s : Cancelling) : Prop where
  inv : Inv s.db.ledger
  hashed : ∀ i request phase, s.requests.find i = some (request, phase) →
    phase = .opened ∨ phase = .conflicted →
      ∃ record, s.db.stored request.scope = some record ∧
        record.requestHash = canonicalRequestHash request.payload
  closed : ∀ (request : CancelRequest) record, s.db.stored request.scope = some record →
    record.responseStatus = some 200 →
      ∃ o, s.db.trading.orders.find request.orderId = some o ∧ o.state ∉ cancellable

-- The stored responses change only where they are not a 200 yet.
structure Preserves (db db' : Database) : Prop where
  kept : ∀ scope record, db.stored scope = some record → record.responseStatus = some 200 →
    db'.stored scope = some record
  hashes : ∀ scope record, db.stored scope = some record →
    ∃ record', db'.stored scope = some record' ∧ record'.requestHash = record.requestHash

section Steps

variable {env : Env} {db db' : Database} {request : CancelRequest} {s s' : Cancelling} {i : Nat}
  {scope : IdempotencyScope} {record : IdempotencyRecord} {move : CancelMove} {body : Payload}

theorem scope_orderId {request request' : CancelRequest} (h : request.scope = request'.scope) :
    request.orderId = request'.orderId := by
  have hendpoint : "/api/v1/trading/orders/" ++ request.orderId ++ "/cancel" =
      "/api/v1/trading/orders/" ++ request'.orderId ++ "/cancel" :=
    congrArg IdempotencyScope.endpoint h
  have hlist := congrArg String.toList hendpoint
  simp only [String.toList_append] at hlist
  exact String.toList_injective (List.append_cancel_left (List.append_cancel_right hlist))

theorem Preserves.refl (db : Database) : Preserves db db :=
  ⟨fun _ _ h _ => h, fun _ record h => ⟨record, h, rfl⟩⟩

theorem Preserves.of_put (h : db'.foundation.idempotency = db.foundation.idempotency.put scope record)
    (hold : ∀ old, db.stored scope = some old → old.responseStatus ≠ some 200 ∧
      old.requestHash = record.requestHash) : Preserves db db' := by
  refine ⟨?_, ?_⟩
  · intro scope' old hfound hstatus
    unfold Database.stored
    rw [h]
    by_cases hscope : scope' = scope
    · subst hscope
      exact absurd hstatus (hold old hfound).1
    · rw [Table.find_put_of_ne _ _ hscope]
      exact hfound
  · intro scope' old hfound
    unfold Database.stored
    rw [h]
    by_cases hscope : scope' = scope
    · subst hscope
      exact ⟨record, Table.find_put_self _ _ _, (hold old hfound).2.symm⟩
    · exact ⟨old, (Table.find_put_of_ne _ _ hscope).trans hfound, rfl⟩

theorem Coherent.advance (h : Coherent s) (hp : Preserves s.db db') {phase : CancelPhase}
    (hinv : Inv db'.ledger)
    (hself : phase = .opened ∨ phase = .conflicted → ∃ record, db'.stored request.scope = some record ∧
      record.requestHash = canonicalRequestHash request.payload)
    (hclosed : ∀ (request : CancelRequest) record, db'.stored request.scope = some record →
      record.responseStatus = some 200 →
        ∃ o, db'.trading.orders.find request.orderId = some o ∧ o.state ∉ cancellable) :
    Coherent (s.advance i request phase db') := by
  refine ⟨hinv, ?_, hclosed⟩
  intro j request' phase' hj hlive
  rcases Table.find_put_cases hj with ⟨-, hnew⟩ | ⟨-, hold⟩
  · obtain ⟨rfl, rfl⟩ := Prod.mk.inj hnew
    exact hself hlive
  · obtain ⟨record, hrecord, hhash⟩ := h.hashed j request' phase' hold hlive
    obtain ⟨record', hrecord', hsame⟩ := hp.hashes _ record hrecord
    exact ⟨record', hrecord', hsame.trans hhash⟩

theorem Coherent.answer (h : Coherent s) (request : CancelRequest) (reply : CancelReply) (i : Nat) :
    Coherent (s.advance i request (.answered reply) s.db) :=
  h.advance (.refl _) h.inv (fun hlive => by simp at hlive) h.closed

-- A record that stores no 200 response says nothing about its order.
theorem Coherent.closed_put (h : Coherent s)
    (hput : db'.foundation.idempotency = s.db.foundation.idempotency.put scope record)
    (hstatus : record.responseStatus ≠ some 200) (horders : db'.trading.orders = s.db.trading.orders)
    (request : CancelRequest) (found : IdempotencyRecord) (hfound : db'.stored request.scope = some found)
    (h200 : found.responseStatus = some 200) :
    ∃ o, db'.trading.orders.find request.orderId = some o ∧ o.state ∉ cancellable := by
  unfold Database.stored at hfound
  rw [hput] at hfound
  rcases Table.find_put_cases hfound with ⟨-, rfl⟩ | ⟨-, hold⟩
  · exact absurd h200 hstatus
  · rw [horders]
    exact h.closed request found hold h200

theorem Coherent.beginRequest (h : Coherent s) (i : Nat) (env : Env) (request : CancelRequest) :
    Coherent (s.beginRequest i env request) ∧ Preserves s.db (s.beginRequest i env request).db := by
  unfold Cancelling.beginRequest
  cases hbegin : beginCancel env request s.db with
  | error e => exact ⟨h.answer request _ i, .refl _⟩
  | ok p =>
    obtain ⟨entry, db'⟩ := p
    obtain ⟨htrading, -, hledger⟩ := beginCancel_frame hbegin
    have hinv : Inv db'.ledger := hledger ▸ h.inv
    obtain ⟨⟨opened, db₁⟩, hopen, h₁⟩ := bind_eq_ok.mp hbegin
    obtain ⟨-, rfl⟩ := Prod.mk.inj (pure_eq_ok.mp h₁)
    rcases beginIdempotentRequest_eq_ok hopen with ⟨hnone, -, hrecord, hdb⟩ | ⟨hsome, -, hhash, hdb⟩
    · have hput : db₁.foundation.idempotency =
          s.db.foundation.idempotency.put request.scope opened.1 := by
        rw [hdb]
        rfl
      have hp : Preserves s.db db₁ := by
        refine .of_put hput fun old hold => ?_
        rw [Database.stored, hnone] at hold
        cases hold
      have hself : db₁.stored request.scope = some opened.1 := by
        rw [Database.stored, hput, Table.find_put_self]
      refine ⟨h.advance hp hinv (fun _ => ⟨opened.1, hself, by rw [hrecord]⟩) ?_, hp⟩
      exact h.closed_put hput (by rw [hrecord]; simp) (by rw [htrading])
    · subst hdb
      exact ⟨h.advance (.refl _) h.inv (fun _ => ⟨opened.1, hsome, hhash⟩) h.closed, .refl _⟩

theorem Coherent.settleRequest (h : Coherent s)
    (hi : s.requests.find i = some (request, .opened)) (env : Env) :
    Coherent (s.settleRequest i env request) ∧ Preserves s.db (s.settleRequest i env request).db := by
  obtain ⟨known, hknown, hhash⟩ := h.hashed i request .opened hi (.inl rfl)
  unfold Cancelling.settleRequest
  cases hlocked : cancelLocked env request s.db with
  | error e => exact ⟨h.answer request _ i, .refl _⟩
  | ok p =>
    obtain ⟨result, db'⟩ := p
    rcases h.inv.cancelLocked_cases hlocked with ⟨rfl, rfl, -⟩ | ⟨o, r, rfl, hcancelled⟩
    · exact ⟨h.advance (.refl _) h.inv (fun _ => ⟨known, hknown, hhash⟩) h.closed, .refl _⟩
    · obtain ⟨record, hrecord, hwritten⟩ := hcancelled.record
      have hopen : record.responseStatus ≠ some 200 := by
        intro h200
        obtain ⟨x, hx, hnot⟩ := h.closed request record hrecord h200
        rw [← hcancelled.keyed, hcancelled.order] at hx
        obtain rfl := Option.some.inj hx
        exact hnot hcancelled.state
      have hp : Preserves s.db db' := by
        refine .of_put hwritten fun old hold => ?_
        obtain rfl := Option.some.inj (hrecord.symm.trans hold)
        exact ⟨hopen, rfl⟩
      have hinv : Inv db'.ledger := h.inv.effect (hcancelled.effect (F := .any))
      have horders : db'.trading.orders = s.db.trading.orders.put o.id
          { o with state := .cancelled, updatedAt := env.now } := by
        change db'.ledger.trading.orders = _
        rw [hcancelled.ledger]
        rfl
      refine ⟨h.advance hp hinv (fun hlive => by simp at hlive) ?_, hp⟩
      intro request' found hfound h200
      rw [horders]
      by_cases hid : request'.orderId = o.id
      · exact ⟨_, by rw [hid, Table.find_put_self], by simp [cancellable]⟩
      · rw [Table.find_put_of_ne _ _ hid]
        unfold Database.stored at hfound
        rw [hwritten] at hfound
        rcases Table.find_put_cases hfound with ⟨hscope, -⟩ | ⟨-, hold⟩
        · exact absurd ((scope_orderId hscope).trans hcancelled.keyed.symm) hid
        · exact h.closed request' found hold h200

theorem Coherent.conflictRequest (h : Coherent s) (i : Nat) (request : CancelRequest)
    (hspares : ∀ record, s.db.stored request.scope = some record → record.responseStatus ≠ some 200) :
    Coherent (s.conflictRequest i request) ∧ Preserves s.db (s.conflictRequest i request).db := by
  unfold Cancelling.conflictRequest
  cases hcomplete : completeConflict request s.db with
  | error e => exact ⟨h.answer request _ i, .refl _⟩
  | ok db' =>
    obtain ⟨htrading, -, hledger⟩ := completeConflict_frame hcomplete
    have hinv : Inv db'.ledger := hledger ▸ h.inv
    obtain ⟨record, hrecord, hwritten⟩ := completeIdempotentRequest_eq_ok hcomplete
    have hput : db'.foundation.idempotency = s.db.foundation.idempotency.put request.scope
        { record with
          responseStatus := some 409
          responseBody := some conflictBody
          resourceType := "simulation_order"
          resourceId := request.orderId } := by
      rw [hwritten]
      rfl
    have hp : Preserves s.db db' := by
      refine .of_put hput fun old hold => ?_
      obtain rfl := Option.some.inj (hrecord.symm.trans hold)
      exact ⟨hspares record hrecord, rfl⟩
    refine ⟨h.advance hp hinv (fun hlive => by simp at hlive) ?_, hp⟩
    exact h.closed_put hput (by simp) (by rw [htrading])

theorem Coherent.step (h : Coherent s) (hspares : s.spares move = true) :
    Coherent (s.step move) ∧ Preserves s.db (s.step move).db := by
  cases move with
  | begin i env request =>
    simp only [Cancelling.step]
    split
    · exact h.beginRequest i env request
    · exact ⟨h, .refl _⟩
  | settle i env =>
    simp only [Cancelling.step]
    split
    · rename_i request hi
      exact h.settleRequest hi env
    · exact ⟨h, .refl _⟩
  | conflict i =>
    simp only [Cancelling.step]
    split
    · rename_i request hi
      refine h.conflictRequest i request ?_
      intro record hrecord h200
      have hrow : s.overwritten i = some 200 := by
        simp only [Cancelling.overwritten, hi]
        rw [show s.db.foundation.idempotency.find request.scope = some record from hrecord]
        exact h200
      simp [Cancelling.spares, hrow] at hspares
    · exact ⟨h, .refl _⟩

theorem Coherent.run (h : Coherent s)
    (hrun : Reaches Cancelling.step (fun s move => s.spares move = true) s s') :
    Coherent s' ∧ ∀ scope record, s.db.stored scope = some record → record.responseStatus = some 200 →
      s'.db.stored scope = some record := by
  induction hrun with
  | refl => exact ⟨h, fun _ _ hrecord _ => hrecord⟩
  | tail _ hmove ih =>
    obtain ⟨move, hspares, rfl⟩ := hmove
    obtain ⟨hcoherent, hkept⟩ := ih
    obtain ⟨hnext, hp⟩ := hcoherent.step hspares
    exact ⟨hnext, fun scope record hrecord h200 => hp.kept scope record (hkept scope record hrecord h200) h200⟩

theorem replays_of_stored (hrecord : db.stored request.scope = some record)
    (hhash : record.requestHash = canonicalRequestHash request.payload)
    (h200 : record.responseStatus = some 200) (hbody : record.responseBody = some body) :
    Replays db request body := by
  refine ⟨⟨record, hrecord, h200, hbody⟩, ?_⟩
  intro env request' hscope hpayload
  have hfind : db.foundation.idempotency.find request'.scope = some record := by
    rw [hscope]
    exact hrecord
  have hhash' : record.requestHash = canonicalRequestHash request'.payload := by
    rw [hpayload]
    exact hhash
  have hbegin : beginIdempotentRequest env request'.scope request'.payload db = .ok ((record, false), db) := by
    unfold beginIdempotentRequest
    rw [hfind]
    exact bind_of_ok (require_of hhash')
  unfold beginCancel
  rw [bind_of_ok hbegin]
  simp [cancelEntry, storedBody, hbody, h200, pure, Except.pure]

end Steps

theorem cancel_replays {start db db' : Database} {s s' : Cancelling} {i : Nat} {env : Env}
    {request : CancelRequest} {body : Payload} (hinit : Initial start)
    (hreach : Reaches step (fun _ _ => True) start db)
    (hunused : ∀ request : CancelRequest, db.stored request.scope = none)
    (hrun : Reaches Cancelling.step (fun s move => s.spares move = true) { db } s)
    (hopened : s.requests.find i = some (request, .opened))
    (hsettles : cancelLocked env request s.db = .ok (.cancelled body, db'))
    (hlater : Reaches Cancelling.step (fun s move => s.spares move = true) (s.step (.settle i env)) s') :
    Replays s'.db request body := by
  have hcoherent : Coherent { db } := by
    refine ⟨hinit.inv.run hreach, fun _ _ _ hi => by simp at hi, ?_⟩
    intro request record hrecord
    rw [hunused request] at hrecord
    cases hrecord
  have hs := (hcoherent.run hrun).1
  obtain ⟨known, hknown, hhash⟩ := hs.hashed i request .opened hopened (.inl rfl)
  have hdb : (s.step (.settle i env)).db = db' := by
    simp only [Cancelling.step, hopened, Cancelling.settleRequest, hsettles]
    rfl
  have hnext : Coherent (s.step (.settle i env)) := (hs.step rfl).1
  have hkept := (hnext.run hlater).2
  rcases hs.inv.cancelLocked_cases hsettles with ⟨hresult, -⟩ | ⟨o, r, hresult, hcancelled⟩
  · cases hresult
  · obtain rfl := CancelResult.cancelled.inj hresult
    obtain ⟨record, hrecord, hwritten⟩ := hcancelled.record
    have hstored := hkept request.scope _ (by rw [hdb, Database.stored, hwritten, Table.find_put_self]) rfl
    refine replays_of_stored hstored ?_ rfl rfl
    have hsame := Option.some.inj (hknown.symm.trans hrecord)
    exact hsame ▸ hhash

def openTen : Call := ⟨fixtureEnv [("BTC-USD", 100)], .process "TradingOrder" (some .openThenCancel)⟩

def openedTen : Database := step (step freshDatabase createTen) openTen

theorem openedTen_reached : Reaches step (fun _ _ => True) freshDatabase openedTen :=
  .tail (.single ⟨createTen, trivial, rfl⟩) ⟨openTen, trivial, rfl⟩

-- The only stored response is the one to the creation of the order.
theorem openedTen_unused (request : CancelRequest) : openedTen.stored request.scope = none := by
  have hscopes : openedTen.foundation.idempotency.rows.map (·.1.endpoint) = [orderEndpoint] := by
    decide +kernel
  cases hstored : openedTen.stored request.scope with
  | none => rfl
  | some record =>
    have hmem : request.scope.endpoint ∈ openedTen.foundation.idempotency.rows.map (·.1.endpoint) :=
      List.mem_map.mpr ⟨_, Table.mem_rows_iff.mpr hstored, rfl⟩
    rw [hscopes, List.mem_singleton] at hmem
    have hlength := congrArg String.length hmem
    have hstart : "/api/v1/trading/orders/".length = 23 := rfl
    have hendpoint : orderEndpoint.length = 22 := rfl
    rw [hendpoint] at hlength
    simp only [CancelRequest.scope, String.length_append, hstart] at hlength
    omega

def cancelTen (key : String) : CancelRequest where
  user := "alice"
  orderId := "TradingOrder"
  key := key
  expectedVersion := .time seedTime

def cancelEnv : Env where
  now := seedTime + 1
  settings := { simulatedExecutionPrices := [] }
  uuid4 := id
  seeded := by decide +kernel

def beginTwice (second : String) : List CancelMove :=
  [.begin 0 cancelEnv (cancelTen "key"), .begin 1 cancelEnv (cancelTen second)]

def openedTwice (second : String) : Cancelling :=
  (beginTwice second).foldl Cancelling.step { db := openedTen }

def settleSecond : List CancelMove := [.settle 1 cancelEnv, .conflict 1]

def settledTwice (second : String) : Cancelling :=
  settleSecond.foldl Cancelling.step ((openedTwice second).step (.settle 0 cancelEnv))

theorem openedTwice_opened (second : String) (h : second = "key" ∨ second = "other") :
    (openedTwice second).requests.find 0 = some (cancelTen "key", .opened) ∧
      (cancelLocked cancelEnv (cancelTen "key") (openedTwice second).db).map
        (fun p => match p.1 with
          | .cancelled _ => true
          | .versionConflict => false) = .ok true := by
  rcases h with rfl | rfl <;> decide +kernel

theorem settles_of_opened {s : Cancelling} {env : Env} {request : CancelRequest}
    (h : (cancelLocked env request s.db).map (fun p => match p.1 with
      | .cancelled _ => true
      | .versionConflict => false) = .ok true) :
    ∃ body db', cancelLocked env request s.db = .ok (.cancelled body, db') := by
  cases hlocked : cancelLocked env request s.db with
  | error e =>
    rw [hlocked] at h
    cases h
  | ok p =>
    obtain ⟨result, db'⟩ := p
    cases result with
    | versionConflict =>
      rw [hlocked] at h
      cases h
    | cancelled body => exact ⟨body, db', rfl⟩

theorem cancelled_ten_replays :
    ∃ body, Replays (settledTwice "other").db (cancelTen "key") body := by
  have hbegins : Reaches Cancelling.step (fun s move => s.spares move = true) { db := openedTen }
      (openedTwice "other") :=
    .of_replays Cancelling.spares (by decide +kernel) fun _ _ _ hcheck => hcheck
  have hlater : Reaches Cancelling.step (fun s move => s.spares move = true)
      ((openedTwice "other").step (.settle 0 cancelEnv)) (settledTwice "other") :=
    .of_replays Cancelling.spares (by decide +kernel) fun _ _ _ hcheck => hcheck
  obtain ⟨hopened, hcommits⟩ := openedTwice_opened "other" (.inr rfl)
  obtain ⟨body, db', hsettles⟩ := settles_of_opened hcommits
  exact ⟨body, cancel_replays freshDatabase_initial openedTen_reached openedTen_unused hbegins hopened
    hsettles hlater⟩

theorem same_key_overwrites_result :
    ¬∀ start db db' s s' i env request body, Initial start → Reaches step (fun _ _ => True) start db →
      (∀ request : CancelRequest, db.stored request.scope = none) →
      Reaches Cancelling.step (fun _ _ => True) { db } s →
      s.requests.find i = some (request, .opened) →
      cancelLocked env request s.db = .ok (.cancelled body, db') →
      Reaches Cancelling.step (fun _ _ => True) (s.step (.settle i env)) s' →
      Replays s'.db request body := by
  intro hclaim
  obtain ⟨hopened, hcommits⟩ := openedTwice_opened "key" (.inl rfl)
  obtain ⟨body, db', hsettles⟩ := settles_of_opened hcommits
  have hreplays := hclaim freshDatabase openedTen db' (openedTwice "key") (settledTwice "key") 0 cancelEnv
    (cancelTen "key") body freshDatabase_initial openedTen_reached openedTen_unused
    (.of_foldl fun _ _ _ => trivial) hopened hsettles (.of_foldl fun _ _ _ => trivial)
  have hstatus : ((settledTwice "key").db.stored (cancelTen "key").scope).map (·.responseStatus) =
      some (some 409) := by
    decide +kernel
  obtain ⟨record, hrecord, h200, -⟩ := hreplays.stored
  rw [hrecord, Option.map_some, h200] at hstatus
  cases hstatus

end Beyvra
