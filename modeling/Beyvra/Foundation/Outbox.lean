import Beyvra.Foundation.Services

namespace Beyvra

open Relational

namespace OutboxEvent

def eligible (row : OutboxEvent) (now leaseSeconds : Int) : Bool :=
  (row.state = .pending && row.nextAttemptAt = none) ||
    (row.state = .pending && row.nextAttemptAt.any (· ≤ now)) ||
    (row.state = .claimed && row.claimedAt.any (· ≤ now - leaseSeconds * microsecondsPerSecond))

def claim (row : OutboxEvent) (now : Timestamp) : OutboxEvent :=
  { row with state := .claimed, claimedAt := some now }

def backoff (attemptCount : Nat) (jitter : Int) : Int :=
  min 300 (2 ^ min attemptCount 8) * microsecondsPerSecond + jitter

def shortened (errorCode : String) : String := String.ofList (errorCode.toList.take 128)

-- jitter is random.random() in microseconds.
def settle (row : OutboxEvent) (now : Timestamp) (jitter : Int) (errorCode : String)
    (maximumAttempts : Nat) : OutboxEvent :=
  let attemptCount := row.attemptCount + 1
  if errorCode = "" then
    { row with attemptCount, state := .published, publishedAt := some now, lastError := "" }
  else if maximumAttempts ≤ attemptCount then
    { row with attemptCount, state := .deadLetter, lastError := shortened errorCode }
  else
    { row with
      attemptCount
      state := .pending
      nextAttemptAt := some (now + backoff attemptCount jitter)
      lastError := shortened errorCode }

end OutboxEvent

structure EventRequest where
  aggregateType : String
  aggregateId : String
  eventType : String
  payload : Payload
  tenantRef : String
  correlationId : Uuid
  occurredAt : Timestamp

def enqueueEvent (request : EventRequest) (rows : List OutboxEvent) : List OutboxEvent :=
  rows ++ [{ aggregateType := request.aggregateType, aggregateId := request.aggregateId
             eventType := request.eventType, payload := request.payload, tenantRef := request.tenantRef
             correlationId := request.correlationId, occurredAt := request.occurredAt }]

-- The primary key of an outbox row is its place in the order of enqueueing.
def eligibleIds (now : Timestamp) (locked : List Nat) (limit : Nat) (leaseSeconds : Int)
    (rows : List OutboxEvent) : List Nat :=
  ((List.range rows.length).filter fun id =>
    rows[id]?.any (·.eligible now leaseSeconds) && id ∉ locked).take limit

def claimOutboxBatch (now : Timestamp) (locked : List Nat) (limit : Nat) (leaseSeconds : Int)
    (rows : List OutboxEvent) : List Nat × List OutboxEvent :=
  let ids := eligibleIds now locked limit leaseSeconds rows
  (ids, rows.mapIdx fun id row => if id ∈ ids then row.claim now else row)

def markPublishResult (now : Timestamp) (jitter : Int) (id : Nat) (errorCode : String)
    (maximumAttempts : Nat) (rows : List OutboxEvent) : Outcome (List OutboxEvent) := do
  let row ← demand rows[id]? (.doesNotExist "OutboxEvent")
  pure (rows.set id (row.settle now jitter errorCode maximumAttempts))

section Rows

variable {now : Timestamp} {jitter leaseSeconds : Int} {locked : List Nat} {limit id : Nat}
  {errorCode : String} {maximumAttempts : Nat} {rows rows' : List OutboxEvent} {row : OutboxEvent}

theorem enqueueEvent_getElem? (request : EventRequest) (hrow : rows[id]? = some row) :
    (enqueueEvent request rows)[id]? = some row := by
  obtain ⟨hid, -⟩ := List.getElem?_eq_some_iff.mp hrow
  exact (List.getElem?_append_left hid).trans hrow

theorem eligible_of_mem_eligibleIds (h : id ∈ eligibleIds now locked limit leaseSeconds rows) :
    ∃ row, rows[id]? = some row ∧ row.eligible now leaseSeconds = true := by
  obtain ⟨-, hready⟩ := List.mem_filter.mp (List.mem_of_mem_take h)
  have hany := (Bool.and_eq_true_iff.mp hready).1
  cases hrow : rows[id]? with
  | none =>
    rw [hrow] at hany
    cases hany
  | some row =>
    rw [hrow] at hany
    exact ⟨row, rfl, hany⟩

theorem claimOutboxBatch_getElem? (id : Nat) :
    (claimOutboxBatch now locked limit leaseSeconds rows).2[id]? = rows[id]?.map fun row =>
      if id ∈ eligibleIds now locked limit leaseSeconds rows then row.claim now else row :=
  List.getElem?_mapIdx

theorem markPublishResult_eq_ok :
    markPublishResult now jitter id errorCode maximumAttempts rows = .ok rows' ↔
      ∃ row, rows[id]? = some row ∧ rows' = rows.set id (row.settle now jitter errorCode maximumAttempts) := by
  simp only [markPublishResult, bind_eq_ok, demand_eq_ok, pure_eq_ok, @eq_comm _ _ rows']

end Rows

-- handed pairs each worker with the events its claims have returned so far.
structure PublisherWorkers where
  rows : List OutboxEvent := []
  handed : List (Nat × Nat) := []

inductive WorkerOp where
  | enqueue (request : EventRequest)
  | claim (worker : Nat) (now : Timestamp) (locked : List Nat) (limit : Nat) (leaseSeconds : Int)
  | mark (worker : Nat) (now : Timestamp) (jitter : Int) (id : Nat) (errorCode : String)
      (maximumAttempts : Nat)

namespace PublisherWorkers

def claimed (s : PublisherWorkers) : WorkerOp → List Nat
  | .claim _ now locked limit leaseSeconds => (claimOutboxBatch now locked limit leaseSeconds s.rows).1
  | _ => []

def step (s : PublisherWorkers) (op : WorkerOp) : PublisherWorkers where
  rows := match op with
    | .enqueue request => enqueueEvent request s.rows
    | .claim _ now locked limit leaseSeconds => (claimOutboxBatch now locked limit leaseSeconds s.rows).2
    | .mark _ now jitter id errorCode maximumAttempts =>
      commitState (markPublishResult now jitter id errorCode maximumAttempts) s.rows
  handed := match op with
    | .claim worker _ _ _ _ => s.handed ++ (s.claimed op).map (worker, ·)
    | _ => s.handed

def after (s : PublisherWorkers) (ops : List WorkerOp) : PublisherWorkers := ops.foldl step s

-- Only a worker that a claim has handed the event to reports a result for it.
def Held (s : PublisherWorkers) : WorkerOp → Prop
  | .mark worker _ _ id _ _ => (worker, id) ∈ s.handed
  | _ => True

end PublisherWorkers

def OutboxState.Finished (state : OutboxState) : Prop := state = .published ∨ state = .deadLetter

def OutboxEvent.Spared (row : OutboxEvent) (errorCode : String) (maximumAttempts : Nat) : Prop :=
  (row.state = .published → errorCode = "") ∧
    (row.state = .deadLetter → errorCode ≠ "" ∧ maximumAttempts ≤ row.attemptCount + 1)

-- No error is reported for a published event; for a dead letter, only one more error past the maximum.
def PublisherWorkers.Spared (s : PublisherWorkers) : WorkerOp → Prop
  | .mark _ _ _ id errorCode maximumAttempts =>
    ∀ row, s.rows[id]? = some row → row.Spared errorCode maximumAttempts
  | _ => True

def PublisherWorkers.StaysFinished (s : PublisherWorkers) (ops : List WorkerOp) : Prop :=
  ∀ before between later, ops = before ++ between ++ later →
    ∀ id row, (s.after before).rows[id]? = some row → row.state.Finished →
      (∃ row', (s.after (before ++ between)).rows[id]? = some row' ∧ row'.state = row.state) ∧
        ∀ op, id ∉ (s.after (before ++ between)).claimed op

section Workers

variable {s : PublisherWorkers} {op : WorkerOp} {id : Nat} {row : OutboxEvent} {state : OutboxState}
  {now : Timestamp} {jitter : Int} {errorCode : String} {maximumAttempts : Nat}

-- What an operation does to the row of one event.
inductive WorkerEffect (s : PublisherWorkers) (op : WorkerOp) (id : Nat) (row : OutboxEvent) : Prop where
  | kept (hafter : (s.step op).rows[id]? = some row) (hclaimed : id ∉ s.claimed op)
  | claimed (now leaseSeconds : Int) (heligible : row.eligible now leaseSeconds = true)
      (hafter : (s.step op).rows[id]? = some (row.claim now)) (hclaimed : id ∈ s.claimed op)
  | settled (worker : Nat) (now : Timestamp) (jitter : Int) (errorCode : String) (maximumAttempts : Nat)
      (hop : op = .mark worker now jitter id errorCode maximumAttempts)
      (hafter : (s.step op).rows[id]? = some (row.settle now jitter errorCode maximumAttempts))
      (hclaimed : id ∉ s.claimed op)

theorem mark_getElem? (worker : Nat) (hrow : s.rows[id]? = some row) :
    (s.step (.mark worker now jitter id errorCode maximumAttempts)).rows[id]? =
      some (row.settle now jitter errorCode maximumAttempts) := by
  have hrows : (s.step (.mark worker now jitter id errorCode maximumAttempts)).rows =
      s.rows.set id (row.settle now jitter errorCode maximumAttempts) :=
    commitState_of_ok (markPublishResult_eq_ok.mpr ⟨row, hrow, rfl⟩)
  rw [hrows]
  exact List.getElem?_set_self (List.getElem?_eq_some_iff.mp hrow).1

theorem mark_getElem?_of_ne {id' : Nat} (worker : Nat) (hid : id ≠ id') :
    (s.step (.mark worker now jitter id' errorCode maximumAttempts)).rows[id]? = s.rows[id]? := by
  rcases commitState_cases (markPublishResult now jitter id' errorCode maximumAttempts) s.rows with
    ⟨rows', hok, hrows⟩ | ⟨-, hrows⟩
  · obtain ⟨row', -, rfl⟩ := markPublishResult_eq_ok.mp hok
    exact (congrArg (·[id]?) hrows).trans (List.getElem?_set_ne (Ne.symm hid))
  · exact congrArg (·[id]?) hrows

theorem worker_effect (hrow : s.rows[id]? = some row) (op : WorkerOp) : WorkerEffect s op id row := by
  cases op with
  | enqueue request => exact .kept (enqueueEvent_getElem? request hrow) List.not_mem_nil
  | claim worker now locked limit leaseSeconds =>
    have hafter : (s.step (.claim worker now locked limit leaseSeconds)).rows[id]? =
        s.rows[id]?.map fun row =>
          if id ∈ eligibleIds now locked limit leaseSeconds s.rows then row.claim now else row :=
      claimOutboxBatch_getElem? id
    rw [hrow, Option.map_some] at hafter
    by_cases hready : id ∈ eligibleIds now locked limit leaseSeconds s.rows
    · obtain ⟨row', hrow', heligible⟩ := eligible_of_mem_eligibleIds hready
      rw [hrow] at hrow'
      obtain rfl := Option.some.inj hrow'
      rw [if_pos hready] at hafter
      exact .claimed now leaseSeconds heligible hafter hready
    · rw [if_neg hready] at hafter
      exact .kept hafter hready
  | mark worker now jitter id' errorCode maximumAttempts =>
    by_cases hid : id = id'
    · subst hid
      exact .settled worker now jitter errorCode maximumAttempts rfl (mark_getElem? worker hrow)
        List.not_mem_nil
    · exact .kept ((mark_getElem?_of_ne worker hid).trans hrow) List.not_mem_nil

theorem not_eligible_of_finished (h : row.state.Finished) (now leaseSeconds : Int) :
    ¬row.eligible now leaseSeconds = true := by
  rcases h with h | h <;> simp [OutboxEvent.eligible, h]

theorem settle_published :
    (row.settle now jitter errorCode maximumAttempts).state = .published ↔ errorCode = "" := by
  unfold OutboxEvent.settle
  by_cases herror : errorCode = ""
  · simp [herror]
  · by_cases hmaximum : maximumAttempts ≤ row.attemptCount + 1
    · simp [herror, hmaximum]
    · simp [herror, hmaximum]

theorem settle_deadLetter :
    (row.settle now jitter errorCode maximumAttempts).state = .deadLetter ↔
      errorCode ≠ "" ∧ maximumAttempts ≤ row.attemptCount + 1 := by
  unfold OutboxEvent.settle
  by_cases herror : errorCode = ""
  · simp [herror]
  · by_cases hmaximum : maximumAttempts ≤ row.attemptCount + 1
    · simp [herror, hmaximum]
    · simp [herror, hmaximum]

theorem settle_state_iff (h : row.state.Finished) :
    (row.settle now jitter errorCode maximumAttempts).state = row.state ↔
      row.Spared errorCode maximumAttempts := by
  rcases h with h | h
  · rw [h, settle_published, OutboxEvent.Spared, h]
    simp
  · rw [h, settle_deadLetter, OutboxEvent.Spared, h]
    simp

theorem step_state_of_spared (hspared : s.Spared op) (hrow : s.rows[id]? = some row)
    (hfinished : row.state.Finished) :
    ∃ row', (s.step op).rows[id]? = some row' ∧ row'.state = row.state := by
  cases worker_effect hrow op with
  | kept hafter hclaimed => exact ⟨row, hafter, rfl⟩
  | claimed now leaseSeconds heligible hafter hclaimed =>
    exact absurd heligible (not_eligible_of_finished hfinished now leaseSeconds)
  | settled worker now jitter errorCode maximumAttempts hop hafter hclaimed =>
    subst hop
    exact ⟨_, hafter, (settle_state_iff hfinished).mpr (hspared row hrow)⟩

theorem not_claimed_of_finished (hrow : s.rows[id]? = some row) (hfinished : row.state.Finished)
    (op : WorkerOp) : id ∉ s.claimed op := by
  cases worker_effect hrow op with
  | kept hafter hclaimed => exact hclaimed
  | claimed now leaseSeconds heligible hafter hclaimed =>
    exact absurd heligible (not_eligible_of_finished hfinished now leaseSeconds)
  | settled worker now jitter errorCode maximumAttempts hop hafter hclaimed => exact hclaimed

theorem run_state_of_spared {ops : List WorkerOp} (hspared : Throughout PublisherWorkers.step
      PublisherWorkers.Spared ops s) (hrow : s.rows[id]? = some row) (hfinished : row.state.Finished) :
    ∃ row', (s.after ops).rows[id]? = some row' ∧ row'.state = row.state := by
  refine hspared.reaches.invariant (P := fun t => ∃ row', t.rows[id]? = some row' ∧ row'.state = row.state)
    ⟨row, hrow, rfl⟩ ?_
  rintro t op ⟨row', hrow', hstate⟩ hop
  obtain ⟨row'', hrow'', hstate'⟩ := step_state_of_spared hop hrow' (hstate ▸ hfinished)
  exact ⟨row'', hrow'', hstate'.trans hstate⟩

theorem after_concat (before : List WorkerOp) (op : WorkerOp) :
    s.after (before ++ [op]) = (s.after before).step op := by
  simp [PublisherWorkers.after]

theorem spared_of_staysFinished {before later : List WorkerOp}
    (h : s.StaysFinished (before ++ op :: later)) : (s.after before).Spared op := by
  cases op with
  | enqueue request => trivial
  | claim worker now locked limit leaseSeconds => trivial
  | mark worker now jitter id errorCode maximumAttempts =>
    intro row hrow
    have hkept (hfinished : row.state.Finished) : row.Spared errorCode maximumAttempts := by
      obtain ⟨⟨row', hrow', hstate⟩, -⟩ := h before [.mark worker now jitter id errorCode maximumAttempts]
        later (by simp) id row hrow hfinished
      rw [after_concat, mark_getElem? worker hrow] at hrow'
      rw [← Option.some.inj hrow'] at hstate
      exact (settle_state_iff hfinished).mp hstate
    exact ⟨fun hstate => (hkept (.inl hstate)).1 hstate, fun hstate => (hkept (.inr hstate)).2 hstate⟩

theorem stays_finished_iff (ops : List WorkerOp) : PublisherWorkers.StaysFinished {} ops ↔
    Throughout PublisherWorkers.step PublisherWorkers.Spared ops {} := by
  constructor
  · intro h
    refine throughout_iff.mpr fun before op later heq => ?_
    subst heq
    exact spared_of_staysFinished h
  · rintro h before between later rfl id row hrow hfinished
    have hbetween := (throughout_append.mp (throughout_append.mp h).1).2
    obtain ⟨row', hrow', hstate⟩ := run_state_of_spared hbetween hrow hfinished
    have happend : PublisherWorkers.after {} (before ++ between) =
        (PublisherWorkers.after {} before).after between := List.foldl_append
    rw [happend]
    exact ⟨⟨row', hrow', hstate⟩, not_claimed_of_finished hrow' (hstate ▸ hfinished)⟩

end Workers

def fillEvent : EventRequest where
  aggregateType := "execution"
  aggregateId := "X1"
  eventType := "trading.execution.v1"
  payload := []
  tenantRef := "default"
  correlationId := "C1"
  occurredAt := 0

-- Worker 2 publishes after the lease of worker 1 has run out; the timeout of worker 1 comes last.
def publishedBySecond : List WorkerOp :=
  [.enqueue fillEvent, .claim 1 0 [] 100 30, .claim 2 30000000 [] 100 30, .mark 2 31000000 0 0 "" 10]

def lateTimeout : List WorkerOp := [.mark 1 32000000 0 0 "TimeoutError" 10]

theorem late_timeout_reopens :
    Throughout PublisherWorkers.step PublisherWorkers.Held (publishedBySecond ++ lateTimeout) {} ∧
      ¬PublisherWorkers.StaysFinished {} (publishedBySecond ++ lateTimeout) := by
  refine ⟨⟨trivial, trivial, trivial, ?_, ?_, trivial⟩, fun hstays => ?_⟩
  · simp only [PublisherWorkers.Held]
    decide +kernel
  · simp only [PublisherWorkers.Held]
    decide +kernel
  · have hpublished : ((PublisherWorkers.after {} publishedBySecond).rows[0]?.map (·.state)) =
        some .published := by decide +kernel
    have hreopened : ((PublisherWorkers.after {} (publishedBySecond ++ lateTimeout)).rows[0]?.map (·.state)) =
        some .pending := by decide +kernel
    obtain ⟨row, hrow, hstate⟩ := Option.map_eq_some_iff.mp hpublished
    obtain ⟨⟨row', hrow', hsame⟩, -⟩ := hstays publishedBySecond lateTimeout []
      (List.append_nil _).symm 0 row hrow (.inl hstate)
    rw [hrow', Option.map_some, hsame, hstate] at hreopened
    cases hreopened

end Beyvra
