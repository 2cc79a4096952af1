import Beyvra.Foundation.Outbox
import Beyvra.Relational.Precedence

namespace Beyvra

open Relational

def canonicalSubjectDomains : List String :=
  ["trading", "post_trade", "valuation", "treasury", "regulatory", "compliance", "market", "news",
    "private", "system", "identity"]

def subjectFor (eventType : String) : Outcome String := do
  let subject := strip eventType.toList
  let domain := String.ofList (subject.takeWhile (· ≠ '.'))
  require (domain ∈ canonicalSubjectDomains ∧ '.' ∈ subject) (.valueError "NON_CANONICAL_EVENT_SUBJECT")
  pure (String.ofList subject)

-- One run of publish_batch as the clock, the broker and random.random() let it go: a refusal is the
-- name of the exception type that the publication of an event raises.
structure PublishRun where
  claimedAt : Timestamp
  limit : Nat
  maximumAttempts : Nat
  connects : Bool
  drains : Bool
  refusal : Nat → Option { error : String // error ≠ "" }
  markedAt : Nat → Timestamp
  jitter : Nat → Int

def publisherLeaseSeconds : Int := 30

-- stream records the successful publications in their order.
structure Publisher where
  rows : List OutboxEvent := []
  stream : List Nat := []

namespace PublishRun

def batch (run : PublishRun) (rows : List OutboxEvent) : List Nat × List OutboxEvent :=
  claimOutboxBatch run.claimedAt [] run.limit publisherLeaseSeconds rows

-- The empty text stands for success, as in the results of _publish.
def errorCode (run : PublishRun) (rows : List OutboxEvent) (id : Nat) : String :=
  match rows[id]?.map (subjectFor ·.eventType) with
  | some (.ok _) => (run.refusal id).elim "" Subtype.val
  | _ => "ValueError"

def publishRows (error : Nat → String) : List Nat → List (Nat × String)
  | [] => []
  | id :: ids => (id, error id) :: if error id = "" then publishRows error ids else []

def results (run : PublishRun) (rows : List OutboxEvent) : List (Nat × String) :=
  if run.connects then publishRows (run.errorCode rows) (run.batch rows).1 else []

def mark (run : PublishRun) (rows : List OutboxEvent) (result : Nat × String) : List OutboxEvent :=
  commitState (markPublishResult (run.markedAt result.1) (run.jitter result.1) result.1 result.2
    run.maximumAttempts) rows

end PublishRun

inductive PublisherOp where
  | enqueue (request : EventRequest)
  | publishBatch (run : PublishRun)

namespace Publisher

-- A drain that raises loses the results of messages the stream has taken.
def publishBatch (run : PublishRun) (s : Publisher) : Publisher where
  rows := if run.drains then (run.results s.rows).foldl run.mark (run.batch s.rows).2
    else (run.batch s.rows).2
  stream := s.stream ++ ((run.results s.rows).filter (·.2 = "")).map Prod.fst

def step (s : Publisher) : PublisherOp → Publisher
  | .enqueue request => { s with rows := enqueueEvent request s.rows }
  | .publishBatch run => s.publishBatch run

def after (s : Publisher) (ops : List PublisherOp) : Publisher := ops.foldl step s

end Publisher

def OutboxEvent.aggregate (row : OutboxEvent) : String × String := (row.aggregateType, row.aggregateId)

def Earlier (rows : List OutboxEvent) (first second : Nat) : Prop :=
  first < second ∧ ∃ aggregate, (rows.map (·.aggregate))[first]? = some aggregate ∧
    (rows.map (·.aggregate))[second]? = some aggregate

-- The run claims the event, and nothing at or before it in the batch fails.
def PublishRun.Delivers (run : PublishRun) (rows : List OutboxEvent) (id : Nat) : Prop :=
  run.connects = true ∧ id ∈ (run.batch rows).1 ∧
    ∀ id' ∈ (run.batch rows).1, id' ≤ id → run.errorCode rows id' = ""

def Publisher.Cautious (s : Publisher) : PublisherOp → Prop
  | .enqueue _ => True
  | .publishBatch run => ∀ id, run.Delivers s.rows id → ∀ first, Earlier s.rows first id →
      first ∈ s.stream ∨
        ∃ row, s.rows[first]? = some row ∧ row.eligible run.claimedAt publisherLeaseSeconds = true

-- No failure of the run is the last attempt of its event.
def Publisher.Retryable (s : Publisher) : PublisherOp → Prop
  | .enqueue _ => True
  | .publishBatch run => ∀ result ∈ run.results s.rows, result.2 ≠ "" →
      s.rows[result.1]?.all (·.attemptCount + 1 < run.maximumAttempts) = true

def Publisher.PublishedInOrder (s : Publisher) : Prop := InOrder (Earlier s.rows) s.stream

section Batch

variable {now leaseSeconds : Int} {locked : List Nat} {limit id first : Nat} {rows : List OutboxEvent}
  {row : OutboxEvent} {run : PublishRun}

theorem pairwise_eligibleIds : (eligibleIds now locked limit leaseSeconds rows).Pairwise (· < ·) :=
  List.pairwise_lt_range.sublist ((List.take_sublist _ _).trans List.filter_sublist)

theorem pairwise_batch : (run.batch rows).1.Pairwise (· < ·) := pairwise_eligibleIds

theorem mem_eligibleIds_of_le (hid : id ∈ eligibleIds now [] limit leaseSeconds rows) (hle : first ≤ id)
    (hrow : rows[first]? = some row) (heligible : row.eligible now leaseSeconds = true) :
    first ∈ eligibleIds now [] limit leaseSeconds rows := by
  have hfirst : first < rows.length := (List.getElem?_eq_some_iff.mp hrow).1
  refine mem_take_of_le (List.pairwise_lt_range.sublist List.filter_sublist) hid ?_ hle
  refine List.mem_filter.mpr ⟨List.mem_range.mpr hfirst, ?_⟩
  simp [hrow, heligible]

theorem lt_length_of_mem_eligibleIds (hid : id ∈ eligibleIds now locked limit leaseSeconds rows) :
    id < rows.length := by
  obtain ⟨row, hrow, -⟩ := eligible_of_mem_eligibleIds hid
  exact (List.getElem?_eq_some_iff.mp hrow).1

theorem successes_publishRows (error : Nat → String) (ids : List Nat) :
    ((PublishRun.publishRows error ids).filter (·.2 = "")).map Prod.fst =
      ids.takeWhile (error · = "") := by
  induction ids with
  | nil => rfl
  | cons id ids ih =>
    by_cases herror : error id = ""
    · simp [PublishRun.publishRows, herror, ih]
    · simp [PublishRun.publishRows, herror]

def PublishRun.delivered (run : PublishRun) (rows : List OutboxEvent) : List Nat :=
  ((run.results rows).filter (·.2 = "")).map Prod.fst

theorem delivered_eq : run.delivered rows =
    if run.connects then (run.batch rows).1.takeWhile (run.errorCode rows · = "") else [] := by
  unfold PublishRun.delivered PublishRun.results
  split
  · exact successes_publishRows _ _
  · rfl

theorem pairwise_delivered : (run.delivered rows).Pairwise (· < ·) := by
  rw [delivered_eq]
  split
  · exact pairwise_batch.sublist (List.takeWhile_sublist _)
  · exact .nil

theorem mem_delivered : id ∈ run.delivered rows ↔ run.Delivers rows id := by
  rw [delivered_eq]
  by_cases hconnects : run.connects = true
  · rw [if_pos hconnects, mem_takeWhile_iff pairwise_batch]
    simp [PublishRun.Delivers, hconnects]
  · rw [if_neg hconnects]
    simp [PublishRun.Delivers, hconnects]

end Batch

section Rows

variable {s : Publisher} {run : PublishRun} {rows : List OutboxEvent} {first second : Nat}

theorem map_aggregate_claim (run : PublishRun) (rows : List OutboxEvent) :
    (run.batch rows).2.map (·.aggregate) = rows.map (·.aggregate) := by
  apply List.ext_getElem?
  intro id
  rw [List.getElem?_map, List.getElem?_map, PublishRun.batch, claimOutboxBatch_getElem?, Option.map_map]
  congr 1
  funext row
  simp only [Function.comp_apply]
  split <;> rfl

theorem settle_aggregate (row : OutboxEvent) (now : Timestamp) (jitter : Int) (errorCode : String)
    (maximumAttempts : Nat) : (row.settle now jitter errorCode maximumAttempts).aggregate = row.aggregate := by
  unfold OutboxEvent.settle OutboxEvent.aggregate
  by_cases herror : errorCode = ""
  · simp [herror]
  · by_cases hmaximum : maximumAttempts ≤ row.attemptCount + 1 <;> simp [herror, hmaximum]

theorem map_aggregate_mark (run : PublishRun) (rows : List OutboxEvent) (result : Nat × String) :
    (run.mark rows result).map (·.aggregate) = rows.map (·.aggregate) := by
  rcases commitState_cases (markPublishResult (run.markedAt result.1) (run.jitter result.1) result.1
    result.2 run.maximumAttempts) rows with ⟨rows', hok, hrows⟩ | ⟨-, hrows⟩
  · obtain ⟨row, hrow, rfl⟩ := markPublishResult_eq_ok.mp hok
    rw [PublishRun.mark, hrows, List.map_set, settle_aggregate]
    apply List.ext_getElem?
    intro id
    by_cases hid : result.1 = id
    · subst hid
      obtain ⟨hlength, hget⟩ := List.getElem?_eq_some_iff.mp hrow
      rw [List.getElem?_set_self (by simpa using hlength), List.getElem?_map, hrow, Option.map_some]
    · rw [List.getElem?_set_ne hid]
  · rw [PublishRun.mark, hrows]

theorem map_aggregate_marks (run : PublishRun) (results : List (Nat × String)) (rows : List OutboxEvent) :
    (results.foldl run.mark rows).map (·.aggregate) = rows.map (·.aggregate) := by
  induction results generalizing rows with
  | nil => rfl
  | cons result results ih => rw [List.foldl_cons, ih, map_aggregate_mark]

theorem map_aggregate_publishBatch (run : PublishRun) (s : Publisher) :
    (s.publishBatch run).rows.map (·.aggregate) = s.rows.map (·.aggregate) := by
  unfold Publisher.publishBatch
  split
  · rw [map_aggregate_marks, map_aggregate_claim]
  · exact map_aggregate_claim run s.rows

theorem length_publishBatch (run : PublishRun) (s : Publisher) :
    (s.publishBatch run).rows.length = s.rows.length := by
  simpa using congrArg List.length (map_aggregate_publishBatch run s)

theorem earlier_publishBatch : Earlier (s.publishBatch run).rows first second ↔
    Earlier s.rows first second := by
  rw [Earlier, Earlier, map_aggregate_publishBatch]

theorem earlier_enqueue (request : EventRequest) (hsecond : second < rows.length) :
    Earlier (enqueueEvent request rows) first second ↔ Earlier rows first second := by
  unfold Earlier enqueueEvent
  refine and_congr_right fun hlt => ?_
  rw [List.map_append, List.getElem?_append_left (by rw [List.length_map]; omega),
    List.getElem?_append_left (by rw [List.length_map]; omega)]

end Rows

section Runs

variable {s : Publisher} {op : PublisherOp}

def Publisher.Known (s : Publisher) : Prop := ∀ id ∈ s.stream, id < s.rows.length

theorem known_nil : Publisher.Known {} := by
  intro id hid
  cases hid

theorem Publisher.Known.step (h : s.Known) (op : PublisherOp) : (s.step op).Known := by
  cases op with
  | enqueue request =>
    intro id hid
    have hlt := h id hid
    simp only [Publisher.step, enqueueEvent, List.length_append, List.length_singleton]
    omega
  | publishBatch run =>
    intro id hid
    rw [Publisher.step, length_publishBatch]
    rcases List.mem_append.mp hid with hid | hid
    · exact h id hid
    · exact lt_length_of_mem_eligibleIds (mem_delivered.mp hid).2.1

theorem publishedInOrder_step (hknown : s.Known) :
    (s.step op).PublishedInOrder ↔ s.PublishedInOrder ∧ s.Cautious op := by
  cases op with
  | enqueue request =>
    have hcongr : (s.step (.enqueue request)).PublishedInOrder ↔ s.PublishedInOrder :=
      inOrder_congr fun id hid first => earlier_enqueue request (hknown id hid)
    rw [hcongr]
    exact (and_iff_left trivial).symm
  | publishBatch run =>
    have hcongr : (s.step (.publishBatch run)).PublishedInOrder ↔
        InOrder (Earlier s.rows) (s.stream ++ run.delivered s.rows) :=
      inOrder_congr fun id hid first => earlier_publishBatch
    rw [hcongr, inOrder_append]
    refine and_congr_right fun _ => ⟨fun h id hid first hearlier => ?_, fun h k id hid first hearlier => ?_⟩
    · obtain ⟨k, hk⟩ := List.mem_iff_getElem?.mp (mem_delivered.mpr hid)
      rcases h k id hk first hearlier with hstream | hbefore
      · exact .inl hstream
      · have hfirst := (mem_delivered.mp (List.mem_of_mem_take hbefore)).2.1
        exact .inr (eligible_of_mem_eligibleIds hfirst)
    · have hdelivers := mem_delivered.mp (List.mem_of_getElem? hid)
      refine (h id hdelivers first hearlier).imp_right fun ⟨row, hrow, heligible⟩ => ?_
      obtain ⟨hconnects, hbatch, hclean⟩ := hdelivers
      have hfirst := mem_eligibleIds_of_le hbatch hearlier.1.le hrow heligible
      refine (mem_take_iff_lt pairwise_delivered hid).mpr ⟨mem_delivered.mpr ?_, hearlier.1⟩
      exact ⟨hconnects, hfirst, fun id' hid' hle => hclean id' hid' (hle.trans hearlier.1.le)⟩

theorem publishedInOrder_after (ops : List PublisherOp) (hknown : s.Known) :
    (s.after ops).PublishedInOrder ↔
      s.PublishedInOrder ∧ Throughout Publisher.step Publisher.Cautious ops s := by
  induction ops generalizing s with
  | nil => exact (and_iff_left trivial).symm
  | cons op ops ih =>
    calc (s.after (op :: ops)).PublishedInOrder
        ↔ (s.step op).PublishedInOrder ∧ Throughout Publisher.step Publisher.Cautious ops (s.step op) :=
          ih (hknown.step op)
      _ ↔ (s.PublishedInOrder ∧ s.Cautious op) ∧
            Throughout Publisher.step Publisher.Cautious ops (s.step op) := by
          rw [publishedInOrder_step hknown]
      _ ↔ s.PublishedInOrder ∧ Throughout Publisher.step Publisher.Cautious (op :: ops) s := and_assoc

theorem published_in_order_iff (ops : List PublisherOp) : (Publisher.after {} ops).PublishedInOrder ↔
    Throughout Publisher.step Publisher.Cautious ops {} :=
  (publishedInOrder_after ops known_nil).trans (and_iff_right inOrder_nil)

end Runs

def orderEvent (eventType : String) : EventRequest where
  aggregateType := "order"
  aggregateId := "O1"
  eventType := eventType
  payload := []
  tenantRef := "default"
  correlationId := "C1"
  occurredAt := 0

def runAt (claimedAt : Timestamp) (refusal : Nat → Option { error : String // error ≠ "" }) : PublishRun where
  claimedAt := claimedAt
  limit := 100
  maximumAttempts := 10
  connects := true
  drains := true
  refusal := refusal
  markedAt _ := claimedAt
  jitter _ := 0

-- The first event waits two seconds for its second attempt; the second is published meanwhile.
def overtaken : List PublisherOp :=
  [.enqueue (orderEvent "trading.order.created.v1"),
    .publishBatch (runAt 0 fun _ => some ⟨"TimeoutError", by decide⟩),
    .enqueue (orderEvent "trading.order.cancelled.v1"),
    .publishBatch (runAt 1000000 fun _ => none)]

theorem overtaken_out_of_order : Throughout Publisher.step Publisher.Retryable overtaken {} ∧
    ¬(Publisher.after {} overtaken).PublishedInOrder := by
  refine ⟨⟨trivial, ?_, trivial, ?_, trivial⟩, fun horder => ?_⟩
  · simp only [Publisher.Retryable]
    decide +kernel
  · simp only [Publisher.Retryable]
    decide +kernel
  · have hstream : (Publisher.after {} overtaken).stream = [1] := by decide +kernel
    have hearlier : Earlier (Publisher.after {} overtaken).rows 0 1 :=
      ⟨by decide, ("order", "O1"), by decide +kernel, by decide +kernel⟩
    have hmem := horder 0 1 (by rw [hstream]; rfl) 0 hearlier
    cases hmem

end Beyvra
