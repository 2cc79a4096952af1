import Beyvra.Foundation.Inbox
import Beyvra.Foundation.Outbox
import Beyvra.Foundation.Publisher
import Beyvra.Relational.InboxReturns

namespace Beyvra

open Relational

-- The columns an event is published from.
def OutboxEvent.content (row : OutboxEvent) : String × Payload := (row.eventType, row.payload)

-- event_id is unique in the outbox; a durable consumer reads the one subject it is filtered by.
structure Deployment where
  eventId : Nat → Uuid
  unique : Function.Injective eventId
  filterSubject : String → String

-- The outbox and its publisher, the stream of the broker and the inbox that every consumer goes through.
-- A publication whose answer is lost leaves its message in the stream all the same.
structure Pipeline (B : Type) where
  publisher : Publisher := {}
  unanswered : List Nat := []
  inbox : Inbox.Store (Uuid × String) ProcessedEvent Error B
  taken : Table Nat (Nat × String) := Table.empty
  acked : List (Nat × String) := []

inductive PipelineOp (B : Type) where
  | publisher (op : PublisherOp)
  | loseAnswer (id : Nat)
  | deliver (i : Nat) (env : Env) (id : Nat) (consumerName : String)
  | advance (i : Nat) (outcome : Except Error (B → B))
  | abandon (i : Nat)
  | ack (i : Nat)

-- The mutation of a session raises the error.
def PipelineOp.Raises {B : Type} (e : Error) : PipelineOp B → Prop
  | .advance _ outcome => outcome = .error e
  | _ => False

def payloadConflict : Error := .valueError "EVENT_PAYLOAD_CONFLICT"

namespace Pipeline

variable {B : Type}

def messages (s : Pipeline B) : List Nat := s.publisher.stream ++ s.unanswered

def subscribed (d : Deployment) (consumerName : String) (row : OutboxEvent) : Bool :=
  match subjectFor row.eventType with
  | .ok subject => subject = d.filterSubject consumerName
  | .error _ => false

def deliver (d : Deployment) (i : Nat) (env : Env) (id : Nat) (consumerName : String) (s : Pipeline B) : Pipeline B :=
  match s.publisher.rows[id]? with
  | none => s
  | some row =>
    if id ∈ s.messages ∧ subscribed d consumerName row = true ∧ (s.inbox.sessions.find i).isNone = true then
      { s with
        inbox := s.inbox.step (.start i (consumeOnceDelivery env (d.eventId id) row.payload consumerName))
        taken := s.taken.put i (id, consumerName) }
    else s

-- The loop acknowledges a message once consume_once has returned; an exception naks it.
def ack (i : Nat) (s : Pipeline B) : Pipeline B :=
  match s.inbox.sessions.find i, s.taken.find i with
  | some x, some message =>
    match x.phase with
    | .done (.ok _) => { s with acked := message :: s.acked }
    | _ => s
  | _, _ => s

def step (d : Deployment) (s : Pipeline B) : PipelineOp B → Pipeline B
  | .publisher op => { s with publisher := s.publisher.step op }
  | .loseAnswer id =>
    if s.publisher.rows[id]?.any (·.state = .claimed) then { s with unanswered := s.unanswered ++ [id] } else s
  | .deliver i env id consumerName => s.deliver d i env id consumerName
  | .advance i outcome => { s with inbox := s.inbox.step (.advance i outcome) }
  | .abandon i => { s with inbox := s.inbox.step (.abandon i) }
  | .ack i => s.ack i

def start (business : B) : Pipeline B := { inbox := { business } }

def after (d : Deployment) (s : Pipeline B) (ops : List (PipelineOp B)) : Pipeline B := ops.foldl (step d) s

end Pipeline

section Rows

variable {V : Type} {f : OutboxEvent → V} {run : PublishRun} {rows : List OutboxEvent} {row : OutboxEvent} {id : Nat}
  {s : Publisher}

-- What neither a claim nor a publication result changes of a row.
structure OutboxEvent.Fixed (f : OutboxEvent → V) : Prop where
  claim : ∀ (row : OutboxEvent) now, f (row.claim now) = f row
  settle : ∀ (row : OutboxEvent) now jitter errorCode maximumAttempts,
    f (row.settle now jitter errorCode maximumAttempts) = f row

namespace OutboxEvent.Fixed

theorem content : OutboxEvent.Fixed OutboxEvent.content where
  claim row now := rfl
  settle row now jitter errorCode maximumAttempts := by
    unfold OutboxEvent.settle
    dsimp only
    split
    · rfl
    · split <;> rfl

theorem batch (h : OutboxEvent.Fixed f) (run : PublishRun) (rows : List OutboxEvent) :
    (run.batch rows).2.map f = rows.map f := by
  apply List.ext_getElem?
  intro id
  rw [List.getElem?_map, List.getElem?_map, PublishRun.batch, claimOutboxBatch_getElem?, Option.map_map]
  congr 1
  funext row
  simp only [Function.comp_apply]
  split
  · exact h.claim row _
  · rfl

theorem mark (h : OutboxEvent.Fixed f) (run : PublishRun) (rows : List OutboxEvent) (result : Nat × String) :
    (run.mark rows result).map f = rows.map f := by
  rcases commitState_cases (markPublishResult (run.markedAt result.1) (run.jitter result.1) result.1
    result.2 run.maximumAttempts) rows with ⟨rows', hok, hrows⟩ | ⟨-, hrows⟩
  · obtain ⟨row, hrow, rfl⟩ := markPublishResult_eq_ok.mp hok
    rw [PublishRun.mark, hrows, List.map_set, h.settle]
    obtain ⟨hlength, hget⟩ := List.getElem?_eq_some_iff.mp hrow
    rw [← hget, ← List.getElem_map f (h := by simpa using hlength)]
    exact List.set_getElem_self _
  · rw [PublishRun.mark, hrows]

theorem publishBatch (h : OutboxEvent.Fixed f) (run : PublishRun) (s : Publisher) :
    (s.publishBatch run).rows.map f = s.rows.map f := by
  have hmarks (results : List (Nat × String)) (rows : List OutboxEvent) :
      (results.foldl run.mark rows).map f = rows.map f := by
    induction results generalizing rows with
    | nil => rfl
    | cons result results ih => rw [List.foldl_cons, ih, h.mark]
  unfold Publisher.publishBatch
  split
  · rw [hmarks, h.batch]
  · exact h.batch run s.rows

theorem step (h : OutboxEvent.Fixed f) (op : PublisherOp) (hrow : s.rows[id]? = some row) :
    ∃ row', (s.step op).rows[id]? = some row' ∧ f row' = f row := by
  cases op with
  | enqueue request => exact ⟨row, enqueueEvent_getElem? request hrow, rfl⟩
  | publishBatch run =>
    have hmap := congrArg (·[id]?) (h.publishBatch run s)
    simp only [List.getElem?_map, hrow, Option.map_some, Option.map_eq_some_iff] at hmap
    exact hmap

end OutboxEvent.Fixed

theorem Publisher.stream_step (s : Publisher) (op : PublisherOp) (h : id ∈ s.stream) : id ∈ (s.step op).stream := by
  cases op with
  | enqueue request => exact h
  | publishBatch run => exact List.mem_append_left _ h

-- A row counts as published only after the stream has taken its message.
def Publisher.Accounted (s : Publisher) : Prop :=
  ∀ id row, s.rows[id]? = some row → row.state = .published → id ∈ s.stream

def PublishedAt (rows : List OutboxEvent) (id : Nat) : Prop :=
  ∃ row, rows[id]? = some row ∧ row.state = .published

theorem publishedAt_batch (h : PublishedAt (run.batch rows).2 id) : PublishedAt rows id := by
  obtain ⟨row, hrow, hpublished⟩ := h
  rw [PublishRun.batch, claimOutboxBatch_getElem?, Option.map_eq_some_iff] at hrow
  obtain ⟨row', hrow', rfl⟩ := hrow
  split at hpublished
  · cases hpublished
  · exact ⟨row', hrow', hpublished⟩

theorem publishedAt_mark {result : Nat × String} (h : PublishedAt (run.mark rows result) id) :
    PublishedAt rows id ∨ result = (id, "") := by
  obtain ⟨row, hrow, hpublished⟩ := h
  rcases commitState_cases (markPublishResult (run.markedAt result.1) (run.jitter result.1) result.1
    result.2 run.maximumAttempts) rows with ⟨rows', hok, hrows⟩ | ⟨-, hrows⟩
  · obtain ⟨row', hrow', rfl⟩ := markPublishResult_eq_ok.mp hok
    rw [PublishRun.mark, hrows] at hrow
    by_cases hid : result.1 = id
    · subst hid
      rw [List.getElem?_set_self (List.getElem?_eq_some_iff.mp hrow').1] at hrow
      obtain rfl := Option.some.inj hrow
      exact .inr (Prod.ext rfl (settle_published.mp hpublished))
    · rw [List.getElem?_set_ne hid] at hrow
      exact .inl ⟨row, hrow, hpublished⟩
  · rw [PublishRun.mark, hrows] at hrow
    exact .inl ⟨row, hrow, hpublished⟩

theorem publishedAt_marks {results : List (Nat × String)} (h : PublishedAt (results.foldl run.mark rows) id) :
    PublishedAt rows id ∨ (id, "") ∈ results := by
  induction results generalizing rows with
  | nil => exact .inl h
  | cons result results ih =>
    rcases ih h with hmarked | hlater
    · rcases publishedAt_mark hmarked with hbefore | rfl
      · exact .inl hbefore
      · exact .inr List.mem_cons_self
    · exact .inr (List.mem_cons_of_mem _ hlater)

theorem Publisher.Accounted.step (h : s.Accounted) (op : PublisherOp) : (s.step op).Accounted := by
  cases op with
  | enqueue request =>
    intro id row hrow hpublished
    rcases Nat.lt_or_ge id s.rows.length with hlt | hge
    · have hold : s.rows[id]? = some row := (List.getElem?_append_left hlt).symm.trans hrow
      exact h id row hold hpublished
    · have hnew : row ∈ (enqueueEvent request s.rows).drop s.rows.length :=
        List.mem_of_getElem? (i := id - s.rows.length) (by
          rw [List.getElem?_drop, Nat.add_sub_cancel' hge]
          exact hrow)
      rw [enqueueEvent, List.drop_left, List.mem_singleton] at hnew
      rw [hnew] at hpublished
      cases hpublished
  | publishBatch run =>
    intro id row hrow hpublished
    have hafter : PublishedAt (s.publishBatch run).rows id := ⟨row, hrow, hpublished⟩
    have hbefore (hold : PublishedAt (run.batch s.rows).2 id) : id ∈ (s.publishBatch run).stream := by
      obtain ⟨row', hrow', hpublished'⟩ := publishedAt_batch hold
      exact List.mem_append_left _ (h id row' hrow' hpublished')
    unfold Publisher.publishBatch at hafter
    dsimp only at hafter
    split at hafter
    · rcases publishedAt_marks hafter with hold | hresult
      · exact hbefore hold
      · have hsent : (id, "") ∈ (run.results s.rows).filter (·.2 = "") :=
          List.mem_filter.mpr ⟨hresult, decide_eq_true rfl⟩
        exact List.mem_append_right _ (List.mem_map.mpr ⟨_, hsent, rfl⟩)
    · exact hbefore hafter

end Rows

namespace Pipeline

variable {B : Type} {d : Deployment} {business : B} {s : Pipeline B} {id i : Nat} {consumerName : String}
  {payload : Payload} {op : PipelineOp B}

-- The stream has the message of the event, and the consumer reads its subject.
structure Carries (d : Deployment) (s : Pipeline B) (id : Nat) (consumerName : String) (payload : Payload) : Prop where
  sent : id ∈ s.messages
  read : ∃ row, s.publisher.rows[id]? = some row ∧ row.payload = payload ∧ subscribed d consumerName row = true

-- The session consumes the message that the table of taken messages has for it.
def Serves (d : Deployment) (s : Pipeline B) (i : Nat) (delivery : Inbox.Delivery (Uuid × String) ProcessedEvent Error) : Prop :=
  ∃ id consumerName payload env, s.taken.find i = some (id, consumerName) ∧ s.Carries d id consumerName payload ∧
    delivery = consumeOnceDelivery env (d.eventId id) payload consumerName

structure Flow (d : Deployment) (business : B) (s : Pipeline B) : Prop where
  accounted : s.publisher.Accounted
  consistent : Inbox.Consistent { business } s.inbox
  returns : Inbox.Returns s.inbox
  serves : ∀ i x, s.inbox.sessions.find i = some x → s.Serves d i x.delivery
  rows : ∀ k existing, s.inbox.processed.find k = some existing → ∃ id consumerName payload,
    s.Carries d id consumerName payload ∧ k = (d.eventId id, consumerName) ∧ existing.payloadHash = payloadHash payload
  acked : ∀ m ∈ s.acked, (s.inbox.processed.find (d.eventId m.1, m.2)).isSome = true

theorem subscribed_content {row row' : OutboxEvent} (h : row.content = row'.content) :
    subscribed d consumerName row = subscribed d consumerName row' := by
  unfold subscribed
  rw [show row.eventType = row'.eventType from congrArg Prod.fst h]

theorem consumeOnceDelivery_demanding (env : Env) (eventId : Uuid) (payload : Payload) (consumerName : String) :
    (consumeOnceDelivery env eventId payload consumerName).Demanding := by
  intro e handler b hrecover hanswer
  have hrecover' : consumeOnceRecover (payloadHash payload) e = some handler := hrecover
  cases e with
  | integrityError constraint =>
    obtain rfl := Option.some.inj hrecover'
    simp [demand, bind, Except.bind] at hanswer
  | _ => cases hrecover'

section Grows

variable {s' : Pipeline B}

-- What a step of the publisher or of the broker leaves of the messages
structure Grows (s s' : Pipeline B) : Prop where
  messages : ∀ id ∈ s.messages, id ∈ s'.messages
  content : ∀ (id : Nat) (row : OutboxEvent), s.publisher.rows[id]? = some row →
    ∃ row' : OutboxEvent, s'.publisher.rows[id]? = some row' ∧ row'.content = row.content

theorem Grows.same (hpublisher : s'.publisher = s.publisher) (hunanswered : s'.unanswered = s.unanswered) :
    Grows s s' := by
  refine ⟨fun id hid => ?_, fun id row hrow => ⟨row, hpublisher ▸ hrow, rfl⟩⟩
  unfold Pipeline.messages at hid ⊢
  rwa [hpublisher, hunanswered]

theorem Carries.grows (h : s.Carries d id consumerName payload) (hgrows : Grows s s') :
    s'.Carries d id consumerName payload := by
  obtain ⟨hsent, row, hrow, hpayload, hsubscribed⟩ := h
  obtain ⟨row', hrow', hcontent⟩ := hgrows.content id row hrow
  exact ⟨hgrows.messages id hsent, row', hrow', (congrArg Prod.snd hcontent).trans hpayload,
    (subscribed_content hcontent).trans hsubscribed⟩

theorem grows_publisher (s : Pipeline B) (op : PublisherOp) :
    Grows s { s with publisher := s.publisher.step op } := by
  refine ⟨fun id hid => ?_, fun id row hrow => OutboxEvent.Fixed.content.step op hrow⟩
  rcases List.mem_append.mp hid with hstream | hunanswered
  · exact List.mem_append_left _ (s.publisher.stream_step op hstream)
  · exact List.mem_append_right _ hunanswered

theorem Flow.grows (h : Flow d business s) (hgrows : Grows s s') (haccounted : s'.publisher.Accounted)
    (hinbox : s'.inbox = s.inbox) (htaken : s'.taken = s.taken) (hacked : s'.acked = s.acked) :
    Flow d business s' := by
  refine ⟨haccounted, hinbox ▸ h.consistent, hinbox ▸ h.returns, fun i x hx => ?_, fun k existing hrow => ?_, ?_⟩
  · obtain ⟨id, consumerName, payload, env, hmessage, hcarries, hdelivery⟩ := h.serves i x (hinbox ▸ hx)
    exact ⟨id, consumerName, payload, env, htaken ▸ hmessage, hcarries.grows hgrows, hdelivery⟩
  · obtain ⟨id, consumerName, payload, hcarries, hk, hhash⟩ := h.rows k existing (hinbox ▸ hrow)
    exact ⟨id, consumerName, payload, hcarries.grows hgrows, hk, hhash⟩
  · rw [hinbox, hacked]
    exact h.acked

end Grows

-- A statement of a session, or its loss
theorem Flow.turn (h : Flow d business s) {inbox : Inbox.Store (Uuid × String) ProcessedEvent Error B}
    {raised : Error → Prop} (hturn : Inbox.Turn raised s.inbox i inbox) (hconsistent : Inbox.Consistent { business } inbox) :
    Flow d business { s with inbox } := by
  have hgrows : Grows s { s with inbox } := .same rfl rfl
  have hwrites := hturn.writes
  have hold (k : Uuid × String) (hk : (s.inbox.processed.find k).isSome = true) :
      (inbox.processed.find k).isSome = true := by
    rcases (h.consistent.rows k).mp hk with hstart | hlogged
    · exact (hconsistent.rows k).mpr (.inl hstart)
    · cases hturn with
      | commits x result hx hphase =>
        refine (hconsistent.rows k).mpr (.inr ?_)
        simp only [Inbox.Store.commit, List.map_append, List.mem_append]
        exact .inl hlogged
      | _ => exact hk
  refine ⟨h.accounted, hconsistent, h.returns.turn h.consistent hturn, fun j y hy => ?_, fun k existing hrow => ?_,
    fun m hm => hold _ (h.acked m hm)⟩
  · obtain ⟨x, hx, hdelivery⟩ := hwrites.session j y hy
    obtain ⟨id, consumerName, payload, env, hmessage, hcarries, hserved⟩ := h.serves j x hx
    exact ⟨id, consumerName, payload, env, hmessage, hcarries.grows hgrows, hdelivery.trans hserved⟩
  · rcases hwrites.row k existing hrow with hbefore | ⟨x, hx, rfl, rfl⟩
    · obtain ⟨id, consumerName, payload, hcarries, hk, hhash⟩ := h.rows k existing hbefore
      exact ⟨id, consumerName, payload, hcarries.grows hgrows, hk, hhash⟩
    · obtain ⟨id, consumerName, payload, env, -, hcarries, hserved⟩ := h.serves i x hx
      refine ⟨id, consumerName, payload, hcarries.grows hgrows, ?_, ?_⟩
      · exact congrArg Inbox.Delivery.key hserved
      · exact congrArg (fun delivery => delivery.row.payloadHash) hserved

theorem Flow.deliver (h : Flow d business s) (i : Nat) (env : Env) (id : Nat) (consumerName : String) :
    Flow d business (s.deliver d i env id consumerName) := by
  unfold Pipeline.deliver
  cases hrow : s.publisher.rows[id]? with
  | none => exact h
  | some row =>
    dsimp only
    split
    · rename_i hdelivers
      obtain ⟨hsent, hsubscribed, hnew⟩ := hdelivers
      have hnone : s.inbox.sessions.find i = none := Option.isNone_iff_eq_none.mp hnew
      let delivery := consumeOnceDelivery env (d.eventId id) row.payload consumerName
      have hconsistent : Inbox.Consistent { business } (s.inbox.step (.start i delivery)) :=
        h.consistent.step consumeOnceDelivery_sound
      have hreturns : Inbox.Returns (s.inbox.step (.start i delivery)) :=
        h.returns.opens hnone (consumeOnceDelivery_demanding env _ _ _)
      have hsaved := Inbox.Store.step_start hnone delivery
      refine ⟨h.accounted, hconsistent, hreturns, fun j y hy => ?_, fun k existing hprocessed => ?_, fun m hm => ?_⟩
      · dsimp only at hy
        rw [hsaved] at hy
        rcases Table.find_put_cases hy with ⟨rfl, rfl⟩ | ⟨hj, hold⟩
        · exact ⟨id, consumerName, row.payload, env, Table.find_put_self _ _ _,
            ⟨hsent, row, hrow, rfl, hsubscribed⟩, rfl⟩
        · obtain ⟨id', name', payload', env', hmessage, hcarries, hserved⟩ := h.serves j y hold
          exact ⟨id', name', payload', env', (Table.find_put_of_ne _ _ hj).trans hmessage,
            hcarries.grows (.same rfl rfl), hserved⟩
      · dsimp only at hprocessed
        rw [hsaved] at hprocessed
        obtain ⟨id', name', payload', hcarries, hk, hhash⟩ := h.rows k existing hprocessed
        exact ⟨id', name', payload', hcarries.grows (.same rfl rfl), hk, hhash⟩
      · dsimp only
        rw [hsaved]
        exact h.acked m hm
    · exact h

theorem Flow.ack (h : Flow d business s) (i : Nat) : Flow d business (s.ack i) := by
  unfold Pipeline.ack
  split
  · rename_i x message hx hmessage
    split
    · rename_i b hphase
      have hreturned := h.returns.returned i x b hx hphase
      obtain ⟨id, consumerName, payload, env, htaken, hcarries, hserved⟩ := h.serves i x hx
      obtain rfl := Option.some.inj (hmessage.symm.trans htaken)
      have hkey : x.key = (d.eventId id, consumerName) := congrArg Inbox.Delivery.key hserved
      have hgrows : Grows s { s with acked := (id, consumerName) :: s.acked } := .same rfl rfl
      refine ⟨h.accounted, h.consistent, h.returns, fun j y hy => ?_, fun k existing hrow => ?_, fun m hm => ?_⟩
      · obtain ⟨id', name', payload', env', htaken', hcarries', hserved'⟩ := h.serves j y hy
        exact ⟨id', name', payload', env', htaken', hcarries'.grows hgrows, hserved'⟩
      · obtain ⟨id', name', payload', hcarries', hk, hhash⟩ := h.rows k existing hrow
        exact ⟨id', name', payload', hcarries'.grows hgrows, hk, hhash⟩
      · rcases List.mem_cons.mp hm with rfl | hold
        · exact hkey ▸ hreturned
        · exact h.acked m hold
    · exact h
  · exact h

theorem Flow.step (h : Flow d business s) (op : PipelineOp B) : Flow d business (s.step d op) := by
  cases op with
  | publisher op => exact h.grows (grows_publisher s op) (h.accounted.step op) rfl rfl rfl
  | loseAnswer id =>
    simp only [Pipeline.step]
    split
    · refine h.grows ⟨fun id' hid => ?_, fun id' row hrow => ⟨row, hrow, rfl⟩⟩ h.accounted rfl rfl rfl
      unfold messages at *
      rw [← List.append_assoc]
      exact List.mem_append_left _ hid
    · exact h
  | deliver i env id consumerName => exact h.deliver i env id consumerName
  | advance i outcome =>
    exact h.turn (Inbox.turn_advance s.inbox i outcome) (h.consistent.step trivial)
  | abandon i => exact h.turn (Inbox.turn_abandon s.inbox i) (h.consistent.step trivial)
  | ack i => exact h.ack i

theorem flow_start (d : Deployment) (business : B) : Flow d business (start business) where
  accounted id row hrow := by cases hrow
  consistent := .of_quiet rfl rfl
  returns := ⟨fun i x hx => (by cases hx), fun i x handler hx => (by cases hx), fun i x b hx => (by cases hx)⟩
  serves i x hx := by cases hx
  rows k existing hrow := by cases hrow
  acked m hm := by cases hm

theorem flow_after (ops : List (PipelineOp B)) (h : Flow d business s) : Flow d business (s.after d ops) := by
  induction ops generalizing s with
  | nil => exact h
  | cons op ops ih => exact ih (h.step op)

-- The events of a subject, in the order in which they were enqueued
def subscribedIds (d : Deployment) (s : Pipeline B) (consumerName : String) : List Nat :=
  (List.range s.publisher.rows.length).filter fun id => s.publisher.rows[id]?.any (subscribed d consumerName)

def effects (s : Pipeline B) : List (Uuid × String) := s.inbox.log.map (·.key)

-- Every event of the subject is published, and every message of it acknowledged.
structure Drained (d : Deployment) (s : Pipeline B) (consumerName : String) : Prop where
  published : ∀ (id : Nat) (row : OutboxEvent), s.publisher.rows[id]? = some row →
    subscribed d consumerName row = true → row.state = .published
  acked : ∀ id payload, s.Carries d id consumerName payload → (id, consumerName) ∈ s.acked

structure PipelineLaw (d : Deployment) (business : B) (s : Pipeline B) : Prop where
  delivered : ∀ (id : Nat) (row : OutboxEvent), s.publisher.rows[id]? = some row → row.state = .published →
    id ∈ s.messages
  sourced : ∀ k ∈ s.effects, ∃ id consumerName payload, s.Carries d id consumerName payload ∧ k = (d.eventId id, consumerName)
  once : s.effects.Nodup
  business : s.inbox.business = s.inbox.log.foldl (fun b c => c.effect b) business
  acked : ∀ m ∈ s.acked, s.effects.count (d.eventId m.1, m.2) = 1
  agreeing : ∀ i x result, s.inbox.sessions.find i = some x → x.phase = .done result → x.raised = false → ∃ b, result = .ok b
  copies : ∀ i x existing, s.inbox.sessions.find i = some x → s.inbox.processed.find x.key = some existing →
    x.delivery.answer existing = .ok false
  drained : ∀ consumerName, s.Drained d consumerName → (s.effects.filter (·.2 = consumerName)).Perm
    ((s.subscribedIds d consumerName).map fun id => (d.eventId id, consumerName))

theorem Flow.mem_effects (h : Flow d business s) {k : Uuid × String} :
    k ∈ s.effects ↔ (s.inbox.processed.find k).isSome = true := by
  rw [h.consistent.rows k]
  exact (or_iff_right (by simp)).symm

theorem Flow.sourced (h : Flow d business s) {k : Uuid × String} (hk : k ∈ s.effects) :
    ∃ id consumerName payload, s.Carries d id consumerName payload ∧ k = (d.eventId id, consumerName) := by
  obtain ⟨existing, hrow⟩ := Option.isSome_iff_exists.mp (h.mem_effects.mp hk)
  obtain ⟨id, consumerName, payload, hcarries, rfl, -⟩ := h.rows k existing hrow
  exact ⟨id, consumerName, payload, hcarries, rfl⟩

-- The rows of the inbox are of the payloads the stream still has, so no copy conflicts with them.
theorem Flow.consumedBefore (h : Flow d business s) {x : Inbox.Session (Uuid × String) ProcessedEvent Error B}
    {existing : ProcessedEvent} (hx : s.inbox.sessions.find i = some x) (hrow : s.inbox.processed.find x.key = some existing) :
    ∃ env eventId payload consumerName, x.delivery = consumeOnceDelivery env eventId payload consumerName ∧
      consumedBefore (payloadHash payload) existing = .ok false := by
  obtain ⟨id, consumerName, payload, env, -, hcarries, hserved⟩ := h.serves i x hx
  obtain ⟨id', consumerName', payload', hcarries', hkey, hhash⟩ := h.rows _ existing hrow
  have hx' : x.key = (d.eventId id, consumerName) := congrArg Inbox.Delivery.key hserved
  obtain ⟨hid, rfl⟩ := Prod.mk.inj (hx'.symm.trans hkey)
  obtain rfl := d.unique hid
  obtain ⟨row, hrow', rfl, -⟩ := hcarries.read
  obtain ⟨row', hrow'', rfl, -⟩ := hcarries'.read
  obtain rfl := Option.some.inj (hrow'.symm.trans hrow'')
  refine ⟨env, _, _, _, hserved, ?_⟩
  unfold Beyvra.consumedBefore
  rw [if_neg (not_not.mpr hhash)]

theorem Flow.copies (h : Flow d business s) {x : Inbox.Session (Uuid × String) ProcessedEvent Error B}
    {existing : ProcessedEvent} (hx : s.inbox.sessions.find i = some x) (hrow : s.inbox.processed.find x.key = some existing) :
    x.delivery.answer existing = .ok false := by
  obtain ⟨env, eventId, payload, consumerName, hdelivery, hsame⟩ := h.consumedBefore hx hrow
  rw [hdelivery]
  exact hsame

theorem Flow.agreeing (h : Flow d business s) {x : Inbox.Session (Uuid × String) ProcessedEvent Error B} {result : Except Error Bool}
    (hx : s.inbox.sessions.find i = some x) (hdone : x.phase = .done result) (hraised : x.raised = false) :
    ∃ b, result = .ok b := by
  rcases (h.consistent.fits i x hx).done result hdone with ⟨rfl, -, -⟩ | ⟨-, hrow⟩
  · exact ⟨true, rfl⟩
  · obtain ⟨existing, hexisting, rfl⟩ := hrow hraised
    exact ⟨false, h.copies hx hexisting⟩

-- Where the handler of an IntegrityError finds no row, it raises another error.
theorem Flow.handled (h : Flow d business s) {x : Inbox.Session (Uuid × String) ProcessedEvent Error B} {e : Error}
    {handler : Option ProcessedEvent → Except Error Bool} (hx : s.inbox.sessions.find i = some x)
    (hrecover : x.delivery.recover e = some handler) : handler (s.inbox.processed.find x.key) ≠ .error payloadConflict := by
  obtain ⟨id, consumerName, payload, env, -, -, hserved⟩ := h.serves i x hx
  rw [hserved] at hrecover
  have hhandler : consumeOnceRecover (payloadHash payload) e = some handler := hrecover
  cases e with
  | integrityError constraint =>
    obtain rfl := Option.some.inj hhandler
    cases hrow : s.inbox.processed.find x.key with
    | none => simp [demand, bind, Except.bind, payloadConflict]
    | some existing =>
      have hsame := h.copies hx hrow
      rw [hserved] at hsame
      have hanswer : Beyvra.consumedBefore (payloadHash payload) existing = .ok false := hsame
      simp [demand, bind, Except.bind, hanswer]
  | _ => cases hhandler

theorem Flow.ends_step (h : Flow d business s) (hop : ¬op.Raises payloadConflict) (hends : s.inbox.EndsWithout payloadConflict) :
    (s.step d op).inbox.EndsWithout payloadConflict := by
  have hturn {raised : Error → Prop} {i : Nat} {inbox : Inbox.Store (Uuid × String) ProcessedEvent Error B}
      (hturn : Inbox.Turn raised s.inbox i inbox) (hraised : ¬raised payloadConflict) : inbox.EndsWithout payloadConflict :=
    hends.turn h.consistent h.returns hturn hraised
      (fun x existing hx hrow => by rw [h.copies hx hrow]; simp) fun x e handler hx => h.handled hx
  cases op with
  | publisher op => exact hends
  | loseAnswer id =>
    simp only [Pipeline.step]
    split <;> exact hends
  | deliver i env id consumerName =>
    simp only [Pipeline.step, Pipeline.deliver]
    split
    · exact hends
    · split
      · rename_i hdelivers
        rw [Inbox.Store.step_start (Option.isNone_iff_eq_none.mp hdelivers.2.2)]
        exact hends.save (by simp)
      · exact hends
  | advance i outcome => exact hturn (Inbox.turn_advance s.inbox i outcome) hop
  | abandon i => exact hturn (Inbox.turn_abandon s.inbox i) id
  | ack i =>
    simp only [Pipeline.step, Pipeline.ack]
    split
    · split <;> exact hends
    · exact hends

theorem Flow.ends_after (h : Flow d business s) (ops : List (PipelineOp B)) (hops : ∀ op ∈ ops, ¬op.Raises payloadConflict)
    (hends : s.inbox.EndsWithout payloadConflict) : (s.after d ops).inbox.EndsWithout payloadConflict := by
  induction ops generalizing s with
  | nil => exact hends
  | cons op ops ih =>
    obtain ⟨hop, hrest⟩ := List.forall_mem_cons.mp hops
    exact ih (h.step op) hrest (h.ends_step hop hends)

theorem mem_subscribedIds : id ∈ s.subscribedIds d consumerName ↔
    ∃ row, s.publisher.rows[id]? = some row ∧ subscribed d consumerName row = true := by
  unfold subscribedIds
  rw [List.mem_filter, List.mem_range, Option.any_eq_true]
  refine and_iff_right_of_imp fun ⟨row, hrow, _⟩ => ?_
  exact (List.getElem?_eq_some_iff.mp hrow).1

theorem Flow.drained (h : Flow d business s) (hdrained : s.Drained d consumerName) :
    (s.effects.filter (·.2 = consumerName)).Perm
      ((s.subscribedIds d consumerName).map fun id => (d.eventId id, consumerName)) := by
  have hids : (s.subscribedIds d consumerName).Nodup := List.nodup_range.filter _
  have hinjective : Function.Injective fun id => (d.eventId id, consumerName) :=
    fun a b hab => d.unique (congrArg Prod.fst hab)
  refine (List.perm_ext_iff_of_nodup (h.consistent.once.filter _) (hids.map hinjective)).mpr fun k => ?_
  rw [List.mem_filter]
  constructor
  · rintro ⟨hk, hname⟩
    obtain ⟨id, name, payload, hcarries, rfl⟩ := h.sourced hk
    obtain rfl : name = consumerName := of_decide_eq_true hname
    obtain ⟨row, hrow, -, hsubscribed⟩ := hcarries.read
    exact List.mem_map.mpr ⟨id, mem_subscribedIds.mpr ⟨row, hrow, hsubscribed⟩, rfl⟩
  · intro hk
    obtain ⟨id, hid, rfl⟩ := List.mem_map.mp hk
    obtain ⟨row, hrow, hsubscribed⟩ := mem_subscribedIds.mp hid
    have hsent : id ∈ s.messages :=
      List.mem_append_left _ (h.accounted id row hrow (hdrained.published id row hrow hsubscribed))
    have hacked := hdrained.acked id row.payload ⟨hsent, row, hrow, rfl, hsubscribed⟩
    exact ⟨h.mem_effects.mpr (h.acked _ hacked), decide_eq_true rfl⟩

theorem pipeline_exactly_once (d : Deployment) (business : B) (ops : List (PipelineOp B)) :
    PipelineLaw d business ((start business).after d ops) ∧ ((∀ op ∈ ops, ¬op.Raises payloadConflict) →
      ((start business).after d ops).inbox.EndsWithout payloadConflict) := by
  have h := flow_after ops (flow_start d business)
  refine ⟨?_, fun hops => (flow_start d business).ends_after ops hops fun i x hx => by cases hx⟩
  exact {
    delivered := fun id row hrow hpublished => List.mem_append_left _ (h.accounted id row hrow hpublished)
    sourced := fun k hk => h.sourced hk
    once := h.consistent.once
    business := h.consistent.business
    acked := fun m hm => List.count_eq_one_of_mem h.consistent.once (h.mem_effects.mpr (h.acked m hm))
    agreeing := fun i x result hx hdone hraised => h.agreeing hx hdone hraised
    copies := fun i x existing hx hrow => h.copies hx hrow
    drained := fun consumerName hdrained => h.drained hdrained }

-- Ids of one text each, and consumers of the simulated orders
def simulatedOrders : Deployment where
  eventId id := String.ofList (List.replicate id '0')
  unique id id' h := by simpa using congrArg String.length h
  filterSubject _ := "trading.order.created.v1"

def createdOrder : EventRequest where
  aggregateType := "order"
  aggregateId := "1"
  eventType := "trading.order.created.v1"
  payload := [("account_ref", .str "sim:7")]
  tenantRef := "tenant"
  correlationId := "correlation"
  occurredAt := 0

def firstRun : PublishRun where
  claimedAt := 1
  limit := 10
  maximumAttempts := 5
  connects := true
  drains := true
  refusal _ := none
  markedAt _ := 2
  jitter _ := 0

def consumerEnv : Env where
  now := calendarSeedDate * microsecondsPerDay
  settings := { simulatedExecutionPrices := [] }
  uuid4 name := name
  seeded := by decide

-- The order is published, delivered twice and counted once.
def countedRun : List (PipelineOp Nat) :=
  [.publisher (.enqueue createdOrder), .publisher (.publishBatch firstRun), .deliver 0 consumerEnv 0 "orders",
    .advance 0 (.ok (· + 1)), .advance 0 (.ok (· + 1)), .advance 0 (.ok (· + 1)), .advance 0 (.ok (· + 1)), .ack 0,
    .deliver 1 consumerEnv 0 "orders", .advance 1 (.ok (· + 1)), .advance 1 (.ok (· + 1)), .ack 1]

theorem pipeline_exactly_once_counted : ((start 0).after simulatedOrders countedRun).inbox.business = 1 ∧
    ((start 0).after simulatedOrders countedRun).acked = [(0, "orders"), (0, "orders")] ∧
      PipelineLaw simulatedOrders 0 ((start 0).after simulatedOrders countedRun) :=
  ⟨by decide +kernel, by decide +kernel, (pipeline_exactly_once simulatedOrders 0 countedRun).1⟩

end Pipeline

end Beyvra
