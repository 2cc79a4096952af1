import Beyvra.Foundation.Pipeline
import Beyvra.Realtime.ChannelAuthority

namespace Beyvra

open Relational Text

-- What the publisher puts on the wire for an outbox row; the payload's own channel and data are lifted out of it.
structure RealtimeEnvelope where
  eventId : Uuid
  eventType : String
  schemaVersion : Nat := 1
  occurredAt : Timestamp
  correlationId : Uuid
  tenantRef : String
  payload : Payload
  channel : Option Value
  data : Option Value

def envelope (eventId : Uuid) (row : OutboxEvent) : RealtimeEnvelope where
  eventId := eventId
  eventType := row.eventType
  occurredAt := row.occurredAt
  correlationId := row.correlationId
  tenantRef := row.tenantRef
  payload := row.payload
  channel := row.payload.lookup "channel"
  data := row.payload.lookup "data"

-- The public shape of an event on its channel
structure RealtimeEvent where
  envelope : RealtimeEnvelope
  channel : String
  eventType : String
  eventVersion : Nat
  sequence : Nat
  data : Payload

def tradingEvents : String := "TRADING_EVENTS"

def bridgeStreams : List (String × String) :=
  [("MARKET_EVENTS", "market"), ("NEWS_EVENTS", "news"), ("PRIVATE_ACCOUNT_EVENTS", "private"),
    ("SYSTEM_EVENTS", "system"), (tradingEvents, "trading"), ("POST_TRADE_EVENTS", "post_trade"),
    ("VALUATION_EVENTS", "valuation"), ("TREASURY_EVENTS", "treasury"), ("REGULATORY_EVENTS", "regulatory"),
    ("COMPLIANCE_EVENTS", "compliance")]

-- The stream whose subject filter takes in the subject of the event
def streamOf (eventType : String) : Option String :=
  match subjectFor eventType with
  | .error _ => none
  | .ok subject =>
    (bridgeStreams.find? fun s => s.2.toList = subject.toList.takeWhile (· ≠ '.')).map Prod.fst

def simulatedAccount (payload : Payload) : Option String :=
  match payload.lookup "account_ref" with
  | some (.str accountRef) =>
    if startsWith accountRef "sim:" then some (String.ofList (accountRef.toList.drop 4)) else none
  | _ => none

def eventCategory (eventType : String) : String :=
  if startsWith eventType "trading.execution." || startsWith eventType "trading.trade." || contains eventType "filled" then
    "execution"
  else if startsWith eventType "trading.position." || contains eventType "balance_projection" then "position"
  else "order"

def simulationChannel (category account : String) : String := "simulation." ++ category ++ ".sim-" ++ account

def eventChannel (stream : String) (e : RealtimeEnvelope) : Option String :=
  match (if stream = tradingEvents then simulatedAccount e.payload else none), e.channel with
  | some account, _ => some (simulationChannel (eventCategory e.eventType) account)
  | none, some (.str channel) => some channel
  | none, _ => none

-- The envelopes of the publisher have no key "type", so none of them passes as an event already.
def normalizeEnvelope (stream : String) (e : RealtimeEnvelope) (sequence : Nat) : Option RealtimeEvent :=
  match eventChannel stream e with
  | none => none
  | some channel =>
    if e.eventType = "" then none
    else some { envelope := e, channel, eventType := e.eventType, eventVersion := e.schemaVersion, sequence, data := e.payload }

structure BridgeRequest where
  id : Nat
  event : RealtimeEvent
  accepted : Bool

-- The outbox, its publisher and the bridge: every request that the bridge has sent, and what it acknowledged
structure BridgedPlatform where
  publisher : Publisher := {}
  requests : List BridgeRequest := []
  acked : List Nat := []

inductive BridgeOp where
  | publisher (op : PublisherOp)
  | forward (id sequence : Nat) (accepted acknowledges : Bool)

namespace BridgedPlatform

def normalized (d : Deployment) (s : BridgedPlatform) (id sequence : Nat) : Option RealtimeEvent := do
  let e ← (s.publisher.rows[id]?).map (envelope (d.eventId id))
  let stream ← streamOf e.eventType
  normalizeEnvelope stream e sequence

-- An error from the publish API leaves the message without an acknowledgement: it comes again.
def forward (d : Deployment) (id sequence : Nat) (accepted acknowledges : Bool) (s : BridgedPlatform) : BridgedPlatform :=
  if id ∈ s.publisher.stream then
    match s.normalized d id sequence with
    | none => { s with acked := if acknowledges then id :: s.acked else s.acked }
    | some event =>
      { s with
        requests := s.requests ++ [⟨id, event, accepted⟩]
        acked := if accepted && acknowledges then id :: s.acked else s.acked }
  else s

def step (d : Deployment) (s : BridgedPlatform) : BridgeOp → BridgedPlatform
  | .publisher op => { s with publisher := s.publisher.step op }
  | .forward id sequence accepted acknowledges => s.forward d id sequence accepted acknowledges

def after (d : Deployment) (s : BridgedPlatform) (ops : List BridgeOp) : BridgedPlatform := ops.foldl (step d) s

end BridgedPlatform

section Channels

variable {text needle : List Char} {pattern : List Atom} {entry : ChannelEntry} {name account category : String}
  {r : Realtime} {userId : String}

end Channels

theorem fixed_envelope (eventId : Uuid) : OutboxEvent.Fixed (envelope eventId) where
  claim row now := rfl
  settle row now jitter errorCode maximumAttempts := by
    unfold OutboxEvent.settle
    dsimp only
    split
    · rfl
    · split <;> rfl

namespace BridgedPlatform

variable {d : Deployment} {s : BridgedPlatform} {id sequence : Nat} {event : RealtimeEvent}

-- The bridge has nothing to forward for the message.
def Skips (d : Deployment) (s : BridgedPlatform) (id : Nat) : Prop := ∀ sequence, s.normalized d id sequence = none

structure Bridges (d : Deployment) (s : BridgedPlatform) : Prop where
  known : s.publisher.Known
  sourced : ∀ request ∈ s.requests, request.id ∈ s.publisher.stream ∧
    ∃ sequence, s.normalized d request.id sequence = some request.event
  acked : ∀ id ∈ s.acked, id ∈ s.publisher.stream ∧
    ((∃ request ∈ s.requests, request.id = id ∧ request.accepted = true) ∨ s.Skips d id)

theorem normalized_eq_some : s.normalized d id sequence = some event ↔ ∃ row stream,
    s.publisher.rows[id]? = some row ∧ streamOf row.eventType = some stream ∧
      normalizeEnvelope stream (envelope (d.eventId id) row) sequence = some event := by
  unfold normalized
  cases hrow : s.publisher.rows[id]? with
  | none => simp
  | some row =>
    simp only [Option.map_some, Option.bind_eq_bind, Option.bind_some, Option.bind_eq_some_iff, Option.some.injEq]
    exact ⟨fun ⟨stream, hstream, h⟩ => ⟨row, stream, rfl, hstream, h⟩, fun ⟨_, stream, hrow, hstream, h⟩ => hrow ▸ ⟨stream, hstream, h⟩⟩

theorem normalizeEnvelope_eq_some {stream : String} {e : RealtimeEnvelope} :
    normalizeEnvelope stream e sequence = some event ↔ ∃ channel, eventChannel stream e = some channel ∧
      e.eventType ≠ "" ∧ event = { envelope := e, channel, eventType := e.eventType, eventVersion := e.schemaVersion
                                   sequence, data := e.payload } := by
  unfold normalizeEnvelope
  cases hchannel : eventChannel stream e with
  | none => simp
  | some channel =>
    dsimp only
    split
    · rename_i hempty
      simp [hempty]
    · rename_i htype
      constructor
      · intro h
        exact ⟨channel, rfl, htype, (Option.some.inj h).symm⟩
      · rintro ⟨_, hsame, -, rfl⟩
        obtain rfl := Option.some.inj hsame
        rfl

theorem normalized_step (op : PublisherOp) (hid : id < s.publisher.rows.length) (requests : List BridgeRequest)
    (acked : List Nat) (sequence : Nat) :
    normalized d { publisher := s.publisher.step op, requests, acked } id sequence = s.normalized d id sequence := by
  obtain ⟨row', hrow', henvelope⟩ := (fixed_envelope (d.eventId id)).step op (List.getElem?_eq_getElem hid)
  unfold normalized
  dsimp only
  rw [hrow', List.getElem?_eq_getElem hid, Option.map_some, Option.map_some, henvelope]

theorem Bridges.publisher (h : Bridges d s) (op : PublisherOp) :
    Bridges d { s with publisher := s.publisher.step op } := by
  refine ⟨h.known.step op, fun request hrequest => ?_, fun id hid => ?_⟩
  · obtain ⟨hstream, sequence, hnormalized⟩ := h.sourced request hrequest
    refine ⟨s.publisher.stream_step op hstream, sequence, ?_⟩
    rw [normalized_step op (h.known _ hstream)]
    exact hnormalized
  · obtain ⟨hstream, hreason⟩ := h.acked id hid
    refine ⟨s.publisher.stream_step op hstream, hreason.imp_right fun hskips sequence => ?_⟩
    rw [normalized_step op (h.known _ hstream)]
    exact hskips sequence

theorem skips_of_none (h : s.normalized d id sequence = none) : s.Skips d id := by
  intro sequence'
  by_contra hsome
  obtain ⟨event, hevent⟩ := Option.ne_none_iff_exists'.mp hsome
  obtain ⟨row, stream, hrow, hstream, hnormalized⟩ := normalized_eq_some.mp hevent
  obtain ⟨channel, hchannel, htype, rfl⟩ := normalizeEnvelope_eq_some.mp hnormalized
  obtain ⟨event, hevent⟩ : ∃ event, s.normalized d id sequence = some event := ⟨_, normalized_eq_some.mpr
    ⟨row, stream, hrow, hstream, normalizeEnvelope_eq_some.mpr ⟨channel, hchannel, htype, rfl⟩⟩⟩
  rw [h] at hevent
  cases hevent

theorem Bridges.forward (h : Bridges d s) (id sequence : Nat) (accepted acknowledges : Bool) :
    Bridges d (s.forward d id sequence accepted acknowledges) := by
  unfold BridgedPlatform.forward
  split
  · rename_i hstream
    cases hnormalized : s.normalized d id sequence with
    | none =>
      refine ⟨h.known, h.sourced, fun id' hid => ?_⟩
      dsimp only at hid
      split at hid
      · rcases List.mem_cons.mp hid with rfl | hold
        · exact ⟨hstream, .inr (skips_of_none hnormalized)⟩
        · exact h.acked id' hold
      · exact h.acked id' hid
    | some event =>
      refine ⟨h.known, fun request hrequest => ?_, fun id' hid => ?_⟩
      · rcases List.mem_append.mp hrequest with hold | hnew
        · exact h.sourced request hold
        · rw [List.mem_singleton.mp hnew]
          exact ⟨hstream, sequence, hnormalized⟩
      · have hold (hacked : id' ∈ s.acked) : id' ∈ s.publisher.stream ∧ ((∃ request ∈ s.requests ++ [⟨id, event, accepted⟩],
            request.id = id' ∧ request.accepted = true) ∨ s.Skips d id') := by
          refine (h.acked id' hacked).imp_right (Or.imp_left fun ⟨request, hrequest, hsent⟩ => ?_)
          exact ⟨request, List.mem_append_left _ hrequest, hsent⟩
        dsimp only at hid
        split at hid
        · rename_i hanswered
          rcases List.mem_cons.mp hid with rfl | hacked
          · exact ⟨hstream, .inl ⟨_, List.mem_append_right _ (List.mem_singleton_self _), rfl,
              (Bool.and_eq_true_iff.mp hanswered).1⟩⟩
          · exact hold hacked
        · exact hold hid
  · exact h

theorem Bridges.after (h : Bridges d s) (ops : List BridgeOp) : Bridges d (s.after d ops) := by
  induction ops generalizing s with
  | nil => exact h
  | cons op ops ih =>
    cases op with
    | publisher op => exact ih (h.publisher op)
    | forward id sequence accepted acknowledges => exact ih (h.forward id sequence accepted acknowledges)

end BridgedPlatform

end Beyvra
