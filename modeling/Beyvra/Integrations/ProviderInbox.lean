import Beyvra.Foundation.Integers
import Beyvra.Foundation.JsonValues
import Beyvra.Relational.SortedBy

namespace Beyvra

open Relational

namespace PolygonOms

inductive CanonicalTransactionState where
  | created | pending | processing | requiresAction | settled | failed | cancelled | reversed | unknown
  deriving DecidableEq

open CanonicalTransactionState

def omsTransactionStates : List (String × CanonicalTransactionState) :=
  [("created", created), ("pending", pending), ("processing", processing), ("awaitingAction", requiresAction),
    ("completed", settled), ("failed", failed), ("cancelled", cancelled), ("reversed", reversed)]

def terminalStates : List CanonicalTransactionState := [settled, failed, cancelled, reversed]

-- `str` and `int` of the values for which they need more than the value's text
structure Builtins where
  str : Json → String
  truncate : String → Option Int

namespace Builtins

variable (lib : Builtins)

def text : Json → String
  | .null => "None"
  | .bool true => "True"
  | .bool false => "False"
  | .int n => toString n
  | .str s => s
  | value => lib.str value

def number : Json → Option Int
  | .bool b => some b.toNat
  | .int n => some n
  | .str s => integerOf s.toList
  | .float repr => lib.truncate repr
  | _ => none

end Builtins

-- `json.loads` of the body; only a JSONDecodeError is caught.
inductive Body where
  | json (value : Json)
  | jsonDecodeError
  | otherError

structure Envelope where
  deliveryId : String
  eventType : Option Json
  sequence : Option Json
  resourceId : String
  status : Json

def eventType (envelope : Json) : Option Json :=
  match envelope.item "event" with
  | some value => if value.truthy then some value else envelope.item "eventType"
  | none => envelope.item "eventType"

section Inbox

variable (lib : Builtins)

-- What stands in the `try`; nothing for a KeyError or a TypeError
def envelopeOf (value : Json) : Option Envelope := do
  let id ← value.item "id"
  let resource ← value.item "data"
  let resourceId ← resource.item "id"
  return {
    deliveryId := lib.text id
    eventType := eventType value
    sequence := (value.item "sequence").filter fun
      | .null => false
      | _ => true
    resourceId := lib.text resourceId
    status := (resource.item "status").getD .null }

def canonicalTransactionState (providerState : Json) : CanonicalTransactionState :=
  (omsTransactionStates.lookup (lib.text providerState)).getD unknown

inductive Reply where
  | malformed | duplicate | unknownEvent | stale | sequenceGap | unknownState | invalidTransition | applied
  -- an exception that `apply` does not catch
  | raised
  deriving DecidableEq

structure FixtureInbox where
  processed : List String := []
  lastSequence : Table String Int := Table.empty
  states : Table String CanonicalTransactionState := Table.empty
  businessEffects : Nat := 0
  deadLetters : List String := []

namespace FixtureInbox

variable (inbox : FixtureInbox)

def process (deliveryId : String) : FixtureInbox := { inbox with processed := deliveryId :: inbox.processed }

def deadLetter (deliveryId : String) : FixtureInbox :=
  { inbox with processed := deliveryId :: inbox.processed, deadLetters := inbox.deadLetters ++ [deliveryId] }

def transition (e : Envelope) (sequence : Option Int) : Reply × FixtureInbox :=
  let nextState := canonicalTransactionState lib e.status
  let currentState := inbox.states.find e.resourceId
  if nextState = unknown then (.unknownState, inbox.deadLetter e.deliveryId)
  else if (currentState.any fun current => current ∈ terminalStates ∧ nextState ≠ current) then
    (.invalidTransition, inbox.deadLetter e.deliveryId)
  else
    (.applied,
      { inbox.process e.deliveryId with
        lastSequence := (sequence.map (inbox.lastSequence.put e.resourceId)).getD inbox.lastSequence
        states := inbox.states.put e.resourceId nextState
        businessEffects := inbox.businessEffects + 1 })

def sequenced (e : Envelope) (sequence : Int) : Reply × FixtureInbox :=
  let lastSequence := inbox.lastSequence.find e.resourceId
  if lastSequence.any (sequence ≤ ·) then (.stale, inbox.process e.deliveryId)
  else if 1 < sequence ∧ lastSequence.all (· + 1 < sequence) then (.sequenceGap, inbox.deadLetter e.deliveryId)
  else inbox.transition lib e (some sequence)

def receive (e : Envelope) : Reply × FixtureInbox :=
  if e.deliveryId ∈ inbox.processed then (.duplicate, inbox)
  else
    match e.eventType with
    | some (.str "transaction.statusChanged") =>
      match e.sequence with
      | none => inbox.transition lib e none
      | some value =>
        match lib.number value with
        | none => (.raised, inbox)
        | some sequence => inbox.sequenced lib e sequence
    | _ => (.unknownEvent, inbox.deadLetter e.deliveryId)

def apply (body : Body) : Reply × FixtureInbox :=
  match body with
  | .jsonDecodeError => (.malformed, inbox)
  | .otherError => (.raised, inbox)
  | .json value =>
    match envelopeOf lib value with
    | none => (.malformed, inbox)
    | some e => inbox.receive lib e

end FixtureInbox

def Body.envelope : Body → Option Envelope
  | .json value => envelopeOf lib value
  | _ => none

namespace FixtureInbox

def run (inbox : FixtureInbox) (bodies : List Body) : FixtureInbox :=
  bodies.foldl (fun inbox body => (inbox.apply lib body).2) inbox

-- The resource of a body that the inbox applies
def effect (inbox : FixtureInbox) (body : Body) : Option String :=
  if (inbox.apply lib body).1 = .applied then (body.envelope lib).map (·.resourceId) else none

def effects (inbox : FixtureInbox) : List Body → List String
  | [] => []
  | body :: bodies => (inbox.effect lib body).toList ++ (inbox.apply lib body).2.effects bodies

end FixtureInbox

-- The events of one resource. A state that is terminal is followed by no other one.
structure ProviderEvents where
  resourceId : String
  count : Nat
  event : Nat → Json
  envelope : Nat → Envelope
  read : ∀ k, 1 ≤ k → k ≤ count → envelopeOf lib (event k) = some (envelope k)
  ofResource : ∀ k, 1 ≤ k → k ≤ count → (envelope k).resourceId = resourceId
  statusChanged : ∀ k, 1 ≤ k → k ≤ count → (envelope k).eventType = some (.str "transaction.statusChanged")
  numbered : ∀ k, 1 ≤ k → k ≤ count → (envelope k).sequence.bind lib.number = some (k : Int)
  distinct : ∀ j k, 1 ≤ j → j ≤ count → 1 ≤ k → k ≤ count →
    (envelope j).deliveryId = (envelope k).deliveryId → j = k
  valid : ∀ k, 1 ≤ k → k ≤ count → canonicalTransactionState lib (envelope k).status ≠ unknown
  consistent : ∀ k, 1 ≤ k → k < count → canonicalTransactionState lib (envelope k).status ∈ terminalStates →
    canonicalTransactionState lib (envelope (k + 1)).status = canonicalTransactionState lib (envelope k).status

inductive Delivered where
  | event (k : Nat)
  | other (body : Body)

def Delivered.number : Delivered → Option Nat
  | .event k => some k
  | .other _ => none

def numbers (feed : List Delivered) : List Nat := feed.filterMap Delivered.number

namespace ProviderEvents

variable {lib} (p : ProviderEvents lib)

def body : Delivered → Body
  | .event k => .json (p.event k)
  | .other body => body

def state (k : Nat) : CanonicalTransactionState := canonicalTransactionState lib (p.envelope k).status

-- Another body can be anything that is no status event of the resource under a delivery id of its own.
def Admissible : Delivered → Prop
  | .event k => 1 ≤ k ∧ k ≤ p.count
  | .other body => ∀ e, body.envelope lib = some e →
    (∀ k, 1 ≤ k → k ≤ p.count → e.deliveryId ≠ (p.envelope k).deliveryId) ∧
      (e.resourceId ≠ p.resourceId ∨ e.eventType ≠ some (.str "transaction.statusChanged"))

def after (feed : List Delivered) : FixtureInbox := FixtureInbox.run lib {} (feed.map p.body)

def effects (feed : List Delivered) : Nat :=
  (FixtureInbox.effects lib {} (feed.map p.body)).count p.resourceId

def reply (before : List Delivered) (k : Nat) : Reply := ((p.after before).apply lib (p.body (.event k))).1

def At (inbox : FixtureInbox) (a : Nat) : Prop :=
  inbox.lastSequence.find p.resourceId = (if a = 0 then none else some (a : Int)) ∧
    inbox.states.find p.resourceId = if a = 0 then none else some (p.state a)

def Converged (feed : List Delivered) : Prop := p.At (p.after feed) p.count ∧ p.effects feed = p.count

-- Each event is delivered at least once after the ones with a lower number have been applied.
def Redelivered (feed : List Delivered) : Prop :=
  ∀ k, 1 ≤ k → k ≤ p.count → ∃ before rest, feed = before ++ .event k :: rest ∧
    ∀ j, 1 ≤ j → j < k → ∃ earlier later, before = earlier ++ .event j :: later ∧ p.reply earlier j = .applied

end ProviderEvents

def advance (a k : Nat) : Nat := if k = a + 1 then k else a

end Inbox

section Advance

theorem foldl_advance_le (ks : List Nat) (a : Nat) : ks.foldl advance a ≤ a + ks.length := by
  induction ks generalizing a with
  | nil => exact le_rfl
  | cons k ks ih =>
    have hhead : advance a k ≤ a + 1 := by
      unfold advance
      split_ifs <;> omega
    have htail := ih (advance a k)
    rw [List.foldl_cons, List.length_cons]
    omega

theorem foldl_advance_eq_iff (ks : List Nat) (a : Nat) :
    ks.foldl advance a = a + ks.length ↔ ks = List.range' (a + 1) ks.length := by
  induction ks generalizing a with
  | nil => simp
  | cons k ks ih =>
    rw [List.foldl_cons, List.length_cons, List.range'_succ, List.cons.injEq]
    by_cases hk : k = a + 1
    · have hadvance : advance a k = a + 1 := by rw [advance, if_pos hk, hk]
      rw [hadvance, and_iff_right hk, ← ih (a + 1)]
      omega
    · have hadvance : advance a k = a := if_neg hk
      have hle := foldl_advance_le ks a
      rw [hadvance]
      constructor
      · intro h
        omega
      · exact fun h => absurd h.1 hk

end Advance

section Steps

variable {lib : Builtins} {inbox : FixtureInbox} {e : Envelope} {sequence : Int}

-- What one envelope does: nothing, a note of its id, or the effect of a status event.
inductive FixtureInbox.Receives (inbox : FixtureInbox) (e : Envelope) : Reply × FixtureInbox → Prop
  | kept {reply : Reply} (hreply : reply ≠ .applied) : Receives inbox e (reply, inbox)
  | processed {reply : Reply} (hreply : reply ≠ .applied) : Receives inbox e (reply, inbox.process e.deliveryId)
  | deadLettered {reply : Reply} (hreply : reply ≠ .applied) : Receives inbox e (reply, inbox.deadLetter e.deliveryId)
  | applied (lastSequence : Table String Int) (states : Table String CanonicalTransactionState)
      (hevent : e.eventType = some (.str "transaction.statusChanged"))
      (hlast : ∀ id ≠ e.resourceId, lastSequence.find id = inbox.lastSequence.find id)
      (hstates : ∀ id ≠ e.resourceId, states.find id = inbox.states.find id) :
      Receives inbox e (.applied, { inbox.process e.deliveryId with
        lastSequence, states, businessEffects := inbox.businessEffects + 1 })

theorem transition_receives (hevent : e.eventType = some (.str "transaction.statusChanged"))
    (sequence : Option Int) : inbox.Receives e (inbox.transition lib e sequence) := by
  unfold FixtureInbox.transition
  dsimp only
  split_ifs
  · exact .deadLettered (by decide)
  · exact .deadLettered (by decide)
  · refine .applied _ _ hevent (fun id hid => ?_) fun id hid => Table.find_put_of_ne _ _ hid
    cases sequence with
    | none => rfl
    | some sequence => exact Table.find_put_of_ne _ _ hid

theorem sequenced_receives (hevent : e.eventType = some (.str "transaction.statusChanged")) :
    inbox.Receives e (inbox.sequenced lib e sequence) := by
  unfold FixtureInbox.sequenced
  dsimp only
  split_ifs
  · exact .processed (by decide)
  · exact .deadLettered (by decide)
  · exact transition_receives hevent _

theorem receive_receives : inbox.Receives e (inbox.receive lib e) := by
  unfold FixtureInbox.receive
  split_ifs
  · exact .kept nofun
  · split
    · rename_i hevent
      split
      · exact transition_receives hevent none
      · split
        · exact .kept nofun
        · exact sequenced_receives hevent
    · exact .deadLettered nofun

theorem apply_of_envelope {body : Body} (h : body.envelope lib = some e) :
    inbox.apply lib body = inbox.receive lib e := by
  cases body with
  | json value =>
    have hvalue : envelopeOf lib value = some e := h
    rw [FixtureInbox.apply, hvalue]
  | jsonDecodeError => exact nomatch h
  | otherError => exact nomatch h

theorem apply_of_no_envelope {body : Body} (h : body.envelope lib = none) :
    (inbox.apply lib body).1 ≠ .applied ∧ (inbox.apply lib body).2 = inbox := by
  cases body with
  | json value =>
    have hvalue : envelopeOf lib value = none := h
    rw [FixtureInbox.apply, hvalue]
    exact ⟨nofun, rfl⟩
  | jsonDecodeError => exact ⟨nofun, rfl⟩
  | otherError => exact ⟨nofun, rfl⟩

-- The total counts an effect of every body that is applied.
theorem businessEffects_apply (body : Body) : (inbox.apply lib body).2.businessEffects =
    inbox.businessEffects + (inbox.effect lib body).toList.length := by
  cases henvelope : body.envelope lib with
  | none =>
    obtain ⟨hreply, hkept⟩ : (inbox.apply lib body).1 ≠ .applied ∧ (inbox.apply lib body).2 = inbox :=
      apply_of_no_envelope henvelope
    rw [hkept, FixtureInbox.effect, if_neg hreply]
    rfl
  | some e =>
    have h : inbox.Receives e (inbox.receive lib e) := receive_receives
    rw [FixtureInbox.effect, apply_of_envelope henvelope, henvelope]
    generalize inbox.receive lib e = result at h
    cases h with
    | kept hreply => simp [hreply]
    | processed hreply => simp [hreply, FixtureInbox.process]
    | deadLettered hreply => simp [hreply, FixtureInbox.deadLetter]
    | applied => simp

theorem businessEffects_run (inbox : FixtureInbox) (bodies : List Body) :
    (inbox.run lib bodies).businessEffects = inbox.businessEffects + (inbox.effects lib bodies).length := by
  induction bodies generalizing inbox with
  | nil => rfl
  | cons body bodies ih =>
    have hhead : (inbox.apply lib body).2.businessEffects =
        inbox.businessEffects + (inbox.effect lib body).toList.length := businessEffects_apply body
    have htail := ih (inbox.apply lib body).2
    rw [FixtureInbox.effects, List.length_append]
    rw [FixtureInbox.run, List.foldl_cons, ← FixtureInbox.run, htail]
    omega

end Steps

namespace ProviderEvents

variable {lib : Builtins} {p : ProviderEvents lib} {inbox : FixtureInbox} {seen : List Nat} {a k : Nat}

-- The events that were delivered, and the number of those that took effect
structure Tracks (p : ProviderEvents lib) (inbox : FixtureInbox) (seen : List Nat) (a : Nat) : Prop where
  processed : ∀ k, 1 ≤ k → k ≤ p.count → ((p.envelope k).deliveryId ∈ inbox.processed ↔ k ∈ seen)
  held : p.At inbox a
  low : ∀ k, 1 ≤ k → k ≤ a → k ∈ seen
  bound : a ≤ p.count

theorem Tracks.init (p : ProviderEvents lib) : p.Tracks {} [] 0 where
  processed := by simp
  held := ⟨rfl, rfl⟩
  low := fun k hlow hhigh => by omega
  bound := Nat.zero_le _

theorem apply_event (hlow : 1 ≤ k) (hhigh : k ≤ p.count) :
    inbox.apply lib (p.body (.event k)) =
      if (p.envelope k).deliveryId ∈ inbox.processed then (.duplicate, inbox)
      else inbox.sequenced lib (p.envelope k) k := by
  have henvelope : (p.body (.event k)).envelope lib = some (p.envelope k) := p.read k hlow hhigh
  rw [apply_of_envelope henvelope, FixtureInbox.receive, p.statusChanged k hlow hhigh]
  obtain ⟨value, hvalue, hnumber⟩ := Option.bind_eq_some_iff.mp (p.numbered k hlow hhigh)
  rw [hvalue]
  dsimp only
  rw [hnumber]
  rfl

theorem Tracks.duplicate (h : p.Tracks inbox seen a) (hlow : 1 ≤ k) (hhigh : k ≤ p.count) (hseen : k ∈ seen) :
    inbox.apply lib (p.body (.event k)) = (.duplicate, inbox) := by
  rw [apply_event hlow hhigh, if_pos ((h.processed k hlow hhigh).mpr hseen)]

theorem Tracks.fresh (h : p.Tracks inbox seen a) (hlow : 1 ≤ k) (hhigh : k ≤ p.count) (hseen : k ∉ seen) :
    inbox.apply lib (p.body (.event k)) = inbox.sequenced lib (p.envelope k) k ∧ a < k := by
  rw [apply_event hlow hhigh, if_neg (mt (h.processed k hlow hhigh).mp hseen)]
  exact ⟨rfl, Nat.lt_of_not_le fun hle => hseen (h.low k hlow hle)⟩

theorem processed_cons (h : p.Tracks inbox seen a) (hlow : 1 ≤ k) (hhigh : k ≤ p.count) {j : Nat} (hj : 1 ≤ j)
    (hj' : j ≤ p.count) :
    (p.envelope j).deliveryId ∈ (p.envelope k).deliveryId :: inbox.processed ↔ j ∈ k :: seen := by
  rw [List.mem_cons, List.mem_cons, h.processed j hj hj']
  exact or_congr ⟨p.distinct j k hj hj' hlow hhigh, fun heq => heq ▸ rfl⟩ Iff.rfl

theorem Tracks.early (h : p.Tracks inbox seen a) (hlow : 1 ≤ k) (hhigh : k ≤ p.count) (hseen : k ∉ seen)
    (hearly : k ≠ a + 1) :
    inbox.apply lib (p.body (.event k)) = (.sequenceGap, inbox.deadLetter (p.envelope k).deliveryId) ∧
      p.Tracks (inbox.deadLetter (p.envelope k).deliveryId) (k :: seen) a := by
  obtain ⟨happly, hlt⟩ := h.fresh hlow hhigh hseen
  refine ⟨?_, fun j hj hj' => processed_cons h hlow hhigh hj hj', h.held,
    fun j hj hle => List.mem_cons_of_mem _ (h.low j hj hle), h.bound⟩
  rw [happly, FixtureInbox.sequenced, p.ofResource k hlow hhigh, h.held.1]
  by_cases ha : a = 0
  · rw [if_pos ha]
    have hgap : (1 : Int) < k := by omega
    simp [hgap]
  · rw [if_neg ha]
    have hnew : ¬(k : Int) ≤ a := by omega
    have hone : (1 : Int) < k := by omega
    have hgap : (a : Int) + 1 < k := by omega
    simp [hnew, hone, hgap]

theorem Tracks.next (h : p.Tracks inbox seen a) (hhigh : a + 1 ≤ p.count) (hseen : a + 1 ∉ seen) :
    (inbox.apply lib (p.body (.event (a + 1)))).1 = .applied ∧
      p.Tracks (inbox.apply lib (p.body (.event (a + 1)))).2 ((a + 1) :: seen) (a + 1) := by
  have hlow : 1 ≤ a + 1 := Nat.le_add_left 1 a
  obtain ⟨happly, -⟩ := h.fresh hlow hhigh hseen
  have hin : inbox.sequenced lib (p.envelope (a + 1)) (a + 1 : Nat) =
      inbox.transition lib (p.envelope (a + 1)) (some (a + 1 : Nat)) := by
    rw [FixtureInbox.sequenced, p.ofResource _ hlow hhigh, h.held.1]
    by_cases ha : a = 0
    · simp [ha]
    · simp [ha]
  have hkeeps : (inbox.states.find p.resourceId).any (fun current =>
      current ∈ terminalStates ∧ canonicalTransactionState lib (p.envelope (a + 1)).status ≠ current) = false := by
    rw [h.held.2]
    by_cases ha : a = 0
    · rw [if_pos ha]
      rfl
    · rw [if_neg ha]
      refine decide_eq_false ?_
      rintro ⟨hterminal, hne⟩
      exact hne (p.consistent a (by omega) (by omega) hterminal)
  have hresult : inbox.apply lib (p.body (.event (a + 1))) =
      (.applied, { inbox.process (p.envelope (a + 1)).deliveryId with
        lastSequence := inbox.lastSequence.put p.resourceId ((a + 1 : Nat) : Int)
        states := inbox.states.put p.resourceId (p.state (a + 1))
        businessEffects := inbox.businessEffects + 1 }) := by
    rw [happly, hin, FixtureInbox.transition, p.ofResource _ hlow hhigh]
    dsimp only
    rw [if_neg (p.valid _ hlow hhigh), hkeeps]
    rfl
  rw [hresult]
  refine ⟨rfl, fun j hj hj' => processed_cons h hlow hhigh hj hj', ⟨?_, ?_⟩, fun j hj hle => ?_, hhigh⟩
  · simp
  · simp
  · rcases Nat.lt_or_eq_of_le hle with hlt | rfl
    · exact List.mem_cons_of_mem _ (h.low j hj (Nat.le_of_lt_succ hlt))
    · exact List.mem_cons_self

theorem Tracks.foreign (h : p.Tracks inbox seen a) {body : Body} (hforeign : p.Admissible (.other body)) :
    p.Tracks (inbox.apply lib body).2 seen a ∧ inbox.effect lib body ≠ some p.resourceId := by
  cases henvelope : body.envelope lib with
  | none =>
    obtain ⟨hreply, hkept⟩ : (inbox.apply lib body).1 ≠ .applied ∧ (inbox.apply lib body).2 = inbox :=
      apply_of_no_envelope henvelope
    rw [hkept, FixtureInbox.effect, if_neg hreply]
    exact ⟨h, nofun⟩
  | some e =>
    obtain ⟨hid, hother⟩ := hforeign e henvelope
    have hprocessed (k : Nat) (hlow : 1 ≤ k) (hhigh : k ≤ p.count) :
        (p.envelope k).deliveryId ∈ e.deliveryId :: inbox.processed ↔ k ∈ seen := by
      rw [List.mem_cons, or_iff_right (hid k hlow hhigh).symm, h.processed k hlow hhigh]
    have hreceives : inbox.Receives e (inbox.receive lib e) := receive_receives
    rw [FixtureInbox.effect, apply_of_envelope henvelope, henvelope]
    generalize inbox.receive lib e = result at hreceives
    cases hreceives with
    | kept hreply => exact ⟨h, by simp [hreply]⟩
    | processed hreply => exact ⟨⟨hprocessed, h.held, h.low, h.bound⟩, by simp [hreply]⟩
    | deadLettered hreply => exact ⟨⟨hprocessed, h.held, h.low, h.bound⟩, by simp [hreply]⟩
    | applied lastSequence states hevent hlast hstates =>
      have hresource : e.resourceId ≠ p.resourceId := hother.resolve_right fun hne => hne hevent
      refine ⟨⟨hprocessed, ⟨?_, ?_⟩, h.low, h.bound⟩, by simpa using hresource⟩
      · exact (hlast _ hresource.symm).trans h.held.1
      · exact (hstates _ hresource.symm).trans h.held.2

-- The events that took effect after the ones of `seen`, of which there were a
def settles (seen : List Nat) (feed : List Delivered) (a : Nat) : Nat :=
  (firsts id seen (numbers feed)).foldl advance a

theorem settles_seen {feed : List Delivered} (h : k ∈ seen) :
    settles seen (.event k :: feed) a = settles seen feed a := by
  unfold settles numbers
  rw [List.filterMap_cons_some (show Delivered.number (.event k) = some k from rfl), firsts]
  simp [h]

theorem settles_fresh {feed : List Delivered} (h : k ∉ seen) :
    settles seen (.event k :: feed) a = settles (k :: seen) feed (advance a k) := by
  unfold settles numbers
  rw [List.filterMap_cons_some (show Delivered.number (.event k) = some k from rfl), firsts]
  simp [h]

theorem run_tracks {feed : List Delivered} (h : p.Tracks inbox seen a) (hfeed : ∀ d ∈ feed, p.Admissible d) :
    ∃ seen', p.Tracks (inbox.run lib (feed.map p.body)) seen' (settles seen feed a) ∧
      (∀ k, k ∈ seen' ↔ k ∈ seen ∨ k ∈ numbers feed) ∧
        (inbox.effects lib (feed.map p.body)).count p.resourceId + a = settles seen feed a := by
  induction feed generalizing inbox seen a with
  | nil => exact ⟨seen, h, by simp [numbers], Nat.zero_add a⟩
  | cons d feed ih =>
    have hrest : ∀ d ∈ feed, p.Admissible d := fun d hd => hfeed d (List.mem_cons_of_mem _ hd)
    have hrun : inbox.run lib ((d :: feed).map p.body) =
        (inbox.apply lib (p.body d)).2.run lib (feed.map p.body) := rfl
    have heffects : (inbox.effects lib ((d :: feed).map p.body)).count p.resourceId =
        (inbox.effect lib (p.body d)).toList.count p.resourceId +
          ((inbox.apply lib (p.body d)).2.effects lib (feed.map p.body)).count p.resourceId := by
      rw [List.map_cons, FixtureInbox.effects, List.count_append]
    rw [hrun, heffects]
    have hd := hfeed d List.mem_cons_self
    cases d with
    | other body =>
      obtain ⟨hkept, hnone⟩ := h.foreign hd
      obtain ⟨seen', htracks, hseen', hcount⟩ := ih hkept hrest
      refine ⟨seen', htracks, hseen', ?_⟩
      have hzero : (inbox.effect lib body).toList.count p.resourceId = 0 :=
        List.count_eq_zero.mpr (by simpa [eq_comm] using hnone)
      change (inbox.effect lib body).toList.count p.resourceId + _ + a = _
      rw [hzero, Nat.zero_add]
      exact hcount
    | event k =>
      obtain ⟨hlow, hhigh⟩ := hd
      have heffect : inbox.effect lib (p.body (.event k)) =
          if (inbox.apply lib (p.body (.event k))).1 = .applied then some p.resourceId else none := by
        have henvelope : (p.body (.event k)).envelope lib = some (p.envelope k) := p.read k hlow hhigh
        rw [FixtureInbox.effect, henvelope, Option.map_some, p.ofResource k hlow hhigh]
      have hnumbers (j : Nat) : j ∈ numbers (.event k :: feed) ↔ j = k ∨ j ∈ numbers feed := by
        rw [numbers, List.filterMap_cons_some (show Delivered.number (.event k) = some k from rfl), List.mem_cons]
        rfl
      by_cases hseen : k ∈ seen
      · rw [settles_seen hseen, heffect, h.duplicate hlow hhigh hseen]
        obtain ⟨seen', htracks, hseen', hcount⟩ := ih h hrest
        refine ⟨seen', htracks, fun j => ?_, by simpa using hcount⟩
        rw [hseen' j, hnumbers j, ← or_assoc, or_iff_left_of_imp (fun heq : j = k => heq ▸ hseen)]
      · rw [settles_fresh hseen, heffect]
        have hmem (j : Nat) : (j ∈ k :: seen ∨ j ∈ numbers feed) ↔ j ∈ seen ∨ j ∈ numbers (.event k :: feed) := by
          rw [hnumbers j, List.mem_cons, or_left_comm, or_assoc]
        by_cases hnext : k = a + 1
        · subst hnext
          obtain ⟨hreply, htracks⟩ := h.next hhigh hseen
          obtain ⟨seen', htracks, hseen', hcount⟩ := ih htracks hrest
          rw [advance, if_pos rfl]
          refine ⟨seen', htracks, fun j => (hseen' j).trans (hmem j), ?_⟩
          rw [if_pos hreply]
          simp only [Option.toList_some, List.count_singleton_self]
          omega
        · obtain ⟨hreply, htracks⟩ := h.early hlow hhigh hseen hnext
          rw [advance, if_neg hnext, hreply]
          obtain ⟨seen', htracks, hseen', hcount⟩ := ih htracks hrest
          exact ⟨seen', htracks, fun j => (hseen' j).trans (hmem j), by simpa using hcount⟩

theorem after_tracks {feed : List Delivered} (p : ProviderEvents lib) (hfeed : ∀ d ∈ feed, p.Admissible d) :
    ∃ seen, p.Tracks (p.after feed) seen (p.effects feed) ∧ (∀ k, k ∈ seen ↔ k ∈ numbers feed) ∧
      p.effects feed = settles [] feed 0 := by
  obtain ⟨seen, htracks, hseen, hcount⟩ := run_tracks (Tracks.init p) hfeed
  have heffects : p.effects feed = settles [] feed 0 := hcount
  exact ⟨seen, heffects ▸ htracks, by simpa using hseen, heffects⟩

theorem numbers_bound {feed : List Delivered} (hfeed : ∀ d ∈ feed, p.Admissible d) (hk : k ∈ numbers feed) :
    1 ≤ k ∧ k ≤ p.count := by
  obtain ⟨d, hd, hnumber⟩ := List.mem_filterMap.mp hk
  cases d with
  | event j =>
    obtain rfl : j = k := Option.some.inj hnumber
    exact hfeed _ hd
  | other body => exact nomatch hnumber

theorem firsts_length {feed : List Delivered} (hfeed : ∀ d ∈ feed, p.Admissible d) :
    (firstOccurrences id (numbers feed)).length ≤ p.count := by
  have hkeys : ((firstOccurrences id (numbers feed)).map id).Nodup := nodup_firsts [] (numbers feed)
  have hnodup : (firstOccurrences id (numbers feed)).Nodup := by simpa using hkeys
  have hsub : firstOccurrences id (numbers feed) ⊆ List.range' 1 p.count := by
    intro k hk
    have hbound := numbers_bound hfeed (mem_of_firsts hk).1
    exact List.mem_range'_1.mpr ⟨hbound.1, by omega⟩
  simpa using (hnodup.subperm hsub).length_le

end ProviderEvents

section Feeds

variable {lib : Builtins} {p : ProviderEvents lib} {feed before rest : List Delivered} {k : Nat}

theorem converged_iff (hfeed : ∀ d ∈ feed, p.Admissible d) :
    p.Converged feed ↔ firstOccurrences id (numbers feed) = List.range' 1 p.count := by
  obtain ⟨seen, htracks, -, heffects⟩ := p.after_tracks hfeed
  have hlength := ProviderEvents.firsts_length hfeed
  have hle := foldl_advance_le (firstOccurrences id (numbers feed)) 0
  have hiff := foldl_advance_eq_iff (firstOccurrences id (numbers feed)) 0
  have hsettles : p.effects feed = (firstOccurrences id (numbers feed)).foldl advance 0 := heffects
  rw [Nat.zero_add] at hle hiff
  constructor
  · rintro ⟨-, hcount⟩
    have hall : (firstOccurrences id (numbers feed)).length = p.count := by omega
    rw [← hall]
    exact hiff.mp (by omega)
  · intro hfirsts
    have hall : (firstOccurrences id (numbers feed)).length = p.count := by rw [hfirsts, List.length_range']
    have hcount : p.effects feed = p.count := by
      rw [hsettles, hiff.mpr (hall.symm ▸ hfirsts), hall]
    exact ⟨hcount ▸ htracks.held, hcount⟩

theorem reply_eq (hfeed : ∀ d ∈ feed, p.Admissible d) (hsplit : feed = before ++ .event k :: rest) :
    p.reply before k = (if k ∈ numbers before then .duplicate
      else if k = p.effects before + 1 then .applied else .sequenceGap) ∧
        (p.reply before k = .sequenceGap →
          (p.envelope k).deliveryId ∈ (p.after (before ++ [.event k])).deadLetters) := by
  have hbefore : ∀ d ∈ before, p.Admissible d := fun d hd => hfeed d (by simp [hsplit, hd])
  obtain ⟨hlow, hhigh⟩ : p.Admissible (.event k) := hfeed _ (by simp [hsplit])
  obtain ⟨seen, htracks, hseen, -⟩ := p.after_tracks hbefore
  have hafter : p.after (before ++ [.event k]) = ((p.after before).apply lib (p.body (.event k))).2 := by
    simp [ProviderEvents.after, FixtureInbox.run, List.foldl_append]
  rw [hafter, ProviderEvents.reply]
  by_cases hdelivered : k ∈ numbers before
  · rw [htracks.duplicate hlow hhigh ((hseen k).mpr hdelivered), if_pos hdelivered]
    exact ⟨rfl, nofun⟩
  · rw [if_neg hdelivered]
    rw [← hseen k] at hdelivered
    by_cases hnext : k = p.effects before + 1
    · subst hnext
      rw [(htracks.next hhigh hdelivered).1, if_pos rfl]
      exact ⟨rfl, nofun⟩
    · rw [(htracks.early hlow hhigh hdelivered hnext).1, if_neg hnext]
      exact ⟨rfl, fun _ => by simp [FixtureInbox.deadLetter]⟩

end Feeds

theorem provider_inbox_converges {lib : Builtins} (p : ProviderEvents lib) (feed : List Delivered)
    (hfeed : ∀ d ∈ feed, p.Admissible d) :
    (p.Converged feed ↔ firstOccurrences id (numbers feed) = List.range' 1 p.count) ∧
      (∀ before k rest, feed = before ++ .event k :: rest →
        p.reply before k = (if k ∈ numbers before then .duplicate
          else if k = p.effects before + 1 then .applied else .sequenceGap) ∧
            (p.reply before k = .sequenceGap →
              (p.envelope k).deliveryId ∈ (p.after (before ++ [.event k])).deadLetters)) ∧
        (p.after feed).businessEffects = (FixtureInbox.effects lib {} (feed.map p.body)).length := by
  refine ⟨converged_iff hfeed, fun before k rest hsplit => reply_eq hfeed hsplit, ?_⟩
  rw [ProviderEvents.after, businessEffects_run, Nat.zero_add]

def plainText : Builtins := ⟨fun _ => "", fun _ => none⟩

def statusEvent (id status : String) (sequence : Nat) : Json :=
  .obj [("id", .str id), ("event", .str "transaction.statusChanged"), ("sequence", .int sequence),
    ("data", .obj [("id", .str "txn"), ("status", .str status)])]

def statusEnvelope (id status : String) (sequence : Nat) : Envelope :=
  ⟨id, some (.str "transaction.statusChanged"), some (.int sequence), "txn", .str status⟩

-- A transaction that is created and then completed
def twoEvents : ProviderEvents plainText where
  resourceId := "txn"
  count := 2
  event k := if k = 1 then statusEvent "whd_1" "created" 1 else statusEvent "whd_2" "completed" 2
  envelope k := if k = 1 then statusEnvelope "whd_1" "created" 1 else statusEnvelope "whd_2" "completed" 2
  read := by
    intro k hlow hhigh
    obtain rfl | rfl : k = 1 ∨ k = 2 := by omega
    · rfl
    · rfl
  ofResource := by
    intro k hlow hhigh
    obtain rfl | rfl : k = 1 ∨ k = 2 := by omega
    · rfl
    · rfl
  statusChanged := by
    intro k hlow hhigh
    obtain rfl | rfl : k = 1 ∨ k = 2 := by omega
    · rfl
    · rfl
  numbered := by
    intro k hlow hhigh
    obtain rfl | rfl : k = 1 ∨ k = 2 := by omega
    · rfl
    · rfl
  distinct := by
    intro j k hj hj' hk hk' heq
    obtain rfl | rfl : j = 1 ∨ j = 2 := by omega
    · obtain rfl | rfl : k = 1 ∨ k = 2 := by omega
      · rfl
      · exact absurd heq (by decide)
    · obtain rfl | rfl : k = 1 ∨ k = 2 := by omega
      · exact absurd heq (by decide)
      · rfl
  valid := by
    intro k hlow hhigh
    obtain rfl | rfl : k = 1 ∨ k = 2 := by omega
    · decide
    · decide
  consistent := by
    intro k hlow hhigh hterminal
    obtain rfl : k = 1 := by omega
    exact absurd hterminal (by decide)

theorem two_events_converge : twoEvents.Converged [.event 1, .event 2, .event 1] :=
  (provider_inbox_converges twoEvents [.event 1, .event 2, .event 1] (by
    intro d hd
    simp only [List.mem_cons, List.not_mem_nil, or_false] at hd
    rcases hd with rfl | rfl | rfl
    · exact ⟨le_rfl, by decide⟩
    · exact ⟨by decide, le_rfl⟩
    · exact ⟨le_rfl, by decide⟩)).1.mpr (by decide)

-- The early delivery of the second event is recorded as processed, so its repetition is a duplicate.
theorem early_delivery_lost : ¬∀ (lib : Builtins) (p : ProviderEvents lib) (feed : List Delivered),
    (∀ d ∈ feed, p.Admissible d) → p.Redelivered feed → p.Converged feed := by
  intro h
  have hadmissible : ∀ d ∈ [Delivered.event 2, .event 1, .event 2], twoEvents.Admissible d := by
    intro d hd
    simp only [List.mem_cons, List.not_mem_nil, or_false] at hd
    rcases hd with rfl | rfl | rfl
    · exact ⟨by decide, le_rfl⟩
    · exact ⟨le_rfl, by decide⟩
    · exact ⟨by decide, le_rfl⟩
  have hredelivered : twoEvents.Redelivered [.event 2, .event 1, .event 2] := by
    intro k hlow hhigh
    obtain rfl | rfl : k = 1 ∨ k = 2 := by
      have : k ≤ 2 := hhigh
      omega
    · exact ⟨[.event 2], [.event 2], rfl, fun j hj hj' => by omega⟩
    · refine ⟨[.event 2, .event 1], [], rfl, fun j hj hj' => ?_⟩
      obtain rfl : j = 1 := by omega
      exact ⟨[.event 2], [], rfl, by decide +kernel⟩
  have hconverged := h plainText twoEvents _ hadmissible hredelivered
  exact absurd hconverged.2 (by decide +kernel)

end PolygonOms

end Beyvra
