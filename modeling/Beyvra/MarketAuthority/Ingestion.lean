import Mathlib.Data.Fintype.EquivFin
import Mathlib.Data.List.Basic
import Mathlib.Data.List.Chain
import Beyvra.Relational.Transaction

namespace Beyvra

open Relational

namespace MarketAuthority

structure EventEnvelope where
  eventId : String

inductive ConnectionState where
  | disconnected | connecting | authenticating | subscribing | live | degraded | backoff | disabled
  deriving DecidableEq, Repr

structure Deduplicator where
  maxItems : Nat := 100000
  seen : List String := []
  order : List String := []

namespace Deduplicator

-- The keys of the dictionary `_seen` are a list here, in the order they came.
def append (d : Deduplicator) (eventId : String) : Deduplicator :=
  { d with seen := d.seen ++ [eventId], order := d.order ++ [eventId] }

def trim (d : Deduplicator) : Deduplicator :=
  if d.maxItems < d.order.length then { d with seen := d.seen.erase (d.order.headD ""), order := d.order.tail } else d

def accept (d : Deduplicator) (envelope : EventEnvelope) : Bool × Deduplicator :=
  if envelope.eventId ∈ d.seen then (false, d) else (true, (d.append envelope.eventId).trim)

end Deduplicator

-- What `clock` returns is any type that is subtracted and compared.
structure StreamIngestion (T : Type) where
  subscriptions : List String
  idleTimeout : T
  state : ConnectionState := .disabled
  lastMessageAt : Option T := none
  lastSequence : Option Int := none
  gaps : Nat := 0
  reconnects : Nat := 0
  snapshotRequired : Bool := false
  deduplicator : Deduplicator := {}

-- `sequence > self.last_sequence+1`, where both are there
def opensGap (last sequence : Option Int) : Bool :=
  sequence.any fun sequence => last.any fun last => last + 1 < sequence

-- `sequence <= self.last_sequence`
def isOld (last sequence : Option Int) : Bool :=
  sequence.any fun sequence => last.any fun last => sequence ≤ last

namespace StreamIngestion

variable {T : Type} [Sub T] [LT T] [DecidableLT T]

def enable (s : StreamIngestion T) : StreamIngestion T := { s with state := .disconnected }

def connecting (s : StreamIngestion T) : StreamIngestion T := { s with state := .connecting }

def authenticating (s : StreamIngestion T) : StreamIngestion T := { s with state := .authenticating }

def authenticated (s : StreamIngestion T) : List String × StreamIngestion T :=
  (s.subscriptions, { s with state := .subscribing })

def subscribed (now : T) (s : StreamIngestion T) : StreamIngestion T :=
  { s with state := .live, lastMessageAt := some now }

def heartbeat (now : T) (s : StreamIngestion T) : StreamIngestion T := { s with lastMessageAt := some now }

def checkIdle (now : T) (s : StreamIngestion T) : Bool × StreamIngestion T :=
  if s.state = .live ∧ s.lastMessageAt.any (fun last => decide (s.idleTimeout < now - last)) = true then
    (false, { s with state := .degraded })
  else (true, s)

def accept (now : T) (envelope : EventEnvelope) (sequence : Option Int) (s : StreamIngestion T) :
    Bool × StreamIngestion T :=
  if s.state ≠ .live then (false, s)
  else
    let s := { s with lastMessageAt := some now }
    if opensGap s.lastSequence sequence then
      (false, { s with gaps := s.gaps + 1, snapshotRequired := true, state := .degraded })
    else if isOld s.lastSequence sequence then (false, s)
    else
      let deduplicated := s.deduplicator.accept envelope
      let s := { s with deduplicator := deduplicated.2 }
      if deduplicated.1 then (true, { s with lastSequence := sequence.orElse fun _ => s.lastSequence }) else (false, s)

def snapshotRestored (now : T) (sequence : Option Int) (s : StreamIngestion T) : StreamIngestion T :=
  { s with lastSequence := sequence, snapshotRequired := false, state := .live, lastMessageAt := some now }

def disconnected (s : StreamIngestion T) : StreamIngestion T :=
  { s with state := .backoff, reconnects := s.reconnects + 1 }

end StreamIngestion

-- A call with what the clock reads in it
inductive StreamCall (T : Type) where
  | enable
  | connecting
  | authenticating
  | authenticated
  | subscribed (now : T)
  | heartbeat (now : T)
  | checkIdle (now : T)
  | accept (now : T) (envelope : EventEnvelope) (sequence : Option Int)
  | snapshotRestored (now : T) (sequence : Option Int)
  | disconnected

section Calls

variable {T : Type} [Sub T] [LT T] [DecidableLT T]

def StreamIngestion.step (s : StreamIngestion T) : StreamCall T → StreamIngestion T
  | .enable => s.enable
  | .connecting => s.connecting
  | .authenticating => s.authenticating
  | .authenticated => s.authenticated.2
  | .subscribed now => s.subscribed now
  | .heartbeat now => s.heartbeat now
  | .checkIdle now => (s.checkIdle now).2
  | .accept now envelope sequence => (s.accept now envelope sequence).2
  | .snapshotRestored now sequence => s.snapshotRestored now sequence
  | .disconnected => s.disconnected

-- The message that the call gets accepted, with its sequence number
def StreamIngestion.accepted (s : StreamIngestion T) : StreamCall T → Option (EventEnvelope × Option Int)
  | .accept now envelope sequence => if (s.accept now envelope sequence).1 then some (envelope, sequence) else none
  | _ => none

end Calls

-- The deduplicator keeps the last `maxItems` of the ids it has accepted.
structure Recorded (d : Deduplicator) (ids : List String) : Prop where
  order : d.order = ids.drop (ids.length - d.maxItems)
  seen : d.seen = d.order
  distinct : ∀ i j id, i < j → ids[i]? = some id → ids[j]? = some id → i + d.maxItems < j

section Deduplicator

variable {d : Deduplicator} {ids : List String} {envelope : EventEnvelope}

theorem Deduplicator.accept_fst : (d.accept envelope).1 = true ↔ envelope.eventId ∉ d.seen := by
  unfold Deduplicator.accept
  split_ifs with hseen <;> simp [hseen]

theorem Deduplicator.accept_snd (h : envelope.eventId ∉ d.seen) :
    (d.accept envelope).2 = (d.append envelope.eventId).trim := by rw [Deduplicator.accept, if_neg h]

@[simp] theorem Deduplicator.trim_maxItems : d.trim.maxItems = d.maxItems := by
  unfold Deduplicator.trim
  split_ifs <;> rfl

theorem Deduplicator.trim_order (h : d.order.length ≤ d.maxItems + 1) :
    d.trim.order = d.order.drop (d.order.length - d.maxItems) := by
  unfold Deduplicator.trim
  split_ifs with hfull
  · have hone : d.order.length - d.maxItems = 1 := by omega
    rw [hone, List.drop_one]
  · rw [Nat.sub_eq_zero_of_le (Nat.le_of_not_lt hfull), List.drop_zero]

theorem Deduplicator.trim_seen (h : d.seen = d.order) : d.trim.seen = d.trim.order := by
  unfold Deduplicator.trim
  split_ifs
  · rw [h]
    cases d.order <;> simp
  · exact h

theorem Recorded.nil (maxItems : Nat) : Recorded { maxItems } [] where
  order := by simp
  seen := rfl
  distinct := by simp

theorem Recorded.near (h : Recorded d ids) {i : Nat} {id : String} (hi : ids[i]? = some id)
    (hnear : ids.length ≤ i + d.maxItems) : id ∈ d.seen := by
  rw [h.seen, h.order]
  refine List.mem_of_getElem? (i := i - (ids.length - d.maxItems)) ?_
  rw [List.getElem?_drop, ← hi]
  congr 1
  omega

theorem Recorded.accept (h : Recorded d ids) (hfresh : envelope.eventId ∉ d.seen) :
    Recorded (d.accept envelope).2 (ids ++ [envelope.eventId]) := by
  rw [Deduplicator.accept_snd hfresh]
  have horder : (d.append envelope.eventId).order =
      (ids ++ [envelope.eventId]).drop (ids.length - d.maxItems) := by
    rw [List.drop_append_of_le_length (Nat.sub_le _ _), ← h.order]
    rfl
  have hlength : (d.append envelope.eventId).order.length = ids.length - (ids.length - d.maxItems) + 1 := by
    simp [Deduplicator.append, h.order]
  have hmax : (d.append envelope.eventId).maxItems = d.maxItems := rfl
  refine ⟨?_, Deduplicator.trim_seen (congrArg (· ++ [envelope.eventId]) h.seen), fun i j id hlt hi hj => ?_⟩
  · have htrim := (d.append envelope.eventId).trim_order (by omega)
    rw [htrim, hlength, horder, List.drop_drop, Deduplicator.trim_maxItems, hmax, List.length_append,
      List.length_singleton]
    congr 1
    omega
  · rw [Deduplicator.trim_maxItems, hmax]
    have hbound : j < ids.length + 1 := by simpa using (List.getElem?_eq_some_iff.mp hj).1
    rw [List.getElem?_append_left (by omega)] at hi
    by_cases hold : j < ids.length
    · rw [List.getElem?_append_left hold] at hj
      exact h.distinct i j id hlt hi hj
    · have hlast : j = ids.length := by omega
      have hid : envelope.eventId = id := by simpa [hlast] using hj
      by_contra hnear
      refine hfresh ?_
      rw [hid]
      exact h.near hi (by omega)

end Deduplicator

namespace StreamIngestion

section Accept

variable {T : Type} {s : StreamIngestion T} {envelope : EventEnvelope} {sequence : Option Int} {now : T}
  {call : StreamCall T} {message : EventEnvelope × Option Int}

theorem accept_fst : (s.accept now envelope sequence).1 = true ↔ s.state = .live ∧
    opensGap s.lastSequence sequence = false ∧ isOld s.lastSequence sequence = false ∧
      envelope.eventId ∉ s.deduplicator.seen := by
  rw [← Deduplicator.accept_fst]
  unfold accept
  dsimp only
  split_ifs <;> simp_all

theorem accept_snd (h : (s.accept now envelope sequence).1 = true) :
    (s.accept now envelope sequence).2 =
      { s with
        lastMessageAt := some now, deduplicator := (s.deduplicator.accept envelope).2,
        lastSequence := sequence.orElse fun _ => s.lastSequence } := by
  obtain ⟨hlive, hgap, hold, hfresh⟩ := accept_fst.mp h
  unfold accept
  rw [if_neg (by simpa using hlive)]
  dsimp only
  rw [if_neg (by simpa using hgap), if_neg (by simpa using hold), if_pos (Deduplicator.accept_fst.mpr hfresh)]

theorem accept_snd_of_refused (h : (s.accept now envelope sequence).1 ≠ true) :
    (s.accept now envelope sequence).2.lastSequence = s.lastSequence ∧
      (s.accept now envelope sequence).2.deduplicator = s.deduplicator := by
  have hkept (hseen : (s.deduplicator.accept envelope).1 ≠ true) :
      (s.deduplicator.accept envelope).2 = s.deduplicator := by
    rw [ne_eq, Deduplicator.accept_fst, not_not] at hseen
    rw [Deduplicator.accept, if_pos hseen]
  revert h
  unfold accept
  dsimp only
  split_ifs with hlive hgap hold hseen
  · exact fun _ => ⟨rfl, rfl⟩
  · exact fun _ => ⟨rfl, rfl⟩
  · exact fun _ => ⟨rfl, rfl⟩
  · exact fun h => absurd rfl h
  · exact fun _ => ⟨rfl, hkept hseen⟩

theorem accept_maxItems : (s.accept now envelope sequence).2.deduplicator.maxItems = s.deduplicator.maxItems := by
  by_cases h : (s.accept now envelope sequence).1 = true
  · rw [accept_snd h]
    unfold Deduplicator.accept
    split_ifs
    · rfl
    · exact Deduplicator.trim_maxItems
  · rw [(accept_snd_of_refused h).2]

theorem accept_live (h : (s.accept now envelope sequence).2.state = .live) :
    s.state = .live ∧ (s.accept now envelope sequence).2.snapshotRequired = s.snapshotRequired := by
  revert h
  unfold accept
  dsimp only
  split_ifs with hlive hgap hold hseen
  · exact fun h => absurd h hlive
  · exact fun h => nomatch h
  · exact fun h => ⟨h, rfl⟩
  · exact fun h => ⟨h, rfl⟩
  · exact fun h => ⟨h, rfl⟩

theorem accepted_eq_some : s.accepted call = some message ↔
    ∃ now, call = .accept now message.1 message.2 ∧ (s.accept now message.1 message.2).1 = true := by
  cases call with
  | accept now envelope sequence =>
    rw [accepted]
    split_ifs with h
    · constructor
      · rintro ⟨rfl⟩
        exact ⟨now, rfl, h⟩
      · rintro ⟨_, ⟨rfl⟩, -⟩
        rfl
    · refine iff_of_false nofun ?_
      rintro ⟨_, ⟨rfl⟩, hpass⟩
      exact h hpass
  | _ => simp [accepted]

-- A message without a sequence number and with an id of its own is accepted once the stream is live.
theorem exists_accepted (hlive : s.state = .live) (now : T) :
    ∃ envelope, s.accepted (.accept now envelope none) ≠ none := by
  obtain ⟨eventId, hfresh⟩ := Infinite.exists_notMem_finset s.deduplicator.seen.toFinset
  have hpass : (s.accept now ⟨eventId⟩ none).1 = true :=
    accept_fst.mpr ⟨hlive, rfl, rfl, fun hmem => hfresh (List.mem_toFinset.mpr hmem)⟩
  exact ⟨⟨eventId⟩, by simp [accepted, hpass]⟩

end Accept

variable {T : Type} [Sub T] [LT T] [DecidableLT T] {s : StreamIngestion T} {call : StreamCall T}
  {calls : List (StreamCall T)}

def Restores : StreamCall T → Prop
  | .snapshotRestored _ _ => True
  | _ => False

-- The messages that a run gets accepted, in order
def acceptedBy (s : StreamIngestion T) : List (StreamCall T) → List (EventEnvelope × Option Int)
  | [] => []
  | call :: calls => (s.accepted call).toList ++ (s.step call).acceptedBy calls

def sequences (s : StreamIngestion T) (calls : List (StreamCall T)) : List Int :=
  (s.acceptedBy calls).filterMap Prod.snd

def eventIds (s : StreamIngestion T) (calls : List (StreamCall T)) : List String :=
  (s.acceptedBy calls).map fun message => message.1.eventId

-- What a run of calls is held to; the deduplicator remembers `maxItems` ids.
structure Disciplined (s : StreamIngestion T) (calls : List (StreamCall T)) : Prop where
  withheld : Throughout step (fun s call => s.accepted call ≠ none → s.snapshotRequired = false) calls s
  consecutive : ∀ before mid later, calls = before ++ (mid ++ later) → (∀ call ∈ mid, ¬Restores call) →
    ((before.foldl step s).sequences mid).IsChain fun a b => b = a + 1
  distinct : ∀ i j id, i < j → (s.eventIds calls)[i]? = some id → (s.eventIds calls)[j]? = some id →
    i + s.deduplicator.maxItems < j

-- A feed that waits for a snapshot is not made live by a new subscription.
def Resubscribes (s : StreamIngestion T) (call : StreamCall T) : Prop :=
  ∀ now, call = .subscribed now → s.snapshotRequired = false

def Awaits (s : StreamIngestion T) : Prop := s.state = .live → s.snapshotRequired = false

theorem step_of_none (h : s.accepted call = none) : (s.step call).deduplicator = s.deduplicator := by
  cases call with
  | accept now envelope sequence => exact (accept_snd_of_refused fun hpass => by simp [accepted, hpass] at h).2
  | checkIdle now =>
    rw [step, checkIdle]
    split_ifs <;> rfl
  | _ => rfl

theorem step_lastSequence (h : s.accepted call = none) (hcall : ¬Restores call) :
    (s.step call).lastSequence = s.lastSequence := by
  cases call with
  | accept now envelope sequence => exact (accept_snd_of_refused fun hpass => by simp [accepted, hpass] at h).1
  | checkIdle now =>
    rw [step, checkIdle]
    split_ifs <;> rfl
  | snapshotRestored now sequence => exact absurd trivial hcall
  | _ => rfl

theorem Awaits.step (h : s.Awaits) (hcall : s.Resubscribes call) : (s.step call).Awaits := by
  intro hlive
  cases call with
  | subscribed now => exact hcall now rfl
  | heartbeat now => exact h hlive
  | snapshotRestored now sequence => rfl
  | checkIdle now =>
    revert hlive
    rw [StreamIngestion.step, checkIdle]
    split_ifs
    · exact fun hlive => nomatch hlive
    · exact h
  | accept now envelope sequence =>
    obtain ⟨hbefore, hsame⟩ := accept_live hlive
    exact hsame.trans (h hbefore)
  | _ => cases hlive

theorem withheld_of_resubscribes (h : s.Awaits) (hcalls : Throughout step Resubscribes calls s) :
    Throughout step (fun s call => s.accepted call ≠ none → s.snapshotRequired = false) calls s := by
  induction calls generalizing s with
  | nil => trivial
  | cons call calls ih =>
    refine ⟨fun hsome => ?_, ih (h.step hcalls.1) hcalls.2⟩
    obtain ⟨message, hmessage⟩ := Option.ne_none_iff_exists'.mp hsome
    obtain ⟨now, -, hpass⟩ := accepted_eq_some.mp hmessage
    exact h (accept_fst.mp hpass).1

-- What is accepted next continues from the last sequence number, whether or not a gap came in between.
theorem isChain_sequences (hcalls : ∀ call ∈ calls, ¬Restores call) :
    (s.lastSequence.toList ++ s.sequences calls).IsChain fun a b => b = a + 1 := by
  induction calls generalizing s with
  | nil => cases s.lastSequence <;> simp [sequences, acceptedBy]
  | cons call calls ih =>
    have hrest := ih (s := s.step call) fun call' hmem => hcalls call' (List.mem_cons_of_mem _ hmem)
    cases hcall : s.accepted call with
    | none =>
      rw [step_lastSequence hcall (hcalls call List.mem_cons_self)] at hrest
      simpa [sequences, acceptedBy, hcall] using hrest
    | some message =>
      obtain ⟨now, rfl, hpass⟩ := accepted_eq_some.mp hcall
      obtain ⟨-, hgap, hold, -⟩ := accept_fst.mp hpass
      have hlast : (s.step (.accept now message.1 message.2)).lastSequence = message.2.orElse fun _ => s.lastSequence :=
        congrArg lastSequence (accept_snd hpass)
      rw [hlast] at hrest
      obtain ⟨envelope, sequence⟩ := message
      cases sequence with
      | none => simpa [sequences, acceptedBy, hcall] using hrest
      | some sequence =>
        cases hs : s.lastSequence with
        | none => simpa [sequences, acceptedBy, hcall] using hrest
        | some last =>
          simp only [hs, opensGap, isOld, Option.any_some, decide_eq_false_iff_not] at hgap hold
          have hnext : sequence = last + 1 := by omega
          subst hnext
          simpa [sequences, acceptedBy, hcall] using hrest

theorem recorded_step {ids : List String} (h : Recorded s.deduplicator ids) (call : StreamCall T) :
    Recorded (s.step call).deduplicator (ids ++ (s.accepted call).toList.map fun message => message.1.eventId) := by
  cases hcall : s.accepted call with
  | none => simpa [step_of_none hcall] using h
  | some message =>
    obtain ⟨now, rfl, hpass⟩ := accepted_eq_some.mp hcall
    have hstep : (s.step (.accept now message.1 message.2)).deduplicator = (s.deduplicator.accept message.1).2 :=
      congrArg deduplicator (accept_snd hpass)
    rw [hstep]
    exact h.accept (accept_fst.mp hpass).2.2.2

theorem recorded_run {ids : List String} (h : Recorded s.deduplicator ids) (calls : List (StreamCall T)) :
    Recorded (calls.foldl step s).deduplicator (ids ++ s.eventIds calls) := by
  induction calls generalizing s ids with
  | nil => simpa [eventIds, acceptedBy] using h
  | cons call calls ih =>
    have hrest := ih (recorded_step h call)
    simpa [eventIds, acceptedBy] using hrest

theorem step_maxItems (call : StreamCall T) : (s.step call).deduplicator.maxItems = s.deduplicator.maxItems := by
  cases call with
  | accept now envelope sequence => exact accept_maxItems
  | _ => rw [step_of_none rfl]

theorem foldl_maxItems (calls : List (StreamCall T)) :
    (calls.foldl step s).deduplicator.maxItems = s.deduplicator.maxItems := by
  induction calls generalizing s with
  | nil => rfl
  | cons call calls ih => exact ih.trans (step_maxItems call)

theorem disciplined_of_resubscribes (hawaits : s.Awaits) (hrecorded : Recorded s.deduplicator [])
    (hcalls : Throughout step Resubscribes calls s) : s.Disciplined calls where
  withheld := withheld_of_resubscribes hawaits hcalls
  consecutive before mid later _ hmid := (isChain_sequences hmid).right_of_append
  distinct i j id hlt hi hj := by
    have hrun := (recorded_run hrecorded calls).distinct i j id hlt hi hj
    rwa [foldl_maxItems] at hrun

end StreamIngestion

open StreamIngestion

variable {T : Type} [Sub T] [LT T] [DecidableLT T]

-- Whatever message comes at any point of the run
theorem ingestion_disciplined_iff (subscriptions : List String) (idleTimeout : T) (calls : List (StreamCall T)) :
    (∀ before later now envelope sequence, calls = before ++ later →
      Disciplined { subscriptions, idleTimeout } (before ++ [.accept now envelope sequence])) ↔
      Throughout step Resubscribes calls { subscriptions, idleTimeout } := by
  constructor
  · refine fun h => throughout_iff.mpr ?_
    rintro before _ later rfl now rfl
    have hlive : ((before ++ [StreamCall.subscribed now]).foldl step { subscriptions, idleTimeout }).state = .live := by
      rw [List.foldl_append]
      rfl
    obtain ⟨envelope, hpass⟩ := exists_accepted hlive now
    have hwithheld := (h (before ++ [.subscribed now]) later now envelope none (by simp)).withheld
    have hlast := throughout_iff.mp hwithheld (before ++ [.subscribed now]) _ [] rfl hpass
    rw [List.foldl_append] at hlast
    exact hlast
  · rintro h before later now envelope sequence rfl
    refine disciplined_of_resubscribes (fun hlive => nomatch hlive) (Recorded.nil _) (throughout_append.mpr ?_)
    exact ⟨(throughout_append.mp h).1, ⟨fun _ hcall => (nomatch hcall), trivial⟩⟩

-- A gap, a reconnection, and then the next message: no snapshot has come in between.
def resubscribedAfterGap : List (StreamCall Int) :=
  [.enable, .connecting, .authenticating, .authenticated, .subscribed 0, .accept 1 ⟨"a"⟩ (some 1),
    .accept 2 ⟨"c"⟩ (some 3), .disconnected, .connecting, .authenticating, .authenticated, .subscribed 3,
    .accept 4 ⟨"b"⟩ (some 2)]

theorem gap_survives_resubscription :
    ¬Disciplined { subscriptions := ["Q.BTC"], idleTimeout := (30 : Int) } resubscribedAfterGap :=
  fun h => absurd h.withheld (by decide +kernel)

end MarketAuthority

end Beyvra
