import Beyvra.FinancialBoundary.Eventing
import Beyvra.Relational.Batch

namespace Beyvra

open Relational

inductive FinancialOutboxStatus where
  | pending | inFlight | published
  deriving DecidableEq

structure FinancialOutboxEvent where
  eventType : String
  schemaVersion : Nat
  occurredAt : Timestamp
  correlationId : Uuid
  causationId : Option Uuid
  tenantRef : Uuid
  payload : Json
  payloadHash : String
  status : FinancialOutboxStatus := .pending
  attempts : Nat := 0
  nextAttemptAt : Timestamp
  leaseExpiresAt : Option Timestamp := none
  publishedAt : Option Timestamp := none
  createdAt : Timestamp

abbrev FinancialOutboxTable := Table Uuid FinancialOutboxEvent

namespace FinancialOutboxEvent

def claimable (row : FinancialOutboxEvent) (now : Timestamp) : Bool :=
  row.status = .pending && row.nextAttemptAt ≤ now

def expired (row : FinancialOutboxEvent) (now : Timestamp) : Bool :=
  row.status = .inFlight && row.leaseExpiresAt.any (· ≤ now)

def claim (row : FinancialOutboxEvent) (now leaseSeconds : Int) : FinancialOutboxEvent :=
  { row with
    status := .inFlight
    attempts := row.attempts + 1
    leaseExpiresAt := some (now + leaseSeconds * microsecondsPerSecond) }

def release (row : FinancialOutboxEvent) : FinancialOutboxEvent :=
  { row with status := .pending, leaseExpiresAt := none }

def publish (row : FinancialOutboxEvent) (now : Timestamp) : FinancialOutboxEvent :=
  { row with status := .published, publishedAt := some now, leaseExpiresAt := none }

end FinancialOutboxEvent

def outboxRow (now : Timestamp) (envelope : FinancialEventEnvelope) : FinancialOutboxEvent where
  eventType := envelope.eventType
  schemaVersion := envelope.schemaVersion
  occurredAt := envelope.occurredAt
  correlationId := envelope.correlationId
  causationId := envelope.causationId
  tenantRef := envelope.tenantRef
  payload := envelope.payload
  payloadHash := envelope.payloadHash
  nextAttemptAt := now
  createdAt := now

def enqueueFinancialEvent (now : Timestamp) (inAtomicBlock : Bool) (envelope : FinancialEventEnvelope)
    (rows : FinancialOutboxTable) : Except EventError FinancialOutboxTable := do
  require (inAtomicBlock) (.runtimeError "financial outbox writes require transaction.atomic")
  require (rows.find envelope.eventId = none) (.integrityError "financial_outbox_pkey")
  pure (rows.put envelope.eventId (outboxRow now envelope))

-- locked holds the rows that skip_locked passes over.
def FinancialOutboxTable.ready (rows : FinancialOutboxTable) (now : Timestamp) (locked : List Uuid)
    (limit : Int) : List Uuid :=
  rows.batch (fun id row => row.claimable now && id ∉ locked) (fun a b => a.createdAt ≤ b.createdAt)
    limit.toNat

def claimFinancialBatch (now : Timestamp) (locked : List Uuid) (limit leaseSeconds : Int)
    (rows : FinancialOutboxTable) : Except EventError (List Uuid × FinancialOutboxTable) := do
  require ((1 ≤ limit ∧ limit ≤ 500) ∧ 1 ≤ leaseSeconds ∧ leaseSeconds ≤ 300)
    (.valueError "outbox claim bounds exceeded")
  let batch := FinancialOutboxTable.ready rows now locked limit
  pure (batch, rows.mapRows fun id row => if id ∈ batch then row.claim now leaseSeconds else row)

def releaseExpiredClaims (now : Timestamp) (rows : FinancialOutboxTable) : Nat × FinancialOutboxTable :=
  ((rows.values.filter (·.expired now)).length,
    rows.mapRows fun _ row => if row.expired now then row.release else row)

def heldEvent (eventId id : Uuid) (row : FinancialOutboxEvent) : Bool :=
  id = eventId && row.status = .inFlight

-- The update commits on its own before the count is looked at.
def markOutboxPublished (now : Timestamp) (eventId : Uuid) (rows : FinancialOutboxTable) :
    Except EventError Unit × FinancialOutboxTable :=
  let updated := (rows.rows.filter fun p => heldEvent eventId p.1 p.2).length
  (require (updated = 1) (.contract "outbox event is not held by a publisher"),
    rows.mapRows fun id row => if heldEvent eventId id row then row.publish now else row)

structure FinancialOutbox where
  rows : FinancialOutboxTable := Table.empty
  returned : List Uuid := []

inductive FinancialOutboxOp where
  | enqueue (now : Timestamp) (inAtomicBlock : Bool) (envelope : FinancialEventEnvelope)
  | claim (now : Timestamp) (locked : List Uuid) (limit leaseSeconds : Int)
  | release (now : Timestamp)
  | markPublished (now : Timestamp) (eventId : Uuid)

namespace FinancialOutbox

def claimed (s : FinancialOutbox) : FinancialOutboxOp → List Uuid
  | .claim now locked limit leaseSeconds =>
    match claimFinancialBatch now locked limit leaseSeconds s.rows with
    | .ok (batch, _) => batch
    | .error _ => []
  | _ => []

def step (s : FinancialOutbox) (op : FinancialOutboxOp) : FinancialOutbox where
  rows := match op with
    | .enqueue now inAtomicBlock envelope =>
      commitState (enqueueFinancialEvent now inAtomicBlock envelope) s.rows
    | .claim now locked limit leaseSeconds =>
      commit (claimFinancialBatch now locked limit leaseSeconds) s.rows
    | .release now => (releaseExpiredClaims now s.rows).2
    | .markPublished now eventId => (markOutboxPublished now eventId s.rows).2
  returned := s.returned ++ s.claimed op

end FinancialOutbox

-- What an operation of the outbox does to the row of one event.
inductive OutboxEffect (s : FinancialOutbox) (op : FinancialOutboxOp) (id : Uuid) : Prop where
  | kept (hafter : (s.step op).rows.find id = s.rows.find id) (hclaimed : id ∉ s.claimed op)
  | enqueued (now : Timestamp) (envelope : FinancialEventEnvelope) (hfresh : s.rows.find id = none)
      (hafter : (s.step op).rows.find id = some (outboxRow now envelope)) (hclaimed : id ∉ s.claimed op)
  | claimed (row : FinancialOutboxEvent) (now leaseSeconds : Int) (hrow : s.rows.find id = some row)
      (hpending : row.status = .pending)
      (hafter : (s.step op).rows.find id = some (row.claim now leaseSeconds))
      (hclaimed : id ∈ s.claimed op)
  | released (row : FinancialOutboxEvent) (now : Timestamp) (hop : op = .release now)
      (hrow : s.rows.find id = some row) (hexpired : row.expired now = true)
      (hafter : (s.step op).rows.find id = some row.release) (hclaimed : id ∉ s.claimed op)
  | published (row : FinancialOutboxEvent) (now : Timestamp) (hrow : s.rows.find id = some row)
      (hinFlight : row.status = .inFlight)
      (hafter : (s.step op).rows.find id = some (row.publish now)) (hclaimed : id ∉ s.claimed op)

section Effects

variable {s : FinancialOutbox} {id : Uuid}

theorem enqueue_effect (now : Timestamp) (inAtomicBlock : Bool) (envelope : FinancialEventEnvelope) :
    OutboxEffect s (.enqueue now inAtomicBlock envelope) id := by
  have hnone : id ∉ s.claimed (.enqueue now inAtomicBlock envelope) := List.not_mem_nil
  rcases commitState_cases (enqueueFinancialEvent now inAtomicBlock envelope) s.rows with
    ⟨rows, hok, hrows⟩ | ⟨-, hrows⟩
  · simp only [enqueueFinancialEvent, bind_eq_ok, require_eq_ok, pure_eq_ok] at hok
    obtain ⟨_, -, _, hfresh, hput⟩ := hok
    have hafter : (s.step (.enqueue now inAtomicBlock envelope)).rows =
        s.rows.put envelope.eventId (outboxRow now envelope) := hrows.trans hput.symm
    by_cases hid : id = envelope.eventId
    · subst hid
      exact .enqueued now envelope hfresh (by rw [hafter, Table.find_put_self]) hnone
    · exact .kept (by rw [hafter, Table.find_put_of_ne _ _ hid]) hnone
  · exact .kept (congrArg (·.find id) hrows) hnone

theorem claimFinancialBatch_cases (now : Timestamp) (locked : List Uuid) (limit leaseSeconds : Int)
    (rows : FinancialOutboxTable) :
    (claimFinancialBatch now locked limit leaseSeconds rows =
      .ok (rows.ready now locked limit, rows.mapRows fun id row =>
        if id ∈ rows.ready now locked limit then row.claim now leaseSeconds else row)) ∨
      claimFinancialBatch now locked limit leaseSeconds rows =
        .error (.valueError "outbox claim bounds exceeded") := by
  unfold claimFinancialBatch
  by_cases hbounds : (1 ≤ limit ∧ limit ≤ 500) ∧ 1 ≤ leaseSeconds ∧ leaseSeconds ≤ 300
  · rw [require_of hbounds]
    exact .inl rfl
  · rw [require_of_not hbounds]
    exact .inr rfl

theorem claim_effect (now : Timestamp) (locked : List Uuid) (limit leaseSeconds : Int) :
    OutboxEffect s (.claim now locked limit leaseSeconds) id := by
  rcases claimFinancialBatch_cases now locked limit leaseSeconds s.rows with hrun | hrun
  · have hclaimed : s.claimed (.claim now locked limit leaseSeconds) = s.rows.ready now locked limit := by
      simp only [FinancialOutbox.claimed, hrun]
    have hafter : (s.step (.claim now locked limit leaseSeconds)).rows = s.rows.mapRows fun id row =>
        if id ∈ s.rows.ready now locked limit then row.claim now leaseSeconds else row :=
      commit_of_ok hrun
    by_cases hready : id ∈ s.rows.ready now locked limit
    · obtain ⟨row, hrow, hclaimable⟩ := Table.find_of_mem_batch hready
      simp only [FinancialOutboxEvent.claimable, Bool.and_eq_true, decide_eq_true_eq] at hclaimable
      refine .claimed row now leaseSeconds hrow hclaimable.1.1 ?_ (hclaimed ▸ hready)
      rw [hafter, Table.find_mapRows, hrow, Option.map_some, if_pos hready]
    · refine .kept ?_ (hclaimed ▸ hready)
      rw [hafter, Table.find_mapRows]
      simp only [hready, if_false, Option.map_id']
  · refine .kept (congrArg (·.find id) (commit_of_error hrun)) ?_
    simp only [FinancialOutbox.claimed, hrun, List.not_mem_nil, not_false_eq_true]

theorem release_effect (now : Timestamp) : OutboxEffect s (.release now) id := by
  have hnone : id ∉ s.claimed (.release now) := List.not_mem_nil
  have hafter : (s.step (.release now)).rows.find id = (s.rows.find id).map fun row =>
      if row.expired now then row.release else row := Table.find_mapRows _ _ _
  cases hrow : s.rows.find id with
  | none => exact .kept (by rw [hafter, hrow, Option.map_none]) hnone
  | some row =>
    rw [hrow, Option.map_some] at hafter
    by_cases hexpired : row.expired now = true
    · rw [if_pos hexpired] at hafter
      exact .released row now rfl hrow hexpired hafter hnone
    · rw [if_neg hexpired] at hafter
      exact .kept (hafter.trans hrow.symm) hnone

theorem publish_effect (now : Timestamp) (eventId : Uuid) :
    OutboxEffect s (.markPublished now eventId) id := by
  have hnone : id ∉ s.claimed (.markPublished now eventId) := List.not_mem_nil
  have hafter : (s.step (.markPublished now eventId)).rows.find id = (s.rows.find id).map fun row =>
      if heldEvent eventId id row then row.publish now else row :=
    Table.find_mapRows _ _ _
  cases hrow : s.rows.find id with
  | none => exact .kept (by rw [hafter, hrow, Option.map_none]) hnone
  | some row =>
    rw [hrow, Option.map_some] at hafter
    by_cases hheld : heldEvent eventId id row = true
    · rw [if_pos hheld] at hafter
      simp only [heldEvent, Bool.and_eq_true, decide_eq_true_eq] at hheld
      exact .published row now hrow hheld.2 hafter hnone
    · rw [if_neg hheld] at hafter
      exact .kept (hafter.trans hrow.symm) hnone

theorem outbox_effect (s : FinancialOutbox) (op : FinancialOutboxOp) (id : Uuid) :
    OutboxEffect s op id := by
  cases op with
  | enqueue now inAtomicBlock envelope => exact enqueue_effect now inAtomicBlock envelope
  | claim now locked limit leaseSeconds => exact claim_effect now locked limit leaseSeconds
  | release now => exact release_effect now
  | markPublished now eventId => exact publish_effect now eventId

theorem claimed_nodup (s : FinancialOutbox) (op : FinancialOutboxOp) : (s.claimed op).Nodup := by
  cases op with
  | enqueue now inAtomicBlock envelope => exact .nil
  | release now => exact .nil
  | markPublished now eventId => exact .nil
  | claim now locked limit leaseSeconds =>
    rcases claimFinancialBatch_cases now locked limit leaseSeconds s.rows with hrun | hrun
    · simp only [FinancialOutbox.claimed, hrun]
      exact Table.batch_nodup
    · simp only [FinancialOutbox.claimed, hrun]
      exact .nil

end Effects

namespace FinancialOutbox

abbrev Runs : FinancialOutbox → FinancialOutbox → Prop := Reaches step fun _ _ => True

-- The operation releases the claim on the event, its lease having run out.
def Expires (s : FinancialOutbox) (op : FinancialOutboxOp) (id : Uuid) : Prop :=
  ∃ now row, op = .release now ∧ s.rows.find id = some row ∧ row.expired now = true

end FinancialOutbox

def FinancialOutboxEvent.Waiting (row : FinancialOutboxEvent) : Prop :=
  (row.status = .pending ∧ row.leaseExpiresAt = none) ∨
    (row.status = .inFlight ∧ ∃ lease, row.leaseExpiresAt = some lease)

structure Accounted (s : FinancialOutbox) (id : Uuid) : Prop where
  waiting : ∀ row, s.rows.find id = some row → row.status ≠ .published → row.Waiting
  counted : (s.rows.find id).elim 0 (·.attempts) = s.returned.count id

section Runs

variable {s s' : FinancialOutbox} {op : FinancialOutboxOp} {id : Uuid} {row : FinancialOutboxEvent}

theorem count_step_of_not_mem (h : id ∉ s.claimed op) :
    (s.step op).returned.count id = s.returned.count id := by
  change (s.returned ++ s.claimed op).count id = _
  rw [List.count_append, List.count_eq_zero.mpr h, Nat.add_zero]

theorem count_step_of_mem (h : id ∈ s.claimed op) :
    (s.step op).returned.count id = s.returned.count id + 1 := by
  change (s.returned ++ s.claimed op).count id = _
  rw [List.count_append, List.count_eq_one_of_mem (claimed_nodup s op) h]

theorem Accounted.step (h : Accounted s id) (op : FinancialOutboxOp) : Accounted (s.step op) id := by
  have hcounted := h.counted
  cases outbox_effect s op id with
  | kept hafter hclaimed =>
    refine ⟨?_, ?_⟩
    · rw [hafter]
      exact h.waiting
    · rw [hafter, count_step_of_not_mem hclaimed, hcounted]
  | enqueued now envelope hfresh hafter hclaimed =>
    rw [hfresh] at hcounted
    refine ⟨fun row hrow _ => ?_, ?_⟩
    · rw [hafter] at hrow
      obtain rfl := Option.some.inj hrow
      exact .inl ⟨rfl, rfl⟩
    · rw [hafter, count_step_of_not_mem hclaimed, ← hcounted]
      rfl
  | claimed row now leaseSeconds hrow hpending hafter hclaimed =>
    rw [hrow] at hcounted
    refine ⟨fun row' hrow' _ => ?_, ?_⟩
    · rw [hafter] at hrow'
      obtain rfl := Option.some.inj hrow'
      exact .inr ⟨rfl, _, rfl⟩
    · rw [hafter, count_step_of_mem hclaimed, ← hcounted]
      rfl
  | released row now hop hrow hexpired hafter hclaimed =>
    rw [hrow] at hcounted
    refine ⟨fun row' hrow' _ => ?_, ?_⟩
    · rw [hafter] at hrow'
      obtain rfl := Option.some.inj hrow'
      exact .inl ⟨rfl, rfl⟩
    · rw [hafter, count_step_of_not_mem hclaimed, ← hcounted]
      rfl
  | published row now hrow hinFlight hafter hclaimed =>
    rw [hrow] at hcounted
    refine ⟨fun row' hrow' hne => ?_, ?_⟩
    · rw [hafter] at hrow'
      obtain rfl := Option.some.inj hrow'
      exact absurd rfl hne
    · rw [hafter, count_step_of_not_mem hclaimed, ← hcounted]
      rfl

theorem accounted_of_runs (h : FinancialOutbox.Runs {} s) (id : Uuid) : Accounted s id :=
  h.invariant (P := (Accounted · id)) ⟨nofun, rfl⟩ fun _ op hs _ => hs.step op

theorem find_step_of_published (hrow : s.rows.find id = some row) (hpublished : row.status = .published)
    (op : FinancialOutboxOp) : (s.step op).rows.find id = some row ∧ id ∉ s.claimed op := by
  cases outbox_effect s op id with
  | kept hafter hclaimed => exact ⟨hafter.trans hrow, hclaimed⟩
  | enqueued now envelope hfresh hafter hclaimed =>
    rw [hrow] at hfresh
    cases hfresh
  | claimed row' now leaseSeconds hrow' hpending hafter hclaimed =>
    rw [hrow] at hrow'
    obtain rfl := Option.some.inj hrow'
    rw [hpublished] at hpending
    cases hpending
  | released row' now hop hrow' hexpired hafter hclaimed =>
    rw [hrow] at hrow'
    obtain rfl := Option.some.inj hrow'
    simp [FinancialOutboxEvent.expired, hpublished] at hexpired
  | published row' now hrow' hinFlight hafter hclaimed =>
    rw [hrow] at hrow'
    obtain rfl := Option.some.inj hrow'
    rw [hpublished] at hinFlight
    cases hinFlight

theorem find_runs_of_published (hrow : s.rows.find id = some row) (hpublished : row.status = .published)
    (h : FinancialOutbox.Runs s s') : s'.rows.find id = some row :=
  h.invariant (P := (·.rows.find id = some row)) hrow
    fun _ op hfind _ => (find_step_of_published hfind hpublished op).1

theorem find_step_isSome (h : (s.rows.find id).isSome) (op : FinancialOutboxOp) :
    ((s.step op).rows.find id).isSome := by
  cases outbox_effect s op id with
  | kept hafter hclaimed => rwa [hafter]
  | enqueued now envelope hfresh hafter hclaimed => rw [hafter, Option.isSome_some]
  | claimed row now leaseSeconds hrow hpending hafter hclaimed => rw [hafter, Option.isSome_some]
  | released row now hop hrow hexpired hafter hclaimed => rw [hafter, Option.isSome_some]
  | published row now hrow hinFlight hafter hclaimed => rw [hafter, Option.isSome_some]

-- From its lease on, or from its next attempt on, a release leaves the event to the next claim.
theorem claimable_after_release (h : row.Waiting) (hrow : s.rows.find id = some row) {now : Timestamp}
    (hnext : row.nextAttemptAt ≤ now) (hlease : ∀ lease, row.leaseExpiresAt = some lease → lease ≤ now) :
    ∃ row', (s.step (.release now)).rows.find id = some row' ∧ row'.claimable now = true := by
  have hafter : (s.step (.release now)).rows.find id = (s.rows.find id).map fun row =>
      if row.expired now then row.release else row := Table.find_mapRows _ _ _
  rw [hrow, Option.map_some] at hafter
  refine ⟨_, hafter, ?_⟩
  rcases h with ⟨hpending, hnone⟩ | ⟨hinFlight, lease, hsome⟩
  · simp [FinancialOutboxEvent.expired, FinancialOutboxEvent.claimable, hpending, hnext]
  · simp [FinancialOutboxEvent.expired, FinancialOutboxEvent.claimable, FinancialOutboxEvent.release,
      hinFlight, hsome, hlease lease hsome, hnext]

def NotPending (s : FinancialOutbox) (id : Uuid) : Prop :=
  ∃ row, s.rows.find id = some row ∧ row.status ≠ .pending

theorem notPending_of_claimed (h : id ∈ s.claimed op) : NotPending (s.step op) id := by
  cases outbox_effect s op id with
  | kept hafter hclaimed => exact absurd h hclaimed
  | enqueued now envelope hfresh hafter hclaimed => exact absurd h hclaimed
  | claimed row now leaseSeconds hrow hpending hafter hclaimed => exact ⟨_, hafter, nofun⟩
  | released row now hop hrow hexpired hafter hclaimed => exact absurd h hclaimed
  | published row now hrow hinFlight hafter hclaimed => exact absurd h hclaimed

theorem NotPending.not_claimed (h : NotPending s id) (op : FinancialOutboxOp) : id ∉ s.claimed op := by
  obtain ⟨row, hrow, hne⟩ := h
  cases outbox_effect s op id with
  | kept hafter hclaimed => exact hclaimed
  | enqueued now envelope hfresh hafter hclaimed => exact hclaimed
  | claimed row' now leaseSeconds hrow' hpending hafter hclaimed =>
    rw [hrow] at hrow'
    obtain rfl := Option.some.inj hrow'
    exact absurd hpending hne
  | released row' now hop hrow' hexpired hafter hclaimed => exact hclaimed
  | published row' now hrow' hinFlight hafter hclaimed => exact hclaimed

theorem NotPending.step (h : NotPending s id) (hkept : ¬s.Expires op id) : NotPending (s.step op) id := by
  have hnot := h.not_claimed op
  obtain ⟨row, hrow, hne⟩ := h
  cases outbox_effect s op id with
  | kept hafter hclaimed => exact ⟨row, hafter.trans hrow, hne⟩
  | enqueued now envelope hfresh hafter hclaimed =>
    rw [hrow] at hfresh
    cases hfresh
  | claimed row' now leaseSeconds hrow' hpending hafter hclaimed => exact absurd hclaimed hnot
  | released row' now hop hrow' hexpired hafter hclaimed =>
    exact absurd ⟨now, row', hop, hrow', hexpired⟩ hkept
  | published row' now hrow' hinFlight hafter hclaimed => exact ⟨_, hafter, nofun⟩

theorem markOutboxPublished_error {rows : FinancialOutboxTable} {now : Timestamp} {error : EventError}
    (h : (markOutboxPublished now id rows).1 = .error error) : (markOutboxPublished now id rows).2 = rows := by
  have hcount : ¬(rows.rows.filter fun p => heldEvent id p.1 p.2).length = 1 := (require_eq_error.mp h).1
  have hone : (rows.rows.filter fun p => heldEvent id p.1 p.2).length ≤ 1 := by
    refine Table.length_filter_le_one (k := id) fun id' row hheld => ?_
    simp only [heldEvent, Bool.and_eq_true, decide_eq_true_eq] at hheld
    exact hheld.1
  have hnil : (rows.rows.filter fun p => heldEvent id p.1 p.2) = [] := by
    apply List.eq_nil_of_length_eq_zero
    omega
  change (rows.mapRows fun id' row => if heldEvent id id' row then row.publish now else row) = rows
  refine Table.mapRows_eq_self fun p hp => ?_
  exact if_neg (List.filter_eq_nil_iff.mp hnil p hp)

end Runs

structure OutboxLaw (s : FinancialOutbox) : Prop where
  terminal : ∀ id row, s.rows.find id = some row → row.status = .published →
    ∀ s', FinancialOutbox.Runs s s' → s'.rows.find id = some row ∧ ∀ op, id ∉ s'.claimed op
  waiting : ∀ id row, s.rows.find id = some row → row.status ≠ .published → row.Waiting
  kept : ∀ id, (s.rows.find id).isSome → ∀ s', FinancialOutbox.Runs s s' → (s'.rows.find id).isSome
  reclaimed : ∀ id row, s.rows.find id = some row → row.status ≠ .published → ∃ start, ∀ now, start ≤ now →
    ∃ row', (s.step (.release now)).rows.find id = some row' ∧ row'.claimable now = true
  counted : ∀ id row, s.rows.find id = some row → row.attempts = s.returned.count id
  single : ∀ op id, id ∈ s.claimed op → (s.claimed op).count id = 1 ∧
    ∀ s', Reaches FinancialOutbox.step (fun t op' => ¬t.Expires op' id) (s.step op) s' →
      ∀ op', id ∉ s'.claimed op'
  refused : ∀ now id error, (markOutboxPublished now id s.rows).1 = .error error →
    (markOutboxPublished now id s.rows).2 = s.rows

theorem financial_outbox {s : FinancialOutbox} (h : FinancialOutbox.Runs {} s) : OutboxLaw s where
  terminal id row hrow hpublished s' hruns :=
    have hrow' := find_runs_of_published hrow hpublished hruns
    ⟨hrow', fun op => (find_step_of_published hrow' hpublished op).2⟩
  waiting id := (accounted_of_runs h id).waiting
  kept id hsome s' hruns :=
    hruns.invariant (P := fun t => (t.rows.find id).isSome) hsome fun _ op hfind _ => find_step_isSome hfind op
  reclaimed id row hrow hne := by
    have hwaiting := (accounted_of_runs h id).waiting row hrow hne
    refine ⟨max row.nextAttemptAt (row.leaseExpiresAt.getD row.nextAttemptAt), fun now hnow => ?_⟩
    refine claimable_after_release hwaiting hrow ((le_max_left _ _).trans hnow) fun lease hlease => ?_
    rw [hlease, Option.getD_some] at hnow
    exact (le_max_right _ _).trans hnow
  counted id row hrow := by
    have hcounted := (accounted_of_runs h id).counted
    rwa [hrow] at hcounted
  single op id hclaimed := by
    refine ⟨List.count_eq_one_of_mem (claimed_nodup s op) hclaimed, fun s' hreaches op' => ?_⟩
    have hnot := hreaches.invariant (P := (NotPending · id)) (notPending_of_claimed hclaimed)
      fun _ _ hnot hkept => hnot.step hkept
    exact hnot.not_claimed op'
  refused _ _ _ := markOutboxPublished_error

def reservationRequested : FinancialEventEnvelope where
  eventId := "E1"
  eventType := "financial.reservation.requested.v1"
  schemaVersion := 1
  occurredAt := 0
  correlationId := "C1"
  causationId := none
  tenantRef := "T1"
  payload := .obj []
  payloadHash := "\x7b\x7d"
  versioned := by decide +kernel
  positive := Nat.one_pos
  agrees := by decide +kernel
  canonical := rfl

def claimedOutbox : FinancialOutbox :=
  [.enqueue 0 true reservationRequested, .claim 5 [] 10 30].foldl FinancialOutbox.step {}

theorem claimed_outbox_law : claimedOutbox.returned = ["E1"] ∧ OutboxLaw claimedOutbox :=
  ⟨by decide +kernel, financial_outbox (Reaches.of_foldl fun _ _ _ => trivial)⟩

end Beyvra
