import Beyvra.FinancialBoundary.Projection

namespace Beyvra

open Relational

-- The events a producer assigned to the sequence numbers of one stream.
structure ProducerHistory (scope : CursorScope) where
  produced : Nat → Option FinancialProjectionEvent
  numbered : ∀ n event, produced n = some event → event.sequence = n ∧ event.scope = scope

def ProducerHistory.Sends {scope : CursorScope} (history : ProducerHistory scope) (t : CursorTable) :
    ProjectionCall → Prop
  | .apply event => history.produced event.sequence = some event
  | .replace target snapshot => target = scope ∧
    ∀ sequence, naturalNumber snapshot.sequence = some sequence →
      (cursorAt t scope).lastSequence ≤ sequence

structure AnsweredEvent (reducer : Reducer) (t : CursorTable) (event : FinancialProjectionEvent) : Prop where
  never : ∀ message, applyProjectionEvent event reducer t ≠ .error (.sequenceConflict message)
  covered : event.sequence ≤ (cursorAt t event.scope).lastSequence → ∃ result t',
    applyProjectionEvent event reducer t = .ok (result, t') ∧
      (result.status = .duplicate ∨ result.status = .stale)

def Answered (reducer : Reducer) (t : CursorTable) : ProjectionCall → Prop
  | .apply event => AnsweredEvent reducer t event
  | .replace _ _ => True

-- The event at the cursor's own sequence is not one that a snapshot brought the cursor to.
def Spared (t : CursorTable) : ProjectionCall → Prop
  | .apply event => ¬((cursorAt t event.scope).lastEventId = none ∧
      event.sequence = (cursorAt t event.scope).lastSequence)
  | .replace _ _ => True

section Redelivery

variable {reducer : Reducer} {t : CursorTable} {scope : CursorScope} {event : FinancialProjectionEvent}
  {history : ProducerHistory scope} {call : ProjectionCall}

structure Attributed (history : ProducerHistory scope) (t : CursorTable) : Prop where
  produced : ∀ id, (cursorAt t scope).lastEventId = some id → ∃ event,
    history.produced (cursorAt t scope).lastSequence = some event ∧ event.eventId = id

theorem Attributed.step (h : Attributed history t) (hsends : history.Sends t call) :
    Attributed history (projectionStep reducer t call) := by
  have heffect := projectionStep_effect reducer t call
  refine ⟨fun id hid => ?_⟩
  by_cases hscope : scope = call.scope
  · cases heffect with
    | kept hintake hcursors =>
      rw [hcursors] at hid ⊢
      exact h.produced id hid
    | applied event hcall hintake hsequence hreduce hlast hlastId hversion hother =>
      subst hcall
      rw [← hscope] at hlast hlastId
      rw [hlastId] at hid
      rw [hlast]
      exact ⟨event, hsends, Option.some.inj hid⟩
    | replaced hintake hlast hversion hlastId hother =>
      rw [← hscope] at hlastId
      rw [hlastId] at hid
      cases hid
  · rw [heffect.other hscope] at hid ⊢
    exact h.produced id hid

theorem applyNext_ne_conflict (message : String) :
    applyNext event reducer t ≠ .error (.sequenceConflict message) := by
  intro h
  simp only [applyNext, saveCursor, canonicalPayload, bind_eq_error, require_eq_error, demand_eq_error,
    reduceCtorEq, and_false, false_or] at h
  unfold Except.mapError at h
  split at h
  · simp at h
  · simp [pure, Except.pure] at h

theorem apply_duplicate (reducer : Reducer) (hsame : event.sequence = (cursorAt t event.scope).lastSequence)
    (hid : (cursorAt t event.scope).lastEventId = some event.eventId) : ∃ result t',
      applyProjectionEvent event reducer t = .ok (result, t') ∧ result.status = .duplicate := by
  unfold applyProjectionEvent
  simp only [cursorAt_getOrCreate]
  rw [if_pos hsame, if_pos hid]
  exact ⟨_, _, rfl, rfl⟩

theorem apply_conflict (hsame : event.sequence = (cursorAt t event.scope).lastSequence)
    (hid : (cursorAt t event.scope).lastEventId ≠ some event.eventId) :
    applyProjectionEvent event reducer t =
      .error (.sequenceConflict "same sequence was reused by a different event") := by
  unfold applyProjectionEvent
  simp only [cursorAt_getOrCreate]
  rw [if_pos hsame, if_neg hid]

theorem apply_stale (reducer : Reducer) (hbelow : event.sequence < (cursorAt t event.scope).lastSequence) :
    ∃ result t',
    applyProjectionEvent event reducer t = .ok (result, t') ∧ result.status = .stale := by
  unfold applyProjectionEvent
  simp only [cursorAt_getOrCreate]
  rw [if_neg hbelow.ne, if_pos (hbelow.trans (Nat.lt_succ_self _))]
  exact ⟨_, _, rfl, rfl⟩

theorem apply_above (habove : (cursorAt t event.scope).lastSequence < event.sequence) (message : String) :
    applyProjectionEvent event reducer t ≠ .error (.sequenceConflict message) := by
  intro h
  unfold applyProjectionEvent at h
  simp only [cursorAt_getOrCreate] at h
  rw [if_neg habove.ne', if_neg (by omega)] at h
  split at h
  · cases h
  · exact applyNext_ne_conflict message h

theorem answered_iff_spared (h : Attributed history t) (hsends : history.Sends t (.apply event)) :
    AnsweredEvent reducer t event ↔ Spared t (.apply event) := by
  obtain rfl := (history.numbered _ _ hsends).2
  constructor
  · rintro hanswered ⟨hnone, hsame⟩
    exact hanswered.never _ (apply_conflict hsame (by rw [hnone]; simp))
  · intro hspared
    rcases lt_trichotomy event.sequence (cursorAt t event.scope).lastSequence with hlt | hsame | hgt
    · obtain ⟨result, t', hok, hstatus⟩ := apply_stale reducer hlt
      refine ⟨fun message herror => ?_, fun _ => ⟨result, t', hok, .inr hstatus⟩⟩
      rw [hok] at herror
      cases herror
    · have hid : (cursorAt t event.scope).lastEventId = some event.eventId := by
        cases hlast : (cursorAt t event.scope).lastEventId with
        | none => exact absurd ⟨hlast, hsame⟩ hspared
        | some id =>
          obtain ⟨e, he, hid⟩ := h.produced id hlast
          have hsent : history.produced event.sequence = some event := hsends
          rw [← hsame, hsent] at he
          rw [← hid, Option.some.inj he]
      obtain ⟨result, t', hok, hstatus⟩ := apply_duplicate reducer hsame hid
      refine ⟨fun message herror => ?_, fun _ => ⟨result, t', hok, .inl hstatus⟩⟩
      rw [hok] at herror
      cases herror
    · exact ⟨apply_above hgt, fun hle => absurd hle hgt.not_ge⟩

theorem answered_run_iff (calls : List ProjectionCall) (h : Attributed history t)
    (hsends : Throughout (projectionStep reducer) history.Sends calls t) :
    Throughout (projectionStep reducer) (Answered reducer) calls t ↔
      Throughout (projectionStep reducer) Spared calls t := by
  induction calls generalizing t with
  | nil => exact Iff.rfl
  | cons call calls ih =>
    obtain ⟨hcall, hrest⟩ := hsends
    refine and_congr ?_ (ih (h.step hcall) hrest)
    cases call with
    | apply event => exact answered_iff_spared h hcall
    | replace scope snapshot => exact Iff.rfl

theorem redelivery_answered_iff (reducer : Reducer) (scope : CursorScope)
    (history : ProducerHistory scope) (calls : List ProjectionCall)
    (hsends : Throughout (projectionStep reducer) history.Sends calls Table.empty) :
    Throughout (projectionStep reducer) (Answered reducer) calls Table.empty ↔
      Throughout (projectionStep reducer) Spared calls Table.empty :=
  answered_run_iff calls ⟨fun _ hid => by cases hid⟩ hsends

end Redelivery

def walletEvent (sequence : Nat) (positive : 1 ≤ sequence) : FinancialProjectionEvent where
  eventId := "event-" ++ toString sequence
  eventType := "wallet.updated.v1"
  tenantRef := "tenant"
  subjectRef := "42"
  sequence := sequence
  occurredAt := 0
  payload := .obj []
  topic := by decide +kernel
  positive := positive
  subject := by decide +kernel
  canonical := ⟨_, rfl⟩
  anonymous := ⟨rfl, rfl⟩

def walletScope : CursorScope where
  tenantRef := "tenant"
  subjectRef := "42"
  eventType := "wallet.updated.v1"

def walletHistory : ProducerHistory walletScope where
  produced n := if h : 1 ≤ n then some (walletEvent n h) else none
  numbered n event h := by
    split at h
    · obtain rfl := Option.some.inj h
      exact ⟨rfl, rfl⟩
    · cases h

def walletSnapshot (sequence : Int) : Snapshot where
  tenantRef := "tenant"
  subjectRef := "42"
  sequence := .int sequence
  version := .int 1
  projection := .obj []

def keepProjection : Reducer := fun projection _ => .ok projection

def snapshotThenNext : List ProjectionCall :=
  [.replace walletScope (walletSnapshot 1), .apply (walletEvent 2 (by decide))]

def snapshotThenCovered : List ProjectionCall :=
  [.replace walletScope (walletSnapshot 1), .apply (walletEvent 1 (by decide))]

theorem snapshot_sent (calls : List ProjectionCall) (sequence : Nat) (positive : 1 ≤ sequence)
    (hcalls : calls = [.replace walletScope (walletSnapshot 1), .apply (walletEvent sequence positive)]) :
    Throughout (projectionStep keepProjection) walletHistory.Sends calls Table.empty := by
  subst hcalls
  refine ⟨⟨rfl, fun _ _ => Nat.zero_le _⟩, ?_, trivial⟩
  exact dif_pos positive

theorem walletSnapshot_cursor :
    (cursorAt (projectionStep keepProjection Table.empty (.replace walletScope (walletSnapshot 1)))
      walletScope).lastSequence = 1 ∧
    (cursorAt (projectionStep keepProjection Table.empty (.replace walletScope (walletSnapshot 1)))
      walletScope).lastEventId = none := by
  decide +kernel

theorem next_after_snapshot_answered :
    Throughout (projectionStep keepProjection) (Answered keepProjection) snapshotThenNext Table.empty := by
  refine (redelivery_answered_iff keepProjection walletScope walletHistory snapshotThenNext
    (snapshot_sent _ 2 (by decide) rfl)).mpr ⟨trivial, ?_, trivial⟩
  rintro ⟨-, hsequence⟩
  have hlast : 2 = 1 := hsequence.trans walletSnapshot_cursor.1
  cases hlast

theorem snapshot_event_conflicts :
    ¬∀ (reducer : Reducer) (scope : CursorScope) (history : ProducerHistory scope)
      (calls : List ProjectionCall), Throughout (projectionStep reducer) history.Sends calls Table.empty →
        Throughout (projectionStep reducer) (Answered reducer) calls Table.empty := by
  intro hclaim
  obtain ⟨-, hanswered, -⟩ := hclaim keepProjection walletScope walletHistory snapshotThenCovered
    (snapshot_sent _ 1 (by decide) rfl)
  refine hanswered.never _ (apply_conflict ?_ ?_)
  · exact walletSnapshot_cursor.1.symm
  · intro hid
    have hnone : none = some "event-1" := walletSnapshot_cursor.2.symm.trans hid
    cases hnone

end Beyvra
