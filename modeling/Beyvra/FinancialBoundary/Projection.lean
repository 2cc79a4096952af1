import Beyvra.FinancialBoundary.Realtime

namespace Beyvra

open Relational

def reduceStep (reducer : Reducer) (projection : Json) (event : FinancialProjectionEvent) :
    Except EventError Json := do
  let reduced ← (reducer projection event.payload).mapError .raised
  let (canonical, _) ← canonicalPayload reduced
  pure canonical

def Snapshot.projected (snapshot : Snapshot) : Json :=
  match canonicalPayload snapshot.projection with
  | .ok (canonical, _) => canonical
  | .error _ => .null

-- What a call that returns APPLIED or SNAPSHOT_REPLACED takes in.
def ProjectionCall.intake (reducer : Reducer) (t : CursorTable) (call : ProjectionCall) :
    Option (Intake FinancialProjectionEvent Json) :=
  match call, call.run reducer t with
  | .apply event, .ok (result, _) => if result.status = .applied then some (.item event) else none
  | .replace _ snapshot, .ok (result, _) =>
    if result.status = .snapshotReplaced then some (.snapshot result.lastSequence snapshot.projected)
    else none
  | _, .error _ => none

section Cursors

variable {t t' : CursorTable} {scope scope' : CursorScope} {cursor : FinancialProjectionCursor}

@[simp] theorem cursorAt_getOrCreate : cursorAt (getOrCreateCursor scope t) scope' = cursorAt t scope' := by
  unfold getOrCreateCursor cursorAt
  cases hfind : t.find scope with
  | some cursor => rfl
  | none =>
    by_cases hscope : scope' = scope
    · subst hscope
      simp [hfind]
    · simp only [Table.find_put_of_ne t _ hscope]

theorem cursorAt_put_self : cursorAt (t.put scope cursor) scope = cursor := by
  simp [cursorAt]

theorem cursorAt_put_of_ne (h : scope' ≠ scope) :
    cursorAt (t.put scope cursor) scope' = cursorAt t scope' := by
  simp [cursorAt, Table.find_put_of_ne t _ h]

theorem saveCursor_eq_ok : saveCursor scope cursor t = .ok t' ↔
    cursor.lastSequence ≤ bigIntMax ∧ cursor.snapshotVersion ≤ bigIntMax ∧ t' = t.put scope cursor := by
  simp only [saveCursor, bind_eq_ok, require_eq_ok, pure_eq_ok]
  constructor
  · rintro ⟨_, hsequence, _, hversion, rfl⟩
    exact ⟨hsequence, hversion, rfl⟩
  · rintro ⟨hsequence, hversion, rfl⟩
    exact ⟨(), hsequence, (), hversion, rfl⟩

end Cursors

-- What a call does to the cursors: only the one of its scope changes.
inductive CursorEffect (reducer : Reducer) (t t' : CursorTable) (call : ProjectionCall) : Prop where
  | kept (hintake : call.intake reducer t = none) (hcursors : ∀ scope, cursorAt t' scope = cursorAt t scope)
  | applied (event : FinancialProjectionEvent) (hcall : call = .apply event)
      (hintake : call.intake reducer t = some (.item event))
      (hsequence : event.sequence = (cursorAt t call.scope).lastSequence + 1)
      (hreduce : reduceStep reducer (cursorAt t call.scope).projection event =
        .ok (cursorAt t' call.scope).projection)
      (hlast : (cursorAt t' call.scope).lastSequence = event.sequence)
      (hid : (cursorAt t' call.scope).lastEventId = some event.eventId)
      (hversion : (cursorAt t' call.scope).snapshotVersion = (cursorAt t call.scope).snapshotVersion)
      (hother : ∀ scope, scope ≠ call.scope → cursorAt t' scope = cursorAt t scope)
  | replaced (hintake : call.intake reducer t = some (.snapshot (cursorAt t' call.scope).lastSequence
        (cursorAt t' call.scope).projection))
      (hlast : (cursorAt t call.scope).lastSequence ≤ (cursorAt t' call.scope).lastSequence)
      (hversion : (cursorAt t call.scope).snapshotVersion ≤ (cursorAt t' call.scope).snapshotVersion)
      (hid : (cursorAt t' call.scope).lastEventId = none)
      (hother : ∀ scope, scope ≠ call.scope → cursorAt t' scope = cursorAt t scope)

section Effects

variable {reducer : Reducer} {t t' : CursorTable} {call : ProjectionCall} {result : ProjectionResult}

theorem intake_of_error {e : EventError} (h : call.run reducer t = .error e) :
    call.intake reducer t = none := by
  unfold ProjectionCall.intake
  rw [h]
  cases call <;> rfl

theorem applyProjectionEvent_effect {event : FinancialProjectionEvent}
    (h : applyProjectionEvent event reducer t = .ok (result, t')) :
    CursorEffect reducer t t' (.apply event) := by
  have hintake : ProjectionCall.intake reducer t (.apply event) =
      if result.status = .applied then some (.item event) else none := by
    simp only [ProjectionCall.intake, ProjectionCall.run, h]
  have hkept (hstatus : result.status ≠ .applied) (ht : t' = getOrCreateCursor event.scope t) :
      CursorEffect reducer t t' (.apply event) := by
    refine .kept (hintake.trans (if_neg hstatus)) fun scope => ?_
    rw [ht, cursorAt_getOrCreate]
  unfold applyProjectionEvent at h
  simp only [cursorAt_getOrCreate] at h
  split at h
  · split at h
    · obtain ⟨rfl, rfl⟩ := Prod.mk.inj (Except.ok.inj h)
      exact hkept (by simp) rfl
    · cases h
  · rename_i hne
    split at h
    · obtain ⟨rfl, rfl⟩ := Prod.mk.inj (Except.ok.inj h)
      exact hkept (by simp) rfl
    · rename_i hnotstale
      split at h
      · obtain ⟨rfl, rfl⟩ := Prod.mk.inj (Except.ok.inj h)
        exact hkept (by simp) rfl
      · rename_i hnotgap
        simp only [applyNext, bind_eq_ok, saveCursor_eq_ok, pure_eq_ok, Prod.mk.injEq, cursorAt_getOrCreate,
          Prod.exists] at h
        obtain ⟨reduced, hreduced, projection, digest, hcanonical, t₁, ⟨-, -, rfl⟩, rfl, rfl⟩ := h
        refine .applied event rfl (hintake.trans (if_pos rfl)) ?_ ?_ ?_ ?_ ?_ ?_
        · change event.sequence = (cursorAt t event.scope).lastSequence + 1
          omega
        · simp only [ProjectionCall.scope, cursorAt_put_self, reduceStep]
          rw [bind_of_ok hreduced, bind_of_ok hcanonical]
          rfl
        · simp only [ProjectionCall.scope, cursorAt_put_self]
        · simp only [ProjectionCall.scope, cursorAt_put_self]
        · simp only [ProjectionCall.scope, cursorAt_put_self]
        · intro scope hscope
          exact (cursorAt_put_of_ne hscope).trans cursorAt_getOrCreate

theorem replaceProjection_effect {scope : CursorScope} {snapshot : Snapshot}
    (h : replaceProjectionFromSnapshot scope snapshot t = .ok (result, t')) :
    CursorEffect reducer t t' (.replace scope snapshot) := by
  have hrun : ProjectionCall.run reducer t (.replace scope snapshot) = .ok (result, t') := h
  simp only [replaceProjectionFromSnapshot, bind_eq_ok, require_eq_ok, demand_eq_ok, saveCursor_eq_ok,
    pure_eq_ok, Prod.mk.injEq, Prod.exists, cursorAt_getOrCreate] at h
  obtain ⟨_, -, _, -, sequence, -, version, -, projection, digest, hcanonical, _, ⟨hlast, hversion⟩, t₁,
    ⟨-, -, rfl⟩, rfl, rfl⟩ := h
  refine .replaced ?_ ?_ ?_ ?_ ?_
  · simp only [ProjectionCall.intake, hrun, if_true, Snapshot.projected, hcanonical, ProjectionCall.scope,
      cursorAt_put_self]
  · simpa only [ProjectionCall.scope, cursorAt_put_self] using hlast
  · simpa only [ProjectionCall.scope, cursorAt_put_self] using hversion
  · simp only [ProjectionCall.scope, cursorAt_put_self]
  · intro scope' hscope
    exact (cursorAt_put_of_ne hscope).trans cursorAt_getOrCreate

theorem projectionStep_effect (reducer : Reducer) (t : CursorTable) (call : ProjectionCall) :
    CursorEffect reducer t (projectionStep reducer t call) call := by
  unfold projectionStep
  cases hrun : call.run reducer t with
  | error e =>
    rw [commit_of_error hrun]
    exact .kept (intake_of_error hrun) fun _ => rfl
  | ok p =>
    obtain ⟨result, t'⟩ := p
    rw [commit_of_ok hrun]
    cases call with
    | apply event => exact applyProjectionEvent_effect hrun
    | replace scope snapshot => exact replaceProjection_effect hrun

end Effects

section Stream

variable {reducer : Reducer} {t t' : CursorTable} {call : ProjectionCall} {scope : CursorScope}

def Cursor.Before (cursor cursor' : FinancialProjectionCursor) : Prop :=
  cursor.lastSequence ≤ cursor'.lastSequence ∧ cursor.snapshotVersion ≤ cursor'.snapshotVersion

theorem CursorEffect.other (h : CursorEffect reducer t t' call) (hscope : scope ≠ call.scope) :
    cursorAt t' scope = cursorAt t scope := by
  cases h with
  | kept hintake hcursors => exact hcursors scope
  | applied event hcall hintake hsequence hreduce hlast hid hversion hother => exact hother scope hscope
  | replaced hintake hlast hversion hid hother => exact hother scope hscope

theorem CursorEffect.before (h : CursorEffect reducer t t' call) (scope : CursorScope) :
    Cursor.Before (cursorAt t scope) (cursorAt t' scope) := by
  by_cases hscope : scope = call.scope
  · subst hscope
    cases h with
    | kept hintake hcursors =>
      rw [hcursors]
      exact ⟨le_rfl, le_rfl⟩
    | applied event hcall hintake hsequence hreduce hlast hid hversion hother =>
      refine ⟨?_, hversion.ge⟩
      rw [hlast, hsequence]
      exact Nat.le_succ _
    | replaced hintake hlast hversion hid hother => exact ⟨hlast, hversion⟩
  · rw [h.other hscope]
    exact ⟨le_rfl, le_rfl⟩

end Stream

end Beyvra
