import Beyvra.Foundation.Records

namespace Beyvra

open Relational

namespace PostTradeExceptions

inductive ExceptionState where
  | open | assigned | investigating | escalated | resolved
  deriving DecidableEq

-- The reference of a user, str(user.pk), is never blank; a blank column is none.
structure ActorRef where
  ref : String
  nonempty : ref ≠ ""
  deriving DecidableEq

structure PostTradeException where
  trade : Uuid
  exceptionType : String
  severity : String
  state : ExceptionState := .open
  detectedAt : Timestamp
  assignedTo : Option ActorRef := none
  resolvedAt : Option Timestamp := none
  resolutionCode : String := ""
  requestedBy : Option ActorRef := none
  approvedBy : Option ActorRef := none
  updatedAt : Timestamp
  deriving DecidableEq

def PostTradeException.critical (row : PostTradeException) : Prop := row.severity = "CRITICAL"

instance (row : PostTradeException) : Decidable row.critical := inferInstanceAs (Decidable (_ = _))

-- The rows stand in the order of their inserts; a row is named by its place.
abbrev Exceptions := List PostTradeException

def openStates : List ExceptionState := [.open, .assigned, .investigating, .escalated]

def openException (now : Timestamp) (trade : Uuid) (exceptionType severity : String) (rows : Exceptions) : Exceptions :=
  if ∃ row ∈ rows, row.trade = trade ∧ row.exceptionType = exceptionType ∧ row.state ∈ openStates then rows
  else rows ++ [{ trade, exceptionType, severity, detectedAt := now, updatedAt := now }]

def invalidTransition : Error := .valueError "INVALID_EXCEPTION_TRANSITION"

def assign (now : Timestamp) (id : Nat) (actorRef : ActorRef) (rows : Exceptions) : Outcome Exceptions := do
  let row ← demand rows[id]? (.doesNotExist "PostTradeException")
  require (row.state ∈ [ExceptionState.open, .escalated]) invalidTransition
  pure (rows.set id { row with
    assignedTo := some actorRef
    state := .assigned
    requestedBy := if row.critical ∧ row.requestedBy = none then some actorRef else row.requestedBy
    updatedAt := now })

def escalate (now : Timestamp) (id : Nat) (rows : Exceptions) : Outcome Exceptions := do
  let row ← demand rows[id]? (.doesNotExist "PostTradeException")
  require (row.state ∈ [ExceptionState.open, .assigned, .investigating]) invalidTransition
  pure (rows.set id { row with state := .escalated, updatedAt := now })

def resolve (now : Timestamp) (id : Nat) (actorRef : ActorRef) (resolutionCode : String) (rows : Exceptions) :
    Outcome Exceptions := do
  let row ← demand rows[id]? (.doesNotExist "PostTradeException")
  require (row.state ≠ .resolved) invalidTransition
  require (¬(row.critical ∧ (row.requestedBy = none ∨ row.requestedBy = some actorRef)))
    (.valueError "SELF_APPROVAL_FORBIDDEN")
  pure (rows.set id { row with
    state := .resolved, resolvedAt := some now, resolutionCode, approvedBy := some actorRef, updatedAt := now })

inductive ExceptionCommand where
  | open (now : Timestamp) (trade : Uuid) (exceptionType severity : String)
  | assign (now : Timestamp) (id : Nat) (actorRef : ActorRef)
  | escalate (now : Timestamp) (id : Nat)
  | resolve (now : Timestamp) (id : Nat) (actorRef : ActorRef) (resolutionCode : String)

def ExceptionCommand.run : ExceptionCommand → Exceptions → Outcome Exceptions
  | .open now trade exceptionType severity => fun rows => pure (openException now trade exceptionType severity rows)
  | .assign now id actorRef => PostTradeExceptions.assign now id actorRef
  | .escalate now id => PostTradeExceptions.escalate now id
  | .resolve now id actorRef resolutionCode => PostTradeExceptions.resolve now id actorRef resolutionCode

-- assignees holds the actors each exception was ever assigned to.
structure ExceptionHistory where
  rows : Exceptions := []
  assignees : Nat → List ActorRef := fun _ => []

def ExceptionCommand.assignee : ExceptionCommand → Option (Nat × ActorRef)
  | .assign _ id actorRef => some (id, actorRef)
  | _ => none

namespace ExceptionHistory

def step (h : ExceptionHistory) (command : ExceptionCommand) : ExceptionHistory :=
  match command.run h.rows with
  | .ok rows =>
    { rows
      assignees := match command.assignee with
        | some (id, actorRef) => Function.update h.assignees id (actorRef :: h.assignees id)
        | none => h.assignees }
  | .error _ => h

def Independent (h : ExceptionHistory) : Prop :=
  ∀ id row now actorRef resolutionCode rows', h.rows[id]? = some row → row.critical →
    resolve now id actorRef resolutionCode h.rows = .ok rows' → actorRef ∉ h.assignees id

-- A critical exception is only assigned to the actor it was first assigned to.
def OneAssignee (h : ExceptionHistory) : ExceptionCommand → Prop
  | .assign _ id actorRef => ∀ row first, h.rows[id]? = some row → row.critical →
      row.state ∈ [ExceptionState.open, .escalated] → row.requestedBy = some first → first = actorRef
  | _ => True

def EachRow (P : PostTradeException → List ActorRef → Prop) (h : ExceptionHistory) : Prop :=
  ∀ id row, h.rows[id]? = some row → P row (h.assignees id)

structure Remembered (h : ExceptionHistory) : Prop where
  requested : h.EachRow fun row assignees => row.critical → assignees ≠ [] → row.requestedBy ≠ none
  existing : ∀ id, h.rows[id]? = none → h.assignees id = []

def SoleAssignee (h : ExceptionHistory) : Prop :=
  h.EachRow fun row assignees => row.critical → row.state ≠ .resolved →
    ∀ actorRef ∈ assignees, row.requestedBy = some actorRef

end ExceptionHistory

section Step

variable {h : ExceptionHistory} {rows rows' : Exceptions} {now : Timestamp} {id : Nat} {actorRef : ActorRef}
  {resolutionCode : String} {command : ExceptionCommand} {row : PostTradeException}

theorem assign_eq_ok : assign now id actorRef rows = .ok rows' ↔
    ∃ row, rows[id]? = some row ∧ row.state ∈ [ExceptionState.open, .escalated] ∧
      rows' = rows.set id { row with
        assignedTo := some actorRef
        state := .assigned
        requestedBy := if row.critical ∧ row.requestedBy = none then some actorRef else row.requestedBy
        updatedAt := now } := by
  unfold assign
  simp only [bind_eq_ok, demand_eq_ok, require_eq_ok, pure_eq_ok, exists_const, eq_comm (a := rows')]

theorem escalate_eq_ok : escalate now id rows = .ok rows' ↔
    ∃ row, rows[id]? = some row ∧ row.state ∈ [ExceptionState.open, .assigned, .investigating] ∧
      rows' = rows.set id { row with state := .escalated, updatedAt := now } := by
  unfold escalate
  simp only [bind_eq_ok, demand_eq_ok, require_eq_ok, pure_eq_ok, exists_const, eq_comm (a := rows')]

theorem resolve_eq_ok : resolve now id actorRef resolutionCode rows = .ok rows' ↔
    ∃ row, rows[id]? = some row ∧ row.state ≠ .resolved ∧
      ¬(row.critical ∧ (row.requestedBy = none ∨ row.requestedBy = some actorRef)) ∧
      rows' = rows.set id { row with
        state := .resolved, resolvedAt := some now, resolutionCode, approvedBy := some actorRef
        updatedAt := now } := by
  unfold resolve
  simp only [bind_eq_ok, demand_eq_ok, require_eq_ok, pure_eq_ok, exists_const, eq_comm (a := rows')]

theorem independent_iff (hremembered : h.Remembered) : h.Independent ↔ h.SoleAssignee := by
  constructor
  · intro hindependent id row hrow hcritical hstate actorRef hassigned
    by_contra hother
    have hrequested : row.requestedBy ≠ none :=
      hremembered.requested id row hrow hcritical (List.ne_nil_of_mem hassigned)
    have hallowed : ¬(row.critical ∧ (row.requestedBy = none ∨ row.requestedBy = some actorRef)) := by
      rintro ⟨-, hnone | hsame⟩
      · exact hrequested hnone
      · exact hother hsame
    have hresolve : resolve 0 id actorRef "" h.rows = .ok _ :=
      resolve_eq_ok.mpr ⟨row, hrow, hstate, hallowed, rfl⟩
    exact hindependent id row 0 actorRef "" _ hrow hcritical hresolve hassigned
  · intro hsole id row now actorRef resolutionCode rows' hrow hcritical hresolve hassigned
    obtain ⟨row', hrow', hstate, hallowed, -⟩ := resolve_eq_ok.mp hresolve
    obtain rfl := Option.some.inj (hrow.symm.trans hrow')
    exact hallowed ⟨hcritical, .inr (hsole id row hrow hcritical hstate actorRef hassigned)⟩

variable {h' : ExceptionHistory} {row' : PostTradeException} {P : PostTradeException → List ActorRef → Prop}

theorem found_set (hrow : rows[id]? = some row) (id' : Nat) :
    (rows.set id row')[id']? = if id' = id then some row' else rows[id']? := by
  rw [List.getElem?_set]
  by_cases hid : id' = id
  · subst hid
    simp [(List.getElem?_eq_some_iff.mp hrow).1]
  · simp [hid, Ne.symm hid]

theorem eachRow_set (h0 : h.EachRow P) (hrow : h.rows[id]? = some row) (hrows : h'.rows = h.rows.set id row')
    (hothers : ∀ id', id' ≠ id → h'.assignees id' = h.assignees id') :
    h'.EachRow P ↔ P row' (h'.assignees id) := by
  unfold ExceptionHistory.EachRow
  simp only [hrows, found_set hrow]
  constructor
  · intro hall
    exact hall id row' (if_pos rfl)
  · intro hid id' found hfound
    by_cases heq : id' = id
    · subst heq
      rw [if_pos rfl] at hfound
      exact Option.some.inj hfound ▸ hid
    · rw [if_neg heq] at hfound
      exact hothers id' heq ▸ h0 id' found hfound

theorem eachRow_append (h0 : h.EachRow P) (hrows : h'.rows = h.rows ++ [row])
    (hassignees : h'.assignees = h.assignees) (hnew : P row (h.assignees h.rows.length)) : h'.EachRow P := by
  intro id found hfound
  rw [hrows] at hfound
  rw [hassignees]
  rcases lt_trichotomy id h.rows.length with hlt | rfl | hgt
  · rw [List.getElem?_append_left hlt] at hfound
    exact h0 id found hfound
  · rw [List.getElem?_concat_length] at hfound
    exact Option.some.inj hfound ▸ hnew
  · rw [List.getElem?_eq_none (by simpa using hgt)] at hfound
    cases hfound

theorem step_of_ok (hrun : command.run h.rows = .ok rows) : h.step command =
    { rows
      assignees := match command.assignee with
        | some (id, actorRef) => Function.update h.assignees id (actorRef :: h.assignees id)
        | none => h.assignees } := by
  simp only [ExceptionHistory.step, hrun]

theorem step_of_error {e : Error} (hrun : command.run h.rows = .error e) : h.step command = h := by
  simp only [ExceptionHistory.step, hrun]

theorem openException_cases (rows : Exceptions) {trade : Uuid} {exceptionType severity : String} :
    openException now trade exceptionType severity rows = rows ∨
      ∃ row, row.requestedBy = none ∧ openException now trade exceptionType severity rows = rows ++ [row] := by
  unfold openException
  split
  · exact .inl rfl
  · exact .inr ⟨_, rfl, rfl⟩

theorem remembered_set (hremembered : h.Remembered) (hrow : h.rows[id]? = some row)
    (hrows : h'.rows = h.rows.set id row') (hothers : ∀ id', id' ≠ id → h'.assignees id' = h.assignees id')
    (hkept : row'.critical → h'.assignees id ≠ [] → row'.requestedBy ≠ none) : h'.Remembered where
  requested := (eachRow_set hremembered.requested hrow hrows hothers).mpr hkept
  existing id' hid' := by
    rw [hrows, found_set hrow] at hid'
    by_cases heq : id' = id
    · rw [if_pos heq] at hid'
      cases hid'
    · rw [if_neg heq] at hid'
      rw [hothers id' heq]
      exact hremembered.existing id' hid'

theorem remembered_step (hremembered : h.Remembered) : (h.step command).Remembered := by
  cases hrun : command.run h.rows with
  | error e =>
    rw [step_of_error hrun]
    exact hremembered
  | ok rows =>
    rw [step_of_ok hrun]
    cases command with
    | «open» now trade exceptionType severity =>
      obtain rfl := pure_eq_ok.mp hrun
      obtain heq | ⟨row, hnone, heq⟩ := openException_cases h.rows
      · rw [heq]
        exact hremembered
      · rw [heq]
        have hunassigned : h.assignees h.rows.length = [] :=
          hremembered.existing _ (List.getElem?_eq_none le_rfl)
        refine ⟨eachRow_append hremembered.requested rfl rfl fun _ hassigned => absurd hunassigned hassigned, ?_⟩
        intro id hid
        refine hremembered.existing id (List.getElem?_eq_none ?_)
        have hlength := List.getElem?_eq_none_iff.mp hid
        rw [List.length_append] at hlength
        omega
    | assign now id actorRef =>
      obtain ⟨row, hrow, -, rfl⟩ := assign_eq_ok.mp hrun
      refine remembered_set hremembered hrow rfl (fun id' hid' => Function.update_of_ne hid' ..) ?_
      intro hcritical _
      dsimp only
      split
      · simp
      · rename_i hrequested
        exact fun hnone => hrequested ⟨hcritical, hnone⟩
    | escalate now id =>
      obtain ⟨row, hrow, -, rfl⟩ := escalate_eq_ok.mp hrun
      exact remembered_set hremembered hrow rfl (fun _ _ => rfl) (hremembered.requested id row hrow)
    | resolve now id actorRef resolutionCode =>
      obtain ⟨row, hrow, -, -, rfl⟩ := resolve_eq_ok.mp hrun
      exact remembered_set hremembered hrow rfl (fun _ _ => rfl) (hremembered.requested id row hrow)

theorem sole_set (hsole : h.SoleAssignee) (hrow : h.rows[id]? = some row)
    (hrows : h'.rows = h.rows.set id row') (hothers : ∀ id', id' ≠ id → h'.assignees id' = h.assignees id') :
    h'.SoleAssignee ↔ (row'.critical → row'.state ≠ .resolved →
      ∀ actorRef ∈ h'.assignees id, row'.requestedBy = some actorRef) :=
  eachRow_set hsole hrow hrows hothers

theorem sole_step_iff (hremembered : h.Remembered) (hsole : h.SoleAssignee) :
    (h.step command).SoleAssignee ↔ h.OneAssignee command := by
  cases hrun : command.run h.rows with
  | error e =>
    rw [step_of_error hrun]
    refine iff_of_true hsole ?_
    cases command with
    | assign now id actorRef =>
      intro row first hrow _ hstate
      have hassign : assign now id actorRef h.rows = .ok _ := assign_eq_ok.mpr ⟨row, hrow, hstate, rfl⟩
      cases hrun.symm.trans hassign
    | _ => trivial
  | ok rows =>
    rw [step_of_ok hrun]
    cases command with
    | «open» now trade exceptionType severity =>
      obtain rfl := pure_eq_ok.mp hrun
      refine iff_of_true ?_ trivial
      obtain heq | ⟨row, -, heq⟩ := openException_cases h.rows
      · rw [heq]
        exact hsole
      · rw [heq]
        have hunassigned : h.assignees h.rows.length = [] :=
          hremembered.existing _ (List.getElem?_eq_none le_rfl)
        refine eachRow_append hsole rfl rfl fun _ _ actorRef hassigned => ?_
        rw [hunassigned] at hassigned
        cases hassigned
    | assign now id actorRef =>
      obtain ⟨row, hrow, hstate, rfl⟩ := assign_eq_ok.mp hrun
      rw [sole_set hsole hrow rfl fun id' hid' => Function.update_of_ne hid' ..]
      dsimp only [ExceptionCommand.assignee]
      rw [Function.update_self]
      have hunresolved : row.state ≠ .resolved := by
        rintro hresolved
        rw [hresolved] at hstate
        revert hstate
        decide
      constructor
      · intro hkept row₀ first hrow₀ hcritical _ hfirst
        obtain rfl := Option.some.inj (hrow.symm.trans hrow₀)
        have hrequested := hkept hcritical (by decide) actorRef List.mem_cons_self
        rw [if_neg (by simp [hfirst]), hfirst] at hrequested
        exact Option.some.inj hrequested
      · intro hone hcritical _ actorRef' hassigned
        change row.critical at hcritical
        cases hrequested : row.requestedBy with
        | none =>
          have hunassigned : h.assignees id = [] := by
            by_contra hassignees
            exact hremembered.requested id row hrow hcritical hassignees hrequested
          rw [if_pos ⟨hcritical, rfl⟩]
          rw [hunassigned] at hassigned
          exact congrArg some (List.mem_singleton.mp hassigned).symm
        | some first =>
          rw [if_neg (by simp)]
          obtain rfl := hone row first hrow hcritical hstate hrequested
          rcases List.mem_cons.mp hassigned with rfl | hbefore
          · rfl
          · exact hrequested.symm.trans (hsole id row hrow hcritical hunresolved actorRef' hbefore)
    | escalate now id =>
      obtain ⟨row, hrow, hstate, rfl⟩ := escalate_eq_ok.mp hrun
      refine iff_of_true (Iff.mpr (sole_set hsole hrow rfl fun _ _ => rfl) ?_) trivial
      intro hcritical _
      refine hsole id row hrow hcritical fun hresolved => ?_
      rw [hresolved] at hstate
      revert hstate
      decide
    | resolve now id actorRef resolutionCode =>
      obtain ⟨row, hrow, -, -, rfl⟩ := resolve_eq_ok.mp hrun
      refine iff_of_true (Iff.mpr (sole_set hsole hrow rfl fun _ _ => rfl) ?_) trivial
      exact fun _ hresolved => absurd rfl hresolved

end Step

theorem resolver_independent_iff (commands : List ExceptionCommand) :
    (∀ before after, commands = before ++ after → (before.foldl ExceptionHistory.step {}).Independent) ↔
      Throughout ExceptionHistory.step ExceptionHistory.OneAssignee commands {} := by
  have hremembered : ExceptionHistory.Remembered {} := ⟨fun id row hrow => (by cases hrow), fun _ _ => rfl⟩
  have hsole : ExceptionHistory.SoleAssignee {} := fun id row hrow => by cases hrow
  rw [← always_iff_throughout (fun h command hkept => remembered_step hkept)
    (fun h command hkept hsole => sole_step_iff hkept hsole) hremembered hsole]
  refine forall_congr' fun before => forall_congr' fun after => forall_congr' fun _ => independent_iff ?_
  have hrun : Reaches ExceptionHistory.step (fun _ _ => True) {} (before.foldl ExceptionHistory.step {}) :=
    .of_foldl fun _ _ _ => trivial
  exact hrun.invariant hremembered fun h command hkept _ => remembered_step hkept

def analyst : ActorRef := ⟨"analyst", by decide⟩

def colleague : ActorRef := ⟨"colleague", by decide⟩

-- The analyst hands the exception over by escalating it, and the second assignee resolves his own case.
def handedOver : List ExceptionCommand :=
  [.open 1 "trade" "POSITION_MISMATCH" "CRITICAL", .assign 2 0 analyst, .escalate 3 0, .assign 4 0 colleague]

theorem assignee_resolves : ¬∀ commands : List ExceptionCommand,
    (commands.foldl ExceptionHistory.step {}).Independent := by
  intro h
  refine h handedOver 0 _ 5 colleague "REVIEWED" _ rfl rfl rfl ?_
  decide

end PostTradeExceptions

end Beyvra
