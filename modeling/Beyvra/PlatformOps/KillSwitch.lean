import Beyvra.Foundation.Records

namespace Beyvra

open Relational

namespace KillSwitches

inductive SwitchState where
  | active | inactive
  deriving DecidableEq

-- The switch of a code at scope GLOBAL.
structure KillSwitch where
  state : SwitchState := .inactive
  reasonCode : String := ""
  activatedBy : Option Nat := none
  activatedAt : Option Timestamp := none
  version : Nat := 1
  deriving DecidableEq

inductive RequestState where
  | pending | approved
  deriving DecidableEq

structure KillSwitchDeactivationRequest where
  switch : String
  requestedBy : Nat
  approvedBy : Option Nat := none
  reasonCode : String
  state : RequestState := .pending
  requestedAt : Timestamp
  decidedAt : Option Timestamp := none
  deriving DecidableEq

-- The primary key of a request is its place in the order of the inserts.
structure SwitchTables where
  switches : Table String KillSwitch
  requests : List KillSwitchDeactivationRequest := []

def activate (now : Timestamp) (code : String) (actor : Nat) (reasonCode : String) (s : SwitchTables) :
    Outcome SwitchTables := do
  let switch ← fetch s.switches code (.doesNotExist "KillSwitch")
  pure { s with switches := s.switches.put code { switch with
    state := .active, reasonCode, activatedBy := some actor, activatedAt := some now
    version := switch.version + 1 } }

def requestDeactivation (now : Timestamp) (code : String) (actor : Nat) (reasonCode : String) (s : SwitchTables) :
    Outcome SwitchTables := do
  let _ ← fetch s.switches code (.doesNotExist "KillSwitch")
  pure { s with requests := s.requests ++
    [{ switch := code, requestedBy := actor, reasonCode, requestedAt := now }] }

def approveDeactivation (now : Timestamp) (code : String) (requestId : Nat) (actor : Nat) (s : SwitchTables) :
    Outcome SwitchTables := do
  let req ← demand (s.requests[requestId]?.filter fun req => req.switch = code && req.state = .pending)
    (.doesNotExist "KillSwitchDeactivationRequest")
  require (req.requestedBy ≠ actor) (.valueError "MAKER_CHECKER_REQUIRED")
  let switch ← fetch s.switches req.switch (.doesNotExist "KillSwitch")
  pure { switches := s.switches.put req.switch { switch with
           state := .inactive, version := switch.version + 1 }
         requests := s.requests.set requestId { req with
           state := .approved, approvedBy := some actor, decidedAt := some now } }

inductive SwitchCommand where
  | activate (now : Timestamp) (code : String) (actor : Nat) (reasonCode : String)
  | requestDeactivation (now : Timestamp) (code : String) (actor : Nat) (reasonCode : String)
  | approveDeactivation (now : Timestamp) (code : String) (requestId : Nat) (actor : Nat)

def SwitchCommand.run : SwitchCommand → SwitchTables → Outcome SwitchTables
  | .activate now code actor reasonCode => KillSwitches.activate now code actor reasonCode
  | .requestDeactivation now code actor reasonCode => KillSwitches.requestDeactivation now code actor reasonCode
  | .approveDeactivation now code requestId actor => KillSwitches.approveDeactivation now code requestId actor

inductive SwitchEvent where
  | activated (code : String) (actor : Nat)
  | requested (id : Nat) (code : String) (actor : Nat)
  | approved (id : Nat) (code : String) (actor : Nat)
  deriving DecidableEq

-- The log holds what the accepted commands did, the latest first.
structure SwitchHistory where
  tables : SwitchTables
  log : List SwitchEvent := []

def SwitchCommand.event (s : SwitchTables) : SwitchCommand → SwitchEvent
  | .activate _ code actor _ => .activated code actor
  | .requestDeactivation _ code actor _ => .requested s.requests.length code actor
  | .approveDeactivation _ code requestId actor => .approved requestId code actor

def SwitchEvent.activates (code : String) : SwitchEvent → Bool
  | .activated code' _ => code' = code
  | _ => false

def sinceActivation (code : String) (log : List SwitchEvent) : List SwitchEvent :=
  log.takeWhile fun event => !event.activates code

namespace SwitchHistory

def start (switches : Table String KillSwitch) : SwitchHistory := { tables := { switches } }

def step (h : SwitchHistory) (command : SwitchCommand) : SwitchHistory :=
  match command.run h.tables with
  | .ok s => { tables := s, log := command.event h.tables :: h.log }
  | .error _ => h

def Shows (h : SwitchHistory) (code : String) (state : SwitchState) : Prop :=
  ∃ switch, h.tables.switches.find code = some switch ∧ switch.state = state

def TwoPersonRule (h : SwitchHistory) (command : SwitchCommand) : Prop :=
  ∀ code, h.Shows code .active → (h.step command).Shows code .inactive →
    ∃ id requester approver, requester ≠ approver ∧
      (h.step command).log = .approved id code approver :: h.log ∧
      .requested id code requester ∈ sinceActivation code h.log

-- An approval of an active switch names no request that an activation came after.
def Fresh (h : SwitchHistory) : SwitchCommand → Prop
  | .approveDeactivation _ code requestId actor => ∀ req, h.tables.requests[requestId]? = some req →
      req.switch = code → req.state = .pending → req.requestedBy ≠ actor → h.Shows code .active →
        .requested requestId code req.requestedBy ∈ sinceActivation code h.log
  | _ => True

def Recorded (h : SwitchHistory) : Prop :=
  ∀ id code actor, .requested id code actor ∈ h.log ↔
    ∃ req, h.tables.requests[id]? = some req ∧ req.switch = code ∧ req.requestedBy = actor

end SwitchHistory

section Step

variable {s s' : SwitchTables} {h : SwitchHistory} {now : Timestamp} {code : String} {requestId actor : Nat}
  {reasonCode : String} {command : SwitchCommand}

theorem approveDeactivation_eq_ok : approveDeactivation now code requestId actor s = .ok s' ↔
    ∃ req switch, s.requests[requestId]? = some req ∧ req.switch = code ∧ req.state = .pending ∧
      req.requestedBy ≠ actor ∧ s.switches.find code = some switch ∧
      s' = { switches := s.switches.put code { switch with state := .inactive, version := switch.version + 1 }
             requests := s.requests.set requestId { req with
               state := .approved, approvedBy := some actor, decidedAt := some now } } := by
  unfold approveDeactivation
  simp only [bind_eq_ok, demand_eq_ok, require_eq_ok, fetch_eq_ok, pure_eq_ok, Option.filter_eq_some_iff,
    Bool.and_eq_true, decide_eq_true_eq]
  constructor
  · rintro ⟨req, ⟨hreq, rfl, hpending⟩, _, hactor, switch, hswitch, rfl⟩
    exact ⟨req, switch, hreq, rfl, hpending, hactor, hswitch, rfl⟩
  · rintro ⟨req, switch, hreq, rfl, hpending, hactor, hswitch, rfl⟩
    exact ⟨req, ⟨hreq, rfl, hpending⟩, (), hactor, switch, hswitch, rfl⟩

theorem activate_eq_ok : activate now code actor reasonCode s = .ok s' ↔
    ∃ switch, s.switches.find code = some switch ∧ s' = { s with switches := s.switches.put code { switch with
      state := .active, reasonCode, activatedBy := some actor, activatedAt := some now
      version := switch.version + 1 } } := by
  unfold activate
  simp only [bind_eq_ok, fetch_eq_ok, pure_eq_ok, eq_comm (a := s')]

theorem requestDeactivation_eq_ok : requestDeactivation now code actor reasonCode s = .ok s' ↔
    (∃ switch, s.switches.find code = some switch) ∧ s' = { s with requests := s.requests ++
      [{ switch := code, requestedBy := actor, reasonCode, requestedAt := now }] } := by
  unfold requestDeactivation
  simp only [bind_eq_ok, fetch_eq_ok, pure_eq_ok, eq_comm (a := s'), exists_and_right]

theorem step_of_ok (hrun : command.run h.tables = .ok s') :
    h.step command = { tables := s', log := command.event h.tables :: h.log } := by
  simp only [SwitchHistory.step, hrun]

theorem step_cases (h : SwitchHistory) (command : SwitchCommand) : (∃ s', command.run h.tables = .ok s' ∧
      h.step command = { tables := s', log := command.event h.tables :: h.log }) ∨ h.step command = h := by
  cases hrun : command.run h.tables with
  | error e => exact .inr (by simp only [SwitchHistory.step, hrun])
  | ok s' => exact .inl ⟨s', rfl, step_of_ok hrun⟩

theorem recorded_step (hrecorded : h.Recorded) : (h.step command).Recorded := by
  obtain ⟨s', hrun, heq⟩ | heq := step_cases h command
  · rw [heq]
    intro id code' actor'
    dsimp only
    rw [List.mem_cons, hrecorded]
    cases command with
    | activate now code actor reasonCode =>
      obtain ⟨switch, -, rfl⟩ := activate_eq_ok.mp hrun
      simp [SwitchCommand.event]
    | requestDeactivation now code actor reasonCode =>
      obtain ⟨-, rfl⟩ := requestDeactivation_eq_ok.mp hrun
      simp only [SwitchCommand.event, SwitchEvent.requested.injEq]
      rcases lt_trichotomy id h.tables.requests.length with hlt | rfl | hgt
      · rw [List.getElem?_append_left hlt]
        exact or_iff_right fun hnew => absurd hnew.1 hlt.ne
      · rw [List.getElem?_eq_none le_rfl, List.getElem?_append_right le_rfl]
        simp [eq_comm]
      · rw [List.getElem?_eq_none hgt.le, List.getElem?_eq_none (by simpa using hgt)]
        simp [hgt.ne']
    | approveDeactivation now code requestId actor =>
      obtain ⟨req, switch, hreq, -, -, -, -, rfl⟩ := approveDeactivation_eq_ok.mp hrun
      simp only [SwitchCommand.event, reduceCtorEq, false_or, List.getElem?_set]
      by_cases hid : requestId = id
      · subst hid
        obtain ⟨hlt, hget⟩ := List.getElem?_eq_some_iff.mp hreq
        simp [hlt, hget]
      · simp [hid]
  · rw [heq]
    exact hrecorded

theorem not_shows_inactive (hactive : h.Shows code .active) : ¬h.Shows code .inactive := by
  obtain ⟨switch, hswitch, hstate⟩ := hactive
  rintro ⟨switch', hswitch', hstate'⟩
  obtain rfl := Option.some.inj (hswitch.symm.trans hswitch')
  cases hstate.symm.trans hstate'

theorem shows_put_of_ne {h' : SwitchHistory} {code' : String} {switch : KillSwitch} {state : SwitchState}
    (hput : h'.tables.switches = h.tables.switches.put code' switch) (hne : code ≠ code') :
    h'.Shows code state ↔ h.Shows code state := by
  unfold SwitchHistory.Shows
  rw [hput, Table.find_put_of_ne _ _ hne]

theorem twoPersonRule_of_fresh (hfresh : h.Fresh command) : h.TwoPersonRule command := by
  rintro code hactive hinactive
  obtain ⟨s', hrun, heq⟩ | heq := step_cases h command
  · cases command with
    | activate now code' actor reasonCode =>
      obtain ⟨switch, -, rfl⟩ := activate_eq_ok.mp hrun
      rw [heq] at hinactive
      by_cases hcode : code = code'
      · subst hcode
        obtain ⟨switch', hswitch', hstate⟩ := hinactive
        rw [Table.find_put_self] at hswitch'
        obtain rfl := Option.some.inj hswitch'
        cases hstate
      · exact absurd ((shows_put_of_ne rfl hcode).mp hinactive) (not_shows_inactive hactive)
    | requestDeactivation now code' actor reasonCode =>
      obtain ⟨-, rfl⟩ := requestDeactivation_eq_ok.mp hrun
      rw [heq] at hinactive
      exact absurd hinactive (not_shows_inactive hactive)
    | approveDeactivation now code' requestId actor =>
      obtain ⟨req, switch, hreq, hreqCode, hpending, hactor, -, rfl⟩ := approveDeactivation_eq_ok.mp hrun
      by_cases hcode : code = code'
      · subst hcode
        refine ⟨requestId, req.requestedBy, actor, hactor, by rw [heq]; rfl, ?_⟩
        exact hfresh req hreq hreqCode hpending hactor hactive
      · rw [heq] at hinactive
        exact absurd ((shows_put_of_ne rfl hcode).mp hinactive) (not_shows_inactive hactive)
  · rw [heq] at hinactive
    exact absurd hinactive (not_shows_inactive hactive)

theorem fresh_of_twoPersonRule (hrecorded : h.Recorded) (hrule : h.TwoPersonRule command) : h.Fresh command := by
  cases command with
  | activate now code actor reasonCode => trivial
  | requestDeactivation now code actor reasonCode => trivial
  | approveDeactivation now code requestId actor =>
    intro req hreq hcode hpending hactor hactive
    have ⟨switch, hswitch, _⟩ := hactive
    have heq := step_of_ok (show SwitchCommand.run (.approveDeactivation now code requestId actor) h.tables = _ from
      approveDeactivation_eq_ok.mpr ⟨req, switch, hreq, hcode, hpending, hactor, hswitch, rfl⟩)
    obtain ⟨id, requester, approver, -, hlog, hrequested⟩ := hrule code hactive
      ⟨_, by rw [heq]; exact Table.find_put_self .., rfl⟩
    rw [heq] at hlog
    obtain ⟨rfl, -, -⟩ := SwitchEvent.approved.inj (List.cons.inj hlog).1
    obtain ⟨req', hreq', -, rfl⟩ := (hrecorded _ _ _).mp (List.takeWhile_subset _ hrequested)
    obtain rfl := Option.some.inj (hreq.symm.trans hreq')
    exact hrequested

end Step

theorem two_person_rule_iff (switches : Table String KillSwitch) (commands : List SwitchCommand) :
    (∀ before command after, commands = before ++ command :: after →
      (before.foldl SwitchHistory.step (.start switches)).TwoPersonRule command) ↔
    Throughout SwitchHistory.step SwitchHistory.Fresh commands (.start switches) := by
  have hstart : (SwitchHistory.start switches).Recorded := fun id code actor => by simp [SwitchHistory.start]
  rw [throughout_iff]
  refine forall_congr' fun before => forall₃_congr fun command after _ => ?_
  have hrecorded : (before.foldl SwitchHistory.step (.start switches)).Recorded := by
    have hrun : Reaches SwitchHistory.step (fun _ _ => True) (.start switches)
        (before.foldl SwitchHistory.step (.start switches)) := .of_foldl fun _ _ _ => trivial
    exact hrun.invariant hstart fun h command hrecorded _ => recorded_step hrecorded
  exact ⟨fresh_of_twoPersonRule hrecorded, twoPersonRule_of_fresh⟩

-- The switch is activated again after operator 1 asked for its release, and operator 2 approves the old request.
def reactivated : List SwitchCommand :=
  [.activate 1 "TRADING_HALT" 7 "outage", .requestDeactivation 2 "TRADING_HALT" 1 "recovered",
    .activate 3 "TRADING_HALT" 7 "second outage"]

theorem stale_request_approved : ¬∀ (switches : Table String KillSwitch) (before after : List SwitchCommand)
    (command : SwitchCommand) (commands : List SwitchCommand), commands = before ++ command :: after →
      (before.foldl SwitchHistory.step (.start switches)).TwoPersonRule command := by
  intro h
  obtain ⟨id, requester, approver, -, -, hrequested⟩ := h (Table.empty.put "TRADING_HALT" {}) reactivated []
    (.approveDeactivation 4 "TRADING_HALT" 0 2) _ rfl "TRADING_HALT" ⟨_, rfl, rfl⟩ ⟨_, rfl, rfl⟩
  cases hrequested

end KillSwitches

end Beyvra
