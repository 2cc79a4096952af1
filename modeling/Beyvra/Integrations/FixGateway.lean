import Mathlib.Data.Finset.Card
import Beyvra.Foundation.Integers
import Beyvra.Relational.Transaction

namespace Beyvra

open Relational

namespace FixGateway

inductive SessionState where
  | disconnected | connecting | loggedOn | recovering | loggingOut | failed
  deriving DecidableEq

open SessionState

def stateNames : List (String × SessionState) :=
  [("DISCONNECTED", disconnected), ("CONNECTING", connecting), ("LOGGED_ON", loggedOn), ("RECOVERING", recovering),
    ("LOGGING_OUT", loggingOut), ("FAILED", failed)]

def sessionTransitions : SessionState → List SessionState
  | .disconnected => [connecting]
  | .connecting => [loggedOn, failed]
  | .loggedOn => [recovering, loggingOut, failed]
  | .recovering => [loggedOn, failed]
  | .loggingOut => [disconnected]
  | .failed => [disconnected]

structure FixSessionState where
  state : SessionState := disconnected
  incomingSeq : Int := 1
  outgoingSeq : Int := 1

structure FixExecutionGateway where
  session : FixSessionState := {}
  executionIds : Finset String := ∅

-- The fields of a received message by their tags
abbrev Message := List (String × String)

inductive FixtureValue where
  | text (s : String)
  | flag (b : Bool)
  deriving DecidableEq

abbrev Fixture := List (String × FixtureValue)

inductive FixError where
  | invalidTransition | messageUnsupported | liveSessionDisabled | sequenceRegression | keyError | valueError
  deriving DecidableEq

inductive Reply where
  | state (state : SessionState)
  | sent
  | fixture (message : Fixture)
  | resendRequest (beginSeq endSeq : Int)
  | execution (executionId : String) (duplicate : Bool) (businessEffects : Nat)
  | accepted
  deriving DecidableEq

def supportedMessages : List String := ["A", "5", "0", "1", "2", "4", "D", "F", "G", "8", "9", "j"]

namespace FixExecutionGateway

variable (g : FixExecutionGateway)

def transition (name : String) : Except FixError (Reply × FixExecutionGateway) := do
  let state ← demand (stateNames.lookup name) .invalidTransition
  require (state ∈ sessionTransitions g.session.state) .invalidTransition
  return (.state state, { g with session := { g.session with state } })

def sendNext : FixExecutionGateway :=
  { g with session := { g.session with outgoingSeq := g.session.outgoingSeq + 1 } }

def send (messageType : String) : Except FixError (Reply × FixExecutionGateway) := do
  require (messageType ∈ supportedMessages) .messageUnsupported
  require (messageType ∉ ["D", "F", "G"]) .liveSessionDisabled
  return (.sent, g.sendNext)

-- The given fields stand before the others: dict.update lets them win.
def buildFixture (messageType : String) (fields : Fixture) : Except FixError (Reply × FixExecutionGateway) := do
  require (messageType ∈ supportedMessages) .messageUnsupported
  let message : Fixture :=
    [("35", .text messageType), ("34", .text (toString g.session.outgoingSeq)), ("fixture", .flag true),
      ("network", .flag false)]
  return (.fixture (fields ++ message), g.sendNext)

def number (message : Message) : Except FixError Int := do
  let text ← demand (message.lookup "34") .keyError
  demand (integerOf text.toList) .valueError

def executionId (message : Message) : Option String :=
  if message.lookup "35" = some "8" then (message.lookup "17").filter (· ≠ "") else none

def advance (seq : Int) : FixExecutionGateway :=
  { g with session := { g.session with incomingSeq := max g.session.incomingSeq (seq + 1) } }

def record (message : Message) : Reply × FixExecutionGateway :=
  match executionId message with
  | some id =>
    (.execution id (id ∈ g.executionIds) (if id ∈ g.executionIds then 0 else 1),
      { g with executionIds := insert id g.executionIds })
  | none => (.accepted, g)

def receive (message : Message) : Except FixError (Reply × FixExecutionGateway) := do
  let seq ← number message
  if g.session.incomingSeq < seq then
    return (.resendRequest g.session.incomingSeq (seq - 1), { g with session := { g.session with state := recovering } })
  require (¬(seq < g.session.incomingSeq ∧ message.lookup "43" ≠ some "Y")) .sequenceRegression
  return (g.advance seq).record message

end FixExecutionGateway

inductive Call where
  | transition (state : String)
  | send (messageType : String)
  | buildFixture (messageType : String) (fields : Fixture)
  | receive (message : Message)

namespace FixExecutionGateway

variable (g : FixExecutionGateway)

def call : Call → Except FixError (Reply × FixExecutionGateway)
  | .transition state => g.transition state
  | .send messageType => g.send messageType
  | .buildFixture messageType fields => g.buildFixture messageType fields
  | .receive message => g.receive message

def step (c : Call) : FixExecutionGateway :=
  match g.call c with
  | .ok (_, next) => next
  | .error _ => g

def effects (c : Call) : Nat :=
  match g.call c with
  | .ok (.execution _ _ businessEffects, _) => businessEffects
  | _ => 0

def run (calls : List Call) : FixExecutionGateway := calls.foldl step g

def totalEffects (g : FixExecutionGateway) : List Call → Nat
  | [] => 0
  | c :: calls => g.effects c + (g.step c).totalEffects calls

def accepts (message : Message) : Bool :=
  match number message with
  | .ok seq => seq = g.session.incomingSeq ∨ seq < g.session.incomingSeq ∧ message.lookup "43" = some "Y"
  | .error _ => false

-- The execution id of an accepted execution report
def report : Call → Option String
  | .receive message => if g.accepts message then executionId message else none
  | _ => none

def reports (g : FixExecutionGateway) : List Call → List String
  | [] => []
  | c :: calls => (g.report c).toList ++ (g.step c).reports calls

end FixExecutionGateway

def Along (s s' : SessionState) : Prop := s' = s ∨ s' ∈ sessionTransitions s

instance (s s' : SessionState) : Decidable (Along s s') := inferInstanceAs (Decidable (_ ∨ _))

namespace FixExecutionGateway

def Ahead (g : FixExecutionGateway) (c : Call) (seq : Int) : Prop :=
  ∃ message, c = .receive message ∧ number message = .ok seq ∧ g.session.incomingSeq < seq

-- The law of one call: a message ahead leaves the gateway as it is.
structure Lawful (g : FixExecutionGateway) (c : Call) : Prop where
  along : Along g.session.state (g.step c).session.state
  monotone : g.session.incomingSeq ≤ (g.step c).session.incomingSeq
  grows : g.session.incomingSeq < (g.step c).session.incomingSeq → ∃ message seq, c = .receive message ∧
    g.accepts message = true ∧ number message = .ok seq ∧ (g.step c).session.incomingSeq = seq + 1
  ahead : ∀ seq, g.Ahead c seq → g.call c = .ok (.resendRequest g.session.incomingSeq (seq - 1), g)

-- A message ahead moves the session to RECOVERING as well, from the states that the table leads there from.
structure Governed (g : FixExecutionGateway) (c : Call) : Prop where
  along : (∀ seq, g.Ahead c seq → g.session.state ∈ [loggedOn, recovering]) →
    Along g.session.state (g.step c).session.state
  monotone : g.session.incomingSeq ≤ (g.step c).session.incomingSeq
  grows : g.session.incomingSeq < (g.step c).session.incomingSeq → ∃ message seq, c = .receive message ∧
    g.accepts message = true ∧ number message = .ok seq ∧ (g.step c).session.incomingSeq = seq + 1
  ahead : ∀ seq, g.Ahead c seq → ∃ state, (g.session.state ∈ [loggedOn, recovering] → state = recovering) ∧
    g.call c = .ok (.resendRequest g.session.incomingSeq (seq - 1), { g with session := { g.session with state } })

section Calls

variable {g : FixExecutionGateway} {c : Call} {message : Message} {reply : Reply} {next : FixExecutionGateway}

theorem step_of_call (h : g.call c = .ok (reply, next)) : g.step c = next := by rw [step, h]

theorem step_of_error {e : FixError} (h : g.call c = .error e) : g.step c = g := by rw [step, h]

-- What a call that returns has done
inductive Returns (g : FixExecutionGateway) : Call → Reply → FixExecutionGateway → Prop
  | transition {name : String} {state : SessionState} (hstate : state ∈ sessionTransitions g.session.state) :
    Returns g (.transition name) (.state state) { g with session := { g.session with state } }
  | send {messageType : String} : Returns g (.send messageType) .sent g.sendNext
  | buildFixture {messageType : String} {fields built : Fixture} :
    Returns g (.buildFixture messageType fields) (.fixture built) g.sendNext
  | ahead {message : Message} {seq : Int} (hnumber : number message = .ok seq) (hahead : g.session.incomingSeq < seq) :
    Returns g (.receive message) (.resendRequest g.session.incomingSeq (seq - 1))
      { g with session := { g.session with state := recovering } }
  | accepted {message : Message} {seq : Int} (hnumber : number message = .ok seq)
    (hseq : seq ≤ g.session.incomingSeq) (haccepts : g.accepts message = true) :
    Returns g (.receive message) ((g.advance seq).record message).1 ((g.advance seq).record message).2

theorem receive_returns (h : g.receive message = .ok (reply, next)) : g.Returns (.receive message) reply next := by
  obtain ⟨seq, hnumber, h⟩ := bind_eq_ok.mp h
  by_cases hahead : g.session.incomingSeq < seq
  · rw [if_pos hahead] at h
    cases h
    exact .ahead hnumber hahead
  · rw [if_neg hahead] at h
    obtain ⟨⟨⟩, hrequire, h⟩ := bind_eq_ok.mp h
    have hduplicate := require_eq_ok.mp hrequire
    have haccepts : g.accepts message = true := by
      rw [accepts, hnumber]
      simp only [not_and_or, not_lt, not_not] at hduplicate hahead
      refine decide_eq_true ?_
      rcases hduplicate with hle | hflag
      · exact .inl (le_antisymm hahead hle)
      · exact (eq_or_lt_of_le hahead).imp id fun hlt => ⟨hlt, hflag⟩
    have hrecord : (g.advance seq).record message = (reply, next) := Except.ok.inj h
    have hreturns := Returns.accepted hnumber (not_lt.mp hahead) haccepts
    rw [hrecord] at hreturns
    exact hreturns

theorem call_returns (h : g.call c = .ok (reply, next)) : g.Returns c reply next := by
  cases c with
  | transition name =>
    obtain ⟨state, -, h⟩ := bind_eq_ok.mp h
    obtain ⟨⟨⟩, hrequire, h⟩ := bind_eq_ok.mp h
    cases h
    exact .transition (require_eq_ok.mp hrequire)
  | send messageType =>
    obtain ⟨⟨⟩, -, h⟩ := bind_eq_ok.mp h
    obtain ⟨⟨⟩, -, h⟩ := bind_eq_ok.mp h
    cases h
    exact .send
  | buildFixture messageType fields =>
    obtain ⟨⟨⟩, -, h⟩ := bind_eq_ok.mp h
    cases h
    exact .buildFixture
  | receive message => exact receive_returns h

theorem record_session : (g.record message).2.session = g.session := by
  unfold record
  split <;> rfl

theorem advance_incomingSeq {seq : Int} (h : seq ≤ g.session.incomingSeq) :
    g.session.incomingSeq ≤ (g.advance seq).session.incomingSeq ∧
      (g.session.incomingSeq < (g.advance seq).session.incomingSeq →
        (g.advance seq).session.incomingSeq = seq + 1) := by
  have hmax : (g.advance seq).session.incomingSeq = max g.session.incomingSeq (seq + 1) := rfl
  omega

theorem call_of_ahead {seq : Int} (h : g.Ahead c seq) :
    g.call c = .ok (.resendRequest g.session.incomingSeq (seq - 1),
      { g with session := { g.session with state := recovering } }) := by
  obtain ⟨message, rfl, hnumber, hahead⟩ := h
  rw [call, receive, hnumber]
  exact if_pos hahead

theorem governed_of (halong : (∀ seq, g.Ahead c seq → g.session.state ∈ [loggedOn, recovering]) →
    Along g.session.state (g.step c).session.state)
    (hseq : (g.step c).session.incomingSeq = g.session.incomingSeq) : g.Governed c where
  along := halong
  monotone := hseq.ge
  grows := fun h => absurd h hseq.not_gt
  ahead := fun _ h => ⟨recovering, fun _ => rfl, call_of_ahead h⟩

theorem governed (g : FixExecutionGateway) (c : Call) : g.Governed c := by
  cases hcall : g.call c with
  | error e =>
    have hstep := step_of_error hcall
    exact governed_of (fun _ => .inl (by rw [hstep])) (by rw [hstep])
  | ok result =>
    obtain ⟨reply, next⟩ := result
    have hreturns := call_returns hcall
    have hstep := step_of_call hcall
    cases hreturns with
    | transition hstate => exact governed_of (fun _ => .inr (hstep ▸ hstate)) (by rw [hstep])
    | send => exact governed_of (fun _ => .inl (by rw [hstep]; rfl)) (by rw [hstep]; rfl)
    | buildFixture => exact governed_of (fun _ => .inl (by rw [hstep]; rfl)) (by rw [hstep]; rfl)
    | ahead hnumber hlt =>
      refine governed_of (fun hguarded => ?_) (by rw [hstep])
      have hstate := hguarded _ ⟨_, rfl, hnumber, hlt⟩
      rw [hstep]
      simp only [List.mem_cons, List.not_mem_nil, or_false] at hstate
      rcases hstate with hstate | hstate
      · exact .inr (by simp [hstate, sessionTransitions])
      · exact .inl hstate.symm
    | @accepted message seq hnumber hseq haccepts =>
      have hsession : (g.step (.receive message)).session = (g.advance seq).session := by
        rw [hstep, record_session]
      obtain ⟨hmonotone, hgrows⟩ := advance_incomingSeq hseq
      refine ⟨fun _ => .inl (by rw [hsession]; rfl), by rw [hsession]; exact hmonotone, fun h => ?_,
        fun _ h => ⟨recovering, fun _ => rfl, call_of_ahead h⟩⟩
      rw [hsession] at h ⊢
      exact ⟨message, seq, rfl, haccepts, hnumber, hgrows h⟩

theorem call_of_accepts (h : g.accepts message = true) :
    ∃ seq, g.call (.receive message) = .ok ((g.advance seq).record message) := by
  unfold accepts at h
  cases hnumber : number message with
  | error e => simp [hnumber] at h
  | ok seq =>
    simp only [hnumber, decide_eq_true_eq] at h
    have hbehind : ¬g.session.incomingSeq < seq := by omega
    have hduplicate : ¬(seq < g.session.incomingSeq ∧ message.lookup "43" ≠ some "Y") := by
      rintro ⟨hlt, hflag⟩
      rcases h with heq | ⟨-, hflag'⟩
      · exact absurd heq hlt.ne
      · exact hflag hflag'
    have hreceive : g.receive message = (do
        require (¬(seq < g.session.incomingSeq ∧ message.lookup "43" ≠ some "Y")) .sequenceRegression
        return (g.advance seq).record message) := by
      rw [receive, hnumber]
      exact if_neg hbehind
    refine ⟨seq, ?_⟩
    rw [call, hreceive, (require_eq_ok (u := ())).mpr hduplicate]
    rfl

theorem effects_of_no_report (heffects : g.effects c = 0) (hids : (g.step c).executionIds = g.executionIds)
    (hreport : g.report c = none) : g.effects c + g.executionIds.card = (g.step c).executionIds.card ∧
      (g.step c).executionIds = g.executionIds ∪ (g.report c).toList.toFinset := by
  rw [heffects, hids, hreport]
  simp

-- An effect is counted for each id that comes to the ones that the gateway knows.
theorem effects_step (g : FixExecutionGateway) (c : Call) :
    g.effects c + g.executionIds.card = (g.step c).executionIds.card ∧
      (g.step c).executionIds = g.executionIds ∪ (g.report c).toList.toFinset := by
  cases hcall : g.call c with
  | error e =>
    refine effects_of_no_report (by rw [effects, hcall]) (by rw [step_of_error hcall]) ?_
    cases c with
    | receive message =>
      refine if_neg fun haccepts => ?_
      obtain ⟨seq, hok⟩ := call_of_accepts haccepts
      exact nomatch hcall.symm.trans hok
    | _ => rfl
  | ok result =>
    obtain ⟨reply, next⟩ := result
    have hreturns := call_returns hcall
    have hstep := step_of_call hcall
    cases hreturns with
    | transition hstate => exact effects_of_no_report (by rw [effects, hcall]) (by rw [hstep]) rfl
    | send => exact effects_of_no_report (by rw [effects, hcall]) (by rw [hstep]; rfl) rfl
    | buildFixture => exact effects_of_no_report (by rw [effects, hcall]) (by rw [hstep]; rfl) rfl
    | ahead hnumber hlt =>
      refine effects_of_no_report (by rw [effects, hcall]) (by rw [hstep]) (if_neg ?_)
      rw [accepts, hnumber, decide_eq_true_eq]
      omega
    | @accepted message seq hnumber hseq haccepts =>
      have hreport : g.report (.receive message) = executionId message := if_pos haccepts
      rw [hreport, hstep, effects, hcall]
      unfold record
      cases executionId message with
      | none => simp [advance]
      | some id =>
        by_cases hknown : id ∈ g.executionIds
        · simp [advance, hknown]
        · simp [advance, hknown, Nat.add_comm]

theorem totalEffects_reports (g : FixExecutionGateway) (calls : List Call) :
    g.totalEffects calls + g.executionIds.card = (g.executionIds ∪ (g.reports calls).toFinset).card := by
  induction calls generalizing g with
  | nil => simp [totalEffects, reports]
  | cons c calls ih =>
    obtain ⟨hcard, hids⟩ := effects_step g c
    have htail := ih (g.step c)
    rw [totalEffects, reports, List.toFinset_append, ← Finset.union_assoc, ← hids, ← htail, ← hcard]
    omega

end Calls

end FixExecutionGateway

open FixExecutionGateway

theorem fix_session_governed (calls : List Call) :
    (∀ before c after, calls = before ++ c :: after → (run {} before).Governed c) ∧
      totalEffects {} calls = (reports {} calls).toFinset.card := by
  refine ⟨fun before c _ _ => governed (run {} before) c, ?_⟩
  have h := totalEffects_reports {} calls
  simpa using h

-- A gap from the state LOGGED_ON changes the state, and one from DISCONNECTED against the table.
theorem gap_changes_state :
    ¬(run {} [.transition "CONNECTING", .transition "LOGGED_ON"]).Lawful (.receive [("35", "0"), ("34", "3")]) ∧
      ¬(run {} []).Lawful (.receive [("35", "0"), ("34", "3")]) := by
  constructor
  · intro h
    have hahead := h.ahead 3 ⟨_, rfl, by decide, by decide⟩
    have hstate := congrArg (fun result => result.toOption.map fun r => r.2.session.state) hahead
    exact absurd hstate (by decide)
  · exact fun h => absurd h.along (by decide)

end FixGateway

end Beyvra
