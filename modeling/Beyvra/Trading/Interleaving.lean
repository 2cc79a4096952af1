import Beyvra.Relational.ReadCommitted
import Beyvra.Trading.EligibilityGate

namespace Beyvra

open Relational

inductive OrderSave where
  | accepted | opened | executed | invalidated | cancelRequested | cancelled
  deriving DecidableEq

-- What the tables beside the order's row answer: the inbox, the reservation, the books.
inductive Verdict where
  | consumed | duplicate | raised
  deriving DecidableEq, Inhabited

abbrev OrderTxn := Txn Uuid TradingOrder OrderSave Verdict

abbrev OrderStore := Store Uuid TradingOrder OrderSave Verdict

def attempt {α : Type} (outcome : Outcome α) (next : α → OrderTxn) : OrderTxn :=
  match outcome with
  | .ok a => next a
  | .error _ => .rollback

def getOrder (row : Option TradingOrder) : Outcome TradingOrder := do
  let order ← demand row (.doesNotExist "TradingOrder")
  require (order.simulation) (.doesNotExist "TradingOrder")
  pure order

def saveState (save : OrderSave) (env : Env) (orderId : Uuid) (state : OrderState) (next : OrderTxn) :
    OrderTxn :=
  .update save orderId (fun _ => true) (fun row => { row with state, updatedAt := env.now }) next

def executedOrder (env : Env) (execution : SimulatedExecution) (order : TradingOrder) :
    Outcome TradingOrder :=
  match execution.outcome with
  | .reject => do
    let state ← transitionOrder order.state .rejected
    pure { order with state, updatedAt := env.now }
  | .expire => do
    let state ← openForExecution order.state
    let state ← transitionOrder state .expired
    pure { order with state, updatedAt := env.now }
  | .fill => do
    let state ← openForExecution order.state
    let nextFilled := order.filledQuantity + execution.quantity
    require (nextFilled ≤ order.quantity) (.valueError "EXECUTION_OVERFILL")
    require (nextFilled ≠ 0) .invalidOperation
    let state ← transitionOrder state (if nextFilled = order.quantity then .filled else .partiallyFilled)
    pure { order.fillWith execution state with updatedAt := env.now }

def TradingOrder.saveExecution (row order : TradingOrder) : TradingOrder :=
  { row with
    state := order.state
    filledQuantity := order.filledQuantity
    averageFillPrice := order.averageFillPrice
    updatedAt := order.updatedAt }

def applyExecutionTxn (env : Env) (orderId : Uuid) (execution : SimulatedExecution) (next : OrderTxn) :
    OrderTxn :=
  .selectForUpdate orderId fun row => attempt (getOrder row) fun order =>
    .consult fun
      | .raised => .rollback
      | .duplicate => next
      | .consumed => attempt (executedOrder env execution order) fun executed =>
        .update .executed orderId (fun _ => true) (fun row => row.saveExecution executed) next

def applyExecutionsTxn (env : Env) (orderId : Uuid) (next : OrderTxn) : List SimulatedExecution → OrderTxn
  | [] => next
  | execution :: rest => applyExecutionTxn env orderId execution (applyExecutionsTxn env orderId next rest)

-- The order is read without a lock, and the save goes by what was read.
def acceptCreatedTxn (env : Env) (orderId : Uuid) (selected : Scenario) (order : TradingOrder)
    (next : TradingOrder → OrderTxn) : OrderTxn :=
  if order.state = .pending ∧ selected ≠ .reject then
    attempt (transitionOrder order.state .accepted) fun state =>
      saveState .accepted env orderId state (next { order with state, updatedAt := env.now })
  else next order

def openAcceptedTxn (env : Env) (orderId : Uuid) : OrderTxn :=
  .select orderId fun row => attempt (getOrder row) fun order =>
    if order.state = .accepted then
      attempt (transitionOrder order.state .opened) fun state =>
        saveState .opened env orderId state .commit
    else .commit

def processCreatedOrderTxn (env : Env) (orderId : Uuid) (scenario : Option Scenario) : OrderTxn :=
  let selected := scenario.getD env.settings.simulatedExecutionScenario
  .select orderId fun row => attempt (getOrder row) fun order =>
    acceptCreatedTxn env orderId selected order fun order =>
      attempt (submitOrder env.settings selected order) fun executions =>
        applyExecutionsTxn env orderId (openAcceptedTxn env orderId) executions

def consumeOrderCreatedTxn (env : Env) (orderId : Uuid) : OrderTxn :=
  .consult fun
    | .raised => .rollback
    | .duplicate => .commit
    | .consumed => processCreatedOrderTxn env orderId none

def invalidateEach (env : Env) (change : ProfileChange) : List Uuid → OrderTxn
  | [] => .commit
  | orderId :: rest => .update .invalidated orderId (fun row => change.affects row)
    (fun row => row.invalidate (change.decision env)) (invalidateEach env change rest)

def invalidatePendingTxn (env : Env) (change : ProfileChange) : OrderTxn :=
  if (change.decision env).result = .allowed then .commit
  else .scan (fun row => change.affects row) (invalidateEach env change)

def mutationTxn (env : Env) (c : ComplianceTables) (mutation : Mutation) : OrderTxn :=
  attempt (mutation.change env c) fun
    | none => .commit
    | some change => invalidatePendingTxn env change

def ownedOrder (request : CancelRequest) (row : Option TradingOrder) : Outcome TradingOrder := do
  let order ← getOrder row
  require (order.tenantRef = defaultTenant ∧ order.subjectRef = request.user)
    (.doesNotExist "TradingOrder")
  pure order

def cancelOrderTxn (env : Env) (request : CancelRequest) (order : TradingOrder) : OrderTxn :=
  attempt (require (order.state ∈ cancellable) (.valueError "ORDER_INVALID_STATE")) fun _ =>
    attempt (transitionOrder order.state .cancelPending) fun requested =>
      saveState .cancelRequested env request.orderId requested <|
        attempt (transitionOrder requested .cancelled) fun closed =>
          saveState .cancelled env request.orderId closed <|
            .consult fun verdict => if verdict = .consumed then .commit else .rollback

def cancelLockedTxn (env : Env) (request : CancelRequest) : OrderTxn :=
  .selectForUpdate request.orderId fun row => attempt (ownedOrder request row) fun order =>
    if .time order.updatedAt ≠ request.expectedVersion then .commit else cancelOrderTxn env request order

inductive OrderTransaction where
  | process (orderId : Uuid) (scenario : Option Scenario)
  | consume (orderId : Uuid)
  | execute (orderId : Uuid) (execution : SimulatedExecution)
  | comply (c : ComplianceTables) (mutation : Mutation)
  | cancel (request : CancelRequest)

def OrderTransaction.txn (env : Env) : OrderTransaction → OrderTxn
  | .process orderId scenario => processCreatedOrderTxn env orderId scenario
  | .consume orderId => consumeOrderCreatedTxn env orderId
  | .execute orderId execution => applyExecutionTxn env orderId execution .commit
  | .comply c mutation => mutationTxn env c mutation
  | .cancel request => cancelLockedTxn env request

def IsTerminal (order : TradingOrder) : Prop := order.state.terminal = true

def SavedUnlocked (save : OrderSave) : Prop := save = .accepted ∨ save = .opened

instance (save : OrderSave) : Decidable (SavedUnlocked save) :=
  inferInstanceAs (Decidable (save = .accepted ∨ save = .opened))

abbrev OrderTxn.Guarded (txn : OrderTxn) (known : Uuid → Option TradingOrder) : Prop :=
  txn.Safe IsTerminal SavedUnlocked known

section Programs

variable {env : Env} {id : Uuid} {known : Uuid → Option TradingOrder} {next : OrderTxn}
  {o o' : TradingOrder} {e : SimulatedExecution}

theorem attempt_guarded {α : Type} {outcome : Outcome α} {next : α → OrderTxn}
    (h : ∀ a, outcome = .ok a → (next a).Guarded known) : (attempt outcome next).Guarded known := by
  cases outcome with
  | error e => trivial
  | ok a => exact h a rfl

theorem getOrder_eq_ok {row : Option TradingOrder} (h : getOrder row = .ok o) : row = some o := by
  obtain ⟨x, hx, h₁⟩ := bind_eq_ok.mp h
  obtain ⟨_, -, h₂⟩ := bind_eq_ok.mp h₁
  obtain rfl := pure_eq_ok.mp h₂
  exact demand_eq_ok.mp hx

theorem saveState_guarded {save : OrderSave} {state : OrderState} (hsave : SavedUnlocked save)
    (h : ∀ known, next.Guarded known) : (saveState save env id state next).Guarded known :=
  ⟨h known, fun _ _ _ => ⟨fun hnot => absurd hsave hnot, fun _ => h _⟩⟩

theorem not_terminal_of_open {state state' : OrderState} (h : openForExecution state = .ok state')
    (ht : state'.terminal = false) : state.terminal = false := by
  rw [openForExecution_eq] at h
  obtain rfl := Except.ok.inj h
  cases state <;> first | rfl | exact ht

theorem executedOrder_open (h : executedOrder env e o = .ok o') : ¬IsTerminal o := by
  have hopen : o.state.terminal = false := by
    unfold executedOrder at h
    cases he : e.outcome with
    | reject =>
      rw [he] at h
      obtain ⟨state, hstate, -⟩ := bind_eq_ok.mp h
      exact not_terminal_of_transition (transitionOrder_eq_ok.mp hstate).1
    | expire =>
      rw [he] at h
      obtain ⟨state, hworking, h₁⟩ := bind_eq_ok.mp h
      obtain ⟨state', hstate, -⟩ := bind_eq_ok.mp h₁
      exact not_terminal_of_open hworking (not_terminal_of_transition (transitionOrder_eq_ok.mp hstate).1)
    | fill =>
      rw [he] at h
      obtain ⟨state, hworking, h₁⟩ := bind_eq_ok.mp h
      obtain ⟨_, -, h₂⟩ := bind_eq_ok.mp h₁
      obtain ⟨_, -, h₃⟩ := bind_eq_ok.mp h₂
      obtain ⟨state', hstate, -⟩ := bind_eq_ok.mp h₃
      exact not_terminal_of_open hworking (not_terminal_of_transition (transitionOrder_eq_ok.mp hstate).1)
  intro hterminal
  rw [IsTerminal, hopen] at hterminal
  cases hterminal

theorem applyExecutionTxn_guarded (h : ∀ known, next.Guarded known) :
    (applyExecutionTxn env id e next).Guarded known := by
  intro row _
  refine attempt_guarded ?_
  intro order horder verdict
  obtain rfl := getOrder_eq_ok horder
  cases verdict with
  | raised => trivial
  | duplicate => exact h _
  | consumed =>
    refine attempt_guarded ?_
    intro executed hexecuted
    refine ⟨h _, ?_⟩
    intro r hr _
    have hsame := hr order (Function.update_self ..)
    exact ⟨fun _ => hsame ▸ executedOrder_open hexecuted, fun _ => h _⟩

theorem applyExecutionsTxn_guarded (h : ∀ known, next.Guarded known) (es : List SimulatedExecution) :
    (applyExecutionsTxn env id next es).Guarded known := by
  induction es generalizing known with
  | nil => exact h known
  | cons e es ih => exact applyExecutionTxn_guarded fun _ => ih

theorem openAcceptedTxn_guarded : (openAcceptedTxn env id).Guarded known := by
  intro row
  refine attempt_guarded ?_
  intro order _
  split
  · exact attempt_guarded fun _ _ => saveState_guarded (.inr rfl) fun _ => trivial
  · trivial

theorem processCreatedOrderTxn_guarded (scenario : Option Scenario) :
    (processCreatedOrderTxn env id scenario).Guarded known := by
  have hexecutions (order : TradingOrder) (known : Uuid → Option TradingOrder) :
      (attempt (submitOrder env.settings (scenario.getD env.settings.simulatedExecutionScenario) order)
        (applyExecutionsTxn env id (openAcceptedTxn env id))).Guarded known :=
    attempt_guarded fun es _ => applyExecutionsTxn_guarded (fun _ => openAcceptedTxn_guarded) es
  intro row
  refine attempt_guarded ?_
  intro order _
  unfold acceptCreatedTxn
  split
  · exact attempt_guarded fun _ _ => saveState_guarded (.inl rfl) (hexecutions _)
  · exact hexecutions _ _

theorem invalidateEach_guarded (change : ProfileChange) (ids : List Uuid) :
    (invalidateEach env change ids).Guarded known := by
  induction ids generalizing known with
  | nil => trivial
  | cons id ids ih =>
    refine ⟨ih, ?_⟩
    intro r _ haffects
    have hpending := invalidated_pending (of_decide_eq_true haffects)
    refine ⟨fun _ hterminal => ?_, fun _ => ih⟩
    rw [IsTerminal, hpending] at hterminal
    cases hterminal

theorem cancelOrderTxn_guarded {request : CancelRequest} (hknown : known request.orderId = some o) :
    (cancelOrderTxn env request o).Guarded known := by
  refine attempt_guarded fun _ hstate => attempt_guarded ?_
  intro requested hrequested
  obtain ⟨hmove, rfl⟩ := transitionOrder_eq_ok.mp hrequested
  have hopen : ¬IsTerminal o := by
    rw [IsTerminal, not_terminal_of_transition hmove]
    exact Bool.false_ne_true
  have hverdict (known : Uuid → Option TradingOrder) :
      OrderTxn.Guarded (.consult fun verdict => if verdict = .consumed then .commit else .rollback) known := by
    intro verdict
    cases verdict <;> trivial
  have hcancelled (known : Uuid → Option TradingOrder)
      (hpending : ∀ r, known request.orderId = some r → ¬IsTerminal r)
      (hheld : (known request.orderId).isSome) :
      (attempt (transitionOrder .cancelPending .cancelled) fun closed =>
        saveState .cancelled env request.orderId closed
          (.consult fun verdict => if verdict = .consumed then .commit else .rollback)).Guarded known := by
    refine attempt_guarded fun _ _ => ⟨hverdict _, ?_⟩
    intro r hr _
    obtain ⟨r', hr'⟩ := Option.isSome_iff_exists.mp hheld
    exact ⟨fun _ => hr r' hr' ▸ hpending r' hr', fun _ => hverdict _⟩
  refine ⟨hcancelled known (fun r hr => ?_) (by rw [hknown]; rfl), ?_⟩
  · rw [hknown] at hr
    exact Option.some.inj hr ▸ hopen
  · intro r hr _
    refine ⟨fun _ => hr o hknown ▸ hopen, fun _ => hcancelled _ ?_ (by rw [Function.update_self]; rfl)⟩
    intro r' hr'
    rw [Function.update_self] at hr'
    obtain rfl := Option.some.inj hr'
    simp [IsTerminal, OrderState.terminal, terminalStates]

theorem transaction_guarded (env : Env) (transaction : OrderTransaction) :
    (transaction.txn env).Guarded fun _ => none := by
  cases transaction with
  | process orderId scenario => exact processCreatedOrderTxn_guarded scenario
  | consume orderId =>
    intro verdict
    cases verdict with
    | consumed => exact processCreatedOrderTxn_guarded none
    | _ => trivial
  | execute orderId execution => exact applyExecutionTxn_guarded fun _ => trivial
  | comply c mutation =>
    refine attempt_guarded ?_
    intro change _
    cases change with
    | none => trivial
    | some change =>
      dsimp only
      unfold invalidatePendingTxn
      split
      · trivial
      · exact fun ids => invalidateEach_guarded change ids
  | cancel request =>
    intro row _
    refine attempt_guarded ?_
    intro order howned
    obtain ⟨x, hx, h₁⟩ := bind_eq_ok.mp howned
    obtain ⟨_, -, h₂⟩ := bind_eq_ok.mp h₁
    obtain rfl := pure_eq_ok.mp h₂
    obtain rfl := getOrder_eq_ok hx
    split
    · trivial
    · exact cancelOrderTxn_guarded (Function.update_self ..)

end Programs

end Beyvra
