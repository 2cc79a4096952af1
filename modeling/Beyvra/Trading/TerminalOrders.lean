import Beyvra.Trading.Interleaving

namespace Beyvra

open Relational

abbrev OrderAction := Action Uuid TradingOrder OrderSave Verdict

def Launches : OrderAction → Prop
  | .start _ txn => ∃ env transaction, txn = OrderTransaction.txn env transaction
  | _ => True

-- The row that process_created_order is about to save, having read it without a lock.
def unlockedSave (s : OrderStore) (i : Nat) : Option TradingOrder :=
  match s.sessions.find i with
  | none => none
  | some x =>
    match x.txn with
    | .update save id p _ _ => if SavedUnlocked save ∧ s.free i id then (s.visible x id).filter p else none
    | _ => none

def savesOpenRow (s : OrderStore) : OrderAction → Bool
  | .advance i _ => (unlockedSave s i).all fun order => !order.state.terminal
  | _ => true

def Fresh (s : OrderStore) (action : OrderAction) : Prop := Launches action ∧ savesOpenRow s action = true

theorem Fresh.admits {s : OrderStore} {action : OrderAction} (h : Fresh s action) :
    s.Admits IsTerminal SavedUnlocked action := by
  obtain ⟨hlaunches, hsaves⟩ := h
  cases action with
  | start i txn =>
    obtain ⟨env, transaction, rfl⟩ := hlaunches
    exact transaction_guarded env transaction
  | advance i answer =>
    intro x save id p f next o hx htxn hmatch hfree hsave hterminal
    have hrow : unlockedSave s i = some o := by
      simp only [unlockedSave, hx, htxn, hsave, hfree, and_self, if_true]
      exact hmatch
    have hopen : o.state.terminal = false := by simpa [savesOpenRow, hrow] using hsaves
    rw [IsTerminal, hopen] at hterminal
    cases hterminal
  | abandon i => trivial

theorem terminal_orders_stay_terminal {s s' s'' : OrderStore} (hquiet : s.sessions = Table.empty)
    (hrun : Reaches Store.step Fresh s s') (hlater : Reaches Store.step Fresh s' s'') :
    ∀ id o, s'.committed.find id = some o → o.state.terminal = true → s''.committed.find id = some o := by
  have hconsistent := (Consistent.of_quiet hquiet).run (hrun.widen fun _ _ => Fresh.admits)
  intro id o ho hterminal
  exact hconsistent.run_final_kept (hlater.widen fun _ _ => Fresh.admits) ho hterminal

def pendingStore : OrderStore := { committed := (step clearedDatabase createTen).trading.orders }

def startOrder (i : Nat) (transaction : OrderTransaction) : OrderAction :=
  .start i (transaction.txn (fixtureEnv [("BTC-USD", 100)]))

def advances (i n : Nat) : List OrderAction := List.replicate n (.advance i .consumed)

theorem launches_cons {action : OrderAction} {actions : List OrderAction} (h : Launches action)
    (hrest : ∀ action ∈ actions, Launches action) : ∀ x ∈ action :: actions, Launches x := by
  intro x hx
  rcases List.mem_cons.mp hx with rfl | hmem
  · exact h
  · exact hrest x hmem

theorem launches_advances (i n : Nat) : ∀ action ∈ advances i n, Launches action := by
  intro action h
  obtain rfl := List.eq_of_mem_replicate h
  trivial

theorem fresh_of_replays {actions : List OrderAction} {s : OrderStore}
    (h : Reaches.replays Store.step savesOpenRow actions s = true)
    (hall : ∀ action ∈ actions, Launches action) :
    Reaches Store.step Fresh s (actions.foldl Store.step s) :=
  .of_replays _ h fun _ action hmem hopen => ⟨hall action hmem, hopen⟩

def processed : List OrderAction :=
  startOrder 0 (.process "TradingOrder" none) :: advances 0 7

def redelivered : List OrderAction :=
  startOrder 1 (.process "TradingOrder" none) :: .advance 1 .consumed :: .advance 1 .consumed ::
    .advance 1 .duplicate :: advances 1 2

theorem filled_order_stays_filled :
    ∃ o, (processed.foldl Store.step pendingStore).committed.find "TradingOrder" = some o ∧
      o.state = .filled ∧ (redelivered.foldl Store.step
        (processed.foldl Store.step pendingStore)).committed.find "TradingOrder" = some o := by
  have hrow : ((processed.foldl Store.step pendingStore).committed.find "TradingOrder").map (·.state) =
      some .filled := by
    decide +kernel
  obtain ⟨o, ho, hfilled⟩ := Option.map_eq_some_iff.mp hrow
  have hprocessed : Reaches.replays Store.step savesOpenRow processed pendingStore = true := by
    decide +kernel
  have hredelivered : Reaches.replays Store.step savesOpenRow redelivered
      (processed.foldl Store.step pendingStore) = true := by
    decide +kernel
  have hlaunches : ∀ action ∈ redelivered, Launches action :=
    launches_cons ⟨_, _, rfl⟩ (launches_cons trivial (launches_cons trivial (launches_cons trivial
      (launches_advances 1 2))))
  refine ⟨o, ho, hfilled, ?_⟩
  exact terminal_orders_stay_terminal rfl
    (fresh_of_replays hprocessed (launches_cons ⟨_, _, rfl⟩ (launches_advances 0 7)))
    (fresh_of_replays hredelivered hlaunches) "TradingOrder" o ho (by rw [hfilled]; rfl)

def invalidatedMeanwhile : List OrderAction :=
  startOrder 0 (.process "TradingOrder" (some .openThenCancel)) :: .advance 0 .consumed ::
    startOrder 1 (.comply (step clearedDatabase createTen).compliance suspended) :: advances 1 3

theorem rejected_order_reopened :
    ¬∀ s s' s'' : OrderStore, s.sessions = Table.empty → Reaches Store.step (fun _ => Launches) s s' →
      Reaches Store.step (fun _ => Launches) s' s'' →
      ∀ id o, s'.committed.find id = some o → o.state.terminal = true →
        ∃ o', s''.committed.find id = some o' ∧ o'.state = o.state := by
  intro hclaim
  have hrejected : ((invalidatedMeanwhile.foldl Store.step pendingStore).committed.find
      "TradingOrder").map (·.state) = some .rejected := by
    decide +kernel
  have hopened : (((advances 0 4).foldl Store.step
      (invalidatedMeanwhile.foldl Store.step pendingStore)).committed.find "TradingOrder").map (·.state) =
        some .opened := by
    decide +kernel
  obtain ⟨o, ho, hstate⟩ := Option.map_eq_some_iff.mp hrejected
  have hlaunches : ∀ action ∈ invalidatedMeanwhile, Launches action :=
    launches_cons ⟨_, _, rfl⟩ (launches_cons trivial (launches_cons ⟨_, _, rfl⟩ (launches_advances 1 3)))
  obtain ⟨o', ho', hsame⟩ := hclaim pendingStore _ _ rfl (.of_foldl fun _ => hlaunches)
    (.of_foldl fun _ => launches_advances 0 4) "TradingOrder" o ho (by rw [hstate]; rfl)
  rw [ho'] at hopened
  have hopen : o'.state = .opened := Option.some.inj hopened
  rw [hstate, hopen] at hsame
  cases hsame

end Beyvra
