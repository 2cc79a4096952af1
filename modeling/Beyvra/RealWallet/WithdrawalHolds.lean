import Beyvra.Relational.Stability
import Beyvra.RealWallet.HoldAccounting

namespace Beyvra

open Relational

namespace RealWallet

namespace WithdrawalState

def final : WithdrawalState → Bool
  | .completed | .cancelled | .failed => true
  | _ => false

def ended (state : WithdrawalState) : Bool := state.final || state = .rejected

end WithdrawalState

def HoldsEnded (s : Books) : Prop :=
  ∀ id withdrawal, s.withdrawals.find id = some withdrawal → withdrawal.state.ended → ∃ hold,
    s.holdOf withdrawal = some hold ∧ hold.state ≠ .active ∧ (withdrawal.state = .completed → hold.state = .captured)

def FinalKept (s s' : Books) : Prop :=
  ∀ id withdrawal, s.withdrawals.find id = some withdrawal → withdrawal.state.final →
    ∃ withdrawal', s'.withdrawals.find id = some withdrawal' ∧ withdrawal'.state = withdrawal.state

-- No decision that is recorded rejects, and none that makes two approvals finds a withdrawal that is over.
def DecidesInTurn (c : Catalogue) (s : Books) (op : WalletEnv × LifecycleCall) : Prop :=
  ∀ id approver text reason withdrawal decision, op.2 = .approveWithdrawal id approver text reason →
    Decides c op.1 s id approver text withdrawal decision →
      decision ≠ .rejected ∧ (1 ≤ s.approvedCount id → ¬withdrawal.state.final)

def ScopedKey.holdKey (id : ScopedKey) : ScopedKey := ⟨id.tenant, "withdrawal:" ++ id.key⟩

-- The state of its hold that goes with a state of a withdrawal; a rejected one has no such state.
def WithdrawalState.holdState : WithdrawalState → Option HoldState
  | .completed => some .captured
  | .cancelled | .failed => some .released
  | .rejected => none
  | _ => some .active

structure Custody (s : Books) : Prop where
  accounted : HoldsAccounted s.balances s.holds
  backed : ∀ id withdrawal, s.withdrawals.find id = some withdrawal → withdrawal.hold = some id.holdKey ∧
    ∃ hold, s.holds.find id.holdKey = some hold ∧ withdrawal.state.holdState = some hold.state
  known : ∀ key hold, s.holds.find key = some hold → ∃ id, key = id.holdKey ∧ s.withdrawals.find id ≠ none

section Steps

variable {c : Catalogue} {env : WalletEnv} {s s' : Books} {op : WalletEnv × LifecycleCall} {id : ScopedKey}
  {withdrawal : Withdrawal} {hold : BalanceHold}

theorem holdKey_injective : Function.Injective ScopedKey.holdKey := by
  rintro ⟨tenant, key⟩ ⟨tenant', key'⟩ h
  obtain ⟨rfl, hkey⟩ := ScopedKey.mk.inj h
  exact congrArg (ScopedKey.mk tenant) ((String.append_right_inj _).mp hkey)

theorem holdState_of_open {state : WithdrawalState} {held : HoldState} (hopen : ¬state.final)
    (hstate : state.holdState = some held) : state.holdState = some .active := by
  cases state <;> first | rfl | exact absurd rfl hopen | cases hstate

theorem FinalKept.refl (s : Books) : FinalKept s s := fun _ withdrawal hfound _ => ⟨withdrawal, hfound, rfl⟩

theorem FinalKept.trans {t : Books} (h : FinalKept s s') (h' : FinalKept s' t) : FinalKept s t := by
  intro id withdrawal hfound hfinal
  obtain ⟨withdrawal', hfound', hstate⟩ := h id withdrawal hfound hfinal
  obtain ⟨withdrawal'', hfound'', hstate'⟩ := h' id withdrawal' hfound' (hstate ▸ hfinal)
  exact ⟨withdrawal'', hfound'', hstate'.trans hstate⟩

theorem finalKept_same (hsame : s'.withdrawals = s.withdrawals) : FinalKept s s' :=
  fun _ withdrawal hfound _ => ⟨withdrawal, hsame ▸ hfound, rfl⟩

theorem finalKept_put (hput : s'.withdrawals = s.withdrawals.put id withdrawal)
    (hkept : ∀ old, s.withdrawals.find id = some old → old.state.final → withdrawal.state = old.state) : FinalKept s s' := by
  intro id' old hfound hfinal
  rw [hput]
  by_cases hid : id' = id
  · subst hid
    exact ⟨withdrawal, Table.find_put_self _ _ _, hkept old hfound hfinal⟩
  · exact ⟨old, (Table.find_put_of_ne _ _ hid).trans hfound, rfl⟩

namespace Custody

theorem empty : Custody {} where
  accounted := .empty
  backed _ _ h := by cases h
  known _ _ h := by cases h

theorem of_same (h : Custody s) (haccounted : HoldsAccounted s'.balances s'.holds) (hwithdrawals : s'.withdrawals = s.withdrawals)
    (hholds : s'.holds = s.holds) : Custody s' where
  accounted := haccounted
  backed := by
    rw [hwithdrawals, hholds]
    exact h.backed
  known := by
    rw [hwithdrawals, hholds]
    exact h.known

-- A withdrawal is written together with its hold.
theorem put (h : Custody s) (haccounted : HoldsAccounted s'.balances s'.holds)
    (hwithdrawals : s'.withdrawals = s.withdrawals.put id withdrawal) (hholds : s'.holds = s.holds.put id.holdKey hold)
    (hhold : withdrawal.hold = some id.holdKey) (hstate : withdrawal.state.holdState = some hold.state) : Custody s' where
  accounted := haccounted
  backed id' withdrawal' hfound := by
    rw [hwithdrawals] at hfound
    rw [hholds]
    rcases Table.find_put_cases hfound with ⟨rfl, rfl⟩ | ⟨hne, hfound⟩
    · exact ⟨hhold, hold, Table.find_put_self _ _ _, hstate⟩
    · rw [Table.find_put_of_ne _ _ fun heq => hne (holdKey_injective heq)]
      exact h.backed id' withdrawal' hfound
  known key hold' hfound := by
    rw [hholds] at hfound
    rw [hwithdrawals]
    rcases Table.find_put_cases hfound with ⟨rfl, -⟩ | ⟨-, hfound⟩
    · exact ⟨id, rfl, by rw [Table.find_put_self]; exact Option.some_ne_none _⟩
    · obtain ⟨id', hkey, hknown⟩ := h.known key hold' hfound
      exact ⟨id', hkey, fun hnone => hknown (Table.find_put_none hnone).2⟩

-- A state that goes with the same state of the hold
theorem saved (h : Custody s) (hfound : s.withdrawals.find id = some withdrawal) {state : WithdrawalState}
    (hstate : state.holdState = withdrawal.state.holdState) (approvals : Table ApprovalKey WithdrawalApproval) :
    Custody (saveState id withdrawal state { s with approvals }) := by
  obtain ⟨hhold, hold, hrow, hbacked⟩ := h.backed id withdrawal hfound
  exact h.put h.accounted rfl (Table.put_self _ hrow).symm hhold (hstate.trans hbacked)

end Custody

theorem Custody.requested {r : WithdrawalRequest} (h : Custody s) (hrequested : WithdrawalRequested r s s') :
    Custody s' ∧ FinalKept s s' := by
  cases hrequested with
  | replayed idempotency => exact ⟨h.of_same h.accounted rfl rfl, finalKept_same rfl⟩
  | opened address reserved idempotency s₁ hpositive hfits hcreated hfree =>
    have haccounted := HoldsAccounted.created (s := { s with idempotency := reserved }) h.accounted hcreated
    cases hcreated with
    | existing row hrow =>
      -- a hold under the key would belong to a withdrawal under the key
      obtain ⟨id, hkey, hknown⟩ := h.known r.holdKey row hrow
      obtain rfl : r.id = id := holdKey_injective hkey
      exact absurd hfree hknown
    | created balance hfree' hpositive' hbalance havailable =>
      refine ⟨h.put haccounted rfl rfl rfl rfl, finalKept_put rfl fun old hfound _ => ?_⟩
      rw [hfree] at hfound
      cases hfound

theorem Custody.transferred {r : TransferRequest} (h : Custody s) (htransferred : Transferred c r s s') :
    Custody s' ∧ FinalKept s s' := by
  cases htransferred with
  | replayed idempotency => exact ⟨h.of_same h.accounted rfl rfl, finalKept_same rfl⟩
  | transferred source destination transfer idempotency hwallets hpositive hsource hdestination havailable hroom hfree =>
    exact ⟨h.of_same (h.accounted.transferred hpositive hsource hdestination havailable hroom) rfl rfl, finalKept_same rfl⟩

theorem Custody.detected {r : DetectedDeposit} (h : Custody s) (hdetected : DepositDetected r s s') :
    Custody s' ∧ FinalKept s s' := by
  cases hdetected with
  | unchanged => exact ⟨h, .refl s⟩
  | detected deposit hfree hopen hpositive => exact ⟨h.of_same h.accounted rfl rfl, finalKept_same rfl⟩

theorem Custody.credited {id : DepositKey} (h : Custody s) (hcredited : DepositCredited c id s s') :
    Custody s' ∧ FinalKept s s' := by
  cases hcredited with
  | unchanged => exact ⟨h, .refl s⟩
  | credited deposit balance hfound hopen hbalance hpositive hroom =>
    exact ⟨h.of_same (h.accounted.credited hbalance hpositive hroom) rfl rfl, finalKept_same rfl⟩

theorem Custody.holdState (h : Custody s) (hfound : s.withdrawals.find id = some withdrawal) (hopen : ¬withdrawal.state.final) :
    withdrawal.state.holdState = some .active := by
  obtain ⟨-, hold, -, hbacked⟩ := h.backed id withdrawal hfound
  exact holdState_of_open hopen hbacked

theorem finalKept_saved {withdrawal' : Withdrawal} (hwithdrawals : s'.withdrawals = s.withdrawals.put id withdrawal')
    (hfound : s.withdrawals.find id = some withdrawal) (hkept : withdrawal.state.final → withdrawal'.state = withdrawal.state) :
    FinalKept s s' := by
  refine finalKept_put hwithdrawals fun old hold hfinal => ?_
  obtain rfl := Option.some.inj (hfound.symm.trans hold)
  exact hkept hfinal

-- A withdrawal that is not over has an active hold, which ends with it.
theorem Custody.ends {target : HoldState} {state : WithdrawalState} {l : Table LedgerKey LedgerTransaction}
    {withdrawal' : Withdrawal} {s₁ : Books} (h : Custody s) (hfound : s.withdrawals.find id = some withdrawal)
    (hopen : ¬withdrawal.state.final) (hended : HoldEnded withdrawal target { s with ledger := l } s₁)
    (hhold : withdrawal'.hold = withdrawal.hold) (htarget : target ≠ .active) (hstate : state.holdState = some target) :
    Custody (saveState id withdrawal' state s₁) ∧ FinalKept s (saveState id withdrawal' state s₁) := by
  obtain ⟨hkey, hold, hrow, hbacked⟩ := h.backed id withdrawal hfound
  have hactive : hold.state = .active := Option.some.inj (hbacked.symm.trans (h.holdState hfound hopen))
  cases hended with
  | kept hended => exact absurd hactive (hended hold (by rw [Books.holdOf, hkey]; exact hrow))
  | settled key s₁ hhold' hsettled =>
    obtain rfl := Option.some.inj (hhold'.symm.trans hkey)
    have haccounted := HoldsAccounted.settled (s := { s with ledger := l }) h.accounted hsettled htarget
    cases hsettled with
    | settled row balance hrow' hactive' hbalance =>
      exact ⟨h.put haccounted rfl rfl (hhold.trans hkey) hstate, finalKept_saved rfl hfound fun hfinal => absurd hfinal hopen⟩

theorem Custody.cancelled (h : Custody s) (hcancelled : WithdrawalCancelled id s s') : Custody s' ∧ FinalKept s s' := by
  obtain ⟨withdrawal, s₁, hfound, hstate, hended⟩ := hcancelled
  have hopen : ¬withdrawal.state.final := by
    revert hstate
    cases withdrawal.state <;> decide
  exact h.ends (l := s.ledger) hfound hopen hended rfl (by decide) rfl

theorem Custody.failed (h : Custody s) (hfailed : WithdrawalFailed id s s') : Custody s' ∧ FinalKept s s' := by
  cases hfailed with
  | unchanged => exact ⟨h, .refl s⟩
  | failed withdrawal s₁ hfound hstate hended =>
    have hopen : ¬withdrawal.state.final := by
      revert hstate
      cases withdrawal.state <;> decide
    exact h.ends (l := s.ledger) hfound hopen hended rfl (by decide) rfl

theorem Custody.completed (h : Custody s) (hcompleted : WithdrawalCompleted c id s s') : Custody s' ∧ FinalKept s s' := by
  cases hcompleted with
  | unchanged hstate => exact ⟨h, .refl s⟩
  | completed withdrawal blockchainTransaction s₁ hfound hready hended =>
    have hopen : ¬withdrawal.state.final := by
      revert hready
      cases withdrawal.state <;> decide
    exact h.ends hfound hopen hended rfl (by decide) rfl

theorem Custody.signed (h : Custody s) (hsigned : WithdrawalSigned id s s') : Custody s' ∧ FinalKept s s' := by
  obtain ⟨withdrawal, hfound, hstate⟩ := hsigned
  refine ⟨h.saved hfound (by rw [hstate]; rfl) s.approvals, finalKept_saved rfl hfound fun hfinal => ?_⟩
  rw [hstate] at hfinal
  cases hfinal

-- A decision that is in turn keeps the holds; any other one leaves a withdrawal rejected or reopened.
theorem Custody.decided {approver : Nat} {text : String} {decision : Decision} {approval : WithdrawalApproval}
    {state : WithdrawalState} (h : Custody s) (hdecides : Decides c env s id approver text withdrawal decision)
    (hstate : state = if decision = .rejected then .rejected else if 1 ≤ s.approvedCount id then .approved else withdrawal.state)
    (hs' : s' = saveState id withdrawal state { s with approvals := s.approvals.put ⟨id, approver⟩ approval }) :
    (decision ≠ .rejected ∧ (1 ≤ s.approvedCount id → ¬withdrawal.state.final) → Custody s' ∧ FinalKept s s') ∧
      (HoldsEnded s' → FinalKept s s' → decision ≠ .rejected ∧ (1 ≤ s.approvedCount id → ¬withdrawal.state.final)) := by
  have hwithdrawals : s'.withdrawals = s.withdrawals.put id { withdrawal with state } := by
    rw [hs']
    rfl
  have hfound' : s'.withdrawals.find id = some { withdrawal with state } := by
    rw [hwithdrawals, Table.find_put_self]
  constructor
  · rintro ⟨haccepted, hopen⟩
    rw [if_neg haccepted] at hstate
    subst hs'
    split_ifs at hstate with htwo
    · subst hstate
      have hstate : WithdrawalState.approved.holdState = withdrawal.state.holdState :=
        (h.holdState hdecides.found (hopen htwo)).symm
      refine ⟨h.saved hdecides.found hstate _, ?_⟩
      exact finalKept_saved hwithdrawals hdecides.found fun hfinal => absurd hfinal (hopen htwo)
    · subst hstate
      exact ⟨h.saved hdecides.found rfl _, finalKept_saved hwithdrawals hdecides.found fun _ => rfl⟩
  · intro hended hkept
    have hsame (hfinal : withdrawal.state.final) : state = withdrawal.state := by
      obtain ⟨withdrawal', hfound'', hsame⟩ := hkept id withdrawal hdecides.found hfinal
      obtain rfl := Option.some.inj (hfound'.symm.trans hfound'')
      exact hsame
    have haccepted : decision ≠ .rejected := by
      intro hrejected
      rw [if_pos hrejected] at hstate
      by_cases hfinal : withdrawal.state.final
      · rw [← hsame hfinal, hstate] at hfinal
        cases hfinal
      · obtain ⟨hhold, hold, hrow, hbacked⟩ := h.backed id withdrawal hdecides.found
        obtain ⟨hold', hrow', hover, -⟩ := hended id _ hfound' (by rw [hstate]; rfl)
        have hrow : s'.holdOf { withdrawal with state } = some hold := by
          rw [hs', Books.holdOf, hhold]
          exact hrow
        obtain rfl := Option.some.inj (hrow.symm.trans hrow')
        exact hover (Option.some.inj (hbacked.symm.trans (h.holdState hdecides.found hfinal)))
    refine ⟨haccepted, fun htwo hfinal => ?_⟩
    rw [if_neg haccepted, if_pos htwo] at hstate
    rw [← hsame hfinal, hstate] at hfinal
    cases hfinal

def KeepsHolds (c : Catalogue) (s : Books) (op : WalletEnv × LifecycleCall) : Prop :=
  HoldsEnded (lifecycleStep c s op) ∧ FinalKept s (lifecycleStep c s op)

theorem Custody.undecided (h : Custody s) (hfits : op.2.CreditsFit s) (hnone : ∀ id approver text reason withdrawal decision,
    op.2 = .approveWithdrawal id approver text reason → ¬Decides c op.1 s id approver text withdrawal decision) :
    Custody (lifecycleStep c s op) ∧ FinalKept s (lifecycleStep c s op) := by
  obtain ⟨env, call⟩ := op
  rcases commitState_cases (fun s => call.run c env s) s with ⟨s', hrun, heq⟩ | ⟨-, heq⟩
  · rw [lifecycleStep, heq]
    cases call with
    | recordDetectedDeposit r => exact h.detected (recordDetectedDeposit_eq_ok hrun)
    | creditDeposit id confirmations => exact h.credited (creditDeposit_eq_ok h.accounted.room hfits hrun)
    | createInternalTransfer r =>
      obtain ⟨⟨id, t⟩, hcreate, rfl⟩ := map_eq_ok.mp hrun
      exact h.transferred (createInternalTransfer_eq_ok h.accounted.room hfits hcreate)
    | requestWithdrawal r =>
      obtain ⟨⟨id, t⟩, hrequest, rfl⟩ := map_eq_ok.mp hrun
      exact h.requested (requestWithdrawal_eq_ok h.accounted.room hrequest)
    | approveWithdrawal id approver text reason =>
      cases approveWithdrawal_eq_ok hrun with
      | unchanged hseen => exact ⟨h, .refl s⟩
      | decided withdrawal decision approval state hdecides hstate =>
        exact absurd hdecides (hnone id approver text reason withdrawal decision rfl)
    | cancelWithdrawal id actor => exact h.cancelled (cancelWithdrawal_eq_ok h.accounted.room hrun)
    | failWithdrawal id reason => exact h.failed (failWithdrawal_eq_ok h.accounted.room hrun)
    | completeWithdrawal id blockchainTransaction => exact h.completed (completeWithdrawal_eq_ok h.accounted.room hrun)
    | signWithdrawal id => exact h.signed (signWithdrawal_eq_ok hrun)
  · rw [lifecycleStep, heq]
    exact ⟨h, .refl s⟩

theorem Custody.step (h : Custody s) (hfits : op.2.CreditsFit s) :
    (DecidesInTurn c s op → Custody (lifecycleStep c s op) ∧ FinalKept s (lifecycleStep c s op)) ∧
      (KeepsHolds c s op → DecidesInTurn c s op) := by
  by_cases hcall : ∃ id approver text reason withdrawal decision, op.2 = .approveWithdrawal id approver text reason ∧
    Decides c op.1 s id approver text withdrawal decision
  · obtain ⟨id, approver, text, reason, withdrawal, decision, hcall, hdecides⟩ := hcall
    obtain ⟨s', hrun⟩ := hdecides.exists_ok reason
    have heq : lifecycleStep c s op = s' := commitState_of_ok (by rw [hcall]; exact hrun)
    cases approveWithdrawal_eq_ok hrun with
    | unchanged hnone => exact absurd hdecides (hnone withdrawal decision)
    | decided withdrawal' decision' approval state hdecides' hstate =>
      obtain ⟨rfl, rfl⟩ := hdecides.unique hdecides'
      obtain ⟨hkeeps, hturn⟩ := h.decided hdecides hstate heq
      refine ⟨fun hin => hkeeps (hin id approver text reason withdrawal decision hcall hdecides), fun hkept => ?_⟩
      intro id' approver' text' reason' withdrawal' decision' hcall' hdecides''
      obtain ⟨rfl, rfl, rfl, rfl⟩ := LifecycleCall.approveWithdrawal.inj (hcall.symm.trans hcall')
      obtain ⟨rfl, rfl⟩ := hdecides.unique hdecides''
      exact hturn hkept.1 hkept.2
  · have hnone id approver text reason withdrawal decision (heq : op.2 = .approveWithdrawal id approver text reason) :
        ¬Decides c op.1 s id approver text withdrawal decision :=
      fun hdecides => hcall ⟨id, approver, text, reason, withdrawal, decision, heq, hdecides⟩
    refine ⟨fun _ => h.undecided hfits hnone, fun _ id approver text reason withdrawal decision heq hdecides => ?_⟩
    exact absurd hdecides (hnone id approver text reason withdrawal decision heq)

end Steps

end RealWallet

end Beyvra
