import Beyvra.Relational.Stability
import Beyvra.RealWallet.HoldAccounting

namespace Beyvra

open Relational

namespace RealWallet

def postedTotal (c : Catalogue) (balances : Table BalanceKey AssetBalance) (wallet asset : Uuid) : ℤ :=
  balances.sum fun key b => if key.wallet = wallet ∧ c.asset key.assetNetwork = asset then b.postedAtomic else 0

-- The entries on the CUSTOMER_AVAILABLE account of a wallet in an asset
def customerEntry (wallet asset : Uuid) (e : LedgerEntry) : Bool :=
  e.account.ownerType = "WALLET" ∧ e.account.ownerId = some wallet ∧ e.account.asset = asset ∧
    e.account.accountCode = "CUSTOMER_AVAILABLE"

def ledgerTotal (ledger : Table LedgerKey LedgerTransaction) (wallet asset : Uuid) : ℤ :=
  creditBalance LedgerTransaction.entries (customerEntry wallet asset) ledger

structure LedgerAgrees (c : Catalogue) (s : Books) : Prop where
  wallets : ∀ wallet asset, postedTotal c s.balances wallet asset = ledgerTotal s.ledger wallet asset
  assets : ∀ asset, turnover LedgerTransaction.entries (fun e => e.asset = asset) .debit s.ledger =
    turnover LedgerTransaction.entries (fun e => e.asset = asset) .credit s.ledger

-- A completion that posts its entries finds its hold active, for what the entries say.
def CapturesOwnHold (c : Catalogue) (s : Books) (op : WalletEnv × WalletCall) : Prop :=
  ∀ id blockchainTransaction withdrawal, op.2 = .lifecycle (.completeWithdrawal id blockchainTransaction) →
    s.withdrawals.find id = some withdrawal → withdrawal.state.ready → s.ledger.find (captureKey id) = none →
      ∃ hold, s.holdOf withdrawal = some hold ∧ hold.state = .active ∧ hold.wallet = withdrawal.wallet ∧
        c.asset hold.assetNetwork = c.asset withdrawal.assetNetwork ∧ hold.amountAtomic = withdrawal.amountAtomic

def CreditsMarked (ledger : Table LedgerKey LedgerTransaction) (deposits : Table DepositKey Deposit) : Prop :=
  ∀ tenant id, ledger.find ⟨tenant, .depositCredit id⟩ ≠ none → ∃ deposit, deposits.find id = some deposit ∧
    deposit.state = .credited

def TransfersMarked (ledger : Table LedgerKey LedgerTransaction) (transfers : Table ScopedKey InternalTransfer) : Prop :=
  ∀ tenant key, ledger.find ⟨tenant, .transferLedger key⟩ ≠ none → transfers.find ⟨tenant, key⟩ ≠ none

def HoldOver (holds : Table ScopedKey BalanceHold) (withdrawal : Withdrawal) : Prop :=
  ∀ id hold, withdrawal.hold = some id → holds.find id = some hold → hold.state ≠ .active

def CapturesOver (ledger : Table LedgerKey LedgerTransaction) (withdrawals : Table ScopedKey Withdrawal)
    (holds : Table ScopedKey BalanceHold) : Prop :=
  ∀ tenant id, ledger.find ⟨tenant, .withdrawalCapture id⟩ ≠ none → ∃ withdrawal,
    withdrawals.find id = some withdrawal ∧ HoldOver holds withdrawal

structure Bookkept (s : Books) : Prop where
  accounted : HoldsAccounted s.balances s.holds
  balanced : ∀ key tx, s.ledger.find key = some tx → Balanced tx.entries
  credits : CreditsMarked s.ledger s.deposits
  transfers : TransfersMarked s.ledger s.transfers
  captures : CapturesOver s.ledger s.withdrawals s.holds
  withdrawals : ∀ id withdrawal, s.withdrawals.find id = some withdrawal →
    (0 < withdrawal.amountAtomic ∧ fits withdrawal.amountAtomic) ∧ ∀ holdId, withdrawal.hold = some holdId → s.holds.find holdId ≠ none

section Totals

variable {c : Catalogue} {balances : Table BalanceKey AssetBalance} {ledger : Table LedgerKey LedgerTransaction}
  {key : BalanceKey} {b : AssetBalance} {wallet asset : Uuid}

theorem postedTotal_put (balances : Table BalanceKey AssetBalance) (key : BalanceKey) (b : AssetBalance) :
    postedTotal c (balances.put key b) wallet asset = postedTotal c balances wallet asset +
      if key.wallet = wallet ∧ c.asset key.assetNetwork = asset then
        b.postedAtomic - ((balances.find key).getD {}).postedAtomic else 0 := by
  unfold postedTotal
  cases hfound : balances.find key with
  | none =>
    rw [Table.sum_put_of_none hfound]
    split_ifs <;> simp
  | some old =>
    rw [Table.sum_put_of_some hfound, Option.getD_some]
    split_ifs <;> ring

theorem postedTotal_put_of_some {old : AssetBalance} (hfound : balances.find key = some old) :
    postedTotal c (balances.put key b) wallet asset = postedTotal c balances wallet asset +
      if key.wallet = wallet ∧ c.asset key.assetNetwork = asset then b.postedAtomic - old.postedAtomic else 0 := by
  rw [postedTotal_put, hfound, Option.getD_some]

theorem ledgerTotal_posted {key : LedgerKey} (hfree : ledger.find key = none) (tx : LedgerTransaction) :
    ledgerTotal (posted ledger key tx) wallet asset = ledgerTotal ledger wallet asset + net (customerEntry wallet asset) tx.entries := by
  unfold ledgerTotal posted
  rw [if_pos hfree, creditBalance_put hfree]

theorem posted_of_some {key : LedgerKey} (hfound : ledger.find key ≠ none) (tx : LedgerTransaction) :
    posted ledger key tx = ledger := if_neg hfound

theorem customerEntry_customer {tenant wallet' asset' : Uuid} {d : Relational.Direction} {amount : ℤ} :
    customerEntry wallet asset ⟨customerAccount tenant wallet' asset', asset', d, amount⟩ =
      decide (wallet' = wallet ∧ asset' = asset) := by
  simp [customerEntry, customerAccount]

theorem customerEntry_platform {tenant asset' : Uuid} {d : Relational.Direction} {amount : ℤ} :
    customerEntry wallet asset ⟨platformAccount tenant asset', asset', d, amount⟩ = false := by
  simp [customerEntry, platformAccount]

theorem net_creditPostings (id : DepositKey) (deposit : Deposit) : net (customerEntry wallet asset) (creditPostings c id deposit) =
    if deposit.wallet = wallet ∧ c.asset id.assetNetwork = asset then deposit.amountAtomic else 0 := by
  unfold creditPostings
  rw [net_moved, customerEntry_customer, customerEntry_platform]
  simp

theorem net_capturePostings (id : ScopedKey) (withdrawal : Withdrawal) :
    net (customerEntry wallet asset) (capturePostings c id withdrawal) =
      -if withdrawal.wallet = wallet ∧ c.asset withdrawal.assetNetwork = asset then withdrawal.amountAtomic else 0 := by
  unfold capturePostings
  rw [net_moved, customerEntry_customer, customerEntry_platform]
  simp

theorem net_transferPostings (r : TransferRequest) : net (customerEntry wallet asset) (r.postings c) =
    (if r.destinationWallet = wallet ∧ c.asset r.assetNetwork = asset then r.amountAtomic else 0) -
      if r.sourceWallet = wallet ∧ c.asset r.assetNetwork = asset then r.amountAtomic else 0 := by
  unfold TransferRequest.postings
  rw [net_moved, customerEntry_customer, customerEntry_customer]
  simp

theorem find_posted {key key' : LedgerKey} {tx : LedgerTransaction} (h : (posted ledger key tx).find key' ≠ none) :
    key' = key ∨ ledger.find key' ≠ none := by
  unfold posted at h
  split_ifs at h with hfree
  · by_cases hkey : key' = key
    · exact .inl hkey
    · rw [Table.find_put_of_ne _ _ hkey] at h
      exact .inr h
  · exact .inr h

theorem find_posted_of_ne {key key' : LedgerKey} {tx : LedgerTransaction} (hne : key'.idempotencyKey ≠ key.idempotencyKey)
    (h : (posted ledger key tx).find key' ≠ none) : ledger.find key' ≠ none :=
  (find_posted h).resolve_left fun heq => hne (congrArg LedgerKey.idempotencyKey heq)

theorem posted_balanced {key : LedgerKey} {tx : LedgerTransaction}
    (h : ∀ key tx, ledger.find key = some tx → Balanced tx.entries) (htx : Balanced tx.entries) (key' : LedgerKey)
    (tx' : LedgerTransaction) (hfound : (posted ledger key tx).find key' = some tx') : Balanced tx'.entries := by
  unfold posted at hfound
  split_ifs at hfound with hfree
  · rcases Table.find_put_cases hfound with ⟨rfl, rfl⟩ | ⟨-, hold⟩
    · exact htx
    · exact h key' tx' hold
  · exact h key' tx' hfound

end Totals

def gap (c : Catalogue) (s : Books) (wallet asset : Uuid) : ℤ :=
  postedTotal c s.balances wallet asset - ledgerTotal s.ledger wallet asset

section Steps

variable {c : Catalogue} {env : WalletEnv} {s s' : Books} {id : ScopedKey} {withdrawal : Withdrawal} {hold : BalanceHold}
  {wallet asset : Uuid} {target : HoldState}

namespace Bookkept

theorem empty : Bookkept {} where
  accounted := .empty
  balanced _ _ h := by cases h
  credits _ _ h := absurd rfl h
  transfers _ _ h := absurd rfl h
  captures _ _ h := absurd rfl h
  withdrawals _ _ h := by cases h

theorem agrees_iff (h : Bookkept s) : LedgerAgrees c s ↔ ∀ wallet asset, gap c s wallet asset = 0 :=
  ⟨fun hagrees wallet asset => sub_eq_zero.mpr (hagrees.wallets wallet asset),
    fun hgap => ⟨fun wallet asset => sub_eq_zero.mp (hgap wallet asset), turnover_eq h.balanced⟩⟩

theorem detected {r : DetectedDeposit} (h : Bookkept s) (hdetected : DepositDetected r s s') :
    Bookkept s' ∧ gap c s' = gap c s := by
  cases hdetected with
  | unchanged => exact ⟨h, rfl⟩
  | detected deposit hfree hopen hpositive =>
    refine ⟨⟨h.accounted, h.balanced, fun tenant id hposted => ?_, h.transfers, h.captures, h.withdrawals⟩, rfl⟩
    obtain ⟨old, hold, hcredited⟩ := h.credits tenant id hposted
    have hne : id ≠ r.id := by
      rintro rfl
      rw [hfree] at hold
      cases hold
    exact ⟨old, (Table.find_put_of_ne _ _ hne).trans hold, hcredited⟩

theorem credited {id : DepositKey} (h : Bookkept s) (hcredited : DepositCredited c id s s') :
    Bookkept s' ∧ gap c s' = gap c s := by
  cases hcredited with
  | unchanged => exact ⟨h, rfl⟩
  | credited deposit balance hfound hopen hbalance hpositive hroom =>
    -- a deposit that is not credited has no entries yet, for any tenant
    have hfree (tenant : Uuid) : s.ledger.find ⟨tenant, .depositCredit id⟩ = none := by
      by_contra hposted
      obtain ⟨old, hold, hcredited⟩ := h.credits tenant id hposted
      obtain rfl := Option.some.inj (hfound.symm.trans hold)
      exact hopen hcredited
    refine ⟨⟨h.accounted.credited hbalance hpositive hroom, posted_balanced h.balanced (moved_balanced _ _ _ _),
      fun tenant id' hposted => ?_, fun tenant key hposted => ?_, fun tenant id' hposted => ?_, h.withdrawals⟩, ?_⟩
    · by_cases hid : id' = id
      · subst hid
        exact ⟨_, Table.find_put_self _ _ _, rfl⟩
      · have hne : LedgerReference.depositCredit id' ≠ .depositCredit id := fun heq => hid (LedgerReference.depositCredit.inj heq)
        obtain ⟨old, hold, hcredited⟩ := h.credits tenant id' (find_posted_of_ne hne hposted)
        exact ⟨old, (Table.find_put_of_ne _ _ hid).trans hold, hcredited⟩
    · exact h.transfers tenant key (find_posted_of_ne (by simp) hposted)
    · exact h.captures tenant id' (find_posted_of_ne (by simp) hposted)
    · funext wallet asset
      unfold gap
      rw [postedTotal_put, ledgerTotal_posted (hfree deposit.tenant), net_creditPostings, ← hbalance]
      unfold DepositKey.balance
      split_ifs <;> ring

theorem transferred {r : TransferRequest} (h : Bookkept s) (htransferred : Transferred c r s s') :
    Bookkept s' ∧ gap c s' = gap c s := by
  cases htransferred with
  | replayed idempotency => exact ⟨⟨h.accounted, h.balanced, h.credits, h.transfers, h.captures, h.withdrawals⟩, rfl⟩
  | transferred source destination transfer idempotency hwallets hpositive hsource hdestination havailable hroom hfree =>
    have hunposted : s.ledger.find ⟨r.tenant, .transferLedger r.idempotencyKey⟩ = none := by
      by_contra hposted
      exact h.transfers r.tenant r.idempotencyKey hposted hfree
    have hdestination' : (s.balances.put r.source
        { source with postedAtomic := source.postedAtomic - r.amountAtomic }).find r.destination = some destination := by
      rw [Table.find_put_of_ne _ _ fun heq => hwallets (congrArg BalanceKey.wallet heq).symm]
      exact hdestination
    refine ⟨⟨h.accounted.transferred hpositive hsource hdestination havailable hroom,
      posted_balanced h.balanced (moved_balanced _ _ _ _), fun tenant id' hposted => ?_, fun tenant key hposted => ?_,
      fun tenant id' hposted => ?_, h.withdrawals⟩, ?_⟩
    · exact h.credits tenant id' (find_posted_of_ne (by simp) hposted)
    · intro hnone
      obtain ⟨hne, hnone⟩ := Table.find_put_none hnone
      rcases find_posted hposted with heq | hposted
      · obtain ⟨rfl, hkey⟩ := LedgerKey.mk.inj heq
        exact hne (congrArg (ScopedKey.mk r.tenant) (LedgerReference.transferLedger.inj hkey))
      · exact h.transfers tenant key hposted hnone
    · exact h.captures tenant id' (find_posted_of_ne (by simp) hposted)
    · funext wallet asset
      unfold gap
      rw [postedTotal_put_of_some hdestination', postedTotal_put_of_some hsource, ledgerTotal_posted hunposted,
        net_transferPostings]
      unfold TransferRequest.source TransferRequest.destination
      split_ifs <;> ring

theorem created (h : Bookkept s) (hcreated : HoldCreated id hold s s') : Bookkept s' ∧ gap c s' = gap c s := by
  have haccounted := h.accounted.created hcreated
  cases hcreated with
  | existing row hrow => exact ⟨h, rfl⟩
  | created balance hfree hpositive hbalance havailable =>
    refine ⟨⟨haccounted, h.balanced, h.credits, h.transfers, fun tenant id' hposted => ?_, fun id' withdrawal hfound => ?_⟩, ?_⟩
    · obtain ⟨withdrawal, hfound, hover⟩ := h.captures tenant id' hposted
      refine ⟨withdrawal, hfound, fun holdId row hhold hrow => ?_⟩
      rcases Table.find_put_cases hrow with ⟨rfl, -⟩ | ⟨-, hrow⟩
      · exact absurd hfree ((h.withdrawals id' withdrawal hfound).2 _ hhold)
      · exact hover holdId row hhold hrow
    · obtain ⟨hamount, hlinked⟩ := h.withdrawals id' withdrawal hfound
      exact ⟨hamount, fun holdId hhold hnone => hlinked holdId hhold (Table.find_put_none hnone).2⟩
    · funext wallet asset
      unfold gap
      rw [postedTotal_put_of_some hbalance]
      simp

-- What the hold's balance loses is not posted when it is captured.
theorem settled (h : Bookkept s) (hsettled : HoldSettled id target s s') (htarget : target ≠ .active) :
    Bookkept s' ∧ ∃ hold, s.holds.find id = some hold ∧ hold.state = .active ∧ ∀ wallet asset,
      gap c s' wallet asset = gap c s wallet asset -
        if target = .captured ∧ hold.wallet = wallet ∧ c.asset hold.assetNetwork = asset then hold.amountAtomic else 0 := by
  have haccounted := h.accounted.settled hsettled htarget
  obtain ⟨row, balance, hrow, hactive, hbalance⟩ := hsettled
  refine ⟨⟨haccounted, h.balanced, h.credits, h.transfers, fun tenant id' hposted => ?_, fun id' withdrawal hfound => ?_⟩,
    row, hrow, hactive, fun wallet asset => ?_⟩
  · obtain ⟨withdrawal, hfound, hover⟩ := h.captures tenant id' hposted
    refine ⟨withdrawal, hfound, fun holdId row' hhold hrow' => ?_⟩
    rcases Table.find_put_cases hrow' with ⟨rfl, rfl⟩ | ⟨-, hrow'⟩
    · exact htarget
    · exact hover holdId row' hhold hrow'
  · obtain ⟨hamount, hlinked⟩ := h.withdrawals id' withdrawal hfound
    exact ⟨hamount, fun holdId hhold hnone => hlinked holdId hhold (Table.find_put_none hnone).2⟩
  · unfold gap
    rw [postedTotal_put_of_some hbalance]
    unfold AssetBalance.less BalanceHold.balance
    by_cases hcaptured : target = .captured
    · simp only [hcaptured, if_true, true_and]
      split_ifs <;> ring
    · simp [hcaptured]

theorem saved {w : Withdrawal} {state : WithdrawalState} (h : Bookkept s) (hfound : s.withdrawals.find id = some withdrawal)
    (hhold : w.hold = withdrawal.hold) (hamount : w.amountAtomic = withdrawal.amountAtomic)
    (approvals : Table ApprovalKey WithdrawalApproval) :
    Bookkept (saveState id w state { s with approvals }) where
  accounted := h.accounted
  balanced := h.balanced
  credits := h.credits
  transfers := h.transfers
  captures tenant id' hposted := by
    obtain ⟨old, hold, hover⟩ := h.captures tenant id' hposted
    by_cases hid : id' = id
    · subst hid
      obtain rfl := Option.some.inj (hfound.symm.trans hold)
      exact ⟨_, Table.find_put_self _ _ _, fun holdId row hhold' => hover holdId row (hhold.symm.trans hhold')⟩
    · exact ⟨old, (Table.find_put_of_ne _ _ hid).trans hold, hover⟩
  withdrawals id' found hfound' := by
    rcases Table.find_put_cases hfound' with ⟨rfl, rfl⟩ | ⟨-, hold⟩
    · dsimp only
      rw [hhold, hamount]
      exact h.withdrawals _ _ hfound
    · exact h.withdrawals id' found hold

theorem requested {r : WithdrawalRequest} (h : Bookkept s) (hrequested : WithdrawalRequested r s s') :
    Bookkept s' ∧ gap c s' = gap c s := by
  cases hrequested with
  | replayed idempotency => exact ⟨⟨h.accounted, h.balanced, h.credits, h.transfers, h.captures, h.withdrawals⟩, rfl⟩
  | opened address reserved idempotency s₁ hpositive hfits hcreated hfree =>
    have hreserved : Bookkept { s with idempotency := reserved } :=
      ⟨h.accounted, h.balanced, h.credits, h.transfers, h.captures, h.withdrawals⟩
    obtain ⟨h₁, hgap⟩ := hreserved.created (c := c) hcreated
    have hfree : s₁.withdrawals.find r.id = none := by
      rw [hcreated.withdrawals]
      exact hfree
    refine ⟨⟨h₁.accounted, h₁.balanced, h₁.credits, h₁.transfers, fun tenant id hposted => ?_, fun id withdrawal hfound => ?_⟩, hgap⟩
    · obtain ⟨withdrawal, hfound, hover⟩ := h₁.captures tenant id hposted
      have hne : id ≠ r.id := by
        rintro rfl
        rw [hfree] at hfound
        cases hfound
      exact ⟨withdrawal, (Table.find_put_of_ne _ _ hne).trans hfound, hover⟩
    · rcases Table.find_put_cases hfound with ⟨rfl, rfl⟩ | ⟨-, hold⟩
      · refine ⟨⟨hpositive, hfits⟩, fun holdId hhold => ?_⟩
        obtain rfl := Option.some.inj hhold
        exact hcreated.exists_hold
      · exact h₁.withdrawals id withdrawal hold

theorem released (h : Bookkept s) (hended : HoldEnded withdrawal .released s s') : Bookkept s' ∧ gap c s' = gap c s := by
  cases hended with
  | kept hended => exact ⟨h, rfl⟩
  | settled holdId s' hhold hsettled =>
    obtain ⟨h', hold, -, -, hgap⟩ := h.settled (c := c) hsettled (by decide)
    refine ⟨h', ?_⟩
    funext wallet asset
    rw [hgap, if_neg fun hcaptured => (by cases hcaptured.1), sub_zero]

theorem ends {state : WithdrawalState} (h : Bookkept s) (hfound : s.withdrawals.find id = some withdrawal)
    (hended : HoldEnded withdrawal .released s s') :
    Bookkept (saveState id withdrawal state s') ∧ gap c (saveState id withdrawal state s') = gap c s := by
  obtain ⟨h', hgap⟩ := h.released (c := c) hended
  have hfound' : s'.withdrawals.find id = some withdrawal := hended.withdrawals ▸ hfound
  exact ⟨h'.saved hfound' rfl rfl s'.approvals, hgap⟩

theorem captured (h : Bookkept s) (hfound : s.withdrawals.find id = some withdrawal) (hover : HoldOver s.holds withdrawal) :
    Bookkept { s with ledger := posted s.ledger (captureKey id) ⟨"WITHDRAWAL_CAPTURE", capturePostings c id withdrawal⟩ } where
  accounted := h.accounted
  balanced := posted_balanced h.balanced (moved_balanced _ _ _ _)
  credits tenant id' hposted := h.credits tenant id' (find_posted_of_ne (by simp [captureKey]) hposted)
  transfers tenant key hposted := h.transfers tenant key (find_posted_of_ne (by simp [captureKey]) hposted)
  captures tenant id' hposted := by
    rcases find_posted hposted with heq | hposted
    · obtain ⟨-, hid⟩ := LedgerKey.mk.inj heq
      obtain rfl := LedgerReference.withdrawalCapture.inj hid
      exact ⟨withdrawal, hfound, hover⟩
    · exact h.captures tenant id' hposted
  withdrawals := h.withdrawals

theorem gap_captured (hfree : s.ledger.find (captureKey id) = none) :
    gap c { s with ledger := posted s.ledger (captureKey id) ⟨"WITHDRAWAL_CAPTURE", capturePostings c id withdrawal⟩ } wallet asset =
      gap c s wallet asset +
        if withdrawal.wallet = wallet ∧ c.asset withdrawal.assetNetwork = asset then withdrawal.amountAtomic else 0 := by
  unfold gap
  dsimp only
  rw [ledgerTotal_posted hfree, net_capturePostings]
  ring

end Bookkept

-- What a completion does to the gap: the entries open it, and the hold closes it again where it is captured.
inductive Captured (c : Catalogue) (id : ScopedKey) (withdrawal : Withdrawal) (s s' : Books) : Prop where
  | unposted (hposted : s.ledger.find (captureKey id) ≠ none) (hgap : gap c s' = gap c s)
  | ended (hfree : s.ledger.find (captureKey id) = none) (hover : ∀ hold, s.holdOf withdrawal = some hold → hold.state ≠ .active)
      (hgap : ∀ wallet asset, gap c s' wallet asset = gap c s wallet asset +
        if withdrawal.wallet = wallet ∧ c.asset withdrawal.assetNetwork = asset then withdrawal.amountAtomic else 0)
  | active (hfree : s.ledger.find (captureKey id) = none) (hold : BalanceHold) (hhold : s.holdOf withdrawal = some hold)
      (hactive : hold.state = .active)
      (hgap : ∀ wallet asset, gap c s' wallet asset = (gap c s wallet asset -
          if hold.wallet = wallet ∧ c.asset hold.assetNetwork = asset then hold.amountAtomic else 0) +
        if withdrawal.wallet = wallet ∧ c.asset withdrawal.assetNetwork = asset then withdrawal.amountAtomic else 0)

theorem gap_saveState (state : WithdrawalState) : gap c (saveState id withdrawal state s) = gap c s := rfl

theorem holdOver_iff : HoldOver s.holds withdrawal ↔ ∀ hold, s.holdOf withdrawal = some hold → hold.state ≠ .active := by
  unfold HoldOver Books.holdOf
  constructor
  · intro h hold hfound
    obtain ⟨holdId, hhold, hrow⟩ := Option.bind_eq_some_iff.mp hfound
    exact h holdId hold hhold hrow
  · intro h holdId hold hhold hrow
    exact h hold (Option.bind_eq_some_iff.mpr ⟨holdId, hhold, hrow⟩)

theorem Bookkept.completed {blockchainTransaction : String} {s₁ : Books} (h : Bookkept s)
    (hfound : s.withdrawals.find id = some withdrawal)
    (hended : HoldEnded withdrawal .captured
      { s with ledger := posted s.ledger (captureKey id) ⟨"WITHDRAWAL_CAPTURE", capturePostings c id withdrawal⟩ } s₁) :
    Bookkept (saveState id { withdrawal with blockchainTransaction } .completed s₁) ∧
      Captured c id withdrawal s (saveState id { withdrawal with blockchainTransaction } .completed s₁) := by
  cases hended with
  | kept hover =>
    have hover : HoldOver s.holds withdrawal := holdOver_iff.mpr hover
    refine ⟨(h.captured (c := c) hfound hover).saved (w := { withdrawal with blockchainTransaction }) hfound rfl rfl s.approvals, ?_⟩
    by_cases hfree : s.ledger.find (captureKey id) = none
    · refine .ended hfree (holdOver_iff.mp hover) fun wallet asset => ?_
      rw [gap_saveState, gap_captured hfree]
    · refine .unposted hfree ?_
      rw [posted_of_some hfree]
      rfl
  | settled holdId s₁ hhold hsettled =>
    obtain ⟨row, balance, hrow, hactive, hbalance⟩ := hsettled
    have hrow' : s.holdOf withdrawal = some row := Option.bind_eq_some_iff.mpr ⟨holdId, hhold, hrow⟩
    have hsettled : HoldSettled holdId .captured s _ := .settled row balance hrow hactive hbalance
    obtain ⟨h₁, row', hrow'', -, hgap⟩ := h.settled (c := c) hsettled (by decide)
    obtain rfl := Option.some.inj (hrow.symm.trans hrow'')
    have hover : HoldOver (s.holds.put holdId { row with state := .captured }) withdrawal := by
      intro holdId' hold hhold' hfound'
      obtain rfl := Option.some.inj (hhold.symm.trans hhold')
      rw [Table.find_put_self] at hfound'
      obtain rfl := Option.some.inj hfound'
      exact (by decide : HoldState.captured ≠ .active)
    refine ⟨(h₁.captured (c := c) hfound hover).saved (w := { withdrawal with blockchainTransaction }) hfound rfl rfl s.approvals, ?_⟩
    have hfree : s.ledger.find (captureKey id) = none := by
      -- a capture that is posted has left the hold captured
      by_contra hposted
      obtain ⟨found, hfound', hover'⟩ := h.captures id.tenant id hposted
      obtain rfl := Option.some.inj (hfound.symm.trans hfound')
      exact hover' holdId row hhold hrow hactive
    refine .active hfree row hrow' hactive fun wallet asset => ?_
    have hgap := hgap wallet asset
    simp only [gap, true_and] at hgap
    simp only [gap, saveState]
    rw [ledgerTotal_posted hfree, net_capturePostings]
    linarith only [hgap]

theorem Bookkept.decided {approver : Nat} {text : String} (h : Bookkept s)
    (hdecided : WithdrawalDecided c env id approver text s s') : Bookkept s' ∧ gap c s' = gap c s := by
  cases hdecided with
  | unchanged hnone => exact ⟨h, rfl⟩
  | decided withdrawal decision approval state hdecides hstate => exact ⟨h.saved hdecides.found rfl rfl _, rfl⟩

theorem Bookkept.signed (h : Bookkept s) (hsigned : WithdrawalSigned id s s') : Bookkept s' ∧ gap c s' = gap c s := by
  obtain ⟨withdrawal, hfound, hstate⟩ := hsigned
  exact ⟨h.saved hfound rfl rfl s.approvals, rfl⟩

theorem Bookkept.cancelled (h : Bookkept s) (hcancelled : WithdrawalCancelled id s s') :
    Bookkept s' ∧ gap c s' = gap c s := by
  obtain ⟨withdrawal, s₁, hfound, hstate, hended⟩ := hcancelled
  exact h.ends hfound hended

theorem Bookkept.failed (h : Bookkept s) (hfailed : WithdrawalFailed id s s') : Bookkept s' ∧ gap c s' = gap c s := by
  cases hfailed with
  | unchanged => exact ⟨h, rfl⟩
  | failed withdrawal s₁ hfound hstate hended => exact h.ends hfound hended

theorem Bookkept.exists_completed (h : Bookkept s) (hfound : s.withdrawals.find id = some withdrawal)
    (hready : withdrawal.state.ready) (blockchainTransaction : String) :
    ∃ s', completeWithdrawal c id blockchainTransaction s = .ok s' := by
  have hcompleted : withdrawal.state ≠ .completed := by
    intro heq
    rw [heq] at hready
    cases hready
  unfold completeWithdrawal
  rw [bind_of_ok (fetch_of_some hfound)]
  dsimp only
  rw [if_neg hcompleted, bind_of_ok (require_of (of_decide_eq_true hready)),
    bind_of_ok (postTransaction_moved (h.withdrawals id withdrawal hfound).1.1 (h.withdrawals id withdrawal hfound).1.2)]
  let captured : Books :=
    { s with ledger := posted s.ledger (captureKey id) ⟨"WITHDRAWAL_CAPTURE", capturePostings c id withdrawal⟩ }
  have haccounted : HoldsAccounted captured.balances captured.holds := h.accounted
  obtain ⟨s₁, hended⟩ := haccounted.exists_ended withdrawal .captured
  exact ⟨_, bind_of_ok hended⟩

theorem Bookkept.unposted {op : WalletEnv × WalletCall} (h : Bookkept s) (hfits : op.2.CreditsFit s) (hnone : ∀ id blockchainTransaction withdrawal,
    op.2 = .lifecycle (.completeWithdrawal id blockchainTransaction) → s.withdrawals.find id = some withdrawal →
      withdrawal.state.ready → s.ledger.find (captureKey id) ≠ none) :
    Bookkept (walletStep c s op) ∧ gap c (walletStep c s op) = gap c s := by
  obtain ⟨env, call⟩ := op
  rcases commitState_cases (fun s => call.run c env s) s with ⟨s', hrun, heq⟩ | ⟨-, heq⟩
  · rw [walletStep, heq]
    cases call with
    | lifecycle call =>
      cases call with
      | recordDetectedDeposit r => exact h.detected (recordDetectedDeposit_eq_ok hrun)
      | creditDeposit id confirmations => exact h.credited (creditDeposit_eq_ok h.accounted.room hfits hrun)
      | createInternalTransfer r =>
        obtain ⟨⟨id, t⟩, hcreate, rfl⟩ := map_eq_ok.mp hrun
        exact h.transferred (createInternalTransfer_eq_ok h.accounted.room hfits hcreate)
      | requestWithdrawal r =>
        obtain ⟨⟨id, t⟩, hrequest, rfl⟩ := map_eq_ok.mp hrun
        exact h.requested (requestWithdrawal_eq_ok h.accounted.room hrequest)
      | approveWithdrawal id approver text reason => exact h.decided (approveWithdrawal_eq_ok hrun)
      | cancelWithdrawal id actor => exact h.cancelled (cancelWithdrawal_eq_ok h.accounted.room hrun)
      | failWithdrawal id reason => exact h.failed (failWithdrawal_eq_ok h.accounted.room hrun)
      | completeWithdrawal id blockchainTransaction =>
        cases completeWithdrawal_eq_ok h.accounted.room hrun with
        | unchanged hstate => exact ⟨h, rfl⟩
        | completed withdrawal blockchainTransaction' s₁ hfound hready hended =>
          have hposted := hnone id blockchainTransaction withdrawal rfl hfound hready
          obtain ⟨h', hcaptured⟩ := h.completed (c := c) hfound hended
          cases hcaptured with
          | unposted hposted hgap => exact ⟨h', hgap⟩
          | ended hfree hover hgap => exact absurd hfree hposted
          | active hfree hold hhold hactive hgap => exact absurd hfree hposted
      | signWithdrawal id => exact h.signed (signWithdrawal_eq_ok hrun)
    | createHold tenant hold key =>
      obtain ⟨⟨id, t⟩, hcreate, rfl⟩ := map_eq_ok.mp hrun
      obtain ⟨-, hcreated⟩ := createHold_eq_ok h.accounted.room hcreate
      exact h.created hcreated
    | releaseHold holdId =>
      obtain ⟨h', hold, -, -, hgap⟩ := h.settled (c := c) (transitionHold_eq_ok h.accounted.room hrun) (by decide)
      refine ⟨h', ?_⟩
      funext wallet asset
      rw [hgap, if_neg fun hcaptured => (by cases hcaptured.1), sub_zero]
  · rw [walletStep, heq]
    exact ⟨h, rfl⟩

-- Two amounts at two wallets and assets agree everywhere where the wallets, the assets and the amounts do.
theorem agree_iff {w w' a a' : Uuid} {x y : ℤ} (hpositive : 0 < x) :
    (∀ wallet asset, (if w = wallet ∧ a = asset then x else 0) = if w' = wallet ∧ a' = asset then y else 0) ↔
      w' = w ∧ a' = a ∧ y = x := by
  constructor
  · intro h
    have hown := h w a
    rw [if_pos ⟨rfl, rfl⟩] at hown
    split_ifs at hown with hsame
    · exact ⟨hsame.1, hsame.2, hown.symm⟩
    · exact absurd hown hpositive.ne'
  · rintro ⟨rfl, rfl, rfl⟩ wallet asset
    rfl

theorem Bookkept.posts {op : WalletEnv × WalletCall} {blockchainTransaction : String} (h : Bookkept s) (hcall : op.2 = .lifecycle (.completeWithdrawal id blockchainTransaction))
    (hfound : s.withdrawals.find id = some withdrawal) (hready : withdrawal.state.ready)
    (hfree : s.ledger.find (captureKey id) = none) :
    Bookkept (walletStep c s op) ∧ (LedgerAgrees c s → (LedgerAgrees c (walletStep c s op) ↔
      ∃ hold, s.holdOf withdrawal = some hold ∧ hold.state = .active ∧ hold.wallet = withdrawal.wallet ∧
        c.asset hold.assetNetwork = c.asset withdrawal.assetNetwork ∧ hold.amountAtomic = withdrawal.amountAtomic)) := by
  have hpositive := (h.withdrawals id withdrawal hfound).1.1
  obtain ⟨s', hrun⟩ := h.exists_completed (c := c) hfound hready blockchainTransaction
  have heq : walletStep c s op = s' := commitState_of_ok (by rw [hcall]; exact hrun)
  rw [heq]
  cases completeWithdrawal_eq_ok h.accounted.room hrun with
  | unchanged hstate => exact absurd hready (hstate withdrawal hfound)
  | completed found blockchainTransaction' s₁ hfound' hready' hended =>
    obtain rfl := Option.some.inj (hfound.symm.trans hfound')
    obtain ⟨h', hcaptured⟩ := h.completed (c := c) hfound hended
    refine ⟨h', fun hagrees => h'.agrees_iff.trans ?_⟩
    have hgap := h.agrees_iff.mp hagrees
    cases hcaptured with
    | unposted hposted hgap' => exact absurd hfree hposted
    | ended _ hover hgap' =>
      refine iff_of_false (fun hzero => ?_) fun ⟨hold, hhold, hactive, _⟩ => hover hold hhold hactive
      have hopened := hzero withdrawal.wallet (c.asset withdrawal.assetNetwork)
      rw [hgap', hgap, if_pos ⟨rfl, rfl⟩, zero_add] at hopened
      exact hpositive.ne' hopened
    | active _ hold hhold hactive hgap' =>
      have hzero : (∀ wallet asset, gap c _ wallet asset = 0) ↔ _ := (forall₂_congr fun wallet asset => by
        rw [hgap', hgap, zero_sub, neg_add_eq_zero, eq_comm]).trans (agree_iff hpositive)
      rw [hzero]
      constructor
      · rintro ⟨hwallet, hasset, hamount⟩
        exact ⟨hold, hhold, hactive, hwallet, hasset, hamount⟩
      · rintro ⟨hold', hhold', -, hsame⟩
        obtain rfl := Option.some.inj (hhold.symm.trans hhold')
        exact hsame

theorem Bookkept.step {op : WalletEnv × WalletCall} (h : Bookkept s) (hfits : op.2.CreditsFit s) : Bookkept (walletStep c s op) ∧
    (LedgerAgrees c s → (LedgerAgrees c (walletStep c s op) ↔ CapturesOwnHold c s op)) := by
  by_cases hcall : ∃ id blockchainTransaction withdrawal,
    op.2 = .lifecycle (.completeWithdrawal id blockchainTransaction) ∧ s.withdrawals.find id = some withdrawal ∧
      withdrawal.state.ready ∧ s.ledger.find (captureKey id) = none
  · obtain ⟨id, blockchainTransaction, withdrawal, hcall, hfound, hready, hfree⟩ := hcall
    obtain ⟨h', hagrees_iff⟩ := h.posts (c := c) hcall hfound hready hfree
    refine ⟨h', fun hagrees => (hagrees_iff hagrees).trans ⟨?_, fun hcaptures => ?_⟩⟩
    · intro hown id' blockchainTransaction' withdrawal' hcall' hfound' hready' hfree'
      obtain ⟨rfl, -⟩ := LifecycleCall.completeWithdrawal.inj (WalletCall.lifecycle.inj (hcall.symm.trans hcall'))
      obtain rfl := Option.some.inj (hfound.symm.trans hfound')
      exact hown
    · exact hcaptures id blockchainTransaction withdrawal hcall hfound hready hfree
  · have hnone id blockchainTransaction withdrawal
        (heq : op.2 = .lifecycle (.completeWithdrawal id blockchainTransaction)) (hfound : s.withdrawals.find id = some withdrawal)
        (hready : withdrawal.state.ready) : s.ledger.find (captureKey id) ≠ none :=
      fun hfree => hcall ⟨id, blockchainTransaction, withdrawal, heq, hfound, hready, hfree⟩
    obtain ⟨h', hgap⟩ := h.unposted (c := c) hfits hnone
    refine ⟨h', fun hagrees => iff_of_true ?_ fun id blockchainTransaction withdrawal heq hfound hready hfree => ?_⟩
    · rw [h'.agrees_iff, hgap]
      exact h.agrees_iff.mp hagrees
    · exact absurd hfree (hnone id blockchainTransaction withdrawal heq hfound hready)

end Steps

end RealWallet

end Beyvra
