import Beyvra.RealWallet.Services

namespace Beyvra

open Numeric Relational

namespace RealWallet

-- Up to here a whole number has the digits of the context.
def roomAtomic : ℤ := 10 ^ 28

-- Balances in which every sum of an operation is exact, as long as credits leave them there
structure Room (balances : Table BalanceKey AssetBalance) (holds : Table ScopedKey BalanceHold) : Prop where
  balance : ∀ key b, balances.find key = some b →
    0 ≤ b.heldAtomic ∧ b.heldAtomic ≤ b.postedAtomic ∧ b.postedAtomic ≤ roomAtomic ∧ b.reservedAtomic = 0
  hold : ∀ id hold b, holds.find id = some hold → hold.state = .active → balances.find hold.balance = some b →
    0 < hold.amountAtomic ∧ hold.amountAtomic ≤ b.heldAtomic

def DepositKey.balance (id : DepositKey) (deposit : Deposit) : BalanceKey := ⟨deposit.wallet, id.assetNetwork⟩

-- What a deposit or a transfer credits leaves the balance in the room.
def LifecycleCall.CreditsFit (s : Books) : LifecycleCall → Prop
  | .creditDeposit id requiredConfirmations => ∀ deposit ∈ s.deposits.find id, deposit.state ≠ .credited →
      requiredConfirmations ≤ deposit.confirmations →
        ((s.balances.find (id.balance deposit)).getD {}).postedAtomic + deposit.amountAtomic ≤ roomAtomic
  | .createInternalTransfer r => ∀ source ∈ s.balances.find r.source, ∀ destination ∈ s.balances.find r.destination,
      r.amountAtomic ≤ source.availableAtomic → destination.postedAtomic + r.amountAtomic ≤ roomAtomic
  | _ => True

def WalletCall.CreditsFit (s : Books) : WalletCall → Prop
  | .lifecycle call => call.CreditsFit s
  | _ => True

instance (s : Books) (call : LifecycleCall) : Decidable (call.CreditsFit s) := by
  cases call <;> unfold LifecycleCall.CreditsFit <;> infer_instance

instance (s : Books) (call : WalletCall) : Decidable (call.CreditsFit s) := by
  cases call <;> unfold WalletCall.CreditsFit <;> infer_instance

-- What `settle` comes to in the room
def AssetBalance.less (b : AssetBalance) (target : HoldState) (amountAtomic : ℤ) : AssetBalance :=
  if target = .captured then
    { b with heldAtomic := b.heldAtomic - amountAtomic, postedAtomic := b.postedAtomic - amountAtomic }
  else { b with heldAtomic := b.heldAtomic - amountAtomic }

variable {c : Catalogue} {env : WalletEnv} {s s' : Books}

-- What create_hold writes, for a key that is new
inductive HoldCreated (id : ScopedKey) (hold : BalanceHold) (s : Books) : Books → Prop where
  | existing (row : BalanceHold) (hrow : s.holds.find id = some row) : HoldCreated id hold s s
  | created (balance : AssetBalance) (hfree : s.holds.find id = none) (hpositive : 0 < hold.amountAtomic)
      (hbalance : s.balances.find hold.balance = some balance) (havailable : hold.amountAtomic ≤ balance.postedAtomic - balance.heldAtomic) :
      HoldCreated id hold s
        { s with
          balances := s.balances.put hold.balance { balance with heldAtomic := balance.heldAtomic + hold.amountAtomic }
          holds := s.holds.put id { hold with state := .active } }

inductive HoldSettled (id : ScopedKey) (target : HoldState) (s : Books) : Books → Prop where
  | settled (row : BalanceHold) (balance : AssetBalance) (hrow : s.holds.find id = some row) (hactive : row.state = .active)
      (hbalance : s.balances.find row.balance = some balance) :
      HoldSettled id target s
        { s with
          balances := s.balances.put row.balance (balance.less target row.amountAtomic)
          holds := s.holds.put id { row with state := target } }

-- A transaction is written once for each key.
def posted (ledger : Table LedgerKey LedgerTransaction) (key : LedgerKey) (tx : LedgerTransaction) :
    Table LedgerKey LedgerTransaction :=
  if ledger.find key = none then ledger.put key tx else ledger

-- The hold of a withdrawal ends where it is active.
inductive HoldEnded (withdrawal : Withdrawal) (target : HoldState) (s : Books) : Books → Prop where
  | kept (hended : ∀ hold, s.holdOf withdrawal = some hold → hold.state ≠ .active) : HoldEnded withdrawal target s s
  | settled (id : ScopedKey) (s' : Books) (hhold : withdrawal.hold = some id) (hsettled : HoldSettled id target s s') :
      HoldEnded withdrawal target s s'

namespace WithdrawalRequest

def id (r : WithdrawalRequest) : ScopedKey := ⟨r.tenant, r.idempotencyKey⟩

def holdKey (r : WithdrawalRequest) : ScopedKey := ⟨r.tenant, "withdrawal:" ++ r.idempotencyKey⟩

def hold (r : WithdrawalRequest) (address : WithdrawalAddress) : BalanceHold :=
  { wallet := r.wallet, assetNetwork := address.assetNetwork, amountAtomic := r.amountAtomic, reason := "WITHDRAWAL" }

def withdrawal (r : WithdrawalRequest) (address : WithdrawalAddress) : Withdrawal :=
  { wallet := r.wallet, assetNetwork := address.assetNetwork, destination := address.address
    amountAtomic := r.amountAtomic, hold := some r.holdKey }

end WithdrawalRequest

inductive WithdrawalRequested (r : WithdrawalRequest) (s : Books) : Books → Prop where
  | replayed (idempotency : Table IdempotencyScope IdempotencyRecord) : WithdrawalRequested r s { s with idempotency }
  | opened (address : WithdrawalAddress) (reserved idempotency : Table IdempotencyScope IdempotencyRecord) (s₁ : Books)
      (hpositive : 0 < r.amountAtomic) (hfits : fits r.amountAtomic)
      (hcreated : HoldCreated r.holdKey (r.hold address) { s with idempotency := reserved } s₁)
      (hfree : s.withdrawals.find r.id = none) :
      WithdrawalRequested r s
        { s₁ with withdrawals := s₁.withdrawals.put r.id (r.withdrawal address), idempotency }

namespace TransferRequest

def id (r : TransferRequest) : ScopedKey := ⟨r.tenant, r.idempotencyKey⟩

def postings (c : Catalogue) (r : TransferRequest) : List LedgerEntry :=
  moved (customerAccount r.tenant r.sourceWallet (c.asset r.assetNetwork))
    (customerAccount r.tenant r.destinationWallet (c.asset r.assetNetwork)) (c.asset r.assetNetwork) r.amountAtomic

end TransferRequest

inductive Transferred (c : Catalogue) (r : TransferRequest) (s : Books) : Books → Prop where
  | replayed (idempotency : Table IdempotencyScope IdempotencyRecord) : Transferred c r s { s with idempotency }
  | transferred (source destination : AssetBalance) (transfer : InternalTransfer)
      (idempotency : Table IdempotencyScope IdempotencyRecord) (hwallets : r.sourceWallet ≠ r.destinationWallet)
      (hpositive : 0 < r.amountAtomic) (hsource : s.balances.find r.source = some source)
      (hdestination : s.balances.find r.destination = some destination)
      (havailable : r.amountAtomic ≤ source.postedAtomic - source.heldAtomic)
      (hroom : destination.postedAtomic + r.amountAtomic ≤ roomAtomic) (hfree : s.transfers.find r.id = none) :
      Transferred c r s
        { s with
          transfers := s.transfers.put r.id transfer
          ledger := posted s.ledger ⟨r.tenant, .transferLedger r.idempotencyKey⟩ ⟨"INTERNAL_TRANSFER", r.postings c⟩
          balances := (s.balances.put r.source { source with postedAtomic := source.postedAtomic - r.amountAtomic }).put
            r.destination { destination with postedAtomic := destination.postedAtomic + r.amountAtomic }
          idempotency }

inductive DepositDetected (r : DetectedDeposit) (s : Books) : Books → Prop where
  | unchanged : DepositDetected r s s
  | detected (deposit : Deposit) (hfree : s.deposits.find r.id = none) (hopen : deposit.state ≠ .credited)
      (hpositive : 0 < deposit.amountAtomic) : DepositDetected r s { s with deposits := s.deposits.put r.id deposit }

def creditPostings (c : Catalogue) (id : DepositKey) (deposit : Deposit) : List LedgerEntry :=
  moved (platformAccount deposit.tenant (c.asset id.assetNetwork))
    (customerAccount deposit.tenant deposit.wallet (c.asset id.assetNetwork)) (c.asset id.assetNetwork) deposit.amountAtomic

inductive DepositCredited (c : Catalogue) (id : DepositKey) (s : Books) : Books → Prop where
  | unchanged : DepositCredited c id s s
  | credited (deposit : Deposit) (balance : AssetBalance) (hfound : s.deposits.find id = some deposit)
      (hopen : deposit.state ≠ .credited) (hbalance : balance = (s.balances.find (id.balance deposit)).getD {})
      (hpositive : 0 < deposit.amountAtomic) (hroom : balance.postedAtomic + deposit.amountAtomic ≤ roomAtomic) :
      DepositCredited c id s
        { s with
          ledger := posted s.ledger ⟨deposit.tenant, .depositCredit id⟩ ⟨"DEPOSIT_CREDIT", creditPostings c id deposit⟩
          balances := s.balances.put (id.balance deposit)
            { balance with postedAtomic := balance.postedAtomic + deposit.amountAtomic }
          deposits := s.deposits.put id
            { deposit with state := .credited, ledgerTransaction := some ⟨deposit.tenant, .depositCredit id⟩ } }

inductive WithdrawalCancelled (id : ScopedKey) (s : Books) : Books → Prop where
  | cancelled (withdrawal : Withdrawal) (s₁ : Books) (hfound : s.withdrawals.find id = some withdrawal)
      (hstate : withdrawal.state ∈ cancellable) (hended : HoldEnded withdrawal .released s s₁) :
      WithdrawalCancelled id s (saveState id withdrawal .cancelled s₁)

inductive WithdrawalFailed (id : ScopedKey) (s : Books) : Books → Prop where
  | unchanged : WithdrawalFailed id s s
  | failed (withdrawal : Withdrawal) (s₁ : Books) (hfound : s.withdrawals.find id = some withdrawal)
      (hstate : withdrawal.state ∉ [.completed, .cancelled, .failed]) (hended : HoldEnded withdrawal .released s s₁) :
      WithdrawalFailed id s (saveState id withdrawal .failed s₁)

def capturePostings (c : Catalogue) (id : ScopedKey) (withdrawal : Withdrawal) : List LedgerEntry :=
  moved (customerAccount id.tenant withdrawal.wallet (c.asset withdrawal.assetNetwork))
    (platformAccount id.tenant (c.asset withdrawal.assetNetwork)) (c.asset withdrawal.assetNetwork) withdrawal.amountAtomic

def WithdrawalState.ready (state : WithdrawalState) : Bool := state ∈ [.signed, .broadcast, .confirming]

def captureKey (id : ScopedKey) : LedgerKey := ⟨id.tenant, .withdrawalCapture id⟩

inductive WithdrawalCompleted (c : Catalogue) (id : ScopedKey) (s : Books) : Books → Prop where
  | unchanged (hstate : ∀ withdrawal, s.withdrawals.find id = some withdrawal → ¬withdrawal.state.ready) :
      WithdrawalCompleted c id s s
  | completed (withdrawal : Withdrawal) (blockchainTransaction : String) (s₁ : Books)
      (hfound : s.withdrawals.find id = some withdrawal) (hready : withdrawal.state.ready)
      (hended : HoldEnded withdrawal .captured
        { s with ledger := posted s.ledger (captureKey id) ⟨"WITHDRAWAL_CAPTURE", capturePostings c id withdrawal⟩ } s₁) :
      WithdrawalCompleted c id s (saveState id { withdrawal with blockchainTransaction } .completed s₁)

-- The approver is a member of the tenant and not the owner, and decides for the first time.
structure Decides (c : Catalogue) (env : WalletEnv) (s : Books) (id : ScopedKey) (approver : Nat) (text : String)
    (withdrawal : Withdrawal) (decision : Decision) : Prop where
  found : s.withdrawals.find id = some withdrawal
  member : env.member id.tenant approver
  independent : (c.wallet withdrawal.wallet).owner ≠ approver
  decision : Decision.ofText text = some decision
  first : s.approvals.find ⟨id, approver⟩ = none

inductive WithdrawalDecided (c : Catalogue) (env : WalletEnv) (id : ScopedKey) (approver : Nat) (text : String) (s : Books) :
    Books → Prop where
  | unchanged (hnone : ∀ withdrawal decision, ¬Decides c env s id approver text withdrawal decision) :
      WithdrawalDecided c env id approver text s s
  | decided (withdrawal : Withdrawal) (decision : Decision) (approval : WithdrawalApproval) (state : WithdrawalState)
      (hdecides : Decides c env s id approver text withdrawal decision)
      (hstate : state = if decision = .rejected then .rejected else if 1 ≤ s.approvedCount id then .approved else withdrawal.state) :
      WithdrawalDecided c env id approver text s
        (saveState id withdrawal state { s with approvals := s.approvals.put ⟨id, approver⟩ approval })

inductive WithdrawalSigned (id : ScopedKey) (s : Books) : Books → Prop where
  | signed (withdrawal : Withdrawal) (hfound : s.withdrawals.find id = some withdrawal) (hstate : withdrawal.state = .approved) :
      WithdrawalSigned id s (saveState id withdrawal .signed s)

theorem inContext_of_room {n : ℤ} (h0 : 0 ≤ n) (h : n ≤ roomAtomic) : inContext n = n := by
  have hexact : defaultContext.round n = n := by
    have habs : |(n : ℚ)| = n := abs_of_nonneg (Int.cast_nonneg h0)
    rcases h.eq_or_lt with rfl | hlt
    · refine nearest_of_isMultiple (e := 1) (by norm_num) (by decide) ⟨10 ^ 27, by norm_num [roomAtomic]⟩ ?_
      norm_num [roomAtomic, defaultContext]
    · refine nearest_of_isMultiple (e := 0) (by norm_num) (by decide) ⟨n, by simp⟩ ?_
      rw [habs]
      have hroom : (n : ℚ) < 10 ^ 28 := by exact_mod_cast hlt
      simpa [defaultContext] using hroom
  rw [inContext, hexact, Int.floor_intCast]

theorem fits_of_room {n : ℤ} (h0 : 0 ≤ n) (h : n ≤ roomAtomic) : fits n = true := by
  have hroom : roomAtomic < 10 ^ 78 := by decide
  rw [fits, abs_of_nonneg h0]
  exact decide_eq_true (h.trans_lt hroom)

namespace Room

variable {balances : Table BalanceKey AssetBalance} {holds : Table ScopedKey BalanceHold} {key : BalanceKey}
  {b : AssetBalance} {id : ScopedKey} {hold : BalanceHold} {target : HoldState}

theorem available (h : Room balances holds) (hbalance : balances.find key = some b) :
    b.availableAtomic = b.postedAtomic - b.heldAtomic := by
  obtain ⟨hheld, hcovered, hposted, hreserved⟩ := h.balance key b hbalance
  rw [AssetBalance.availableAtomic, hreserved, sub_zero, inContext_of_room (n := b.postedAtomic - b.heldAtomic) (by omega)
    (by omega), inContext_of_room (by omega) (by omega)]

theorem settle_eq (h : Room balances holds) (hrow : holds.find id = some hold) (hactive : hold.state = .active)
    (hbalance : balances.find hold.balance = some b) : b.settle target hold.amountAtomic = b.less target hold.amountAtomic := by
  obtain ⟨hheld, hcovered, hposted, -⟩ := h.balance _ b hbalance
  obtain ⟨hpositive, hle⟩ := h.hold id hold b hrow hactive hbalance
  unfold AssetBalance.settle AssetBalance.less
  rw [inContext_of_room (n := b.heldAtomic - hold.amountAtomic) (by omega) (by omega),
    inContext_of_room (n := b.postedAtomic - hold.amountAtomic) (by omega) (by omega)]

theorem posted_nonneg (h : Room balances holds) (key : BalanceKey) : 0 ≤ ((balances.find key).getD {}).postedAtomic := by
  cases hfound : balances.find key with
  | none => exact le_rfl
  | some b =>
    obtain ⟨hheld, hcovered, -, -⟩ := h.balance key b hfound
    exact hheld.trans hcovered

end Room

theorem saveBalance_eq_ok {key : BalanceKey} {balance : AssetBalance} : saveBalance key balance s = .ok s' ↔
    ((fits balance.postedAtomic ∧ fits balance.heldAtomic) ∧ balance.valid) ∧
      s' = { s with balances := s.balances.put key balance } := by
  unfold saveBalance
  rw [bind_eq_ok]
  constructor
  · rintro ⟨_, hfits, h⟩
    obtain ⟨_, hvalid, h⟩ := bind_eq_ok.mp h
    exact ⟨⟨require_eq_ok.mp hfits, require_eq_ok.mp hvalid⟩, (pure_eq_ok.mp h).symm⟩
  · rintro ⟨⟨hfits, hvalid⟩, rfl⟩
    exact ⟨(), require_of hfits, bind_eq_ok.mpr ⟨(), require_of hvalid, rfl⟩⟩

theorem postTransaction_eq_ok {key : LedgerKey} {transactionType : String} {entries : List LedgerEntry}
    (h : postTransaction key transactionType entries s = .ok s') : (∀ item ∈ entries, 0 < item.amount) ∧
      s' = { s with ledger := posted s.ledger key ⟨transactionType, entries⟩ } := by
  cases entries with
  | nil => cases h
  | cons first entries =>
    obtain ⟨_, hpositive, h⟩ := bind_eq_ok.mp h
    obtain ⟨_, -, h⟩ := bind_eq_ok.mp h
    obtain ⟨_, -, h⟩ := bind_eq_ok.mp h
    refine ⟨require_eq_ok.mp hpositive, ?_⟩
    unfold posted
    cases hfound : s.ledger.find key with
    | none =>
      rw [hfound] at h
      obtain ⟨_, -, h⟩ := bind_eq_ok.mp h
      rw [if_pos rfl]
      exact (pure_eq_ok.mp h).symm
    | some tx =>
      rw [hfound] at h
      rw [if_neg (Option.some_ne_none tx)]
      exact (pure_eq_ok.mp h).symm

theorem postTransaction_moved {key : LedgerKey} {transactionType : String} {source target : LedgerAccount} {asset : Uuid}
    {amount : ℤ} (hpositive : 0 < amount) (hfits : fits amount) : postTransaction key transactionType (moved source target asset amount) s =
      .ok { s with ledger := posted s.ledger key ⟨transactionType, moved source target asset amount⟩ } := by
  have htotals : totalOf .debit (moved source target asset amount) = totalOf .credit (moved source target asset amount) := by
    simp [totalOf, moved]
  unfold postTransaction posted moved at *
  dsimp only at *
  rw [bind_of_ok (require_of (by simpa using hpositive)), bind_of_ok (require_of (by simp)), bind_of_ok (require_of htotals)]
  cases hfound : s.ledger.find key with
  | none =>
    dsimp only
    rw [bind_of_ok (require_of (by simpa using hfits))]
    rfl
  | some tx => rfl

theorem createHold_eq_ok {tenant : Uuid} {hold : BalanceHold} {key : String} {id : ScopedKey}
    (hroom : Room s.balances s.holds) (h : createHold tenant hold key s = .ok (id, s')) : id = ⟨tenant, key⟩ ∧ HoldCreated ⟨tenant, key⟩ hold s s' := by
  obtain ⟨_, hpositive, h⟩ := bind_eq_ok.mp h
  have hpositive := require_eq_ok.mp hpositive
  cases hfound : s.holds.find ⟨tenant, key⟩ with
  | some row =>
    rw [hfound] at h
    cases h
    exact ⟨rfl, .existing row hfound⟩
  | none =>
    rw [hfound] at h
    obtain ⟨balance, hbalance, h⟩ := bind_eq_ok.mp h
    obtain ⟨_, havailable, h⟩ := bind_eq_ok.mp h
    obtain ⟨s₁, hsaved, h⟩ := bind_eq_ok.mp h
    have hbalance := fetch_eq_ok.mp hbalance
    have havailable := not_lt.mp (require_eq_ok.mp havailable)
    rw [hroom.available hbalance] at havailable
    obtain ⟨hheld, hcovered, hposted, -⟩ := hroom.balance _ balance hbalance
    rw [inContext_of_room (by omega) (by omega)] at hsaved
    obtain ⟨-, rfl⟩ := saveBalance_eq_ok.mp hsaved
    cases h
    exact ⟨rfl, .created balance hfound hpositive hbalance havailable⟩

theorem transitionHold_eq_ok {id : ScopedKey} {target : HoldState} (hroom : Room s.balances s.holds) (h : transitionHold id target s = .ok s') :
    HoldSettled id target s s' := by
  obtain ⟨row, hrow, h⟩ := bind_eq_ok.mp h
  obtain ⟨_, hactive, h⟩ := bind_eq_ok.mp h
  obtain ⟨balance, hbalance, h⟩ := bind_eq_ok.mp h
  obtain ⟨s₁, hsaved, h⟩ := bind_eq_ok.mp h
  rw [hroom.settle_eq (fetch_eq_ok.mp hrow) (require_eq_ok.mp hactive) (fetch_eq_ok.mp hbalance)] at hsaved
  obtain ⟨-, rfl⟩ := saveBalance_eq_ok.mp hsaved
  cases h
  exact .settled row balance (fetch_eq_ok.mp hrow) (require_eq_ok.mp hactive) (fetch_eq_ok.mp hbalance)

theorem reserveIdempotency_eq_ok {scope : IdempotencyScope} {payload : Payload} {record : IdempotencyRecord} {created : Bool}
    (h : reserveIdempotency scope payload s = .ok ((record, created), s')) : ∃ idempotency, s' = { s with idempotency } := by
  unfold reserveIdempotency at h
  cases hfound : s.idempotency.find scope with
  | some found =>
    rw [hfound] at h
    obtain ⟨_, -, h⟩ := bind_eq_ok.mp h
    cases h
    exact ⟨s.idempotency, rfl⟩
  | none =>
    rw [hfound] at h
    cases h
    exact ⟨_, rfl⟩

theorem insertWithdrawal_eq_ok {id : ScopedKey} {withdrawal : Withdrawal} (h : insertWithdrawal id withdrawal s = .ok s') :
    s.withdrawals.find id = none ∧ fits withdrawal.amountAtomic ∧
      s' = { s with withdrawals := s.withdrawals.put id withdrawal } := by
  obtain ⟨_, hunique, h⟩ := bind_eq_ok.mp h
  obtain ⟨_, hfits, h⟩ := bind_eq_ok.mp h
  cases h
  exact ⟨(require_eq_ok.mp hunique).1, require_eq_ok.mp hfits, rfl⟩

theorem HoldCreated.withdrawals {id : ScopedKey} {hold : BalanceHold} (h : HoldCreated id hold s s') :
    s'.withdrawals = s.withdrawals := by
  cases h <;> rfl

theorem HoldCreated.exists_hold {id : ScopedKey} {hold : BalanceHold} (h : HoldCreated id hold s s') :
    s'.holds.find id ≠ none := by
  cases h with
  | existing row hrow =>
    rw [hrow]
    exact Option.some_ne_none row
  | created balance hfree hpositive hbalance havailable =>
    rw [Table.find_put_self]
    exact Option.some_ne_none _

theorem HoldEnded.withdrawals {withdrawal : Withdrawal} {target : HoldState} (h : HoldEnded withdrawal target s s') :
    s'.withdrawals = s.withdrawals := by
  cases h with
  | kept hended => rfl
  | settled key s' hhold hsettled =>
    cases hsettled
    rfl

theorem requestWithdrawal_eq_ok {r : WithdrawalRequest} {id : ScopedKey} (hroom : Room s.balances s.holds)
    (h : requestWithdrawal env r s = .ok (id, s')) : WithdrawalRequested r s s' := by
  obtain ⟨_, -, h⟩ := bind_eq_ok.mp h
  obtain ⟨_, -, h⟩ := bind_eq_ok.mp h
  obtain ⟨_, hpositive, h⟩ := bind_eq_ok.mp h
  obtain ⟨⟨⟨record, created⟩, s₁⟩, hreserved, h⟩ := bind_eq_ok.mp h
  obtain ⟨reserved, rfl⟩ := reserveIdempotency_eq_ok hreserved
  dsimp only at h
  split at h
  · obtain ⟨_, -, h⟩ := bind_eq_ok.mp h
    cases h
    exact .replayed reserved
  · obtain ⟨address, -, h⟩ := bind_eq_ok.mp h
    obtain ⟨_, -, h⟩ := bind_eq_ok.mp h
    obtain ⟨⟨hold, s₂⟩, hheld, h⟩ := bind_eq_ok.mp h
    obtain ⟨rfl, hcreated⟩ := createHold_eq_ok (s := { s with idempotency := reserved }) hroom hheld
    obtain ⟨s₃, hinserted, h⟩ := bind_eq_ok.mp h
    obtain ⟨hfree, hfits, rfl⟩ := insertWithdrawal_eq_ok hinserted
    cases h
    exact .opened address reserved _ s₂ (require_eq_ok.mp hpositive) hfits hcreated (hcreated.withdrawals ▸ hfree)

theorem createInternalTransfer_eq_ok {r : TransferRequest} {id : ScopedKey} (hroom : Room s.balances s.holds)
    (hfits : (LifecycleCall.createInternalTransfer r).CreditsFit s) (h : createInternalTransfer c env r s = .ok (id, s')) : Transferred c r s s' := by
  obtain ⟨_, -, h⟩ := bind_eq_ok.mp h
  obtain ⟨_, hwallets, h⟩ := bind_eq_ok.mp h
  obtain ⟨_, hpositive, h⟩ := bind_eq_ok.mp h
  obtain ⟨⟨⟨record, created⟩, s₁⟩, hreserved, h⟩ := bind_eq_ok.mp h
  obtain ⟨reserved, rfl⟩ := reserveIdempotency_eq_ok hreserved
  dsimp only at h
  split at h
  · obtain ⟨_, -, h⟩ := bind_eq_ok.mp h
    cases h
    exact .replayed reserved
  · obtain ⟨source, hsource, h⟩ := bind_eq_ok.mp h
    obtain ⟨destination, hdestination, h⟩ := bind_eq_ok.mp h
    obtain ⟨_, havailable, h⟩ := bind_eq_ok.mp h
    obtain ⟨_, hfree, h⟩ := bind_eq_ok.mp h
    obtain ⟨s₂, hledger, h⟩ := bind_eq_ok.mp h
    obtain ⟨-, rfl⟩ := postTransaction_eq_ok hledger
    obtain ⟨s₃, hdebited, h⟩ := bind_eq_ok.mp h
    have hpositive := require_eq_ok.mp hpositive
    have hsource := fetch_eq_ok.mp hsource
    have hdestination := fetch_eq_ok.mp hdestination
    have havailable := not_lt.mp (require_eq_ok.mp havailable)
    have hcredit := hfits source hsource destination hdestination havailable
    rw [hroom.available hsource] at havailable
    obtain ⟨hheld, hcovered, hposted, -⟩ := hroom.balance _ source hsource
    obtain ⟨hheld', hcovered', -, -⟩ := hroom.balance _ destination hdestination
    rw [inContext_of_room (by omega) (by omega)] at hdebited
    obtain ⟨-, rfl⟩ := saveBalance_eq_ok.mp hdebited
    obtain ⟨s₄, hcredited, h⟩ := bind_eq_ok.mp h
    rw [inContext_of_room (by omega) hcredit] at hcredited
    obtain ⟨-, rfl⟩ := saveBalance_eq_ok.mp hcredited
    cases h
    exact .transferred source destination _ _ (require_eq_ok.mp hwallets).1 hpositive hsource hdestination havailable hcredit
      (require_eq_ok.mp hfree)

theorem recordDetectedDeposit_eq_ok {r : DetectedDeposit} (h : recordDetectedDeposit env r s = .ok s') :
    DepositDetected r s s' := by
  obtain ⟨_, -, h⟩ := bind_eq_ok.mp h
  obtain ⟨_, hpositive, h⟩ := bind_eq_ok.mp h
  cases hfound : s.deposits.find r.id with
  | some deposit =>
    rw [hfound] at h
    cases h
    exact .unchanged
  | none =>
    rw [hfound] at h
    obtain ⟨_, -, h⟩ := bind_eq_ok.mp h
    cases h
    refine .detected _ hfound ?_ (require_eq_ok.mp hpositive)
    dsimp only
    split_ifs <;> decide

theorem creditDeposit_eq_ok {id : DepositKey} {confirmations : Nat} (hroom : Room s.balances s.holds)
    (hfits : (LifecycleCall.creditDeposit id confirmations).CreditsFit s)
    (h : creditDeposit c env id confirmations s = .ok s') : DepositCredited c id s s' := by
  obtain ⟨_, -, h⟩ := bind_eq_ok.mp h
  obtain ⟨deposit, hfound, h⟩ := bind_eq_ok.mp h
  split_ifs at h with hstate
  · cases h
    exact .unchanged
  · obtain ⟨_, -, h⟩ := bind_eq_ok.mp h
    obtain ⟨_, hconfirmed, h⟩ := bind_eq_ok.mp h
    obtain ⟨s₁, hledger, h⟩ := bind_eq_ok.mp h
    obtain ⟨hpositive, rfl⟩ := postTransaction_eq_ok hledger
    obtain ⟨s₂, hsaved, h⟩ := bind_eq_ok.mp h
    have hfound := fetch_eq_ok.mp hfound
    have hpositive : 0 < deposit.amountAtomic := hpositive _ List.mem_cons_self
    have hcredit := hfits deposit hfound hstate (not_lt.mp (require_eq_ok.mp hconfirmed))
    have hposted := hroom.posted_nonneg (id.balance deposit)
    have hsum := inContext_of_room (add_nonneg hposted hpositive.le) hcredit
    unfold DepositKey.balance at hsum
    rw [hsum] at hsaved
    obtain ⟨-, rfl⟩ := saveBalance_eq_ok.mp hsaved
    cases h
    exact .credited deposit _ hfound hstate rfl hpositive hcredit

theorem transitionIfActive_eq_ok {withdrawal : Withdrawal} {target : HoldState} (hroom : Room s.balances s.holds)
    (h : transitionIfActive (s.holdOf withdrawal) withdrawal.hold target s = .ok s') : HoldEnded withdrawal target s s' := by
  unfold transitionIfActive at h
  split at h
  · next row id hrow hhold =>
    split_ifs at h with hactive
    · exact .settled id s' hhold (transitionHold_eq_ok hroom h)
    · cases h
      exact .kept fun hold hfound => by
        obtain rfl := Option.some.inj (hrow.symm.trans hfound)
        exact hactive
  · next hnone =>
    cases h
    refine .kept fun hold hfound => ?_
    obtain ⟨id, hid, -⟩ := Option.bind_eq_some_iff.mp hfound
    exact absurd hid (hnone hold id hfound)

theorem cancelWithdrawal_eq_ok {id : ScopedKey} {actor : Nat} (hroom : Room s.balances s.holds) (h : cancelWithdrawal c id actor s = .ok s') :
    WithdrawalCancelled id s s' := by
  obtain ⟨withdrawal, hfound, h⟩ := bind_eq_ok.mp h
  obtain ⟨_, -, h⟩ := bind_eq_ok.mp h
  obtain ⟨_, hstate, h⟩ := bind_eq_ok.mp h
  obtain ⟨s₁, hreleased, h⟩ := bind_eq_ok.mp h
  cases h
  refine .cancelled withdrawal s₁ (fetch_eq_ok.mp hfound) (require_eq_ok.mp hstate) ?_
  cases hhold : withdrawal.hold with
  | none =>
    rw [hhold] at hreleased
    cases hreleased
    exact .kept fun hold hfound => by simp [Books.holdOf, hhold] at hfound
  | some hold =>
    rw [hhold] at hreleased
    exact .settled hold s₁ hhold (transitionHold_eq_ok hroom hreleased)

theorem failWithdrawal_eq_ok {id : ScopedKey} (hroom : Room s.balances s.holds) (h : failWithdrawal id s = .ok s') : WithdrawalFailed id s s' := by
  obtain ⟨withdrawal, hfound, h⟩ := bind_eq_ok.mp h
  obtain ⟨_, hstate, h⟩ := bind_eq_ok.mp h
  have hstate := require_eq_ok.mp hstate
  split_ifs at h with hfailed
  · cases h
    exact .unchanged
  · obtain ⟨s₁, hended, h⟩ := bind_eq_ok.mp h
    cases h
    refine .failed withdrawal s₁ (fetch_eq_ok.mp hfound) (fun hmem => ?_) (transitionIfActive_eq_ok hroom hended)
    simp only [List.mem_cons, List.not_mem_nil, or_false] at hmem hstate
    tauto

theorem completeWithdrawal_eq_ok {id : ScopedKey} {blockchainTransaction : String} (hroom : Room s.balances s.holds)
    (h : completeWithdrawal c id blockchainTransaction s = .ok s') : WithdrawalCompleted c id s s' := by
  obtain ⟨withdrawal, hfound, h⟩ := bind_eq_ok.mp h
  split_ifs at h with hcompleted
  · cases h
    refine .unchanged fun found hfound' => ?_
    obtain rfl := Option.some.inj ((fetch_eq_ok.mp hfound).symm.trans hfound')
    rw [hcompleted]
    decide
  · obtain ⟨_, hready, h⟩ := bind_eq_ok.mp h
    obtain ⟨s₁, hposted, h⟩ := bind_eq_ok.mp h
    obtain ⟨-, rfl⟩ := postTransaction_eq_ok hposted
    obtain ⟨s₂, hended, h⟩ := bind_eq_ok.mp h
    cases h
    exact .completed withdrawal blockchainTransaction s₂ (fetch_eq_ok.mp hfound) (decide_eq_true (require_eq_ok.mp hready))
      (transitionIfActive_eq_ok hroom hended)

theorem signWithdrawal_eq_ok {id : ScopedKey} (h : signWithdrawal id s = .ok s') : WithdrawalSigned id s s' := by
  obtain ⟨withdrawal, hfound, h⟩ := bind_eq_ok.mp h
  obtain ⟨_, hstate, h⟩ := bind_eq_ok.mp h
  cases h
  exact .signed withdrawal (fetch_eq_ok.mp hfound) (require_eq_ok.mp hstate)

theorem approvedCount_put {id : ScopedKey} {approver : Nat} {approval : WithdrawalApproval}
    (hfirst : s.approvals.find ⟨id, approver⟩ = none) (happroved : approval.decision = .approved) :
    Books.approvedCount { s with approvals := s.approvals.put ⟨id, approver⟩ approval } id = s.approvedCount id + 1 := by
  simp [Books.approvedCount, Table.rows_put_of_none hfirst, happroved]

theorem approveWithdrawal_eq_ok {id : ScopedKey} {approver : Nat} {text reason : String}
    (h : approveWithdrawal c env id approver text reason s = .ok s') : WithdrawalDecided c env id approver text s s' := by
  obtain ⟨withdrawal, hfound, h⟩ := bind_eq_ok.mp h
  obtain ⟨_, hmember, h⟩ := bind_eq_ok.mp h
  obtain ⟨_, hindependent, h⟩ := bind_eq_ok.mp h
  obtain ⟨decision, hdecision, h⟩ := bind_eq_ok.mp h
  cases hfirst : s.approvals.find ⟨id, approver⟩ with
  | some approval =>
    rw [hfirst] at h
    cases h
    refine .unchanged fun withdrawal decision hdecides => ?_
    rw [hdecides.first] at hfirst
    cases hfirst
  | none =>
    rw [hfirst] at h
    have hdecides : Decides c env s id approver text withdrawal decision :=
      ⟨fetch_eq_ok.mp hfound, require_eq_ok.mp hmember, require_eq_ok.mp hindependent, demand_eq_ok.mp hdecision, hfirst⟩
    cases decision with
    | rejected =>
      cases h
      exact .decided withdrawal .rejected _ .rejected hdecides rfl
    | approved =>
      cases h
      refine .decided withdrawal .approved _ _ hdecides ?_
      rw [approvedCount_put hfirst rfl]
      simp

theorem Decides.unique {id : ScopedKey} {approver : Nat} {text : String} {withdrawal withdrawal' : Withdrawal}
    {decision decision' : Decision} (h : Decides c env s id approver text withdrawal decision)
    (h' : Decides c env s id approver text withdrawal' decision') : withdrawal = withdrawal' ∧ decision = decision' :=
  ⟨Option.some.inj (h.found.symm.trans h'.found), Option.some.inj (h.decision.symm.trans h'.decision)⟩

theorem Decides.exists_ok {id : ScopedKey} {approver : Nat} {text : String} {withdrawal : Withdrawal} {decision : Decision}
    (h : Decides c env s id approver text withdrawal decision) (reason : String) :
    ∃ s', approveWithdrawal c env id approver text reason s = .ok s' := by
  unfold approveWithdrawal
  rw [bind_of_ok (fetch_of_some h.found), bind_of_ok (require_of h.member), bind_of_ok (require_of h.independent),
    bind_of_ok (demand_eq_ok.mpr h.decision), h.first]
  cases decision with
  | approved => exact ⟨_, rfl⟩
  | rejected => exact ⟨_, rfl⟩

end RealWallet

end Beyvra
