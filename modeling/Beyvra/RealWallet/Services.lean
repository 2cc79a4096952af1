import Beyvra.Foundation.Records
import Beyvra.Numeric.Decimal
import Beyvra.Relational.DoubleEntry

namespace Beyvra

open Numeric Relational

namespace RealWallet

-- What the decimal context makes of a whole number
def inContext (n : ℤ) : ℤ := ⌊defaultContext.round n⌋

-- NUMERIC(78, 0)
def fits (n : ℤ) : Bool := |n| < 10 ^ 78

-- The rows that a tenant names by an idempotency key; the key stands for the row's id as well.
structure ScopedKey where
  tenant : Uuid
  key : String
  deriving DecidableEq

structure Wallet where
  tenant : Uuid
  owner : Nat
  deriving DecidableEq

-- The wallets and the assets of the asset networks, which no operation changes.
structure Catalogue where
  wallet : Uuid → Wallet
  asset : Uuid → Uuid

structure BalanceKey where
  wallet : Uuid
  assetNetwork : Uuid
  deriving DecidableEq

structure AssetBalance where
  postedAtomic : ℤ := 0
  heldAtomic : ℤ := 0
  reservedAtomic : ℤ := 0
  deriving DecidableEq

namespace AssetBalance

def availableAtomic (b : AssetBalance) : ℤ := inContext (inContext (b.postedAtomic - b.heldAtomic) - b.reservedAtomic)

-- The check constraints of the table
def valid (b : AssetBalance) : Bool := 0 ≤ b.postedAtomic ∧ 0 ≤ b.heldAtomic ∧ 0 ≤ b.reservedAtomic

end AssetBalance

structure LedgerAccount where
  tenant : Uuid
  ownerType : String
  ownerId : Option Uuid
  asset : Uuid
  accountCode : String
  deriving DecidableEq

def platformAccount (tenant asset : Uuid) : LedgerAccount := ⟨tenant, "PLATFORM", none, asset, "PLATFORM_HOT_WALLET"⟩

def customerAccount (tenant wallet asset : Uuid) : LedgerAccount :=
  ⟨tenant, "WALLET", some wallet, asset, "CUSTOMER_AVAILABLE"⟩

structure DepositKey where
  assetNetwork : Uuid
  transactionHash : String
  outputIndex : Option Nat
  deriving DecidableEq

inductive DepositState where
  | detected | confirming | credited | rejected | reversed | reorged
  deriving DecidableEq

-- The idempotency keys of the ledger: the source writes each kind with a prefix of its own.
inductive LedgerReference where
  | depositCredit (id : DepositKey)
  | withdrawalCapture (id : ScopedKey)
  | transferLedger (idempotencyKey : String)
  deriving DecidableEq

structure LedgerKey where
  tenant : Uuid
  idempotencyKey : LedgerReference
  deriving DecidableEq

abbrev LedgerEntry := Posting LedgerAccount Uuid

structure LedgerTransaction where
  transactionType : String
  entries : List LedgerEntry
  deriving DecidableEq

inductive HoldState where
  | active | captured | released
  deriving DecidableEq

structure BalanceHold where
  wallet : Uuid
  assetNetwork : Uuid
  amountAtomic : ℤ
  state : HoldState := .active
  reason : String
  referenceId : Option Uuid := none
  expiresAt : Option Timestamp := none
  deriving DecidableEq

def BalanceHold.balance (hold : BalanceHold) : BalanceKey := ⟨hold.wallet, hold.assetNetwork⟩

structure Deposit where
  tenant : Uuid
  wallet : Uuid
  amountAtomic : ℤ
  state : DepositState
  confirmations : Nat
  ledgerTransaction : Option LedgerKey := none
  deriving DecidableEq

inductive WithdrawalState where
  | requested | userConfirmationRequired | complianceReview | riskReview | manualReview
  | approved | rejected | signed | broadcast | confirming | completed | cancelled | failed
  deriving DecidableEq

structure Withdrawal where
  wallet : Uuid
  assetNetwork : Uuid
  destination : String
  amountAtomic : ℤ
  state : WithdrawalState := .requested
  hold : Option ScopedKey := none
  blockchainTransaction : String := ""
  deriving DecidableEq

structure WithdrawalAddress where
  tenant : Uuid
  wallet : Uuid
  assetNetwork : Uuid
  address : String
  status : String
  riskState : String
  coolingUntil : Option Timestamp
  deriving DecidableEq

inductive Decision where
  | approved | rejected
  deriving DecidableEq

def Decision.ofText (text : String) : Option Decision :=
  if text = "APPROVED" then some .approved else if text = "REJECTED" then some .rejected else none

structure ApprovalKey where
  withdrawal : ScopedKey
  approver : Nat
  deriving DecidableEq

structure WithdrawalApproval where
  decision : Decision
  reason : String
  deriving DecidableEq

structure InternalTransfer where
  sourceWallet : Uuid
  destinationWallet : Uuid
  assetNetwork : Uuid
  amountAtomic : ℤ
  state : String
  deriving DecidableEq

structure IdempotencyScope where
  tenant : Uuid
  actor : Nat
  endpoint : String
  method : String
  key : String
  deriving DecidableEq

structure IdempotencyRecord where
  requestHash : Digest
  resourceId : Option ScopedKey := none
  deriving DecidableEq

structure Books where
  balances : Table BalanceKey AssetBalance := Table.empty
  holds : Table ScopedKey BalanceHold := Table.empty
  deposits : Table DepositKey Deposit := Table.empty
  withdrawals : Table ScopedKey Withdrawal := Table.empty
  approvals : Table ApprovalKey WithdrawalApproval := Table.empty
  transfers : Table ScopedKey InternalTransfer := Table.empty
  idempotency : Table IdempotencyScope IdempotencyRecord := Table.empty
  ledger : Table LedgerKey LedgerTransaction := Table.empty

inductive Refusal where
  | featureDisabled (key : String)
  | idempotencyConflict
  | withdrawalMfaRequired
  | valueError (text : String)
  | doesNotExist
  | integrityError
  | dataError
  deriving DecidableEq

-- What a call reads beside the books: the clock, the settings and the rows that other parts of the program write.
structure WalletEnv where
  now : Timestamp
  setting : String → Bool
  featureFlag : String → Bool
  requireMfa : Bool
  mfaEnrolled : Nat → Bool
  member : Uuid → Nat → Bool
  address : Uuid → Option WithdrawalAddress

abbrev Txn := Except Refusal

def settingsGate : String → Option String
  | "real_wallet_read_enabled" => some "REAL_WALLET_READ_ENABLED"
  | "real_wallet_deposits_enabled" => some "REAL_DEPOSITS_ENABLED"
  | "real_wallet_withdrawals_enabled" => some "REAL_WITHDRAWALS_ENABLED"
  | "real_wallet_internal_transfers_enabled" => some "REAL_INTERNAL_TRANSFERS_ENABLED"
  | "real_trading_enabled" => some "REAL_TRADING_ENABLED"
  | "external_execution_enabled" => some "EXTERNAL_EXECUTION_ENABLED"
  | _ => none

def WalletEnv.isFeatureEnabled (env : WalletEnv) (key : String) : Bool :=
  (∀ gate ∈ settingsGate key, env.setting gate) ∧ env.featureFlag key

def requireFeature (env : WalletEnv) (key : String) : Txn Unit :=
  require (env.isFeatureEnabled key) (.featureDisabled key)

def requirePositive (amountAtomic : ℤ) (text : String) : Txn Unit := require (0 < amountAtomic) (.valueError text)

def canonicalRequestHash (payload : Payload) : Digest := payloadHash payload

def reserveIdempotency (scope : IdempotencyScope) (requestPayload : Payload) (s : Books) :
    Txn ((IdempotencyRecord × Bool) × Books) :=
  match s.idempotency.find scope with
  | some record => do
    require (record.requestHash = canonicalRequestHash requestPayload) .idempotencyConflict
    pure ((record, false), s)
  | none =>
    let record : IdempotencyRecord := { requestHash := canonicalRequestHash requestPayload }
    pure ((record, true), { s with idempotency := s.idempotency.put scope record })

def completeIdempotency (scope : IdempotencyScope) (record : IdempotencyRecord) (resourceId : ScopedKey) (s : Books) : Books :=
  { s with idempotency := s.idempotency.put scope { record with resourceId := some resourceId } }

def totalOf (d : Relational.Direction) (entries : List LedgerEntry) : ℤ :=
  (entries.filter (·.direction = d)).foldl (fun total item => inContext (total + item.amount)) 0

def postTransaction (key : LedgerKey) (transactionType : String) (entries : List LedgerEntry) (s : Books) : Txn Books :=
  match entries with
  | [] => .error (.valueError "ledger transaction requires entries")
  | first :: _ => do
    require (∀ item ∈ entries, 0 < item.amount) (.valueError "ledger amounts must be positive")
    require (∀ item ∈ entries, item.asset = first.asset) (.valueError "ledger transaction cannot mix assets")
    require (totalOf .debit entries = totalOf .credit entries) (.valueError "ledger transaction is unbalanced")
    match s.ledger.find key with
    | some _ => pure s
    | none => do
      require (∀ item ∈ entries, fits item.amount) .dataError
      pure { s with ledger := s.ledger.put key { transactionType, entries } }

def saveBalance (key : BalanceKey) (balance : AssetBalance) (s : Books) : Txn Books := do
  require (fits balance.postedAtomic ∧ fits balance.heldAtomic) .dataError
  require balance.valid .integrityError
  pure { s with balances := s.balances.put key balance }

def createHold (tenant : Uuid) (hold : BalanceHold) (idempotencyKey : String) (s : Books) : Txn (ScopedKey × Books) := do
  requirePositive hold.amountAtomic "hold amount must be positive"
  match s.holds.find ⟨tenant, idempotencyKey⟩ with
  | some _ => pure (⟨tenant, idempotencyKey⟩, s)
  | none =>
    let balance ← fetch s.balances hold.balance .doesNotExist
    require (¬balance.availableAtomic < hold.amountAtomic) (.valueError "insufficient available balance")
    let s ← saveBalance hold.balance { balance with heldAtomic := inContext (balance.heldAtomic + hold.amountAtomic) } s
    pure (⟨tenant, idempotencyKey⟩, { s with holds := s.holds.put ⟨tenant, idempotencyKey⟩ { hold with state := .active } })

def AssetBalance.settle (b : AssetBalance) (target : HoldState) (amountAtomic : ℤ) : AssetBalance :=
  if target = .captured then
    { b with
      heldAtomic := inContext (b.heldAtomic - amountAtomic)
      postedAtomic := inContext (b.postedAtomic - amountAtomic) }
  else { b with heldAtomic := inContext (b.heldAtomic - amountAtomic) }

def transitionHold (holdId : ScopedKey) (target : HoldState) (s : Books) : Txn Books := do
  let hold ← fetch s.holds holdId .doesNotExist
  require (hold.state = .active) (.valueError "hold is not active")
  let balance ← fetch s.balances hold.balance .doesNotExist
  let s ← saveBalance hold.balance (balance.settle target hold.amountAtomic) s
  pure { s with holds := s.holds.put holdId { hold with state := target } }

def captureHold (holdId : ScopedKey) (s : Books) : Txn Books := transitionHold holdId .captured s

def releaseHold (holdId : ScopedKey) (s : Books) : Txn Books := transitionHold holdId .released s

structure WithdrawalRequest where
  tenant : Uuid
  actor : Nat
  wallet : Uuid
  withdrawalAddress : Uuid
  amountAtomic : ℤ
  idempotencyKey : String
  requestPayload : Payload
  deriving DecidableEq

def WithdrawalRequest.scope (r : WithdrawalRequest) : IdempotencyScope :=
  ⟨r.tenant, r.actor, "/api/v1/withdrawals", "POST", r.idempotencyKey⟩

def WalletEnv.activeAddress (env : WalletEnv) (r : WithdrawalRequest) : Option WithdrawalAddress :=
  (env.address r.withdrawalAddress).filter fun address =>
    address.tenant = r.tenant ∧ address.wallet = r.wallet ∧ address.status = "ACTIVE" ∧ address.riskState = "CLEARED"

-- The unique constraints: one withdrawal for each key, and at most one for each hold
def insertWithdrawal (id : ScopedKey) (withdrawal : Withdrawal) (s : Books) : Txn Books := do
  require (s.withdrawals.find id = none ∧ ∀ other ∈ s.withdrawals.values, other.hold = none ∨ other.hold ≠ withdrawal.hold)
    .integrityError
  require (fits withdrawal.amountAtomic) .dataError
  pure { s with withdrawals := s.withdrawals.put id withdrawal }

def requestWithdrawal (env : WalletEnv) (r : WithdrawalRequest) (s : Books) : Txn (ScopedKey × Books) := do
  requireFeature env "real_wallet_withdrawals_enabled"
  require (env.requireMfa → env.mfaEnrolled r.actor) .withdrawalMfaRequired
  requirePositive r.amountAtomic "withdrawal amount must be positive"
  let ((record, created), s) ← reserveIdempotency r.scope r.requestPayload s
  match if created then none else record.resourceId with
  | some resource => do
    let _ ← fetch s.withdrawals resource .doesNotExist
    pure (resource, s)
  | none => do
    let address ← demand (env.activeAddress r) (.valueError "withdrawal address is not active")
    require (∀ coolingUntil ∈ address.coolingUntil, ¬env.now < coolingUntil)
      (.valueError "withdrawal address is in a cooling period")
    let (hold, s) ← createHold r.tenant
      { wallet := r.wallet, assetNetwork := address.assetNetwork, amountAtomic := r.amountAtomic, reason := "WITHDRAWAL" }
      ("withdrawal:" ++ r.idempotencyKey) s
    let id : ScopedKey := ⟨r.tenant, r.idempotencyKey⟩
    let s ← insertWithdrawal id
      { wallet := r.wallet, assetNetwork := address.assetNetwork, destination := address.address
        amountAtomic := r.amountAtomic, hold := some hold } s
    pure (id, completeIdempotency r.scope record id s)

structure TransferRequest where
  tenant : Uuid
  actor : Nat
  sourceWallet : Uuid
  destinationWallet : Uuid
  assetNetwork : Uuid
  amountAtomic : ℤ
  idempotencyKey : String
  requestPayload : Payload
  deriving DecidableEq

namespace TransferRequest

def scope (r : TransferRequest) : IdempotencyScope := ⟨r.tenant, r.actor, "/api/v1/transfers", "POST", r.idempotencyKey⟩

def source (r : TransferRequest) : BalanceKey := ⟨r.sourceWallet, r.assetNetwork⟩

def destination (r : TransferRequest) : BalanceKey := ⟨r.destinationWallet, r.assetNetwork⟩

end TransferRequest

def createInternalTransfer (c : Catalogue) (env : WalletEnv) (r : TransferRequest) (s : Books) : Txn (ScopedKey × Books) := do
  requireFeature env "real_wallet_internal_transfers_enabled"
  require (r.sourceWallet ≠ r.destinationWallet ∧ (c.wallet r.sourceWallet).tenant = r.tenant ∧
    (c.wallet r.destinationWallet).tenant = r.tenant) (.valueError "invalid transfer wallets")
  requirePositive r.amountAtomic "transfer amount must be positive"
  let ((record, created), s) ← reserveIdempotency r.scope r.requestPayload s
  match if created then none else record.resourceId with
  | some resource => do
    let _ ← fetch s.transfers resource .doesNotExist
    pure (resource, s)
  | none => do
    let sourceBalance ← fetch s.balances r.source (.valueError "insufficient available balance")
    let destinationBalance ← fetch s.balances r.destination (.valueError "insufficient available balance")
    require (¬sourceBalance.availableAtomic < r.amountAtomic) (.valueError "insufficient available balance")
    let asset := c.asset r.assetNetwork
    let id : ScopedKey := ⟨r.tenant, r.idempotencyKey⟩
    require (s.transfers.find id = none) .integrityError
    let transfer : InternalTransfer := ⟨r.sourceWallet, r.destinationWallet, r.assetNetwork, r.amountAtomic, "COMPLETED"⟩
    let s := { s with transfers := s.transfers.put id transfer }
    let s ← postTransaction ⟨r.tenant, .transferLedger r.idempotencyKey⟩ "INTERNAL_TRANSFER"
      (moved (customerAccount r.tenant r.sourceWallet asset) (customerAccount r.tenant r.destinationWallet asset) asset r.amountAtomic) s
    let s ← saveBalance r.source
      { sourceBalance with postedAtomic := inContext (sourceBalance.postedAtomic - r.amountAtomic) } s
    let s ← saveBalance r.destination
      { destinationBalance with postedAtomic := inContext (destinationBalance.postedAtomic + r.amountAtomic) } s
    pure (id, completeIdempotency r.scope record id s)

structure DetectedDeposit where
  tenant : Uuid
  wallet : Uuid
  id : DepositKey
  amountAtomic : ℤ
  confirmations : Nat
  deriving DecidableEq

def recordDetectedDeposit (env : WalletEnv) (r : DetectedDeposit) (s : Books) : Txn Books := do
  requireFeature env "real_wallet_deposits_enabled"
  requirePositive r.amountAtomic "deposit amount must be positive"
  match s.deposits.find r.id with
  | some _ => pure s
  | none => do
    require (fits r.amountAtomic) .dataError
    let state : DepositState := if r.confirmations = 0 then .detected else .confirming
    let row : Deposit :=
      { tenant := r.tenant, wallet := r.wallet, amountAtomic := r.amountAtomic, state, confirmations := r.confirmations }
    pure { s with deposits := s.deposits.put r.id row }

def creditDeposit (c : Catalogue) (env : WalletEnv) (id : DepositKey) (requiredConfirmations : Nat) (s : Books) : Txn Books := do
  requireFeature env "real_wallet_deposits_enabled"
  let deposit ← fetch s.deposits id .doesNotExist
  if deposit.state = .credited then pure s else do
    require (deposit.state ∉ [.rejected, .reversed, .reorged]) (.valueError "deposit cannot be credited")
    require (¬deposit.confirmations < requiredConfirmations) (.valueError "deposit confirmations are insufficient")
    let key : BalanceKey := ⟨deposit.wallet, id.assetNetwork⟩
    let balance := (s.balances.find key).getD {}
    let asset := c.asset id.assetNetwork
    let reference : LedgerKey := ⟨deposit.tenant, .depositCredit id⟩
    let s ← postTransaction reference "DEPOSIT_CREDIT"
      (moved (platformAccount deposit.tenant asset) (customerAccount deposit.tenant deposit.wallet asset) asset deposit.amountAtomic) s
    let s ← saveBalance key { balance with postedAtomic := inContext (balance.postedAtomic + deposit.amountAtomic) } s
    pure { s with deposits := s.deposits.put id { deposit with state := .credited, ledgerTransaction := some reference } }

def saveState (id : ScopedKey) (withdrawal : Withdrawal) (state : WithdrawalState) (s : Books) : Books :=
  { s with withdrawals := s.withdrawals.put id { withdrawal with state } }

def cancellable : List WithdrawalState :=
  [.requested, .userConfirmationRequired, .complianceReview, .riskReview, .manualReview]

def cancelWithdrawal (c : Catalogue) (id : ScopedKey) (actor : Nat) (s : Books) : Txn Books := do
  let withdrawal ← fetch s.withdrawals id .doesNotExist
  require ((c.wallet withdrawal.wallet).owner = actor) (.valueError "withdrawal is not owned by actor")
  require (withdrawal.state ∈ cancellable) (.valueError "withdrawal is not cancellable")
  let s ← withdrawal.hold.elim (pure s) fun hold => releaseHold hold s
  pure (saveState id withdrawal .cancelled s)

-- The hold of the withdrawal, as the caller has read it
def Books.holdOf (s : Books) (withdrawal : Withdrawal) : Option BalanceHold := withdrawal.hold.bind s.holds.find

def transitionIfActive (hold : Option BalanceHold) (holdId : Option ScopedKey) (target : HoldState) (s : Books) : Txn Books :=
  match hold, holdId with
  | some row, some holdId => if row.state = .active then transitionHold holdId target s else pure s
  | _, _ => pure s

def failWithdrawal (id : ScopedKey) (s : Books) : Txn Books := do
  let withdrawal ← fetch s.withdrawals id .doesNotExist
  let hold := s.holdOf withdrawal
  require (withdrawal.state ∉ [.completed, .cancelled]) (.valueError "withdrawal cannot be failed")
  if withdrawal.state = .failed then pure s else do
    let s ← transitionIfActive hold withdrawal.hold .released s
    pure (saveState id withdrawal .failed s)

def completeWithdrawal (c : Catalogue) (id : ScopedKey) (blockchainTransaction : String) (s : Books) : Txn Books := do
  let withdrawal ← fetch s.withdrawals id .doesNotExist
  let hold := s.holdOf withdrawal
  let asset := c.asset withdrawal.assetNetwork
  if withdrawal.state = .completed then pure s else do
    require (withdrawal.state ∈ [.signed, .broadcast, .confirming]) (.valueError "withdrawal is not ready for completion")
    let s ← postTransaction ⟨id.tenant, .withdrawalCapture id⟩ "WITHDRAWAL_CAPTURE"
      (moved (customerAccount id.tenant withdrawal.wallet asset) (platformAccount id.tenant asset) asset withdrawal.amountAtomic) s
    let s ← transitionIfActive hold withdrawal.hold .captured s
    pure (saveState id { withdrawal with blockchainTransaction } .completed s)

def Books.approvedCount (s : Books) (id : ScopedKey) : Nat :=
  (s.approvals.rows.filter fun row => row.1.withdrawal = id ∧ row.2.decision = .approved).length

def approveWithdrawal (c : Catalogue) (env : WalletEnv) (id : ScopedKey) (approver : Nat) (decision reason : String) (s : Books) :
    Txn Books := do
  let withdrawal ← fetch s.withdrawals id .doesNotExist
  require (env.member id.tenant approver) (.valueError "approver is not a tenant member")
  require ((c.wallet withdrawal.wallet).owner ≠ approver) (.valueError "initiator cannot approve own withdrawal")
  let decision ← demand (Decision.ofText decision) (.valueError "invalid approval decision")
  match s.approvals.find ⟨id, approver⟩ with
  | some _ => pure s
  | none =>
    let s := { s with approvals := s.approvals.put ⟨id, approver⟩ ⟨decision, (reason.take 2000).toString⟩ }
    match decision with
    | .rejected => pure (saveState id withdrawal .rejected s)
    | .approved => pure (saveState id withdrawal (if 2 ≤ s.approvedCount id then .approved else withdrawal.state) s)

-- The custody side: a withdrawal that is approved gets signed.
def signWithdrawal (id : ScopedKey) (s : Books) : Txn Books := do
  let withdrawal ← fetch s.withdrawals id .doesNotExist
  require (withdrawal.state = .approved) (.valueError "withdrawal is not approved")
  pure (saveState id withdrawal .signed s)

inductive LifecycleCall where
  | recordDetectedDeposit (r : DetectedDeposit)
  | creditDeposit (id : DepositKey) (requiredConfirmations : Nat)
  | createInternalTransfer (r : TransferRequest)
  | requestWithdrawal (r : WithdrawalRequest)
  | approveWithdrawal (id : ScopedKey) (approver : Nat) (decision reason : String)
  | cancelWithdrawal (id : ScopedKey) (actor : Nat)
  | failWithdrawal (id : ScopedKey) (reason : String)
  | completeWithdrawal (id : ScopedKey) (blockchainTransaction : String)
  | signWithdrawal (id : ScopedKey)
  deriving DecidableEq

def LifecycleCall.run (c : Catalogue) (env : WalletEnv) (s : Books) : LifecycleCall → Txn Books
  | .recordDetectedDeposit r => RealWallet.recordDetectedDeposit env r s
  | .creditDeposit id requiredConfirmations => RealWallet.creditDeposit c env id requiredConfirmations s
  | .createInternalTransfer r => Prod.snd <$> RealWallet.createInternalTransfer c env r s
  | .requestWithdrawal r => Prod.snd <$> RealWallet.requestWithdrawal env r s
  | .approveWithdrawal id approver decision reason => RealWallet.approveWithdrawal c env id approver decision reason s
  | .cancelWithdrawal id actor => RealWallet.cancelWithdrawal c id actor s
  | .failWithdrawal id _ => RealWallet.failWithdrawal id s
  | .completeWithdrawal id blockchainTransaction => RealWallet.completeWithdrawal c id blockchainTransaction s
  | .signWithdrawal id => RealWallet.signWithdrawal id s

inductive WalletCall where
  | lifecycle (call : LifecycleCall)
  | createHold (tenant : Uuid) (hold : BalanceHold) (idempotencyKey : String)
  | releaseHold (holdId : ScopedKey)
  deriving DecidableEq

def WalletCall.run (c : Catalogue) (env : WalletEnv) (s : Books) : WalletCall → Txn Books
  | .lifecycle call => call.run c env s
  | .createHold tenant hold idempotencyKey => Prod.snd <$> RealWallet.createHold tenant hold idempotencyKey s
  | .releaseHold holdId => RealWallet.releaseHold holdId s

-- A call that raises rolls its transaction back.
def lifecycleStep (c : Catalogue) (s : Books) (op : WalletEnv × LifecycleCall) : Books :=
  commitState (fun s => op.2.run c op.1 s) s

def walletStep (c : Catalogue) (s : Books) (op : WalletEnv × WalletCall) : Books :=
  commitState (fun s => op.2.run c op.1 s) s

end RealWallet

end Beyvra
