import Beyvra.Trading.Records

namespace Beyvra

open Relational

inductive TradeState where
  | captured | validating | validated | allocationPending | allocated | settlementPending
  | settlementInstructed | settlementProcessing | settled | exception | failed | reversed | cancelled
  deriving DecidableEq

structure FeeSnapshot where
  totalFee : ℚ
  commission : ℚ
  currency : String
  pricingPolicyVersion : String
  deriving DecidableEq

inductive AllocationMethod where
  | directAccount | subaccount | strategy | manualReview | institutionalFuture
  deriving DecidableEq

structure TradeAllocation where
  accountRef : String
  subaccountRef : String
  strategyRef : String
  allocationQuantity : ℚ
  allocationNotional : ℚ
  allocationMethod : AllocationMethod
  deriving DecidableEq

inductive ObligationType where
  | cashDebit | cashCredit | assetDelivery | assetReceipt | feeDebit | rebateCredit
  deriving DecidableEq

inductive Direction where
  | debit | credit
  deriving DecidableEq

structure SettlementObligation where
  obligationType : ObligationType
  asset : String
  quantity : ℚ
  currency : String
  amount : ℚ
  direction : Direction
  dueDate : Date
  deriving DecidableEq

structure SettlementInstruction where
  settlementDate : Date
  deliverAsset : String
  deliverQuantity : ℚ
  receiveAsset : String
  receiveQuantity : ℚ
  currency : String
  cashAmount : ℚ
  feeAmount : ℚ
  state : TradeState := .settlementPending
  simulation : Bool := true
  deriving DecidableEq

inductive EffectType where
  | trade | reversal | correction | cancelAndRebook
  deriving DecidableEq

structure TradePositionEffect where
  quantityDelta : ℚ
  costBasisDelta : ℚ
  effectType : EffectType := .trade
  appliedAt : Timestamp
  deriving DecidableEq

inductive ConfirmationStatus where
  | generated | corrected | superseded | reversed
  deriving DecidableEq

structure TradeConfirmation where
  version : Nat
  tradeDate : Date
  settlementDate : Date
  side : OrderSide
  quantity : ℚ
  price : ℚ
  grossNotional : ℚ
  fees : ℚ
  netAmount : ℚ
  currency : String
  supersedes : Option Nat := none
  status : ConfirmationStatus := .generated
  deriving DecidableEq

-- The rows a trade owns are stored in its own row, each under the source's related name.
structure Trade where
  executionId : String
  tenantRef : String
  accountRef : String
  orderId : Uuid
  instrumentId : String
  side : OrderSide
  quantity : ℚ
  price : ℚ
  grossNotional : ℚ
  tradeCurrency : String
  tradeTime : Timestamp
  settlementDate : Date
  tradeState : TradeState := .captured
  sourceEventId : Uuid
  version : Nat := 1
  feeSnapshot : Option FeeSnapshot := none
  allocations : List TradeAllocation := []
  obligations : List SettlementObligation := []
  positionEffects : List TradePositionEffect := []
  settlementInstruction : Option SettlementInstruction := none
  confirmations : List TradeConfirmation := []

structure PostTradeAudit where
  tenantRef : String
  actorRef : String
  action : String
  resourceType : String
  resourceRef : String
  occurredAt : Timestamp
  deriving DecidableEq

inductive CorrectionType where
  | reversal | correction | cancelAndRebook
  deriving DecidableEq

inductive CorrectionStatus where
  | pending | approved
  deriving DecidableEq

structure TradeCorrection where
  originalTrade : String
  correctionType : CorrectionType
  reasonCode : String
  requestedBy : String
  approvedAt : Option Timestamp := none
  approvedBy : String := ""
  status : CorrectionStatus := .pending
  deriving DecidableEq

inductive PostTradeCheck where
  | fillWithoutTrade | tradeWithoutFill | tradeWithoutPositionEffect | positionWithoutTradeBasis
  | quantityMismatch | sideMismatch | instrumentMismatch | accountMismatch | duplicatePositionEffect
  | reservationNotReleased | settlementObligationMissing | settlementInstructionMissing
  | confirmationMissing | auditGap | outboxGap | allocationMismatch
  deriving DecidableEq

inductive PostTradeSubject where
  | trade (tradeId : String)
  | execution (executionId : String)
  | reservation (reservationId : Uuid)
  deriving DecidableEq

structure PostTradeViolation where
  check : PostTradeCheck
  subject : PostTradeSubject
  deriving DecidableEq

inductive ReconciliationStatus where
  | pass | fail
  deriving DecidableEq

structure PostTradeReconciliationRun where
  tenantRef : String
  startedAt : Timestamp
  completedAt : Timestamp
  status : ReconciliationStatus
  checks : List (PostTradeCheck × Nat)
  violations : List PostTradeViolation
  deriving DecidableEq

inductive SettlementConvention where
  | tPlus0 | tPlus1 | tPlus2 | instant | blockchainFinality | custom
  deriving DecidableEq

structure SettlementCalendar where
  code : String
  assetClass : String
  settlementConvention : SettlementConvention
  holidays : List Date
  effectiveFrom : Date
  effectiveTo : Option Date
  deriving DecidableEq

inductive LotStatus where
  | opened | partiallyDisposed | closed | adjusted | reversed
  deriving DecidableEq

structure TaxLotDisposition where
  disposalTrade : String
  quantity : ℚ
  allocatedBasis : ℚ
  proceeds : ℚ
  realizedGainLoss : ℚ
  disposedAt : Timestamp
  deriving DecidableEq

structure TaxLot where
  id : Uuid
  tenantRef : String
  accountRef : String
  instrumentId : String
  acquisitionTrade : String
  acquisitionDate : Date
  createdAt : Timestamp
  originalQuantity : ℚ
  remainingQuantity : ℚ
  unitCost : ℚ
  totalCost : ℚ
  currency : String
  status : LotStatus
  dispositions : List TaxLotDisposition := []

structure RealizedPnLEvent where
  tenantRef : String
  accountRef : String
  instrumentId : String
  quantity : ℚ
  proceeds : ℚ
  allocatedCostBasis : ℚ
  fees : ℚ
  realizedPnl : ℚ
  realizedAt : Timestamp
  deriving DecidableEq

structure PortfolioIncomeExpenseEvent where
  tenantRef : String
  accountRef : String
  instrumentId : String
  amount : ℚ
  currency : String
  effectiveAt : Timestamp
  deriving DecidableEq

structure CostBasisPosition where
  quantity : ℚ
  grossCost : ℚ
  adjustments : ℚ
  totalCostBasis : ℚ
  averageUnitCost : ℚ
  currency : String
  asOf : Timestamp
  deriving DecidableEq

structure CostBasisAdjustment where
  tenantRef : String
  accountRef : String
  instrumentId : String
  basisDelta : ℚ
  deriving DecidableEq

structure PostTradeTables where
  trades : Table String Trade := Table.empty
  audits : List PostTradeAudit := []
  corrections : Table Uuid TradeCorrection := Table.empty
  reconciliationRuns : Table Uuid PostTradeReconciliationRun := Table.empty
  calendars : List SettlementCalendar := []

structure ValuationTables where
  lots : Table String TaxLot := Table.empty
  realizedPnl : Table String RealizedPnLEvent := Table.empty
  incomeExpense : Table String PortfolioIncomeExpenseEvent := Table.empty
  costBasis : Table (String × String × String) CostBasisPosition := Table.empty
  adjustments : List CostBasisAdjustment := []

end Beyvra
