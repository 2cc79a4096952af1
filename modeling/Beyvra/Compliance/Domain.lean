import Beyvra.Foundation.Records

namespace Beyvra

open Relational

inductive AccountState where
  | pending | active | restricted | suspended | closed
  deriving DecidableEq

inductive KycState where
  | notStarted | pending | inReview | approved | rejected | expired | requiresUpdate
  deriving DecidableEq

inductive AmlState where
  | notScreened | pending | cleared | reviewRequired | blocked
  deriving DecidableEq

inductive SanctionsState where
  | notChecked | clear | possibleMatch | confirmedMatch | manualReview
  deriving DecidableEq

inductive JurisdictionState where
  | supported | limited | restricted | unknown
  deriving DecidableEq

inductive EligibilityResult where
  | allowed | denied | reviewRequired
  deriving DecidableEq

inductive RestrictionType where
  | tradingDisabled | depositsDisabled | withdrawalsDisabled | transfersDisabled
  | marketDataLimited | accountReadOnly | manualReviewRequired
  deriving DecidableEq

inductive Capability where
  | trading | deposit | withdrawal | transfer
  deriving DecidableEq

def AccountState.value : AccountState → String
  | .pending => "PENDING"
  | .active => "ACTIVE"
  | .restricted => "RESTRICTED"
  | .suspended => "SUSPENDED"
  | .closed => "CLOSED"

def KycState.value : KycState → String
  | .notStarted => "NOT_STARTED"
  | .pending => "PENDING"
  | .inReview => "IN_REVIEW"
  | .approved => "APPROVED"
  | .rejected => "REJECTED"
  | .expired => "EXPIRED"
  | .requiresUpdate => "REQUIRES_UPDATE"

def AmlState.value : AmlState → String
  | .notScreened => "NOT_SCREENED"
  | .pending => "PENDING"
  | .cleared => "CLEARED"
  | .reviewRequired => "REVIEW_REQUIRED"
  | .blocked => "BLOCKED"

def SanctionsState.value : SanctionsState → String
  | .notChecked => "NOT_CHECKED"
  | .clear => "CLEAR"
  | .possibleMatch => "POSSIBLE_MATCH"
  | .confirmedMatch => "CONFIRMED_MATCH"
  | .manualReview => "MANUAL_REVIEW"

def JurisdictionState.value : JurisdictionState → String
  | .supported => "SUPPORTED"
  | .limited => "LIMITED"
  | .restricted => "RESTRICTED"
  | .unknown => "UNKNOWN"

def RestrictionType.value : RestrictionType → String
  | .tradingDisabled => "TRADING_DISABLED"
  | .depositsDisabled => "DEPOSITS_DISABLED"
  | .withdrawalsDisabled => "WITHDRAWALS_DISABLED"
  | .transfersDisabled => "TRANSFERS_DISABLED"
  | .marketDataLimited => "MARKET_DATA_LIMITED"
  | .accountReadOnly => "ACCOUNT_READ_ONLY"
  | .manualReviewRequired => "MANUAL_REVIEW_REQUIRED"

def Capability.value : Capability → String
  | .trading => "TRADING"
  | .deposit => "DEPOSIT"
  | .withdrawal => "WITHDRAWAL"
  | .transfer => "TRANSFER"

def EligibilityResult.value : EligibilityResult → String
  | .allowed => "ALLOWED"
  | .denied => "DENIED"
  | .reviewRequired => "REVIEW_REQUIRED"

def reasonCodes : List String :=
  ["KYC_REQUIRED", "KYC_PENDING", "KYC_REJECTED", "AML_REVIEW", "AML_BLOCKED", "SANCTIONS_REVIEW",
    "SANCTIONS_BLOCKED", "JURISDICTION_RESTRICTED", "ACCOUNT_RESTRICTED", "ACCOUNT_SUSPENDED",
    "TRADING_DISABLED", "DEPOSITS_DISABLED", "WITHDRAWALS_DISABLED", "TRANSFERS_DISABLED",
    "MANUAL_REVIEW_REQUIRED"]

def kycTransitions : KycState → List KycState
  | .notStarted => [.pending]
  | .pending => [.inReview, .rejected]
  | .inReview => [.approved, .rejected, .requiresUpdate]
  | .approved => [.expired, .requiresUpdate]
  | .rejected => [.pending]
  | .expired => [.pending, .requiresUpdate]
  | .requiresUpdate => [.pending, .inReview]

structure EligibilityDecisionValue where
  result : EligibilityResult
  reasonCodes : List String
  policyVersion : String
  evaluatedAt : Timestamp
  deriving DecidableEq

structure ComplianceProfile where
  organization : String
  user : String
  accountState : AccountState := .pending
  kycState : KycState := .notStarted
  amlState : AmlState := .notScreened
  sanctionsState : SanctionsState := .notChecked
  jurisdictionState : JurisdictionState := .unknown
  kycEvidenceRef : String := ""
  amlEvidenceRef : String := ""
  sanctionsEvidenceRef : String := ""
  jurisdictionEvidenceRef : String := ""
  kycExpiresAt : Option Timestamp := none
  kycNextReviewAt : Option Timestamp := none
  amlNextReviewAt : Option Timestamp := none
  jurisdictionNextReviewAt : Option Timestamp := none
  version : Nat := 1

structure AccountRestriction where
  account : Uuid
  restrictionType : RestrictionType
  reasonCode : String
  source : String
  createdBy : String
  expiresAt : Option Timestamp
  active : Bool := true
  deriving DecidableEq

inductive OverrideControl where
  | kycState | amlState | sanctionsState
  | removeRestriction (restriction : Uuid)
  deriving DecidableEq

inductive OverrideValue where
  | kyc (s : KycState)
  | aml (s : AmlState)
  | sanctions (s : SanctionsState)
  | restriction (active : Bool)
  deriving DecidableEq

structure ComplianceOverride where
  account : Uuid
  control : OverrideControl
  previousState : OverrideValue
  newState : OverrideValue
  reason : String
  evidenceRef : String
  requestedBy : String
  approvedBy : Option String := none
  approvedAt : Option Timestamp := none
  expiresAt : Option Timestamp

structure EligibilityDecision where
  account : Uuid
  capability : Capability
  result : EligibilityResult
  reasonCodes : List String
  evaluatedAt : Timestamp
  deriving DecidableEq

structure OrganizationMembership where
  user : String
  organization : String
  isActive : Bool
  organizationActive : Bool
  deriving DecidableEq

structure ComplianceTables where
  profiles : Table Uuid ComplianceProfile := Table.empty
  restrictions : Table Uuid AccountRestriction := Table.empty
  overrides : Table Uuid ComplianceOverride := Table.empty
  decisions : List EligibilityDecision := []
  memberships : List OrganizationMembership := []

end Beyvra
