import Beyvra.Foundation.Outbox
import Beyvra.Foundation.Publisher
import Beyvra.Trading.Solvency
import Beyvra.Trading.StoredFills
import Beyvra.Trading.TerminalOrders
import Beyvra.Trading.SerialTransactions
import Beyvra.Trading.CancelReplay
import Beyvra.Trading.LedgerIdentity
import Beyvra.Trading.HaltDominance
import Beyvra.Trading.SelfTrade
import Beyvra.Trading.CrossBook
import Beyvra.FinancialBoundary.HaltAuthority
import Beyvra.FinancialBoundary.ProjectionRedelivery
import Beyvra.FinancialBoundary.Outbox
import Beyvra.FinancialBoundary.Inbox
import Beyvra.Realtime.ChannelAuthority
import Beyvra.Trading.Reconciliation
import Beyvra.PostTrade.Corrections
import Beyvra.Trading.SettlementAgreement
import Beyvra.PostTrade.Reconciliation
import Beyvra.FinancialBoundary.ReconciliationOrder
import Beyvra.FinancialClient.Availability
import Beyvra.Compliance.OverrideExpiry
import Beyvra.Compliance.RestrictionRemoval
import Beyvra.ExecutionControl.ProviderHalt
import Beyvra.PlatformOps.KillSwitch
import Beyvra.PostTrade.Exceptions
import Beyvra.Users.Enumeration
import Beyvra.Pricing.TenantIsolation
import Beyvra.Trading.Limits
import Beyvra.Operations.FourEyes
import Beyvra.Operations.Sessions
import Beyvra.Operations.SessionRevocation
import Beyvra.Users.EmailWorkers
import Beyvra.Users.MailSteps
import Beyvra.Users.SentMail
import Beyvra.Users.FreshCodes
import Beyvra.Relational.Table
import Beyvra.Workspace.Watchlists
import Beyvra.Workspace.WatchlistInvariants
import Beyvra.Workspace.WatchlistRuns
import Beyvra.Users.KeycloakIdentity
import Beyvra.Users.IdentityBinding
import Beyvra.Users.OidcCallback
import Beyvra.Realtime.Gateway
import Beyvra.PostTrade.FillEffects
import Beyvra.Valuation.Reconciliation
import Beyvra.Security.UserActivity
import Beyvra.Security.ActivityAttribution
import Beyvra.Realtime.TenantSelection
import Beyvra.Security.Commands
import Beyvra.Security.CommandRuns
import Beyvra.Security.CommandVersions
import Beyvra.Notifications.Webhooks
import Beyvra.Integrations.UserImports
import Beyvra.Operations.ExportJobs
import Beyvra.Operations.Notifications
import Beyvra.Surveillance.RestrictionRuns
import Beyvra.News.NewsData
import Beyvra.Compliance.WebhookRuns
import Beyvra.Users.GoogleSingleUse
import Beyvra.Users.VerificationSafety
import Beyvra.Users.ResendKeys
import Beyvra.Valuation.LotConservation
import Beyvra.Valuation.FifoLots
import Beyvra.RealWallet.WithdrawalHolds
import Beyvra.RealWallet.LedgerAgreement
import Beyvra.MarketAuthority.Ingestion
import Beyvra.Valuation.Snapshots
import Beyvra.MarketAuthority.Candles
import Beyvra.MarketAuthority.CandleDeterminism
import Beyvra.FinancialBoundary.Amounts
import Beyvra.Trading.OrderValidation
import Beyvra.Institutional.FixedPercent
import Beyvra.FinancialBoundary.PayloadFixpoint
import Beyvra.ProviderGovernance.CredentialPath
import Beyvra.Numeric.Greedy
import Beyvra.Numeric.Column
import Beyvra.Treasury.Records
import Beyvra.Treasury.CashPlans
import Beyvra.Treasury.Mobility
import Beyvra.Numeric.RunningSum
import Beyvra.Treasury.IntradayFunding
import Beyvra.Treasury.Obligations
import Beyvra.Treasury.ExceptionCommands
import Beyvra.Pricing.Fees
import Beyvra.PostTrade.Allocations
import Beyvra.Valuation.FxRates
import Beyvra.Text.IsoDate
import Beyvra.Numeric.CountedSteps
import Beyvra.PostTrade.SettlementCalendar
import Beyvra.RiskAuthority.Liquidation
import Beyvra.FinancialClient.Attempts
import Beyvra.MarketAuthority.Deduplication
import Beyvra.Text.Hex
import Beyvra.Foundation.Integers
import Beyvra.Integrations.WebhookSignature
import Beyvra.Integrations.ProviderInbox
import Beyvra.Integrations.FixGateway
import Beyvra.Foundation.JsonValues
import Beyvra.Relational.Overwriting
import Beyvra.Reporting.DashboardFilters
import Beyvra.Numeric.HalfOpen
import Beyvra.ReferenceData.Reconciliation
import Beyvra.Text.UrlSplit
import Beyvra.Text.BrowserUrl
import Beyvra.Users.ReturnPath
import Beyvra.Text.IpAddress
import Beyvra.Text.Netloc
import Beyvra.Notifications.EmailOrigin
import Beyvra.Notifications.OriginNormalForm
import Beyvra.Relational.InboxReturns
import Beyvra.Foundation.Pipeline
import Beyvra.Realtime.Bridge
import Beyvra.ExecutionControl.Routing
import Beyvra.Relational.Revisions
import Beyvra.ExecutionControl.Executions
import Beyvra.Text.Csv
import Beyvra.Operations.Reports
import Beyvra.Surveillance.Detection
import Beyvra.Surveillance.Cases
import Beyvra.Surveillance.CaseRuns
import Beyvra.Text.Json
import Beyvra.Text.Base64
import Beyvra.FinancialBoundary.PayloadText
import Beyvra.News.Cursor
import Beyvra.Operations.LoginRisk
