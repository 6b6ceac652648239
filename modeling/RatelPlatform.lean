import RatelPlatform.Table
import RatelPlatform.Reach
import RatelPlatform.Transaction
import RatelPlatform.Patches
import RatelPlatform.Calendar
import RatelPlatform.SharedKernel
import RatelPlatform.Workflow
import RatelPlatform.Authorization
import RatelPlatform.FinancialPeriod
import RatelPlatform.Expense
import RatelPlatform.Payroll
import RatelPlatform.Store
import RatelPlatform.Repositories
import RatelPlatform.ExpenseHandlers
import RatelPlatform.PayrollHandlers
import RatelPlatform.Commands
import RatelPlatform.WrittenRows
import RatelPlatform.ApprovedExpenses
import RatelPlatform.ApprovedRuns
import RatelPlatform.ExpenseRows
import RatelPlatform.DeadItems
import RatelPlatform.Decisions
import RatelPlatform.Approvability
import RatelPlatform.Adjustments
import RatelPlatform.Adjusters
import RatelPlatform.AdjustedParents
import RatelPlatform.RoleTenancy
import RatelPlatform.ConcurrentDecisions
import RatelPlatform.ConcurrentPayroll
import RatelPlatform.Resubmission
import RatelPlatform.PeriodGuard
import RatelPlatform.ClosingPeriods
import RatelPlatform.ExpenseListing
import RatelPlatform.JsString
import RatelPlatform.JsNumber
import RatelPlatform.Json
import RatelPlatform.CanonicalJson
import RatelPlatform.CsvNormalizer
import RatelPlatform.ImportJobs
import RatelPlatform.ImportRuns
import RatelPlatform.IdempotencyKeys
import RatelPlatform.IdempotencyStore
import RatelPlatform.IdempotencyLocks
import RatelPlatform.IdempotencyReplays
import RatelPlatform.HashChain
import RatelPlatform.AuditLog
import RatelPlatform.AuditBinding
import RatelPlatform.AuditRecording
import RatelPlatform.EventDelivery
import RatelPlatform.DispatchedEvents
import RatelPlatform.RetryJobs
import RatelPlatform.PeriodLifecycle
import RatelPlatform.StatusEvents
import RatelPlatform.ExpenseReadModel
import RatelPlatform.Reports
import RatelPlatform.RefreshTokens
import RatelPlatform.Sending
import RatelPlatform.Notifications
import RatelPlatform.CriticalSection
import RatelPlatform.ExpenseNumbers
import RatelPlatform.Reservations
import RatelPlatform.PayrollMonths
import RatelPlatform.Precedence
import RatelPlatform.DispatchOrder
import RatelPlatform.Statements
import RatelPlatform.AppendedEvents
import RatelPlatform.ExpenseProjections
import RatelPlatform.Ownership
import RatelPlatform.Employees
import RatelPlatform.PayrollTenancy
import RatelPlatform.RelyGuarantee
import RatelPlatform.SalaryHistories
import RatelPlatform.Periods
import RatelPlatform.SalaryPeriods
import RatelPlatform.ReferenceData
import RatelPlatform.OwnReferences
import RatelPlatform.SpendingReports
import RatelPlatform.EncryptedPayslips
import RatelPlatform.PayslipTotals
import RatelPlatform.ImportTallies
import RatelPlatform.CanonicalValues
import RatelPlatform.JsonObjects
import RatelPlatform.AggregateRoot
import RatelPlatform.AggregateSnapshots
import RatelPlatform.Pagination
import RatelPlatform.ListedExpenses
import RatelPlatform.JsonText
import RatelPlatform.ByteTexts
import RatelPlatform.Cursors
import RatelPlatform.KeysetPages
import RatelPlatform.FollowedPages
import RatelPlatform.DomainMethods
import RatelPlatform.EncryptedSalaries
import RatelPlatform.SavedAggregates
import RatelPlatform.ProjectedRows
import RatelPlatform.ReportingPlatform
import RatelPlatform.NamedGroups
import RatelPlatform.ApprovedSpend
import RatelPlatform.DeliveryAttempts
import RatelPlatform.NotificationRetries
import RatelPlatform.NamedColumns
import RatelPlatform.ColumnMappings
import RatelPlatform.FailedRows
import RatelPlatform.UnambiguousLookups
import RatelPlatform.NamesApart
import RatelPlatform.SubscriberNames
import RatelPlatform.Buffers
import RatelPlatform.EnvelopeFormat
import RatelPlatform.BigIntTexts
import RatelPlatform.ImportedAmounts
import RatelPlatform.RowNumbers
import RatelPlatform.LockOrder
import RatelPlatform.CommandLocks
import RatelPlatform.RelatedStates
import RatelPlatform.OrganizationSlices
import RatelPlatform.OrganizationsApart
import RatelPlatform.Tasks
import RatelPlatform.Sessions
import RatelPlatform.Admissions
import RatelPlatform.Relays
import RatelPlatform.LiveTokens
import RatelPlatform.AuditSubscriber
import RatelPlatform.TracedEvents
import RatelPlatform.AuditTrail
import RatelPlatform.AuditedDispatches
import RatelPlatform.CsvUploads
import RatelPlatform.StoredFiles
import RatelPlatform.SafeDownloads
import RatelPlatform.Pacts
import RatelPlatform.Ledger
import RatelPlatform.PermanentLedger
import RatelPlatform.ReportedLedger
