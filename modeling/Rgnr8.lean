import Rgnr8.Kernel.ConcurrentPost
import Rgnr8.Service.ConcurrentPayments
import Rgnr8.Service.Refunds
import Rgnr8.Service.IssueAtomicity
import Rgnr8.Service.StockTieOut
import Rgnr8.Service.DebtTieOut
import Rgnr8.Service.CatchUp
import Rgnr8.Service.SingleBook
import Rgnr8.Service.CutoverUndone
import Rgnr8.Service.StoredChart
import Rgnr8.Close.CloseLocks
import Rgnr8.Service.SealedBooks
import Rgnr8.Service.RecurringRuns
import Rgnr8.Service.PayrollRuns
import Rgnr8.Service.OneReversal
import Rgnr8.Service.RetainageRuns
import Rgnr8.Service.EstimateRuns
import Rgnr8.Service.WorkOrderTies
import Rgnr8.Service.WipTargets
import Rgnr8.Service.CrmRuns
import Rgnr8.Service.SalesOrderRuns
import Rgnr8.Service.BankHistoryRuns
import Rgnr8.Service.CloseGateRuns
import Rgnr8.Service.ConsolidatedStatements
import Rgnr8.Service.Renumbering
import Rgnr8.Ingestion.BatchedBooks
import Rgnr8.Forecast.LedgerForecastSpec
import Rgnr8.Contract.NoDoubleCount
import Rgnr8.Migration.TrueMigration
import Rgnr8.Migration.MirrorRuns
import Rgnr8.Migration.JournalAcross
import Rgnr8.Platform.AuditLog
import Rgnr8.Platform.PeriodInvoices
import Rgnr8.Platform.Subscriptions
import Rgnr8.Platform.InvitationRuns
import Rgnr8.Platform.CredentialsKept
import Rgnr8.Platform.QboRuns
import Rgnr8.Platform.OutboxRuns
import Rgnr8.Service.DocumentTwins
import Rgnr8.Ingestion.ScrubRuns
import Rgnr8.Service.ScheduleDates
import Rgnr8.Service.Amortization
import Rgnr8.Service.UsageRuns
import Rgnr8.Platform.ApiKeys
import Rgnr8.Service.StockValue
import Rgnr8.Service.CreditTax
import Rgnr8.Platform.ScheduledReports
import Rgnr8.Subledger.RecurringDates
import Rgnr8.Kernel.ChartReload
import Rgnr8.Kernel.FxRevaluation
import Rgnr8.Service.TranslationFoots
import Rgnr8.Statements.GlDetail
import Rgnr8.Alerts.Dispatcher
import Rgnr8.Forecast.Adjustments
import Rgnr8.Migration.CsvRoundTrip
import Rgnr8.Subledger.Aging
