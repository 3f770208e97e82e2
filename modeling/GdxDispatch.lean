import GdxDispatch.Banking.StatementOrder
import GdxDispatch.Billing.BilledOnce
import GdxDispatch.Payments.ReversalSticks
import GdxDispatch.Core.Idempotency
import GdxDispatch.Offline.NothingLost
import GdxDispatch.Billing.StatementFoots
import GdxDispatch.Vendors.StoredOnce
import GdxDispatch.Vendors.ReversalUndoes
import GdxDispatch.Core.Denylist
import GdxDispatch.Auth.RevokedSessions
import GdxDispatch.Webhooks.SettledDeliveries
import GdxDispatch.Billing.TotalsHold
import GdxDispatch.Webhooks.EventsLeave
import GdxDispatch.Banking.Watermark
import GdxDispatch.Plugins.MetadataTruthful
import GdxDispatch.Pricing.EveryCost
import GdxDispatch.ChangeOrders.Frozen
import GdxDispatch.ChangeOrders.BilledAsSigned
import GdxDispatch.Proposals.Settled
import GdxDispatch.Timeclock.Attested
import GdxDispatch.Timeclock.OneOpen
import GdxDispatch.Core.OneProbe
import GdxDispatch.Inventory.StockCounts
import GdxDispatch.Plugins.RunsTraced
import GdxDispatch.Ledger.Opening
import GdxDispatch.Ledger.CashSettled
import GdxDispatch.Ledger.ResettleTwice
import GdxDispatch.Dispatch.WorkedDays
import GdxDispatch.Dispatch.SavedTwice
import GdxDispatch.Billing.InvoiceNumbers
import GdxDispatch.Core.AuditTampering
import GdxDispatch.Billing.ClaimBills
import GdxDispatch.Billing.AutodraftHeader
import GdxDispatch.Timeclock.VacationYears
import GdxDispatch.Timeclock.BreaksLand
import GdxDispatch.Forecasting.Projection
import GdxDispatch.Plugins.CronMeans
import GdxDispatch.Banking.PagesAgree
import GdxDispatch.Pricing.PartsAgree
import GdxDispatch.Core.OwnHop
import GdxDispatch.Forecasting.StepChanges
import GdxDispatch.Forecasting.AmountClusters
import GdxDispatch.Ledger.KeyPatterns
import GdxDispatch.Plugins.DesiredAgree
import GdxDispatch.Banking.Sweeps
import GdxDispatch.Billing.CreditsOnce
import GdxDispatch.Ledger.ArControl
import GdxDispatch.Billing.PaidOnce
