import Ticketing.Library.Table
import Ticketing.Library.Trace
import Ticketing.Library.Tally
import Ticketing.Library.LastingKeys
import Ticketing.Library.Streams
import Ticketing.Library.JsonValue
import Ticketing.PaymentLedger
import Ticketing.PaymentPriority
import Ticketing.CapturedPayments
import Ticketing.CheckoutOnce
import Ticketing.InboxProgress
import Ticketing.RefundRights
import Ticketing.ReservationOnce
import Ticketing.LogoutRevocation
import Ticketing.WaitingMembership
import Ticketing.WaitingFairness
import Ticketing.AdmissionPause
import Ticketing.Library.Redis
import Ticketing.Library.ScriptFrame
import Ticketing.AvailabilityScripts
import Ticketing.FinalizeFencing
import Ticketing.AdminCatalog
import Ticketing.AdminJobs
import Ticketing.AdmissionStore
import Ticketing.BrowserIdentity
import Ticketing.DeadlockFreedom
import Ticketing.HttpCache
import Ticketing.LayoutRevisions
import Ticketing.Library.Allowance
import Ticketing.Library.AsyncCalls
import Ticketing.LoginThrottle
import Ticketing.PaymentTiming
import Ticketing.PolicyFence
import Ticketing.PolicyGenerations
import Ticketing.PublishCompleteness
import Ticketing.RefundRecovery
import Ticketing.ReleaseRate
import Ticketing.RetryHint
import Ticketing.SessionLifetime
import Ticketing.StripeMapping
import Ticketing.VenuePlans
import Ticketing.WebhookSignature
import Ticketing.Library.Threads
import Ticketing.SeatMapExecutor
import Ticketing.SeatMapExecution
import Ticketing.ShortLease
import Ticketing.ReconciliationRounds
import Ticketing.RoundEnds
import Ticketing.ReconciliationWorker
import Ticketing.ReadOnlyCoalescing
import Ticketing.SingleFlightProgress
import Ticketing.SeatModelInstall
import Ticketing.SeatModelCleanup
import Ticketing.AvailabilityReads
import Ticketing.HoldRuns
import Ticketing.BrokenModel
import Ticketing.SettledModel
import Ticketing.ReplicaRuns
import Ticketing.AvailabilityContract
import Ticketing.SelectionRuns
import Ticketing.LateCallRuns
