import MacpControlPlane.Lib.Machine
import MacpControlPlane.Contracts
import MacpControlPlane.Storage.RunRepository
import MacpControlPlane.Storage.TransitionRaces
import MacpControlPlane.Projection.Helpers
import MacpControlPlane.Projection.Reducer
import MacpControlPlane.Projection.Sections
import MacpControlPlane.Projection.Store
import MacpControlPlane.Projection.Status
import MacpControlPlane.Projection.Rebuild
import MacpControlPlane.Events.RunEventService
import MacpControlPlane.Runs.RunManager
import MacpControlPlane.Runs.ProjectedStatus
import MacpControlPlane.Runs.TerminalEvents
import MacpControlPlane.Runs.LaunchIdempotency
import MacpControlPlane.Lib.Promises
import MacpControlPlane.Projection.ApplyQueue
import MacpControlPlane.Lib.RowLock
import MacpControlPlane.Events.RunTransactions
import MacpControlPlane.Runs.StreamConsumer
import MacpControlPlane.Runs.EnvelopeIngestion
import MacpControlPlane.Runs.Lifecycle
import MacpControlPlane.Runs.ConsumerTermination
import MacpControlPlane.Runs.RunRecovery
import MacpControlPlane.Runs.CancelCalls
import MacpControlPlane.Runs.CancelRaces
import MacpControlPlane.Runs.HandleOwnership
import MacpControlPlane.Events.StreamHub
import MacpControlPlane.Lib.HighWater
import MacpControlPlane.Controllers.StreamDelivery
import MacpControlPlane.Lib.Table
import MacpControlPlane.Runs.SessionDiscovery
import MacpControlPlane.Runs.DiscoveryWatch
import MacpControlPlane.Runs.DiscoveredRuns
import MacpControlPlane.Runs.WatchReconnect
import MacpControlPlane.Events.EventNormalizer
import MacpControlPlane.Verification.CommitmentOutcome
import MacpControlPlane.Verification.CommitmentVerification
import MacpControlPlane.Metrics.MetricsService
import MacpControlPlane.Events.NormalizedLog
import MacpControlPlane.Metrics.TokenAccounting
import MacpControlPlane.Metrics.MetricsRaces
import MacpControlPlane.Db.AdvisoryLock
import MacpControlPlane.Events.RedisStreamHub
import MacpControlPlane.Webhooks.WebhookDelivery
import MacpControlPlane.Lib.Paging
import MacpControlPlane.Controllers.EventPages
import MacpControlPlane.Lib.Columns
import MacpControlPlane.Storage.EventTables
import MacpControlPlane.Runs.PoisonEnvelopes
import MacpControlPlane.Lib.TransitionLog
import MacpControlPlane.Runtime.CircuitBreaker
import MacpControlPlane.Runtime.ThrownErrors
import MacpControlPlane.Lib.Folds
import MacpControlPlane.Projection.Decisions
import MacpControlPlane.Lib.Keyed
import MacpControlPlane.Projection.VoteTally
import MacpControlPlane.Projection.GraphShape
import MacpControlPlane.Projection.Bounds
import MacpControlPlane.Projection.TerminalSweep
import MacpControlPlane.Lib.Statements
import MacpControlPlane.Runs.LifecycleRetry
import MacpControlPlane.Runs.ParticipantSeen
import MacpControlPlane.Verification.IngestedCommitments
import MacpControlPlane.Metrics.Batching
import MacpControlPlane.Runtime.JwtMinter
import MacpControlPlane.Projection.ReplayStream
import MacpControlPlane.Runs.MetadataHealing
import MacpControlPlane.Runs.DecisionHealing
import MacpControlPlane.Runtime.ListSessions
import MacpControlPlane.Runs.RetryBudget
import MacpControlPlane.Lib.AsyncQueue
import MacpControlPlane.Runtime.SubscribeSession
import MacpControlPlane.Lib.JsonText
import MacpControlPlane.Lib.JsonRoundTrip
import MacpControlPlane.Runtime.Contribute
import MacpControlPlane.Lib.JsonSchema
import MacpControlPlane.Policy.RulesSchemas
import MacpControlPlane.Policy.PolicyRulesValidator
import MacpControlPlane.Policy.PolicyAdmission
import MacpControlPlane.Projection.EnvelopeEntries
import MacpControlPlane.Events.PromptRedaction
import MacpControlPlane.Events.MemoryStreamHub
import MacpControlPlane.Lib.Grouping
import MacpControlPlane.Dashboard.DashboardService
import MacpControlPlane.Dashboard.OverviewRange
import MacpControlPlane.Dashboard.AgentMetrics
import MacpControlPlane.Controllers.RunPages
import MacpControlPlane.Runs.BatchCancel
import MacpControlPlane.Lib.Progress
import MacpControlPlane.Webhooks.DeliverySettles
import MacpControlPlane.Receipts.DecisionReceipt
import MacpControlPlane.Receipts.ServedKeys
import MacpControlPlane.Lib.ExactNumbers
import MacpControlPlane.Insights.RunExport
import MacpControlPlane.Events.CommittedProjection
import MacpControlPlane.Retention.RunDeletion
import MacpControlPlane.Runtime.CallFailures
import MacpControlPlane.Runs.SessionPolling
import MacpControlPlane.Runtime.WatchStreams
import MacpControlPlane.Controllers.SessionDrift
import MacpControlPlane.Webhooks.Subscriptions
import MacpControlPlane.Db.Migrations
import MacpControlPlane.Runs.SignalConsumer
import MacpControlPlane.Runtime.CapabilityGate
import MacpControlPlane.Auth.AuthGuard
import MacpControlPlane.Runs.SuspendResume
import MacpControlPlane.Runs.SessionFollowing
import MacpControlPlane.Lib.SplitText
import MacpControlPlane.Lib.Trim
import MacpControlPlane.Events.RuntimeFrames
import MacpControlPlane.Events.CommittedStatus
