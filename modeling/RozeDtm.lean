import RozeDtm.Conc.Prog
import RozeDtm.Conc.Pool
import RozeDtm.Conc.Discipline
import RozeDtm.Conc.Outline
import RozeDtm.Conc.Alone
import RozeDtm.Conc.Turns
import RozeDtm.Model.Types
import RozeDtm.Model.Transaction
import RozeDtm.Model.Dependencies
import RozeDtm.Model.Store
import RozeDtm.Model.Coordinator.Common
import RozeDtm.Model.Coordinator.Saga
import RozeDtm.Model.Coordinator.Phase2
import RozeDtm.Model.Coordinator.Message
import RozeDtm.Model.Coordinator.Workflow
import RozeDtm.Model.Coordinator.Recover
import RozeDtm.Model.System
import RozeDtm.Session.Basic
import RozeDtm.Session.Rules
import RozeDtm.Session.Phase2
import RozeDtm.Session.Batch
import RozeDtm.Session.Message
import RozeDtm.Session.Workflow
import RozeDtm.Session.Saga
import RozeDtm.Session.Operations
import RozeDtm.Session.Scope
import RozeDtm.Session.Undecided
import RozeDtm.Session.Delivery
import RozeDtm.InMemory.Ledger
import RozeDtm.InMemory.Stored
import RozeDtm.InMemory.Snapshot
import RozeDtm.Serial.Rules
import RozeDtm.Serial.Frame
import RozeDtm.Serial.Workflow
import RozeDtm.Serial.Saga
import RozeDtm.Relational.Statements
import RozeDtm.Properties.BarrierUse
import RozeDtm.Properties.TerminalFinal
import RozeDtm.Properties.RegistrationsKept
import RozeDtm.Properties.DecisionAgreement
import RozeDtm.Properties.Phase2Completeness
import RozeDtm.Properties.SagaCompensation
import RozeDtm.Properties.WorkflowCompensation
import RozeDtm.Properties.BarrierAgreement
import RozeDtm.Properties.BarrierIsolation
import RozeDtm.Properties.NextRecovery
import RozeDtm.Properties.NoGuessedCommit
import RozeDtm.Properties.ListingPages
import RozeDtm.Properties.MessageSafety
import RozeDtm.Properties.DelayedRetention
import RozeDtm.Properties.FirstCompletion
import RozeDtm.Properties.PurgeFinal
import RozeDtm.Properties.RecoveryLease
import RozeDtm.Properties.ConfirmAfterTry
import RozeDtm.Properties.TickIsolation
import RozeDtm.Properties.WorkflowOrder
import RozeDtm.Properties.SagaDependencies
import RozeDtm.Properties.SagaOrder
import RozeDtm.Properties.XaResources
import RozeDtm.Trail.Basic
import RozeDtm.Trail.Batch
import RozeDtm.Trail.Operations
import RozeDtm.Trail.World
import RozeDtm.Properties.BackOff
import RozeDtm.Model.Service.Compat
import RozeDtm.Model.Service.Request
import RozeDtm.Trail.Service
import RozeDtm.Properties.BranchFit
import RozeDtm.Properties.AcceptedGraphs
import RozeDtm.Model.Service.Kv
import RozeDtm.Model.Service.Listing
import RozeDtm.Properties.KvAnswers
import RozeDtm.Relational.XaDecisions
import RozeDtm.Properties.XaIdentity
import RozeDtm.Properties.HeuristicDecision
import RozeDtm.Known.Basic
import RozeDtm.Known.Batch
import RozeDtm.Known.Operations
import RozeDtm.Known.World
import RozeDtm.Redis.Barriers
import RozeDtm.Properties.BarrierIndex
import RozeDtm.Conc.Linear
import RozeDtm.Kv.Topics
import RozeDtm.Kv.TopicEdits
import RozeDtm.Kv.SubscriberText
import RozeDtm.Properties.TopicUpdates
import RozeDtm.Conc.Heard
import RozeDtm.Properties.ResetProgress
import RozeDtm.Conc.Lists
import RozeDtm.Session.Table
import RozeDtm.Trail.Settling
import RozeDtm.Properties.NothingScheduled
import RozeDtm.Serial.Attempts
import RozeDtm.Serial.TrialEnds
import RozeDtm.Serial.Trying
import RozeDtm.Serial.TrialBatch
import RozeDtm.Properties.AttemptLimits
import RozeDtm.Conc.Retries
import RozeDtm.Serial.ChainCalls
import RozeDtm.Serial.Chain
import RozeDtm.Serial.ChainBatches
import RozeDtm.Properties.ChainAgreement
import RozeDtm.Conc.Comes
import RozeDtm.Trail.Inserts
import RozeDtm.Model.Service.Grpc
import RozeDtm.Properties.EntryPoints
import RozeDtm.Properties.GrpcPayloads
import RozeDtm.Properties.ExpandedBounds
import RozeDtm.Model.Service.Config
import RozeDtm.Serial.Undisturbed
import RozeDtm.Properties.WorkflowDeferral
import RozeDtm.Model.Service.Callback
import RozeDtm.Properties.BusinessFailure
import RozeDtm.Codec.Base64
import RozeDtm.Codec.JsonText
import RozeDtm.Model.Service.Client
import RozeDtm.Properties.CallbackData
import RozeDtm.Session.Closing
import RozeDtm.Session.Opening
import RozeDtm.Properties.RegisteredAgain
import RozeDtm.Properties.HeuristicOutcome
import RozeDtm.Properties.RejectedRequest
import RozeDtm.Properties.QueryReports
import RozeDtm.Codec.Digits
import RozeDtm.Model.Service.Gid
import RozeDtm.Properties.GeneratedGids
import RozeDtm.Calendar.Gregorian
import RozeDtm.Calendar.Civil
import RozeDtm.Model.Service.Rfc3339
import RozeDtm.Properties.CalendarTime
import RozeDtm.Redis.Fields
import RozeDtm.Properties.RedisFields
import RozeDtm.Codec.Substring
import RozeDtm.Conc.Twins
import RozeDtm.Model.Service.Control
import RozeDtm.Twin.Rules
import RozeDtm.Twin.Texts
import RozeDtm.Twin.Calls
import RozeDtm.Twin.Batch
import RozeDtm.Twin.Graph
import RozeDtm.Twin.Operations
import RozeDtm.Twin.Recover
import RozeDtm.Twin.Blamed
import RozeDtm.Properties.ErrorStatus
import RozeDtm.Conc.Levels
import RozeDtm.Redis.Store
import RozeDtm.Redis.Server
import RozeDtm.Redis.Versioned
import RozeDtm.Redis.Stored
import RozeDtm.Redis.Refines
import RozeDtm.Properties.RedisUpdates
import RozeDtm.Properties.RedisFencing
import RozeDtm.Codec.JsonDoc
import RozeDtm.Model.Serde
import RozeDtm.Properties.RecordText
import RozeDtm.Properties.SqliteRuns
import RozeDtm.Properties.UnreadableRecord
