import RExecOp.Lib.Assoc
import RExecOp.Lib.Dict
import RExecOp.Lib.Prog
import RExecOp.Lib.Results
import RExecOp.Lib.Upkeep
import RExecOp.Lib.Alone
import RExecOp.Errors
import RExecOp.Value
import RExecOp.Validation
import RExecOp.State
import RExecOp.Lease
import RExecOp.Attempts
import RExecOp.RunNowQueue
import RExecOp.QueueTopology
import RExecOp.QueueFence
import RExecOp.QueueRecovery
import RExecOp.Operation
import RExecOp.Store
import RExecOp.Access
import RExecOp.Receipts
import RExecOp.Executor
import RExecOp.Planning
import RExecOp.Orchestrator
import RExecOp.Coordinator
import RExecOp.Controller
import RExecOp.Recovery
import RExecOp.Discipline
import RExecOp.Walk
import RExecOp.Execution
import RExecOp.Steps
import RExecOp.Calls
import RExecOp.CompletedEffects
import RExecOp.IndeterminateEffects
import RExecOp.RecoveryRun
import RExecOp.RecoverySettles
import RExecOp.QueueClassification
import RExecOp.AttemptJournal
import RExecOp.OperationStore
import RExecOp.TargetLock
import RExecOp.GovernanceClaims
import RExecOp.RollbackAuthority
import RExecOp.Supersession
import RExecOp.TargetExclusion
import RExecOp.ReceiptOutbox
import RExecOp.Storage
import RExecOp.StorageAgreement
import RExecOp.Lib.Spans
import RExecOp.InlineSecrets
import RExecOp.SecretRefs
import RExecOp.Redaction
import RExecOp.PublicProjection
import RExecOp.Commands
import RExecOp.Lib.Crowd
import RExecOp.Triggers
import RExecOp.TriggerDedupe
import RExecOp.TriggerRecords
import RExecOp.TriggerCooldown
import RExecOp.Inbox
import RExecOp.InboxProtocol
import RExecOp.InboxPlanning
import RExecOp.Accesses
import RExecOp.PauseRace
import RExecOp.Permit
import RExecOp.AttemptAuthority
import RExecOp.PermitFreshness
import RExecOp.Lib.Json
import RExecOp.ActionShape
import RExecOp.BoundedSubprocess
import RExecOp.OutputLimitEvidence
import RExecOp.QueueFile
import RExecOp.QueueFailsClosed
import RExecOp.QueueTransitions
import RExecOp.QueueDeferral
import RExecOp.QueueRefinement
import RExecOp.Lib.Frame
import RExecOp.QueueBlind
import RExecOp.QueueDrain
import RExecOp.ReadOnlyIndependence
import RExecOp.RecoveryLease
import RExecOp.Durability
