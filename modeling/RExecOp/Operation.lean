import RExecOp.Lib.Dict
import RExecOp.Validation
import RExecOp.State

/-! Operations and plans (`operation/model.py`, `operation/plan.py`) with the metadata the
runtime reads back. -/

namespace RExecOp

open Validation (LoadedProfile)

inductive DecisionType where
  | allowed
  | blocked
  | approvalRequired
  | maintenanceWindowRequired
  | backupRequired
  | readOnlyOnly
  | humanRequired
  | unsupported
  | error
  deriving DecidableEq, Repr

namespace DecisionType

def isBlocking : DecisionType → Bool
  | .blocked | .readOnlyOnly | .humanRequired | .unsupported | .error => true
  | _ => false

def isWaiting : DecisionType → Bool
  | .approvalRequired | .maintenanceWindowRequired | .backupRequired => true
  | _ => false

def value : DecisionType → String
  | .allowed => "allowed"
  | .blocked => "blocked"
  | .approvalRequired => "approval_required"
  | .maintenanceWindowRequired => "maintenance_window_required"
  | .backupRequired => "backup_required"
  | .readOnlyOnly => "read_only_only"
  | .humanRequired => "human_required"
  | .unsupported => "unsupported"
  | .error => "error"

end DecisionType

def isMutatingMode (mode : String) : Bool := mode == "apply" || mode == "recovery"

def isReadOnlyMode (mode : String) : Bool :=
  mode == "dry_run" || mode == "observe" || mode == "emergency_readonly"

structure RuntimePolicy where
  maxConcurrentOperations : Int
  targetLockEnabled : Bool
  hasMaintenanceWindows : Bool
  deriving DecidableEq, Repr

def RuntimePolicy.maxConcurrent (policy : RuntimePolicy) : Int :=
  if policy.maxConcurrentOperations = 0 then 1 else policy.maxConcurrentOperations

structure Cursor where
  nextStepIndex : Nat
  attemptsByStep : Dict String Nat
  pausedAtStepId : Option String

def Cursor.initial : Cursor := ⟨0, ∅, none⟩

structure Failure where
  stepId : String
  error : String
  errorClass : String
  attempt : Nat
  deriving DecidableEq, Repr

structure QueueNote where
  reason : String
  position : Nat
  deriving DecidableEq, Repr

structure Projection where
  projected : Bool
  operationRevision : Nat
  state : OperationState
  deriving DecidableEq, Repr

/-- `metadata["derived_operation"]` of a rollback child. -/
structure Derived where
  parentOperationId : String
  failureAuthorityDigest : String
  deriving DecidableEq, Repr

structure StateTransitionRecord where
  fromState : OperationState
  toState : OperationState
  reason : String
  deriving DecidableEq, Repr

structure Operation where
  id : String
  environment : String
  intent : String
  target : String
  mode : String
  state : OperationState
  currentStepId : String
  govengineDecisionType : Option DecisionType
  runtimePolicy : RuntimePolicy
  derived : Option Derived
  hasCatalogRuntime : Bool
  autoReact : Bool
  cursor : Option Cursor
  pauseRequested : Bool
  cancelRequested : Bool
  lastFailure : Option Failure
  queueNote : Option QueueNote
  sharedState : Entries
  projection : Option Projection
  recoveryBlocker : Option String
  interruptedAt : Option Int
  /-- `metadata["rollback"]`, of which only the child's id is read back. -/
  rollbackLink : Option String
  history : List StateTransitionRecord
  revision : Nat

inductive StepType where
  | connector
  | evidence
  | internal
  deriving DecidableEq, Repr

structure PlannedStep where
  id : String
  type : StepType
  action : String
  connector : String
  pauseSafe : Bool
  continueOnError : Bool
  deriving DecidableEq, Repr

structure RetryPolicy where
  maxAttempts : Int
  allowedOn : List String
  blockedOn : List String
  deriving DecidableEq, Repr

structure Rollback where
  mode : String
  steps : List PlannedStep
  deriving DecidableEq, Repr

structure OperationPlan where
  operationId : String
  plannedSteps : List PlannedStep
  pauseSafePoints : List String
  retryPolicy : RetryPolicy
  rollback : Option Rollback
  hasCatalogBinding : Bool
  deriving DecidableEq, Repr

namespace Operation

def isRollback (op : Operation) : Bool := op.derived.isSome

def executionCursor (op : Operation) : Cursor := op.cursor.getD .initial

def moved (op : Operation) (target : OperationState) (reason : String) : Operation :=
  { op with history := op.history ++ [⟨op.state, target, reason⟩], state := target }

def markProjectionPending (op : Operation) (revision : Nat) (state : OperationState) :
    Operation :=
  { op with projection := some ⟨false, revision, state⟩ }

def transition (op : Operation) (target : OperationState) (reason : String) :
    Except Fault Operation :=
  match OperationState.validateTransition op.state target with
  | .error fault => .error fault
  | .ok () => .ok ((op.moved target reason).markProjectionPending (op.revision + 1) target)

end Operation

end RExecOp
