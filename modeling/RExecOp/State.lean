import RExecOp.Errors

/-! Lifecycle states and the transitions between them (`operation/state.py`). -/

namespace RExecOp

inductive OperationState where
  | created
  | planned
  | blocked
  | waitingForApproval
  | approved
  | running
  | paused
  | resuming
  | retrying
  | validating
  | completed
  | failed
  | cancelled
  | escalated
  deriving DecidableEq, Repr

variable {current target : OperationState}

namespace OperationState

def value : OperationState → String
  | .created => "created"
  | .planned => "planned"
  | .blocked => "blocked"
  | .waitingForApproval => "waiting_for_approval"
  | .approved => "approved"
  | .running => "running"
  | .paused => "paused"
  | .resuming => "resuming"
  | .retrying => "retrying"
  | .validating => "validating"
  | .completed => "completed"
  | .failed => "failed"
  | .cancelled => "cancelled"
  | .escalated => "escalated"

def allowedTransitions : OperationState → List OperationState
  | .created => [.planned]
  | .planned => [.blocked, .waitingForApproval, .approved]
  | .approved => [.running, .cancelled]
  | .running => [.paused, .retrying, .validating, .failed, .cancelled]
  | .paused => [.resuming, .cancelled]
  | .resuming => [.running]
  | .retrying => [.running]
  | .validating => [.completed, .failed]
  | .failed => [.escalated, .retrying]
  | .blocked => [.escalated]
  | .waitingForApproval => [.approved, .cancelled]
  | .completed => []
  | .cancelled => []
  | .escalated => []

def validateTransition (current target : OperationState) : Except Fault Unit :=
  if target ∈ current.allowedTransitions then .ok ()
  else .error (.state ("invalid transition: " ++ current.value ++ " -> " ++ target.value))

/-- `ACTIVE_RUNTIME_STATES`, also those of the queue and of recovery. -/
def isActive : OperationState → Bool
  | .running | .paused | .resuming | .retrying | .validating => true
  | _ => false

def isTerminalRecovery : OperationState → Bool
  | .completed | .failed | .cancelled | .escalated => true
  | _ => false

/-- `TERMINAL_RECEIPT_STATES`, also those `start_is_idempotent` accepts. -/
def isTerminalReceipt : OperationState → Bool
  | .completed | .failed | .escalated => true
  | _ => false

def isTerminal : OperationState → Bool
  | .completed | .failed | .cancelled | .escalated | .blocked => true
  | _ => false

def holdsLock : OperationState → Bool
  | .approved => true
  | s => s.isActive

def isExecuted : OperationState → Bool
  | .created | .planned | .blocked | .waitingForApproval | .approved => false
  | _ => true

def isLaunched (s : OperationState) : Bool := s == .approved || s.isExecuted

theorem isExecuted_of_allowed (allowed : target ∈ current.allowedTransitions)
    (executed : current.isExecuted = true) : target.isExecuted = true := by
  cases current <;> cases target <;> simp_all [allowedTransitions, isExecuted]

theorem isLaunched_of_allowed (allowed : target ∈ current.allowedTransitions)
    (launched : current.isLaunched = true) : target.isLaunched = true := by
  cases current <;> cases target <;> simp_all [allowedTransitions, isLaunched, isExecuted]

theorem isActive_of_allowed (allowed : target ∈ current.allowedTransitions)
    (active : target.isActive = true) :
    current.isActive = true ∨ (current = .approved ∧ target = .running) ∨
      (current = .failed ∧ target = .retrying) := by
  cases current <;> cases target <;> simp_all [allowedTransitions, isActive]

theorem isActive_of_isTerminalRecovery {s : OperationState}
    (terminal : s.isTerminalRecovery = true) : s.isActive = false := by
  cases s <;> simp_all [isTerminalRecovery, isActive]

theorem validateTransition_ok {u : Unit} (valid : validateTransition current target = .ok u) :
    target ∈ current.allowedTransitions := by
  unfold validateTransition at valid
  split at valid
  · assumption
  · simp at valid

end OperationState

end RExecOp
