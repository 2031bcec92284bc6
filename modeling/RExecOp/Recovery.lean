import RExecOp.Controller

/-! Startup recovery (`runtime_ops/recovery.py`). -/

namespace RExecOp

open Lease (Instant LeaseRecord)

namespace Recovery

structure Report where
  releasedLocks : List String
  interrupted : List String
  indeterminateAttempts : List String
  queueRecovered : Bool
  receiptRepairs : List String
  receiptBlockers : List String
  projected : List String
  deferred : List String
  deriving DecidableEq, Repr

def staleRecord (w : World) (payload : LockRecord) : Option LockRecord :=
  (w.readLock payload.environment payload.target).filter w.isLockStale

def releaseStaleLock (file : String) : Program (Option String) := do
  match ← read fun w => .ok (w.locks.get file) with
  | none => pure none
  | some payload =>
    match ← read fun w => .ok (staleRecord w payload) with
    | none => pure none
    | some record => do
      access (.releaseLock payload.environment payload.target record.operationId) fun _ _ =>
        .ok ()
      pure (some file)

def releaseStaleLocks : Program (List String) := do
  let files ← read fun w => .ok w.locks.sortedKeys
  Prog.forEach files releaseStaleLock

/-- Unlike `_transition` it leaves the projection marker alone. -/
def transitionOperation (op : Operation) (target : OperationState) (reason : String) :
    Program Unit := do
  let _ ← ofExcept (OperationState.validateTransition op.state target)
  emit .plain
  let _ ← saveOperation (op.moved target reason)
  pure ()

def transitionFrom (op : Operation) (state target : OperationState) (reason : String) :
    Program Operation :=
  if op.state = state then do
    transitionOperation op target reason
    loadOperation op.id
  else pure op

def failInterrupted (op : Operation) : Program Unit :=
  if op.state = .running ∨ op.state = .validating then
    transitionOperation op .failed "interrupted_by_restart"
  else if op.state = .paused ∨ op.state = .resuming ∨ op.state = .retrying then do
    let op ← transitionFrom op .paused .resuming "interrupted_resume"
    let op ← transitionFrom op .resuming .running "interrupted_resume"
    let op ← transitionFrom op .retrying .running "interrupted_retry"
    if op.state = .running then transitionOperation op .failed "interrupted_by_restart"
      else pure ()
  else pure ()

def markInterrupted (observedAt : Instant) (op : Operation) : Program Unit := do
  failInterrupted op
  let op ← loadOperation op.id
  Coordinator.releaseTargetOnly op
  let op ← loadOperation op.id
  let _ ← saveOperation { op with interruptedAt := some observedAt }
  pure ()

def interruptOperation (observedAt : Instant) (op : Operation) : Program (Option String) :=
  if op.state.isActive then do
    markInterrupted observedAt op
    let _ ← loadOperation op.id
    pure (some op.id)
  else pure none

def interruptActiveOperations (observedAt : Instant) : Program (List String) := do
  let ops ← read fun w => .ok w.listOperations
  Prog.forEach ops (interruptOperation observedAt)

def recoverStartedAttempts : Program (List String) := do
  let files ← read fun w => .ok (w.allAttempts.map fun record =>
    (record.operationId, record.attemptId))
  Prog.forEach files fun file =>
    access (.markIndeterminate file.1 file.2) fun i w => .ok (w.markLost file.1 file.2 i).1

def repairReceipt (op : Operation) : Program (Option (String × ReceiptStatus)) := do
  let needed ← read fun w => .ok (w.needsReceipt op)
  if needed then do
    let status ← ensureTerminalReceipt op.id
    pure (some (op.id, status))
  else pure none

def repairTerminalReceipts : Program (List String × List String) := do
  let ops ← read fun w => .ok w.listOperations
  let results ← Prog.forEach ops repairReceipt
  let withStatus := fun status => (results.filter (·.2 = status)).map (·.1)
  pure (withStatus .receiptExported, withStatus .recoveryBlocker)

def ownedLease (given : Option LeaseRecord) : Program LeaseRecord :=
  match given with
  | some lease => pure lease
  | none => acquireExecutionLease "runtime-recovery"

def releaseOwned (given : Option LeaseRecord) (lease : LeaseRecord) : Program Unit :=
  if given.isNone then releaseExecutionLease lease else pure ()

def recoverQueue (given : Option LeaseRecord) (lease : LeaseRecord) (observedAt : Instant) :
    Program Bool := do
  match ← (QueueAccess.recoverExpiredClaimsFromLease lease.credential observedAt).attempt with
  | .ok recovered => pure recovered
  | .error fault =>
    if fault.isValidation then do
      releaseOwned given lease
      raise fault
    else raise fault

def runStartupRecovery (given : Option LeaseRecord) (observedAt : Instant)
    (repairReceipts : Bool) : Program Report := do
  let lease ← ownedLease given
  let released ← releaseStaleLocks
  let interrupted ← interruptActiveOperations observedAt
  let indeterminate ← recoverStartedAttempts
  let recovered ← recoverQueue given lease observedAt
  let repairs ← (if repairReceipts then repairTerminalReceipts else pure ([], []))
  let projections ← reconcilePendingProjections
  releaseOwned given lease
  pure ⟨released, interrupted, indeterminate, recovered, repairs.1, repairs.2, projections.1,
    projections.2⟩

end Recovery

end RExecOp
