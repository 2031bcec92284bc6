import RExecOp.Coordinator

/-! The controller's calls (`operation/controller.py`). -/

namespace RExecOp

open Coordinator

open Lease (LeaseRecord)
open RunNowQueue (Claim)
open Coordinator (Selection)

namespace Controller

def releaseRuntimeIfTerminal (op : Operation) (targetOnly : Bool) : Program Unit :=
  if op.state.isTerminalRecovery then
    if targetOnly then releaseTargetOnly op else releaseOperation op
  else pure ()

def ensureReceipt (id : String) : Program Unit := do
  let _ ← ensureTerminalReceipt id
  pure ()

def completeClaim (id : String) (lease : LeaseRecord) (claim : Option Claim) : Program Unit :=
  match claim with
  | none => pure ()
  | some snapshot => QueueAccess.completeClaimFromLease id lease.credential snapshot

def cleanUpTerminal (lease : LeaseRecord) (op : Operation) (selection : Option Selection) :
    Program Unit := do
  let claim ← claimTerminalForController op lease selection
  releaseTargetOnly op
  ensureReceipt op.id
  completeClaim op.id lease claim

def admitApproved (lease : LeaseRecord) (op : Operation) (selection : Option Selection) :
    Program SnapshotAdmission := do
  if op.state = .approved then do
    checkMaintenanceWindow op
    admitForController op lease selection
  else if selection.isSome then raise RunNowQueue.blockedFault
  else pure (.admitted none)

def startOperation (fuel : Nat) (lease : LeaseRecord) (id : String)
    (selection : Option Selection) : Program Bool := do
  let op ← loadOperation id
  if op.state.isTerminalReceipt then do
    cleanUpTerminal lease op selection
    pure true
  else do
    let plan ← preflightRollbackAuthority op
    requireMutationExecutionEnabled op.mode
    verifyCatalogBinding op plan
    match ← admitApproved lease op selection with
    | .queued => pure false
    | .admitted claim => do
      let result ← Orchestrator.start fuel lease id
      releaseRuntimeIfTerminal result true
      ensureReceipt id
      completeClaim id lease claim
      pure true

def preflightClaimed (lease : LeaseRecord) (candidate : Operation) (claim : Claim) :
    Program Unit :=
  if candidate.isRollback then do
    match ← (preflightRollbackAuthority candidate).attempt with
    | .ok _ => pure ()
    | .error fault =>
      if fault.isValidation then do
        QueueAccess.completeAndRemoveClaimFromLease candidate.id lease.credential claim
        let _ ← saveOperation { candidate with queueNote := none }
        raise fault
      else raise fault
  else pure ()

def drainQueue (fuel : Nat) (lease : LeaseRecord) : Nat → Program (List String)
  | 0 => .halt
  | rounds + 1 => do
    match ← QueueAccess.claimFromLease lease.credential with
    | none => pure []
    | some claim => do
      let selection ← selectionFromExistingClaim claim.operationId lease claim
      let candidate ← loadOperation claim.operationId
      preflightClaimed lease candidate selection.2
      let _ ← startOperation fuel lease claim.operationId (some selection)
      let position ← QueueAccess.position claim.operationId
      if position.isSome then pure []
      else do
        let others ← drainQueue fuel lease rounds
        pure (if selection.1 = .execution then claim.operationId :: others else others)

def drainUnlessQueued (fuel : Nat) (lease : LeaseRecord) (ran : Bool) : Program Unit :=
  if ran then do
    let _ ← drainQueue fuel lease fuel
    pure ()
  else pure ()

def startUnderLease (fuel : Nat) (id : String) (lease : LeaseRecord) : Program Unit := do
  let ran ← startOperation fuel lease id none
  drainUnlessQueued fuel lease ran
  let _ ← loadOperation id
  pure ()

def start (fuel : Nat) (id : String) : Program Unit :=
  withExecutionLease "operator" (startUnderLease fuel id)

def processQueue (fuel : Nat) : Program Unit :=
  withExecutionLease "operator" fun lease => drainUnlessQueued fuel lease true

def settleAdvance (fuel : Nat) (lease : LeaseRecord) (result : Operation)
    (claim : Option Claim) : Program Unit :=
  if result.state.isTerminalReceipt then do
    releaseTargetOnly result
    ensureReceipt result.id
    completeClaim result.id lease claim
    drainUnlessQueued fuel lease true
  else completeClaim result.id lease claim

def advanceAdmitted (fuel : Nat) (id : String) (maxSteps : Int) (lease : LeaseRecord) :
    SnapshotAdmission → Program Unit
  | .queued => pure ()
  | .admitted claim => do
    let result ← Orchestrator.advance fuel lease id maxSteps
    settleAdvance fuel lease result claim

def advance (fuel : Nat) (id : String) (maxSteps : Int) : Program Unit :=
  withExecutionLease "operator" fun lease => do
    let op ← loadOperation id
    let _ ← preflightRollbackAuthority op
    requireMutationExecutionEnabled op.mode
    let admission ← admitApproved lease op none
    advanceAdmitted fuel id maxSteps lease admission
    let _ ← loadOperation id
    pure ()

/-- `resume` and `retry` ask for admission before the state is looked at. -/
def readmit (op : Operation) : Program Bool :=
  if isMutatingMode op.mode then do
    checkMaintenanceWindow op
    admitForExecution op
  else pure true

/-- What `resume` and `retry` check before they run; `false` when queued. -/
def prepareReadmission (id : String) : Program Bool := do
  let op ← loadOperation id
  let _ ← preflightRollbackAuthority op
  requireMutationExecutionEnabled op.mode
  readmit op

def runReadmitted (fuel : Nat) (lease : LeaseRecord) (id : String) (run : Program Operation)
    (admitted : Bool) : Program Unit :=
  if admitted then do
    let result ← run
    releaseRuntimeIfTerminal result false
    ensureReceipt id
    drainUnlessQueued fuel lease true
  else pure ()

def resume (fuel : Nat) (id : String) : Program Unit :=
  withExecutionLease "operator" fun lease => do
    let admitted ← prepareReadmission id
    runReadmitted fuel lease id (Orchestrator.resume fuel lease id) admitted
    let _ ← loadOperation id
    pure ()

def retry (fuel : Nat) (id : String) : Program Unit :=
  withExecutionLease "operator" fun lease => do
    let indeterminate ← read fun w => .ok (w.hasIndeterminateSideEffect id)
    require (!indeterminate)
      (.outcomeIndeterminate "side-effectful attempt requires explicit reconciliation")
    let admitted ← prepareReadmission id
    runReadmitted fuel lease id (Orchestrator.retry fuel lease id) admitted
    let _ ← loadOperation id
    pure ()

def cancel (fuel : Nat) (id : String) : Program Unit :=
  withExecutionLease "operator" fun lease => do
    let op ← loadOperation id
    let result ← (if op.state = .cancelled then pure op else Orchestrator.cancel id)
    QueueAccess.removeCancelledFromLease id lease.credential
    releaseTargetOnly result
    drainUnlessQueued fuel lease true
    let _ ← loadOperation id
    pure ()

def escalate (id : String) : Program Unit := do
  let _ ← Orchestrator.escalate id
  ensureReceipt id

def existingRollbackOperation (parent : Operation) : Program (Option Operation) := do
  let expected := rollbackOperationId parent.id
  require (!parent.rollbackLink.any fun linked => linked != "" && linked != expected)
    (.invalid "rollback parent linkage is inconsistent")
  match ← read fun w => .ok (w.operations.get expected) with
  | none => pure none
  | some child =>
    if child.derived.any (·.parentOperationId = parent.id) then pure (some child)
    else raise (.invalid "rollback child linkage is inconsistent")

def linkRollback (parentId : String) (child : Operation) : Program Unit := do
  let parent ← loadOperation parentId
  let _ ← loadPlan child.id
  let _ ← saveOperation { parent with rollbackLink := some child.id }
  pure ()

def rollbackChild (parent : Operation) (parentPlan : OperationPlan) : Program Operation := do
  match ← existingRollbackOperation parent with
  | some child => pure child
  | none => prepareRollbackOperation parent parentPlan

def runRollbackChild (fuel : Nat) (parentId : String) (child : Operation) : Program Unit :=
  if child.state = .approved then do
    start fuel child.id
    let child ← loadOperation child.id
    linkRollback parentId child
  else pure ()

def rollback (fuel : Nat) (id : String) : Program Unit := do
  let parent ← loadOperation id
  let parentPlan ← loadPlan id
  let child ← rollbackChild parent parentPlan
  linkRollback parent.id child
  runRollbackChild fuel parent.id child
  let _ ← loadPlan child.id
  pure ()

end Controller

end RExecOp
