import RExecOp.Orchestrator

/-! Runtime admission (`runtime_ops/coordinator.py`): target lock, concurrency
bound and run-now queue. -/

namespace RExecOp

open Lease (LeaseRecord)
open RunNowQueue (Claim Purpose Reason)

namespace Coordinator

def checkMaintenanceWindow (op : Operation) : Program Unit :=
  if isMutatingMode op.mode && op.runtimePolicy.hasMaintenanceWindows then
    ask fun i => if i.agrees then .ok ()
      else .error (.invalid "apply blocked outside maintenance window (outside_maintenance_window)")
  else pure ()

def targetHeldByOther (op : Operation) (w : World) : Bool :=
  match w.readLock op.environment op.target with
  | some lock => !w.isLockStale lock && lock.operationId != op.id
  | none => false

def assessForExecution (op : Operation) : Program (Option Reason) :=
  if !isMutatingMode op.mode then pure none
  else do
    let held ← (if op.runtimePolicy.targetLockEnabled then
        read fun w => .ok (targetHeldByOther op w)
      else pure false)
    if held then pure (some .targetLocked)
    else do
      let active ← read fun w => .ok (w.countActiveOperations op.id)
      if op.runtimePolicy.maxConcurrent ≤ (active : Int) then pure (some .maxConcurrentReached)
      else pure none

def usesTargetLock (op : Operation) : Bool :=
  isMutatingMode op.mode && op.runtimePolicy.targetLockEnabled

def acquirePrecheckedTarget (op : Operation) : Program Bool :=
  if usesTargetLock op then
    access (.acquireLock op.environment op.target op.id) fun _ w =>
      .ok (w.acquireLock op.environment op.target op.id).1
  else pure true

def releaseTargetOnly (op : Operation) : Program Unit :=
  if usesTargetLock op then
    access (.releaseLock op.environment op.target op.id) fun _ _ => .ok ()
  else pure ()

def persistPrecheckedAdmission (op : Operation) : Program Unit := do
  let _ ← saveOperation { op with queueNote := none }
  pure ()

def reasonText : Reason → String
  | .targetLocked => "target_locked"
  | _ => "max_concurrent_reached"

def markQueued (op : Operation) (reason : Reason) : Program Unit := do
  let position ← QueueAccess.enqueue op.id
  let _ ← saveOperation { op with queueNote := some ⟨reasonText reason, position⟩ }
  pure ()

def recordDeferredClaim (op : Operation) (reason : Reason) : Program Unit := do
  match ← QueueAccess.position op.id with
  | none => raise (.conflict "concurrency_conflict: deferred queue claim is no longer pending")
  | some position =>
    let _ ← saveOperation { op with queueNote := some ⟨reasonText reason, position⟩ }
    pure ()

def deferOrEnqueue (op : Operation) (lease : LeaseRecord) (claim : Option Claim)
    (reason : Reason) : Program Unit :=
  match claim with
  | none => markQueued op reason
  | some snapshot => do
    QueueAccess.deferClaimFromLease op.id snapshot lease.credential reason
    recordDeferredClaim op reason

def publicQueueHasCompatiblePending : Program Bool :=
  read fun w => (RunNowQueue.loadForPublicMutation w.queue).map fun data => !data.pending.isEmpty

def admitAssessed (op : Operation) : Program Bool :=
  if !isMutatingMode op.mode then pure true
  else do
    let acquired ← acquirePrecheckedTarget op
    if acquired then do
      persistPrecheckedAdmission op
      pure true
    else do
      markQueued op .targetLocked
      pure false

def admitForExecution (op : Operation) : Program Bool := do
  let waiting ← publicQueueHasCompatiblePending
  if waiting then pure false
  else do
    match ← assessForExecution op with
    | some reason => do
      markQueued op reason
      pure false
    | none => admitAssessed op

abbrev Selection := Purpose × Claim

def selectionClaim (selection : Option Selection) (required : Purpose) :
    Except Fault (Option Claim) :=
  match selection with
  | none => .ok none
  | some (purpose, claim) =>
    if purpose = required then .ok (some claim) else .error RunNowQueue.blockedFault

def selected (op : Operation) (lease : LeaseRecord) (selection : Option Selection) :
    Program (Option Selection) :=
  match selection with
  | some given => pure (some given)
  | none => QueueAccess.claimSpecificFromLease op.id lease.credential

inductive SnapshotAdmission where
  | admitted (claim : Option Claim)
  | queued

def admitForController (op : Operation) (lease : LeaseRecord) (selection : Option Selection) :
    Program SnapshotAdmission := do
  let chosen ← selected op lease selection
  let claim ← ofExcept (selectionClaim chosen .execution)
  match ← assessForExecution op with
  | some reason => do
    deferOrEnqueue op lease claim reason
    pure .queued
  | none => do
    let acquired ← acquirePrecheckedTarget op
    if acquired then do
      persistPrecheckedAdmission op
      pure (.admitted claim)
    else do
      deferOrEnqueue op lease claim .targetLocked
      pure .queued

def claimTerminalForController (op : Operation) (lease : LeaseRecord)
    (selection : Option Selection) : Program (Option Claim) := do
  let chosen ← selected op lease selection
  ofExcept (selectionClaim chosen .terminalCleanup)

/-- What `_selection_from_existing_claim` finds under the lock. -/
def existingSelection (id : String) (lease : LeaseRecord) (snapshot : Claim) (i : Input)
    (w : World) : Except Fault Selection :=
  match RunNowQueue.enterLeaseGuard (w.queueContext i) lease.credential
      (RunNowQueue.claimConflict id) with
  | .error fault => .error fault
  | .ok () => match RunNowQueue.loadForStrictMutation w.queue with
    | .error fault => .error fault
    | .ok data => match data.claims.get id with
      | none => .error (RunNowQueue.claimConflict id)
      | some current =>
        if RunNowQueue.exactCurrentClaim current id lease.credential (some snapshot) then
          (RunNowQueue.specificClaimPurpose
            (RunNowQueue.loadRecoveryFacts (w.queueContext i) id)).map fun purpose =>
              (purpose, current)
        else .error (RunNowQueue.claimConflict id)

def selectionFromExistingClaim (id : String) (lease : LeaseRecord) (snapshot : Claim) :
    Program Selection :=
  access .read fun i w => existingSelection id lease snapshot i w

def releaseOperation (op : Operation) : Program Unit := do
  QueueAccess.discardPending op.id
  releaseTargetOnly op

end Coordinator

end RExecOp
