import RExecOp.Lease
import RExecOp.State

/-! Attempt records of the journal (`runtime_ops/attempts.py`): a record is
written `pending`, then `started`, and finishes once. -/

namespace RExecOp

inductive AttemptStatus where
  | pending
  | started
  | completed
  | failed
  | indeterminate
  deriving DecidableEq, Repr

def AttemptStatus.isFinal : AttemptStatus → Bool
  | .completed | .failed | .indeterminate => true
  | _ => false

namespace Attempts

def attemptSchema : String := "rexecop.execution_attempt.v0.1"

structure Attempt where
  schema : String
  attemptId : String
  operationId : String
  operationRevision : Nat
  stepId : String
  status : AttemptStatus
  target : String
  mode : String
  sideEffectful : Bool
  leaseEpoch : Int
  processInstanceId : String
  createdAt : Lease.Instant
  startedAt : Option Lease.Instant
  finishedAt : Option Lease.Instant
  errorClass : String
  deriving DecidableEq, Repr

def isSideEffectful (mode : String) : Bool :=
  !(mode == "observe" || mode == "dry_run" || mode == "emergency_readonly")

def buildPendingAttempt (operationId attemptId : String) (operationRevision : Nat)
    (stepId target mode : String) (lease : Lease.Credential) (now : Lease.Instant) :
    Except Fault Attempt :=
  if !("attempt-".toList.isPrefixOf attemptId.toList) || 96 < attemptId.length then
    .error (.invalid "invalid execution attempt id")
  else .ok {
    schema := attemptSchema
    attemptId := attemptId
    operationId := operationId
    operationRevision := operationRevision
    stepId := stepId
    status := .pending
    target := target
    mode := mode
    sideEffectful := isSideEffectful mode
    leaseEpoch := lease.leaseEpoch
    processInstanceId := lease.processInstanceId
    createdAt := now
    startedAt := none
    finishedAt := none
    errorClass := "" }

def markAttemptStarted (record : Attempt) (now : Lease.Instant) : Attempt :=
  { record with status := .started, startedAt := some now }

def finishAttemptRecord (record : Attempt) (status : AttemptStatus) (errorClass : String)
    (now : Lease.Instant) : Except Fault Attempt :=
  if !status.isFinal then .error (.invalid "invalid attempt terminal status")
  else if record.status ≠ .started then .error (.invalid "execution attempt is not started")
  else .ok { record with status := status, finishedAt := some now, errorClass := errorClass }

def finishAttemptIndeterminateIfStarted (record : Attempt) (now : Lease.Instant) :
    Except Fault Attempt :=
  if record.status.isFinal then .ok record
  else if record.status ≠ .started then
    .error (.invalid "execution attempt is not started or terminal")
  else finishAttemptRecord record .indeterminate "outcome_indeterminate" now

end Attempts

end RExecOp
