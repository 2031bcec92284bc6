import RExecOp.Receipts

/-! Execution of one workflow step (`execution/executor.py`, `workflow/runner.py`). Error texts,
which pass through redaction, come with the shared state. -/

namespace RExecOp

open Attempts (Attempt)
open Lease (LeaseRecord)

def verifyCatalogBinding (op : Operation) (plan : OperationPlan) : Program Unit :=
  if !op.hasCatalogRuntime then pure ()
  else if !plan.hasCatalogBinding then raise (.invalid "catalog runtime binding is incomplete")
  else check

def requireRollbackCatalogBinding (op : Operation) (plan : OperationPlan) : Program Unit :=
  if op.isRollback && (op.hasCatalogRuntime || plan.hasCatalogBinding) then
    verifyCatalogBinding op plan
  else pure ()

def requireRollbackParentAuthority (op : Operation) : Program Unit :=
  match op.derived with
  | none => pure ()
  | some derived =>
    if derived.parentOperationId = "" ∨ derived.failureAuthorityDigest = "" then
      raise (.invalid "rollback parent failure authority is missing")
    else do
      let parent ← loadOperation derived.parentOperationId
      if parent.state ≠ .failed then raise (.invalid "rollback parent is no longer failed")
      else do
        let _ ← loadPlan derived.parentOperationId
        ask fun i => if i.agrees then .ok ()
          else .error (.invalid "rollback parent failure authority drift")

def preflightRollbackAuthority (op : Operation) : Program OperationPlan := do
  let plan ← loadPlan op.id
  requireRollbackCatalogBinding op plan
  requireRollbackParentAuthority op
  pure plan

structure StepContext where
  operationId : String
  target : String
  mode : String
  step : PlannedStep

structure StepResult where
  success : Bool
  errorClass : String
  deriving DecidableEq, Repr

def StepResult.failure (errorClass : String) : StepResult := ⟨false, errorClass⟩

def outcomeIndeterminate : StepResult := .failure "outcome_indeterminate"

def startAttempt (lease : LeaseRecord) (ctx : StepContext) : Program Attempt := do
  access .read fun i w => Lease.validate w.lease lease.credential i.now
  let op ← loadOperation ctx.operationId
  let _ ← preflightRollbackAuthority op
  let attemptId ← ask fun i => .ok ("attempt-" ++ i.fresh)
  check
  let pending ← access
    (.writePending op.id attemptId op.revision ctx.step.id ctx.target ctx.mode lease.credential)
    fun i w => w.startAttempt op.id attemptId op.revision ctx.step.id ctx.target ctx.mode
      lease.credential i
  access (.writeStarted pending) fun i _ => .ok (Attempts.markAttemptStarted pending i.now)

def requireAttemptFresh (attempt : Attempt) : Program Unit := do
  let op ← loadOperation attempt.operationId
  let _ ← preflightRollbackAuthority op
  check

def finishIndeterminateIfStarted (attempt : Attempt) : Program Attempt :=
  access (.finishIndeterminate attempt.operationId attempt.attemptId) fun i w =>
    (w.refinish attempt.operationId attempt.attemptId fun record =>
      Attempts.finishAttemptIndeterminateIfStarted record i.now).1

def finishExecutionAttempt (attempt : Attempt) (status : AttemptStatus) (errorClass : String) :
    Program Attempt :=
  access (.finishAttempt attempt.operationId attempt.attemptId status errorClass) fun i w =>
    (w.refinish attempt.operationId attempt.attemptId fun record =>
      Attempts.finishAttemptRecord record status errorClass i.now).1

def finalizationLost : Fault :=
  .outcomeIndeterminate "side-effectful attempt finalization requires reconciliation"

def finishAttempt (attempt : Attempt) (status : AttemptStatus) (errorClass : String) :
    Program Unit := do
  let finished ← attemptException
    (if status = .indeterminate then finishIndeterminateIfStarted attempt
      else finishExecutionAttempt attempt status errorClass)
  match finished with
  | .ok _ => pure ()
  | .error fault =>
    if !attempt.sideEffectful then raise fault
    else if status = .indeterminate then raise finalizationLost
    else do
      let _ ← attemptException (finishIndeterminateIfStarted attempt)
      raise finalizationLost

def finishSideEffectfulAttempt (attempt : Attempt) (result : StepResult) :
    Program StepResult := do
  let final := if result.success then result else outcomeIndeterminate
  let status := if final.success then AttemptStatus.completed else .indeterminate
  match ← attemptException (finishAttempt attempt status final.errorClass) with
  | .ok () => pure final
  | .error _ => pure outcomeIndeterminate

inductive Deferral where
  | failed
  | sideEffectfulSuccess
  deriving DecidableEq, Repr

structure Executed where
  result : StepResult
  attempt : Option Attempt
  deferred : Option Deferral

def dispatch (ctx : StepContext) (attempt : Attempt) : Program Response :=
  access (.dispatch ctx.operationId ctx.step.id attempt.sideEffectful) fun i _ => .ok i.response

/-- `_execute_connector` after the start of the attempt. -/
def invokeConnector (ctx : StepContext) (attempt : Attempt) : Program Executed := do
  match ← attemptException (requireAttemptFresh attempt) with
  | .error fault =>
    finishAttempt attempt .failed fault.reasonCode
    pure ⟨.failure fault.reasonCode, none, none⟩
  | .ok () => match ← (dispatch ctx attempt).attempt with
    | .error fault =>
      finishAttempt attempt .indeterminate "outcome_indeterminate"
      raise fault
    | .ok .overLimit => pure ⟨.failure "output_limit_exceeded", some attempt, some .failed⟩
    | .ok (.failed errorClass) =>
      finishAttempt attempt .failed errorClass
      pure ⟨.failure errorClass, some attempt, none⟩
    | .ok .succeeded =>
      if attempt.sideEffectful then
        pure ⟨⟨true, ""⟩, some attempt, some .sideEffectfulSuccess⟩
      else do
        finishAttempt attempt .completed ""
        pure ⟨⟨true, ""⟩, some attempt, none⟩

def executeConnector (lease : LeaseRecord) (ctx : StepContext) : Program Executed := do
  match ← (ask fun i => .ok i.agrees).attempt with
  | .error fault =>
    if fault.isValidation then pure ⟨.failure "validation_failed", none, none⟩ else raise fault
  | .ok hasSpec =>
    let admitted ← (if hasSpec then ask fun i => .ok i.agrees else pure true)
    if !admitted then pure ⟨.failure "policy_denied", none, none⟩
    else do
      requireMutationExecutionEnabled ctx.mode
      let attempt ← startAttempt lease ctx
      invokeConnector ctx attempt

def executeInternal : Program Executed := do
  let registered ← ask fun i => .ok i.agrees
  pure ⟨⟨registered, ""⟩, none, none⟩

def executeEvidence (ctx : StepContext) : Program Executed := do
  (if ctx.step.action = "produce_receipt" then exportReceipt ctx.operationId else pure ())
  pure ⟨⟨true, ""⟩, none, none⟩

def executeStep (lease : LeaseRecord) (ctx : StepContext) : Program Executed :=
  match ctx.step.type with
  | .connector => executeConnector lease ctx
  | .evidence => executeEvidence ctx
  | .internal => executeInternal

/-- `_apply_output_controls`, as far as it decides the result. -/
def applyOutputControls (result : StepResult) : Program StepResult :=
  ask fun i => .ok (if i.agrees then result else .failure "validation_failed")

def bindAttemptReceipt (result : StepResult) : Program StepResult :=
  ask fun i => .ok (if i.agrees then result else .failure "receipt_postcondition_failed")

def boundResult (executed : Executed) : Program StepResult := do
  let bounded ← applyOutputControls executed.result
  match executed.attempt with
  | none => pure bounded
  | some attempt => do
    (if executed.deferred = some .failed then finishAttempt attempt .failed bounded.errorClass
      else pure ())
    bindAttemptReceipt bounded

def finishDeferred (executed : Executed) (result : StepResult) : Program StepResult :=
  match executed.attempt, executed.deferred with
  | some attempt, some .sideEffectfulSuccess => finishSideEffectfulAttempt attempt result
  | _, _ => pure result

/-- `_store_bounded_result` of a successful step. -/
def storeBoundedResult (result : StepResult) : Program StepResult :=
  if result.success then do
    match ← attemptException check with
    | .ok () => pure result
    | .error fault => pure (.failure fault.reasonCode)
  else pure result

def execute (lease : LeaseRecord) (ctx : StepContext) : Program StepResult := do
  match ← attemptException (executeStep lease ctx) with
  | .error fault => pure (.failure fault.reasonCode)
  | .ok executed => match ← attemptException (boundResult executed) with
    | .error fault => finishDeferred executed (.failure fault.reasonCode)
    | .ok bounded => do
      let finished ← finishDeferred executed bounded
      storeBoundedResult finished

structure RunResult extends RunVerdict where
  lastStepId : String
  nextStepIndex : Nat
  currentStepId : String
  sharedState : Entries

def executedSteps (state : Entries) : List String :=
  match Value.get state "executed_steps" with
  | .list items => items.filterMap fun
    | .str id => some id
    | _ => none
  | _ => []

def withExecuted (state : Entries) (executed : List String) : Entries :=
  ("executed_steps", .list (executed.map .str)) :: state.filter fun entry =>
    entry.1 ≠ "executed_steps"

def appendExecuted (executed : List String) (id : String) : List String :=
  if executed.contains id then executed else executed ++ [id]

def sharedStateAfter (executed : List String) (operationId : String) (verdict : RunVerdict) :
    Program Entries :=
  access (.executionReceipt operationId verdict) fun i _ =>
    .ok (withExecuted i.sharedState executed)

def runStep (lease : LeaseRecord) (op : Operation) (plan : OperationPlan) (index : Nat) :
    Program RunResult := do
  let executed := executedSteps op.sharedState
  let maxSteps ← ask fun i => .ok i.maxSteps
  if maxSteps ≠ 0 ∧ maxSteps < plan.plannedSteps.length then do
    let state ← sharedStateAfter executed op.id ⟨false, "policy_denied", ""⟩
    pure ⟨⟨false, "policy_denied", ""⟩, executed.getLastD "", index, op.currentStepId, state⟩
  else match plan.plannedSteps[index]? with
    | none => do
      let state ← sharedStateAfter executed op.id ⟨true, "", ""⟩
      pure ⟨⟨true, "", ""⟩, executed.getLastD "", index, op.currentStepId, state⟩
    | some step => do
      emit .plain
      let result ← execute lease ⟨op.id, op.target, op.mode, step⟩
      emit .plain
      if result.success then do
        let executed := appendExecuted executed step.id
        let state ← sharedStateAfter executed op.id ⟨true, "", ""⟩
        pure ⟨⟨true, "", ""⟩, executed.getLastD "", index + 1, step.id, state⟩
      else if step.continueOnError && isReadOnlyMode op.mode then do
        let state ← sharedStateAfter executed op.id ⟨true, "", ""⟩
        pure ⟨⟨true, "", ""⟩, executed.getLastD "", index + 1, step.id, state⟩
      else do
        let state ← sharedStateAfter executed op.id ⟨false, result.errorClass, step.id⟩
        pure ⟨⟨false, result.errorClass, step.id⟩, executed.getLastD "", index, step.id, state⟩

end RExecOp
