import RExecOp.Executor
import RExecOp.Planning

/-! The execution loop (`orchestration/orchestrator.py`). Loops and the recursion of automatic
retry carry a bound; `halt` is the bound reached. -/

namespace RExecOp

open Lease (LeaseRecord)

def errorRetryable (plan : OperationPlan) (errorClass : String) : Bool :=
  errorClass != "outcome_indeterminate" && !plan.retryPolicy.blockedOn.contains errorClass &&
    (plan.retryPolicy.allowedOn.isEmpty || plan.retryPolicy.allowedOn.contains errorClass) &&
    errorClass != ""

def canRetry (plan : OperationPlan) (errorClass : String) (attempts : Nat) : Bool :=
  errorRetryable plan errorClass && decide ((attempts : Int) ≤ plan.retryPolicy.maxAttempts)

def allowsMutating (op : Operation) : Program Bool :=
  match op.govengineDecisionType with
  | none => pure false
  | some decision =>
    if decision.isBlocking then pure false
    else if decision = .allowed then pure true
    else if decision.isWaiting then read fun w => .ok (w.approvals.contains op.id)
    else pure false

def approveReadOnly (op : Operation) : Program Operation :=
  if op.state = .planned ∧ isReadOnlyMode op.mode then
    transition op .approved "read_only_auto_approved"
  else if op.state = .planned ∧ isMutatingMode op.mode then
    raise (.invalid "mutating operation must be approved before start")
  else pure op

def enterRunning (op : Operation) : Program Operation :=
  match op.state with
  | .resuming => transition op .running "resume_execution"
  | .retrying => transition op .running "retry_execution"
  | .approved => do
    let op ← transition op .running "execution_started"
    pure { op with cursor := some .initial }
  | _ => pure op

def prepareStart (op : Operation) : Program Operation := do
  let _ ← preflightRollbackAuthority op
  check
  let op ← approveReadOnly op
  let op ← enterRunning op
  if op.state = .blocked ∨ op.state = .waitingForApproval ∨ op.state = .cancelled then
    raise (.invalid ("operation cannot be started from state: " ++ op.state.value))
  else if op.state ≠ .running then
    raise (.state ("operation must be running to execute, got " ++ op.state.value))
  else do
    let allowed ← (if isMutatingMode op.mode then allowsMutating op else pure true)
    if !allowed then
      raise (.invalid
        "mutating execution blocked until GovEngine allows and operation is approved")
    else saveOperation op

def isTrue : Value → Bool
  | .bool b => b
  | _ => false

def entriesOf : Value → Entries
  | .dict entries => entries
  | _ => []

def rollbackStepPassed (results : Entries) (step : PlannedStep) : Bool :=
  let result := entriesOf (Value.get results step.id)
  isTrue (Value.get result "success") &&
    (step.type != .connector ||
      isTrue (Value.get (entriesOf (Value.get result "receipt_conformance")) "conformant"))

def rollbackPassed (plan : OperationPlan) (state : Entries) : Bool :=
  plan.plannedSteps.all (rollbackStepPassed (entriesOf (Value.get state "step_results")))

def validationPassed (op : Operation) : Program Bool :=
  if op.isRollback then do
    let plan ← loadPlan op.id
    pure (rollbackPassed plan op.sharedState)
  else do
    let profile ← ask fun i => .ok i.profile
    let result ← ofExcept (Validation.validateOperationResult op.intent op.sharedState profile)
    pure result.passed

/-- `ReactionService.plan`, as far as it plans a child. -/
def planReaction : Program Unit := do
  match ← ask fun i => .ok i.reaction with
  | none => pure ()
  | some child =>
    let _ ← planOperation child
    pure ()

def maybePlanAutoReaction (op : Operation) : Program Unit :=
  if !op.autoReact then pure ()
  else if !isReadOnlyMode op.mode then
    raise (.invalid "auto_react supports read-only modes only")
  else do
    (if (Value.get op.sharedState "reaction_observation").isDict then planReaction else pure ())
    emit .plain

def finalizeValidation (op : Operation) : Program Operation := do
  let passed ← validationPassed op
  emit .plain
  if passed then do
    let op ← transition op .completed "validation_passed"
    emit .plain
    let op ← saveOperation op
    maybePlanAutoReaction op
    saveOperation op
  else do
    let op ← transition op .failed "validation_failed"
    emit .plain
    saveOperation op

def beginValidation (op : Operation) : Program Operation := do
  let op ← transition op .validating "validation_started"
  emit .plain
  let op ← saveOperation op
  finalizeValidation op

inductive StepOutcome where
  | advanced (op : Operation) (run : RunResult)
  | failed (op : Operation)
  | retrying

def RunResult.error (run : RunResult) : String :=
  match Value.get (entriesOf (Value.get run.sharedState "execution_receipt")) "error" with
  | .str text => text
  | _ => ""

def recordFailure (op : Operation) (stepId error errorClass : String) (attempts : Nat) :
    Operation :=
  { op with
    cursor := some { op.executionCursor with
      attemptsByStep := op.executionCursor.attemptsByStep.set stepId attempts }
    lastFailure := some ⟨stepId, error, errorClass, attempts⟩ }

def failureCount (op : Operation) (stepId : String) : Nat :=
  (op.executionCursor.attemptsByStep.get stepId).getD 0 + 1

def handleStepFailure (op : Operation) (plan : OperationPlan) (run : RunResult) :
    Program StepOutcome := do
  let errorClass := orElse run.errorClass "unknown"
  let attempts := failureCount op run.stoppedStepId
  let op := recordFailure op run.stoppedStepId run.error errorClass attempts
  if canRetry plan errorClass attempts then do
    let op ← transition op .retrying ("retry_" ++ errorClass)
    let op ← saveOperation op
    let op ← transition op .running "retry_execution"
    let _ ← saveOperation op
    pure .retrying
  else do
    let op ← transition op .failed "step_execution_failed"
    let op ← saveOperation op
    pure (.failed op)

def recordProgress (latest : Operation) (cursor : Cursor) (run : RunResult) : Operation :=
  { latest with
    currentStepId := run.currentStepId
    sharedState := run.sharedState
    cursor := some { cursor with nextStepIndex := run.nextStepIndex } }

def storeProgress (id : String) (cursor : Cursor) (run : RunResult) : Program Operation := do
  let latest ← loadOperation id
  emit .progress
  saveAt .progress (recordProgress latest cursor run)

/-- The body of the loop from the runner to the recorded outcome. -/
def stepOnce (lease : LeaseRecord) (op : Operation) (plan : OperationPlan) :
    Program StepOutcome := do
  let run ← runStep lease op plan op.executionCursor.nextStepIndex
  let op ← storeProgress op.id op.executionCursor run
  if run.success then pure (.advanced op run) else handleStepFailure op plan run

def continueExecution (lease : LeaseRecord) (id : String) :
    Nat → Option Int → Nat → Program Operation
  | 0, _, _ => .halt
  | fuel + 1, maxSteps, stepsExecuted => do
    let op ← loadOperation id
    if op.state.isTerminal ∨ op.state = .paused then pure op
    else if op.state = .validating then finalizeValidation op
    else if op.state ≠ .running then pure op
    else do
      let plan ← loadPlan id
      if plan.plannedSteps.length ≤ op.executionCursor.nextStepIndex then beginValidation op
      else if op.cancelRequested then do
        let op ← transition op .cancelled "operator_cancel"
        saveOperation op
      else match ← stepOnce lease op plan with
        | .failed op => pure op
        | .retrying => continueExecution lease id fuel none 0
        | .advanced op run =>
          if op.pauseRequested && plan.pauseSafePoints.contains run.lastStepId then do
            let op ← transition { op with currentStepId := run.lastStepId } .paused
              "operator_pause"
            saveOperation { op with
              cursor := some { op.executionCursor with pausedAtStepId := some run.lastStepId } }
          else if plan.plannedSteps.length ≤ run.nextStepIndex then do
            let op ← loadOperation id
            beginValidation op
          else if maxSteps.any (fun bound => decide (bound ≤ (stepsExecuted : Int) + 1)) then
            loadOperation id
          else continueExecution lease id fuel maxSteps (stepsExecuted + 1)

namespace Orchestrator

def start (fuel : Nat) (lease : LeaseRecord) (id : String) : Program Operation := do
  let op ← loadOperation id
  let _ ← prepareStart op
  continueExecution lease id fuel none 0

def advance (fuel : Nat) (lease : LeaseRecord) (id : String) (maxSteps : Int) :
    Program Operation := do
  let op ← loadOperation id
  let _ ← (if op.state = .approved ∨ op.state = .resuming ∨ op.state = .retrying then
      prepareStart op
    else pure op)
  continueExecution lease id fuel (some maxSteps) 0

def pausedRecord (op : Operation) : Operation :=
  { op with
    pauseRequested := true
    cursor := some { op.executionCursor with pausedAtStepId := some op.currentStepId } }

def pause (id : String) : Program Operation := do
  let op ← loadOperation id
  require (op.state = .running)
    (.invalid ("pause requires running operation, got " ++ op.state.value))
  let plan ← loadPlan id
  require (plan.pauseSafePoints.contains op.currentStepId)
    (.invalid ("pause only allowed at pause_safe steps, current='" ++ op.currentStepId ++ "'"))
  let op ← transition op .paused "operator_pause"
  saveOperation (pausedRecord op)

def resume (fuel : Nat) (lease : LeaseRecord) (id : String) : Program Operation := do
  let op ← loadOperation id
  require (op.state = .paused)
    (.invalid ("resume requires paused operation, got " ++ op.state.value))
  let _ ← preflightRollbackAuthority op
  let op ← transition op .resuming "operator_resume"
  let op ← saveOperation { op with pauseRequested := false }
  let _ ← prepareStart op
  continueExecution lease id fuel none 0

def cancel (id : String) : Program Operation := do
  let op ← loadOperation id
  require (op.state = .waitingForApproval ∨ op.state = .approved ∨ op.state = .running ∨
      op.state = .paused)
    (.invalid ("operation cannot be cancelled from state: " ++ op.state.value))
  let op ← transition op .cancelled "operator_cancel"
  saveOperation op

def resetAttempts (op : Operation) (stepId : String) : Operation :=
  { op with
    cursor := some { op.executionCursor with
      attemptsByStep := if stepId = "" then op.executionCursor.attemptsByStep
        else op.executionCursor.attemptsByStep.set stepId 0 } }

def retry (fuel : Nat) (lease : LeaseRecord) (id : String) : Program Operation := do
  let op ← loadOperation id
  require (op.state = .failed)
    (.invalid ("retry requires failed operation, got " ++ op.state.value))
  let plan ← preflightRollbackAuthority op
  let errorClass := (op.lastFailure.map (·.errorClass)).getD ""
  require (errorRetryable plan errorClass)
    (.invalid ("retry not allowed for error_class='" ++ errorClass ++ "'"))
  let op := resetAttempts op ((op.lastFailure.map (·.stepId)).getD "")
  let op ← transition op .retrying "operator_retry"
  let op ← saveOperation op
  let _ ← prepareStart op
  continueExecution lease id fuel none 0

def escalate (id : String) : Program Operation := do
  let op ← loadOperation id
  require (op.state = .failed ∨ op.state = .blocked)
    (.invalid ("operation not escalatable from state: " ++ op.state.value))
  check
  let op ← transition op .escalated "operator_escalation"
  emit .plain
  saveOperation op

end Orchestrator

def Operation.pausing (op : Operation) : Operation :=
  Orchestrator.pausedRecord
    ((op.moved .paused "operator_pause").markProjectionPending (op.revision + 1) .paused)

/-- A pause by another process: its save succeeds only if nothing was stored since its load. -/
def World.pause (w : World) (id : String) : World :=
  match w.operations.get id, w.plans.get id with
  | some op, some plan =>
    if op.state = .running ∧ plan.pauseSafePoints.contains op.currentStepId then
      (w.saveOperation op.pausing).2
    else w
  | _, _ => w

end RExecOp
