import RExecOp.Controller
import RExecOp.Lib.Frame

/-! The run of an operation does not look at the queue: admission, claims and deferral aside,
every program behaves alike whatever the queue holds. -/

namespace RExecOp

open Attempts (Attempt)
open Lease (LeaseRecord)

def World.withQueue (q : RunNowQueue.Queue) (w : World) : World := { w with queue := q }

def Command.isQueue : Command → Bool
  | .queue _ => true
  | _ => false

def Accesses.isInert : Command → Bool
  | .saveOperation _ _ | .savePlan _ => false
  | .executionReceipt _ _ => false
  | .emit .progress => false
  | _ => true

def Command.isStill (command : Command) : Bool := Accesses.isInert command && !command.isQueue

abbrev QueueBlind {α : Type} (p : Program α) : Prop :=
  p.Blind World.withQueue (·.isQueue = false)

abbrev Quiet {α : Type} (p : Program α) : Prop := p.Blind World.withQueue (·.isStill = true)

theorem Quiet.queueBlind {α : Type} {p : Program α} (quiet : Quiet p) : QueueBlind p := by
  refine Prog.Blind.mono quiet fun {command} quiet => ?_
  rw [Command.isStill, Bool.and_eq_true, Bool.not_eq_true'] at quiet
  exact quiet.2

class Calm (outside : Command → Prop) : Prop where
  reads : outside .read
  asks : outside .ask

instance : Calm (·.isQueue = false) := ⟨rfl, rfl⟩

instance : Calm (·.isStill = true) := ⟨rfl, rfl⟩

namespace World

variable (q : RunNowQueue.Queue) (w : World)

@[simp] theorem withQueue_queue : (w.withQueue q).queue = q := rfl

@[simp] theorem withQueue_operations : (w.withQueue q).operations = w.operations := rfl

@[simp] theorem withQueue_self : w.withQueue w.queue = w := rfl

@[simp] theorem withQueue_withQueue (other : RunNowQueue.Queue) :
    (w.withQueue other).withQueue q = w.withQueue q := rfl

theorem saveOperation_withQueue (op : Operation) : (w.withQueue q).saveOperation op =
    ((w.saveOperation op).1, (w.saveOperation op).2.withQueue q) := by
  unfold saveOperation
  dsimp only [withQueue_operations]
  cases w.operations.get op.id with
  | none => dsimp only; split <;> rfl
  | some current => dsimp only; split <;> rfl

theorem refinish_withQueue (operationId attemptId : String)
    (finish : Attempt → Except Fault Attempt) :
    (w.withQueue q).refinish operationId attemptId finish =
      ((w.refinish operationId attemptId finish).1,
        (w.refinish operationId attemptId finish).2.withQueue q) := by
  unfold refinish
  have same : (w.withQueue q).attempt operationId attemptId = w.attempt operationId attemptId := rfl
  rw [same]
  cases w.attempt operationId attemptId with
  | none => rfl
  | some current =>
    dsimp only
    cases finish current <;> rfl

theorem acquireLock_withQueue (environment target operationId : String) :
    (w.withQueue q).acquireLock environment target operationId =
      ((w.acquireLock environment target operationId).1,
        (w.acquireLock environment target operationId).2.withQueue q) := by
  unfold acquireLock
  have same : (w.withQueue q).readLock environment target = w.readLock environment target := rfl
  have stale : ∀ record, (w.withQueue q).isLockStale record = w.isLockStale record := fun _ => rfl
  rw [same]
  cases w.readLock environment target with
  | none => rfl
  | some existing =>
    simp only [stale]
    split <;> rfl

theorem releaseLock_withQueue (environment target operationId : String) :
    (w.withQueue q).releaseLock environment target operationId =
      (w.releaseLock environment target operationId).withQueue q := by
  unfold releaseLock
  have same : (w.withQueue q).readLock environment target = w.readLock environment target := rfl
  rw [same]
  cases w.readLock environment target with
  | none => rfl
  | some existing => dsimp only; split <;> rfl

theorem markLost_withQueue (operationId attemptId : String) (i : Input) :
    (w.withQueue q).markLost operationId attemptId i =
      ((w.markLost operationId attemptId i).1,
        (w.markLost operationId attemptId i).2.withQueue q) := by
  unfold markLost
  have same : (w.withQueue q).attempt operationId attemptId = w.attempt operationId attemptId := rfl
  rw [same]
  cases w.attempt operationId attemptId with
  | none => rfl
  | some record => dsimp only; split <;> rfl

theorem perform_withQueue {command : Command} (outside : command.isQueue = false) (i : Input) :
    (w.withQueue q).perform i command = (w.perform i command).withQueue q := by
  cases command with
  | writeLeaseEpoch workerId =>
    have same : (w.withQueue q).acquireLease workerId i = w.acquireLease workerId i := rfl
    simp only [perform, same]
    split <;> rfl
  | releaseLease credential =>
    have same : (w.withQueue q).lease = w.lease := rfl
    simp only [perform, same]
    split <;> rfl
  | saveOperation site op => simp only [perform, saveOperation_withQueue]
  | queue call => cases outside
  | acquireLock environment target operationId => simp only [perform, acquireLock_withQueue]
  | releaseLock environment target operationId => simp only [perform, releaseLock_withQueue]
  | writePending operationId attemptId revision stepId target mode lease =>
    have same : (w.withQueue q).startAttempt operationId attemptId revision stepId target mode
        lease i = w.startAttempt operationId attemptId revision stepId target mode lease i := rfl
    simp only [perform, same]
    split <;> rfl
  | finishAttempt operationId attemptId status errorClass =>
    simp only [perform, refinish_withQueue]
  | finishIndeterminate operationId attemptId => simp only [perform, refinish_withQueue]
  | markIndeterminate operationId attemptId => simp only [perform, markLost_withQueue]
  | _ => rfl

end World

theorem effect_withQueue {command : Command} (outside : command.isQueue = false) (i : Input)
    (q : RunNowQueue.Queue) (w : World) :
    effect command i (w.withQueue q) = (effect command i w).withQueue q := by
  unfold effect
  split
  · exact World.perform_withQueue q w outside i
  · rfl
  · exact World.perform_withQueue q w outside i

theorem queue_effect {command : Command} (outside : command.isQueue = false) (i : Input)
    (w : World) : (effect command i w).queue = w.queue := by
  have same := effect_withQueue outside i w.queue w
  rw [World.withQueue_self] at same
  rw [same]
  rfl

theorem exec_access {α : Type} {command : Command} {reply : Input → World → Except Fault α}
    {inputs : Nat → Input} {w after : World} {value : α}
    (ran : (access command reply).exec effect inputs w = (.returned value, after)) :
    (inputs 0).fault = none ∧ reply (inputs 0) w = .ok value ∧
      after = effect command (inputs 0) w := by
  rw [access, Prog.exec_request] at ran
  obtain ⟨outcome, ended⟩ := Prod.mk.inj ran
  cases faulted : (inputs 0).fault with
  | some fault => simp [faulted] at outcome
  | none =>
    simp only [faulted] at outcome
    cases replied : reply (inputs 0) w with
    | error fault => simp [replied] at outcome
    | ok found =>
      simp only [replied, Prog.Outcome.returned.injEq] at outcome
      exact ⟨rfl, congrArg Except.ok outcome, ended.symm⟩

theorem exec_read {α : Type} {look : World → Except Fault α} {inputs : Nat → Input}
    {w after : World} {value : α}
    (ran : (read look).exec effect inputs w = (.returned value, after)) :
    look w = .ok value ∧ after = w := by
  obtain ⟨-, looked, ended⟩ := exec_access ran
  exact ⟨looked, ended.trans (effect_read _ _)⟩

namespace QueueBlind

variable {α β : Type} {outside : Command → Prop}
  {op : Operation}

theorem pure {a : α} : (pure a : Program α).Blind World.withQueue outside := trivial

theorem raise {fault : Fault} : (raise fault : Program α).Blind World.withQueue outside := trivial

theorem access {command : Command} {reply : Input → World → Except Fault α} (fits : outside command)
    (same : ∀ i w q, reply i (w.withQueue q) = reply i w) :
    (access command reply).Blind World.withQueue outside := by
  refine Prog.Blind.request fits fun i w q => ?_
  rw [same i w q]

theorem read [Calm outside] {look : World → Except Fault α}
    (same : ∀ w q, look (w.withQueue q) = look w) : (read look).Blind World.withQueue outside :=
  access Calm.reads fun _ w q => same w q

theorem ask [Calm outside] {answer : Input → Except Fault α} :
    (ask answer).Blind World.withQueue outside := access Calm.asks fun _ _ _ => rfl

theorem check [Calm outside] : check.Blind World.withQueue outside := ask

theorem emit {site : Site} : QueueBlind (emit site) := access rfl fun _ _ _ => rfl

theorem saveAt {site : Site} : QueueBlind (saveAt site op) := by
  refine access rfl fun _ w q => ?_
  rw [World.saveOperation_withQueue]

theorem saveOperation : QueueBlind (saveOperation op) := saveAt

theorem ofExcept {result : Except Fault α} : (ofExcept result).Blind World.withQueue outside :=
  Prog.Blind.ofExcept

theorem require {holds : Bool} {fault : Fault} :
    (require holds fault).Blind World.withQueue outside := by
  unfold RExecOp.require
  split
  · exact pure
  · exact raise

theorem transition {target : OperationState} {reason : String} :
    QueueBlind (transition op target reason) :=
  ofExcept.bind fun _ => emit.bind fun _ => pure

theorem attemptException {p : Program α} (blind : p.Blind World.withQueue outside) :
    (attemptException p).Blind World.withQueue outside := by
  refine blind.attempt.bind fun outcome => ?_
  cases outcome with
  | ok value => exact pure
  | error fault =>
    dsimp only
    split
    · exact pure
    · exact raise

theorem ite {choice : Prop} [Decidable choice] {p p' : Program α}
    (first : p.Blind World.withQueue outside) (second : p'.Blind World.withQueue outside) :
    (if choice then p else p').Blind World.withQueue outside := by
  split
  · exact first
  · exact second

theorem verifyCatalogBinding (op : Operation) (plan : OperationPlan) :
    Quiet (verifyCatalogBinding op plan) :=
  ite pure (ite raise check)

theorem requireRollbackCatalogBinding (op : Operation) (plan : OperationPlan) :
    Quiet (requireRollbackCatalogBinding op plan) :=
  ite (verifyCatalogBinding op plan) pure

theorem requireRollbackParentAuthority (op : Operation) :
    Quiet (requireRollbackParentAuthority op) := by
  unfold RExecOp.requireRollbackParentAuthority
  cases op.derived with
  | none => exact pure
  | some derived =>
    refine ite raise ?_
    refine (read fun _ _ => rfl).bind fun parent => ?_
    refine ite raise ?_
    exact (read fun _ _ => rfl).bind fun _ => ask

theorem preflightRollbackAuthority (op : Operation) :
    Quiet (preflightRollbackAuthority op) := by
  refine (read fun _ _ => rfl).bind fun plan => ?_
  refine (requireRollbackCatalogBinding op plan).bind fun _ => ?_
  exact (requireRollbackParentAuthority op).bind fun _ => pure

theorem startAttempt (lease : LeaseRecord) (ctx : StepContext) :
    Quiet (startAttempt lease ctx) := by
  refine Prog.Blind.bind (access rfl fun _ _ _ => rfl) fun _ => ?_
  refine (read fun _ _ => rfl).bind fun op => ?_
  refine (preflightRollbackAuthority op).bind fun _ => ?_
  refine ask.bind fun attemptId => ?_
  refine check.bind fun _ => ?_
  refine Prog.Blind.bind (access rfl fun _ _ _ => rfl) fun pending => ?_
  exact access rfl fun _ _ _ => rfl

theorem requireAttemptFresh (attempt : Attempt) : Quiet (requireAttemptFresh attempt) := by
  refine (read fun _ _ => rfl).bind fun op => ?_
  exact (preflightRollbackAuthority op).bind fun _ => check

theorem finishIndeterminateIfStarted (attempt : Attempt) :
    Quiet (finishIndeterminateIfStarted attempt) := by
  refine access rfl fun _ w q => ?_
  rw [World.refinish_withQueue]

theorem finishExecutionAttempt (attempt : Attempt) (status : AttemptStatus)
    (errorClass : String) : Quiet (finishExecutionAttempt attempt status errorClass) := by
  refine access rfl fun _ w q => ?_
  rw [World.refinish_withQueue]

theorem finishAttempt (attempt : Attempt) (status : AttemptStatus) (errorClass : String) :
    Quiet (finishAttempt attempt status errorClass) := by
  have finishes : Quiet (if status = .indeterminate then
      RExecOp.finishIndeterminateIfStarted attempt
      else RExecOp.finishExecutionAttempt attempt status errorClass) :=
    ite (finishIndeterminateIfStarted attempt) (finishExecutionAttempt attempt status errorClass)
  refine (attemptException finishes).bind fun finished => ?_
  cases finished with
  | ok _ => exact pure
  | error fault =>
    refine ite raise (ite raise ?_)
    exact (attemptException (finishIndeterminateIfStarted attempt)).bind fun _ => raise

theorem invokeConnector (ctx : StepContext) (attempt : Attempt) :
    Quiet (invokeConnector ctx attempt) := by
  refine (attemptException (requireAttemptFresh attempt)).bind fun fresh => ?_
  cases fresh with
  | error fault => exact (finishAttempt attempt _ _).bind fun _ => pure
  | ok _ =>
    have dispatches : Quiet (dispatch ctx attempt) := access rfl fun _ _ _ => rfl
    refine dispatches.attempt.bind fun response => ?_
    cases response with
    | error fault => exact (finishAttempt attempt _ _).bind fun _ => raise
    | ok response =>
      cases response with
      | overLimit => exact pure
      | failed errorClass => exact (finishAttempt attempt _ _).bind fun _ => pure
      | succeeded => exact ite pure ((finishAttempt attempt _ _).bind fun _ => pure)

theorem executeConnector (lease : LeaseRecord) (ctx : StepContext) :
    Quiet (executeConnector lease ctx) := by
  refine ask.attempt.bind fun spec => ?_
  cases spec with
  | error fault => exact ite pure raise
  | ok hasSpec =>
    refine (ite ask pure).bind fun admitted => ?_
    refine ite pure ?_
    refine ask.bind fun _ => ?_
    exact (startAttempt lease ctx).bind fun attempt => invokeConnector ctx attempt

theorem exportReceipt (id : String) : QueueBlind (exportReceipt id) := by
  refine (read fun _ _ => rfl).bind fun op => ?_
  refine (read fun _ _ => rfl).bind fun _ => ?_
  refine check.bind fun _ => ?_
  refine Prog.Blind.bind (access rfl fun _ _ _ => rfl) fun _ => ?_
  refine emit.bind fun _ => ?_
  refine emit.bind fun _ => ?_
  exact saveOperation.bind fun _ => pure

theorem executeStep (lease : LeaseRecord) (ctx : StepContext) :
    QueueBlind (executeStep lease ctx) := by
  unfold RExecOp.executeStep
  cases ctx.step.type with
  | connector => exact (executeConnector lease ctx).queueBlind
  | evidence => exact (ite (exportReceipt ctx.operationId) pure).bind fun _ => pure
  | internal => exact ask.bind fun _ => pure

theorem boundResult (executed : Executed) : Quiet (boundResult executed) := by
  refine ask.bind fun bounded => ?_
  cases executed.attempt with
  | none => exact pure
  | some attempt => exact (ite (finishAttempt attempt _ _) pure).bind fun _ => ask

theorem finishDeferred (executed : Executed) (result : StepResult) :
    Quiet (finishDeferred executed result) := by
  unfold RExecOp.finishDeferred
  split
  · refine (attemptException (finishAttempt _ _ _)).bind fun finished => ?_
    cases finished <;> exact pure
  · exact pure

theorem storeBoundedResult (result : StepResult) : Quiet (storeBoundedResult result) := by
  refine ite ?_ pure
  refine (attemptException check).bind fun stored => ?_
  cases stored <;> exact pure

theorem execute (lease : LeaseRecord) (ctx : StepContext) : QueueBlind (execute lease ctx) := by
  refine (attemptException (executeStep lease ctx)).bind fun outcome => ?_
  cases outcome with
  | error fault => exact pure
  | ok executed =>
    refine Quiet.queueBlind ((attemptException (boundResult executed)).bind fun bounded => ?_)
    cases bounded with
    | error fault => exact finishDeferred executed _
    | ok bounded =>
      exact (finishDeferred executed bounded).bind fun finished => storeBoundedResult finished

theorem runStep (lease : LeaseRecord) (op : Operation) (plan : OperationPlan) (index : Nat) :
    QueueBlind (runStep lease op plan index) := by
  have state : ∀ executed verdict, QueueBlind (sharedStateAfter executed op.id verdict) :=
    fun _ _ => access rfl fun _ _ _ => rfl
  refine ask.bind fun maxSteps => ?_
  refine ite ((state _ _).bind fun _ => pure) ?_
  cases plan.plannedSteps[index]? with
  | none => exact (state _ _).bind fun _ => pure
  | some step =>
    refine emit.bind fun _ => ?_
    refine (execute lease _).bind fun result => ?_
    refine emit.bind fun _ => ?_
    exact ite ((state _ _).bind fun _ => pure)
      (ite ((state _ _).bind fun _ => pure) ((state _ _).bind fun _ => pure))

theorem govern (op : Operation) : QueueBlind (govern op) := by
  refine emit.bind fun _ => ?_
  refine ask.bind fun decision => ?_
  refine emit.bind fun _ => ?_
  refine emit.bind fun _ => ?_
  exact ite transition (ite transition (ite transition transition))

theorem planOperation (request : PlanRequest) : QueueBlind (planOperation request) := by
  refine require.bind fun _ => ?_
  refine check.bind fun _ => ?_
  refine emit.bind fun _ => ?_
  refine transition.bind fun op => ?_
  refine emit.bind fun _ => ?_
  refine Prog.Blind.bind (access rfl fun _ _ _ => rfl) fun _ => ?_
  refine emit.bind fun _ => ?_
  refine (ite (govern op) pure).bind fun op => ?_
  exact check.bind fun _ => saveOperation

theorem maybePlanAutoReaction (op : Operation) : QueueBlind (maybePlanAutoReaction op) := by
  have plans : QueueBlind planReaction := by
    refine ask.bind fun reaction => ?_
    cases reaction with
    | none => exact pure
    | some child => exact (planOperation child).bind fun _ => pure
  exact ite pure (ite raise ((ite plans pure).bind fun _ => emit))

theorem validationPassed (op : Operation) : Quiet (validationPassed op) :=
  ite ((read fun _ _ => rfl).bind fun _ => pure)
    (ask.bind fun _ => ofExcept.bind fun _ => pure)

theorem finalizeValidation (op : Operation) : QueueBlind (finalizeValidation op) := by
  refine (validationPassed op).queueBlind.bind fun passed => ?_
  refine emit.bind fun _ => ?_
  refine ite ?_ ?_
  · refine transition.bind fun op => ?_
    refine emit.bind fun _ => ?_
    refine saveOperation.bind fun op => ?_
    exact (maybePlanAutoReaction op).bind fun _ => saveOperation
  · refine transition.bind fun op => ?_
    exact emit.bind fun _ => saveOperation

theorem beginValidation (op : Operation) : QueueBlind (beginValidation op) := by
  refine transition.bind fun op => ?_
  refine emit.bind fun _ => ?_
  exact saveOperation.bind fun op => finalizeValidation op

theorem handleStepFailure (op : Operation) (plan : OperationPlan) (run : RunResult) :
    QueueBlind (handleStepFailure op plan run) := by
  refine ite ?_ ?_
  · refine transition.bind fun op => ?_
    refine saveOperation.bind fun op => ?_
    refine transition.bind fun op => ?_
    exact saveOperation.bind fun _ => pure
  · refine transition.bind fun op => ?_
    exact saveOperation.bind fun _ => pure

theorem stepOnce (lease : LeaseRecord) (op : Operation) (plan : OperationPlan) :
    QueueBlind (stepOnce lease op plan) := by
  refine (runStep lease op plan _).bind fun run => ?_
  have stores : QueueBlind (storeProgress op.id op.executionCursor run) := by
    refine (read fun _ _ => rfl).bind fun latest => ?_
    exact emit.bind fun _ => saveAt
  exact stores.bind fun op => ite pure (handleStepFailure op plan run)

theorem continueExecution (lease : LeaseRecord) (id : String) (fuel : Nat)
    (maxSteps : Option Int) (stepsExecuted : Nat) :
    QueueBlind (continueExecution lease id fuel maxSteps stepsExecuted) := by
  induction fuel generalizing maxSteps stepsExecuted with
  | zero => exact trivial
  | succ fuel ih =>
    have loads : QueueBlind (loadOperation id) := read fun _ _ => rfl
    refine loads.bind fun op => ?_
    refine ite pure (ite (finalizeValidation op) (ite pure ?_))
    refine (read fun _ _ => rfl).bind fun plan => ?_
    refine ite (beginValidation op) (ite (transition.bind fun op => saveOperation) ?_)
    refine (stepOnce lease op plan).bind fun outcome => ?_
    cases outcome with
    | failed op => exact pure
    | retrying => exact ih none 0
    | advanced op run =>
      refine ite (transition.bind fun op => saveOperation) ?_
      refine ite (loads.bind fun op => beginValidation op) ?_
      exact ite loads (ih maxSteps (stepsExecuted + 1))

theorem allowsMutating (op : Operation) : Quiet (allowsMutating op) := by
  unfold RExecOp.allowsMutating
  cases op.govengineDecisionType with
  | none => exact pure
  | some decision => exact ite pure (ite pure (ite (read fun _ _ => rfl) pure))

theorem prepareStart (op : Operation) : QueueBlind (prepareStart op) := by
  have approves : QueueBlind (approveReadOnly op) := ite transition (ite raise pure)
  have enters : ∀ op, QueueBlind (enterRunning op) := by
    intro op
    unfold enterRunning
    split
    · exact transition
    · exact transition
    · exact transition.bind fun _ => pure
    · exact pure
  refine (preflightRollbackAuthority op).queueBlind.bind fun _ => ?_
  refine check.bind fun _ => ?_
  refine approves.bind fun op => ?_
  refine (enters op).bind fun op => ?_
  refine ite raise (ite raise ?_)
  refine (ite (allowsMutating op).queueBlind pure).bind fun allowed => ?_
  exact ite raise saveOperation

theorem start (fuel : Nat) (lease : LeaseRecord) (id : String) :
    QueueBlind (Orchestrator.start fuel lease id) := by
  refine (read fun _ _ => rfl).bind fun op => ?_
  exact (prepareStart op).bind fun _ => continueExecution lease id fuel none 0

theorem resume (fuel : Nat) (lease : LeaseRecord) (id : String) :
    QueueBlind (Orchestrator.resume fuel lease id) := by
  refine (read fun _ _ => rfl).bind fun op => ?_
  refine require.bind fun _ => ?_
  refine (preflightRollbackAuthority op).queueBlind.bind fun _ => ?_
  refine transition.bind fun op => ?_
  refine saveOperation.bind fun op => ?_
  exact (prepareStart op).bind fun _ => continueExecution lease id fuel none 0

theorem retry (fuel : Nat) (lease : LeaseRecord) (id : String) :
    QueueBlind (Orchestrator.retry fuel lease id) := by
  refine (read fun _ _ => rfl).bind fun op => ?_
  refine require.bind fun _ => ?_
  refine (preflightRollbackAuthority op).queueBlind.bind fun plan => ?_
  refine require.bind fun _ => ?_
  refine transition.bind fun op => ?_
  refine saveOperation.bind fun op => ?_
  exact (prepareStart op).bind fun _ => continueExecution lease id fuel none 0

theorem releaseTargetOnly (op : Operation) : Quiet (Coordinator.releaseTargetOnly op) :=
  ite (access rfl fun _ _ _ => rfl) pure

theorem orBlocker {reason : String} {body : Program ReceiptStatus}
    (blind : QueueBlind body) : QueueBlind (orBlocker op reason body) := by
  refine blind.attempt.bind fun outcome => ?_
  cases outcome with
  | ok status => exact pure
  | error fault => exact ite (saveOperation.bind fun _ => pure) raise

theorem ensureReceipt (id : String) : QueueBlind (Controller.ensureReceipt id) := by
  have ensures : QueueBlind (ensureTerminalReceipt id) := by
    refine (read fun _ _ => rfl).bind fun op => ?_
    refine (read fun _ _ => rfl).bind fun needed => ?_
    refine ite pure ?_
    refine (orBlocker ((read fun _ _ => rfl).bind fun _ => pure)).bind fun planned => ?_
    exact ite pure (orBlocker ((exportReceipt id).bind fun _ => pure))
  exact ensures.bind fun _ => pure

end QueueBlind

end RExecOp
