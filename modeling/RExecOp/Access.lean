import RExecOp.Lib.Prog
import RExecOp.Store

/-! Store accesses: each is one atomic read or write, or one question to the environment, whose
answer is its input. A fault in the input is raised by the access. -/

namespace RExecOp

open Attempts (Attempt)
open Lease (Instant LeaseRecord Credential)
open RunNowQueue (Claim Purpose)
open Validation (LoadedProfile)

/-- What `resolve_mutation_posture` makes of the variable. -/
inductive Posture where
  | stableReadOnly
  | labOnly
  | unsupported (value : String)
  deriving DecidableEq, Repr

def Posture.requireMutationExecutionEnabled (posture : Posture) (mode : String) :
    Except Fault Unit :=
  if !isMutatingMode mode then .ok ()
  else match posture with
    | .labOnly => .ok ()
    | .stableReadOnly => .error
      (.mutationNotCertified "mutation_not_certified: stable runtime posture is read-only")
    | .unsupported value => .error
      (.mutationNotCertified ("unsupported REXECOP_MUTATION_POSTURE value: " ++ value))

inductive Response where
  | succeeded
  | failed (errorClass : String)
  | overLimit
  deriving DecidableEq, Repr

/-- What `plan` has resolved of an accepted request. -/
structure PlanRequest where
  suffix : String
  environment : String
  intent : String
  target : String
  mode : String
  autoReact : Bool
  runtimePolicy : RuntimePolicy
  hasCatalogRuntime : Bool
  plannedSteps : List PlannedStep
  retryPolicy : RetryPolicy
  rollback : Option Rollback

def PlanRequest.id (r : PlanRequest) : String := "op-" ++ r.suffix

/-- The environment's answer to one access, which reads the fields it asks for. -/
structure Input where
  now : Instant
  guardNow : Instant
  monotonic : Int
  fresh : String
  freshProcess : String
  fault : Option Fault
  agrees : Bool
  posture : Posture
  decision : DecisionType
  response : Response
  maxSteps : Nat
  sharedState : Entries
  profile : Option LoadedProfile
  reaction : Option PlanRequest

inductive QueueCall where
  | enqueue (id : String)
  | discardPending (id : String)
  | claimFromLease (lease : Credential)
  | claimSpecificFromLease (id : String) (lease : Credential)
  | completeClaimFromLease (id : String) (lease : Credential) (snapshot : Claim)
  | completeAndRemoveClaimFromLease (id : String) (lease : Credential) (snapshot : Claim)
  | deferClaimFromLease (id : String) (snapshot : Claim) (lease : Credential)
      (reason : RunNowQueue.Reason)
  | removeCancelledFromLease (id : String) (lease : Credential)
  | recoverExpiredClaimsFromLease (lease : Credential) (observedAt : Instant)

/-- Accesses from the load to the save of a step's progress are set apart. -/
inductive Site where
  | plain
  | progress
  deriving DecidableEq, Repr

structure RunVerdict where
  success : Bool
  errorClass : String
  stoppedStepId : String

inductive Command where
  | read
  | ask
  | emit (site : Site)
  /-- The runner builds its result, with the execution receipt in it. -/
  | executionReceipt (operationId : String) (verdict : RunVerdict)
  | writeLeaseEpoch (workerId : String)
  | writeLease (record : LeaseRecord)
  | releaseLease (credential : Credential)
  | savePlan (plan : OperationPlan)
  | saveOperation (site : Site) (op : Operation)
  | saveApproval (id : String)
  | saveReceipt (op : Operation)
  | queue (call : QueueCall)
  | acquireLock (environment target operationId : String)
  | releaseLock (environment target operationId : String)
  | writePending (operationId attemptId : String) (revision : Nat) (stepId target mode : String)
      (lease : Credential)
  | writeStarted (record : Attempt)
  | finishAttempt (operationId attemptId : String) (status : AttemptStatus) (errorClass : String)
  | finishIndeterminate (operationId attemptId : String)
  | markIndeterminate (operationId attemptId : String)
  | dispatch (operationId stepId : String) (sideEffectful : Bool)

namespace World

variable (w : World)

def queueContext (i : Input) : RunNowQueue.Context :=
  ⟨w.lease, i.guardNow, i.now, w.queueClaimFacts⟩

/-- `DEFAULT_LEASE_TTL_SECONDS`, in microseconds. -/
def leaseTtl : Int := 120000000

def acquireLease (workerId : String) (i : Input) : Except Fault LeaseRecord :=
  Lease.acquire w.lease ⟨workerId, none, i.now, leaseTtl, i.freshProcess, i.fresh, i.monotonic⟩

def startAttempt (operationId attemptId : String) (revision : Nat) (stepId target mode : String)
    (lease : Credential) (i : Input) : Except Fault Attempt :=
  if (w.attempt operationId attemptId).isSome then
    .error (.invalid "execution attempt already exists")
  else Attempts.buildPendingAttempt operationId attemptId revision stepId target mode lease i.now

def markLost (operationId attemptId : String) (i : Input) : Option String × World :=
  match w.attempt operationId attemptId with
  | some record =>
    if record.status = .started then (some record.attemptId, w.putAttempt (lost record i.now))
    else (none, w)
  | none => (none, w)

def queueAfter (i : Input) : QueueCall → RunNowQueue.Queue
  | .enqueue id => (RunNowQueue.enqueue id w.queue).2
  | .discardPending id => (RunNowQueue.discardPending id w.queue).2
  | .claimFromLease lease =>
    (RunNowQueue.claimFromLease (w.queueContext i) lease RunNowQueue.defaultTtl w.queue).2
  | .claimSpecificFromLease id lease =>
    (RunNowQueue.claimSpecificFromLease (w.queueContext i) id lease w.queue).2
  | .completeClaimFromLease id lease snapshot =>
    (RunNowQueue.completeClaimFromLease (w.queueContext i) id lease (some snapshot) w.queue).2
  | .completeAndRemoveClaimFromLease id lease snapshot =>
    (RunNowQueue.completeAndRemoveClaimFromLease (w.queueContext i) id lease snapshot w.queue).2
  | .deferClaimFromLease id snapshot lease reason =>
    (RunNowQueue.deferClaimFromLease (w.queueContext i) id snapshot lease reason w.queue).2
  | .removeCancelledFromLease id lease =>
    (RunNowQueue.removeCancelledFromLease (w.queueContext i) id lease w.queue).2
  | .recoverExpiredClaimsFromLease lease observedAt =>
    (RunNowQueue.recoverExpiredClaimsFromLease (w.queueContext i) lease observedAt w.queue).2

def perform (i : Input) : Command → World
  | .read | .ask | .emit _ | .executionReceipt _ _ => w
  | .writeLeaseEpoch workerId => match w.acquireLease workerId i with
    | .ok record => { w with lease := { w.lease with epoch := some record.leaseEpoch } }
    | .error _ => w
  | .writeLease record => { w with lease := { w.lease with lease := some record } }
  | .releaseLease credential => match Lease.requireOwner w.lease credential with
    | .ok _ => { w with lease := { w.lease with lease := none } }
    | .error _ => w
  | .savePlan plan => { w with plans := w.plans.set plan.operationId plan }
  | .saveOperation _ op => (w.saveOperation op).2
  | .saveApproval id => { w with approvals := id :: w.approvals }
  | .saveReceipt op => { w with receipts := w.receipts.set op.id op }
  | .queue call => { w with queue := w.queueAfter i call }
  | .acquireLock environment target operationId => (w.acquireLock environment target operationId).2
  | .releaseLock environment target operationId => w.releaseLock environment target operationId
  | .writePending operationId attemptId revision stepId target mode lease =>
    match w.startAttempt operationId attemptId revision stepId target mode lease i with
    | .ok record => w.putAttempt record
    | .error _ => w
  | .writeStarted record => w.putAttempt (Attempts.markAttemptStarted record i.now)
  | .finishAttempt operationId attemptId status errorClass =>
    (w.refinish operationId attemptId fun record =>
      Attempts.finishAttemptRecord record status errorClass i.now).2
  | .finishIndeterminate operationId attemptId =>
    (w.refinish operationId attemptId fun record =>
      Attempts.finishAttemptIndeterminateIfStarted record i.now).2
  | .markIndeterminate operationId attemptId => (w.markLost operationId attemptId i).2
  | .dispatch operationId stepId _ => { w with dispatched := (operationId, stepId) :: w.dispatched }

end World

/-- A faulting access writes nothing; a connector that raises was invoked. -/
def effect (command : Command) (i : Input) (w : World) : World :=
  match i.fault, command with
  | some _, .dispatch _ _ _ => w.perform i command
  | some _, _ => w
  | none, _ => w.perform i command

theorem effect_faultless {command : Command} {i : Input} (sound : i.fault = none) (w : World) :
    effect command i w = w.perform i command := by
  unfold effect
  rw [sound]

theorem effect_faulted {command : Command} {i : Input} {fault : Fault}
    (failed : i.fault = some fault) (w : World)
    (silent : ∀ id step effectful, command ≠ .dispatch id step effectful) :
    effect command i w = w := by
  unfold effect
  rw [failed]
  split
  · exact absurd rfl (silent _ _ _)
  · rfl
  · contradiction

@[simp] theorem effect_read (i : Input) (w : World) : effect .read i w = w := by
  unfold effect
  split <;> rfl

abbrev Program (α : Type) := Prog Input World Command Fault α

def raise {α : Type} (fault : Fault) : Program α := .raise fault

def ofExcept {α : Type} (result : Except Fault α) : Program α := Prog.ofExcept result

def require (holds : Bool) (fault : Fault) : Program Unit :=
  if holds then pure () else raise fault

/-- An access that raises the input's fault, or replies. -/
def access {α : Type} (command : Command) (reply : Input → World → Except Fault α) : Program α :=
  .request command fun i w => match i.fault with
    | some fault => .error fault
    | none => reply i w

/-- A read raises, too: the file may be damaged or not handed out. -/
def read {α : Type} (look : World → Except Fault α) : Program α := access .read fun _ w => look w

def ask {α : Type} (answer : Input → Except Fault α) : Program α :=
  access .ask fun i _ => answer i

def check : Program Unit := ask fun _ => .ok ()

def emit (site : Site) : Program Unit := access (.emit site) fun _ _ => .ok ()

def loadOperation (id : String) : Program Operation := read (·.loadOperation id)

def loadPlan (id : String) : Program OperationPlan := read (·.loadPlan id)

def saveAt (site : Site) (op : Operation) : Program Operation :=
  access (.saveOperation site op) fun _ w => (w.saveOperation op).1

def saveOperation (op : Operation) : Program Operation := saveAt .plain op

/-- `except Exception`: an interrupt passes through. -/
def attemptException {α : Type} (body : Program α) : Program (Except Fault α) := do
  match ← body.attempt with
  | .ok value => pure (.ok value)
  | .error fault => if fault.isException then pure (.error fault) else raise fault

section Only

variable {α : Type} {legal : Command → Prop}

@[simp] theorem only_raise {fault : Fault} : (raise fault : Program α).Only legal := trivial

@[simp] theorem only_ofExcept {result : Except Fault α} : (ofExcept result).Only legal :=
  Prog.Only.ofExcept

@[simp] theorem only_require {holds : Bool} {fault : Fault} : (require holds fault).Only legal := by
  simp [require]

@[simp] theorem only_read_iff {look : World → Except Fault α} :
    (read look).Only legal ↔ legal .read := ⟨And.left, Prog.Only.request⟩

@[simp] theorem only_access_iff {command : Command} {reply : Input → World → Except Fault α} :
    (access command reply).Only legal ↔ legal command := ⟨And.left, Prog.Only.request⟩

@[simp] theorem only_attemptException_iff {body : Program α} :
    (attemptException body).Only legal ↔ body.Only legal := by
  simp only [attemptException, Prog.bind_eq, Prog.Only.bind_iff, Prog.Only.attempt_iff,
    and_iff_left_iff_imp]
  rintro only (fault | value) - <;> simp

end Only

def transition (op : Operation) (target : OperationState) (reason : String) :
    Program Operation := do
  let moved ← ofExcept (op.transition target reason)
  emit .plain
  pure moved

def requireMutationExecutionEnabled (mode : String) : Program Unit :=
  ask fun i => i.posture.requireMutationExecutionEnabled mode

def acquireExecutionLease (workerId : String) : Program LeaseRecord := do
  let record ← access (.writeLeaseEpoch workerId) fun i w => w.acquireLease workerId i
  access (.writeLease record) fun _ _ => .ok record

def releaseExecutionLease (lease : LeaseRecord) : Program Unit :=
  access (.releaseLease lease.credential) fun _ w =>
    (Lease.requireOwner w.lease lease.credential).map fun _ => ()

def withExecutionLease {α : Type} (workerId : String) (body : LeaseRecord → Program α) :
    Program α := do
  let lease ← acquireExecutionLease workerId
  Prog.ensuring (body lease) (releaseExecutionLease lease)

namespace QueueAccess

def enqueue (id : String) : Program Nat :=
  access (.queue (.enqueue id)) fun _ w => (RunNowQueue.enqueue id w.queue).1

def discardPending (id : String) : Program Unit :=
  access (.queue (.discardPending id)) fun _ w => (RunNowQueue.discardPending id w.queue).1

def claimFromLease (lease : Credential) : Program (Option Claim) :=
  access (.queue (.claimFromLease lease)) fun i w =>
    (RunNowQueue.claimFromLease (w.queueContext i) lease RunNowQueue.defaultTtl w.queue).1

def claimSpecificFromLease (id : String) (lease : Credential) :
    Program (Option (Purpose × Claim)) :=
  access (.queue (.claimSpecificFromLease id lease)) fun i w =>
    (RunNowQueue.claimSpecificFromLease (w.queueContext i) id lease w.queue).1

def completeClaimFromLease (id : String) (lease : Credential) (snapshot : Claim) : Program Unit :=
  access (.queue (.completeClaimFromLease id lease snapshot)) fun i w =>
    (RunNowQueue.completeClaimFromLease (w.queueContext i) id lease (some snapshot) w.queue).1

def completeAndRemoveClaimFromLease (id : String) (lease : Credential) (snapshot : Claim) :
    Program Unit :=
  access (.queue (.completeAndRemoveClaimFromLease id lease snapshot)) fun i w =>
    (RunNowQueue.completeAndRemoveClaimFromLease (w.queueContext i) id lease snapshot w.queue).1

def deferClaimFromLease (id : String) (snapshot : Claim) (lease : Credential)
    (reason : RunNowQueue.Reason) : Program Unit :=
  access (.queue (.deferClaimFromLease id snapshot lease reason)) fun i w =>
    (RunNowQueue.deferClaimFromLease (w.queueContext i) id snapshot lease reason w.queue).1

def removeCancelledFromLease (id : String) (lease : Credential) : Program Unit :=
  access (.queue (.removeCancelledFromLease id lease)) fun i w =>
    (RunNowQueue.removeCancelledFromLease (w.queueContext i) id lease w.queue).1

def recoverExpiredClaimsFromLease (lease : Credential) (observedAt : Instant) : Program Bool :=
  access (.queue (.recoverExpiredClaimsFromLease lease observedAt)) fun i w =>
    (RunNowQueue.recoverExpiredClaimsFromLease (w.queueContext i) lease observedAt w.queue).1

def position (id : String) : Program (Option Nat) :=
  read fun w => (RunNowQueue.loadUnlocked w.queue).map fun data =>
    if data.pending.contains id then some (data.pending.idxOf id) else none

end QueueAccess

end RExecOp
