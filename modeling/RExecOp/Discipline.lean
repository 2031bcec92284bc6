import RExecOp.Lib.Upkeep
import RExecOp.Recovery

/-! What every call does to the runtime root: records are saved over the record they were read
from, plans are written first, and lease epochs only grow. -/

namespace RExecOp

open Coordinator

open Attempts (Attempt)
open Lease (LeaseRecord Credential)

variable {base op : Operation} {w after : World} {id : String} {i : Input} {command : Command}
  {record : Attempt}

/-- The part of an operation that bookkeeping leaves alone. -/
structure Core where
  id : String
  environment : String
  target : String
  mode : String
  runtimePolicy : RuntimePolicy
  revision : Nat
  state : OperationState
  nextStepIndex : Nat
  lastFailure : Option Failure
  sharedState : Entries
  history : List StateTransitionRecord
  projection : Option Projection
  recoveryBlocker : Option String

def Operation.core (op : Operation) : Core :=
  ⟨op.id, op.environment, op.target, op.mode, op.runtimePolicy, op.revision, op.state,
    op.executionCursor.nextStepIndex, op.lastFailure, op.sharedState, op.history, op.projection,
    op.recoveryBlocker⟩

structure SameBinding (a b : Core) : Prop where
  id : b.id = a.id
  environment : b.environment = a.environment
  target : b.target = a.target
  mode : b.mode = a.mode
  runtimePolicy : b.runtimePolicy = a.runtimePolicy

structure CoreEvolves (a b : Core) : Prop extends SameBinding a b where
  revision : b.revision = a.revision
  state : b.state = a.state ∨ b.state ∈ a.state.allowedTransitions ∨
    (a.state = .planned ∧ b.state = .running)
  cursor : a.state.isExecuted = true → b.nextStepIndex = a.nextStepIndex
  failure : a.state = .failed → b.state = .failed →
    b.lastFailure = a.lastFailure ∧ b.sharedState = a.sharedState

/-- A record that may be saved over the record it was read from. -/
def Evolves (base op : Operation) : Prop := CoreEvolves base.core op.core

/-- A record stored later than another under the same id. -/
structure Follows (op later : Operation) : Prop where
  revision : op.revision ≤ later.revision
  same : later.revision = op.revision → later = op
  executed : op.state.isExecuted = true → later.state.isExecuted = true
  launched : op.state.isLaunched = true → later.state.isLaunched = true
  binding : SameBinding op.core later.core

theorem SameBinding.refl (a : Core) : SameBinding a a := ⟨rfl, rfl, rfl, rfl, rfl⟩

theorem SameBinding.trans {a b c : Core} (first : SameBinding a b) (second : SameBinding b c) :
    SameBinding a c where
  id := second.id.trans first.id
  environment := second.environment.trans first.environment
  target := second.target.trans first.target
  mode := second.mode.trans first.mode
  runtimePolicy := second.runtimePolicy.trans first.runtimePolicy

theorem Evolves.refl (op : Operation) : Evolves op op :=
  ⟨.refl _, rfl, .inl rfl, fun _ => rfl, fun _ _ => ⟨rfl, rfl⟩⟩

structure Transitioned (op : Operation) (target : OperationState) (moved : Operation) : Prop where
  evolves : Evolves op moved
  state : moved.state = target
  pending : World.isProjectionPending moved = true
  allowed : target ∈ op.state.allowedTransitions

theorem evolves_transition {op moved : Operation} {target : OperationState} {reason : String}
    (done : op.transition target reason = .ok moved) : Transitioned op target moved := by
  unfold Operation.transition at done
  split at done
  · simp at done
  · rename_i valid
    cases done
    have allowed := OperationState.validateTransition_ok valid
    exact ⟨⟨⟨rfl, rfl, rfl, rfl, rfl⟩, rfl, .inr (.inl allowed), fun _ => rfl,
      fun _ _ => ⟨rfl, rfl⟩⟩, rfl, rfl, allowed⟩

theorem Transitioned.of_noted {op noted moved : Operation} {target : OperationState}
    (done : Transitioned noted target moved)
    (same : noted.core = { op.core with lastFailure := noted.lastFailure })
    (unfailed : op.state ≠ .failed) : Transitioned op target moved := by
  obtain ⟨⟨binding, revision, state, cursor, -⟩, reached, pending, allowed⟩ := done
  have states : noted.state = op.state := congrArg Core.state same
  rw [same] at binding revision state cursor
  refine ⟨⟨⟨binding.1, binding.2, binding.3, binding.4, binding.5⟩, revision, state, cursor,
    fun failed => absurd failed unfailed⟩, reached, pending, states ▸ allowed⟩

theorem Evolves.executed {base op : Operation} (evolves : Evolves base op)
    (executed : base.state.isExecuted = true) : op.state.isExecuted = true := by
  rcases evolves.state with same | allowed | ⟨planned, -⟩
  · exact (congrArg OperationState.isExecuted same).trans executed
  · exact OperationState.isExecuted_of_allowed allowed executed
  · rw [show base.state = .planned from planned] at executed
    simp [OperationState.isExecuted] at executed

theorem Evolves.launched {base op : Operation} (evolves : Evolves base op)
    (launched : base.state.isLaunched = true) : op.state.isLaunched = true := by
  rcases evolves.state with same | allowed | ⟨planned, -⟩
  · exact (congrArg OperationState.isLaunched same).trans launched
  · exact OperationState.isLaunched_of_allowed allowed launched
  · rw [show base.state = .planned from planned] at launched
    simp [OperationState.isLaunched, OperationState.isExecuted] at launched

theorem Follows.refl (op : Operation) : Follows op op :=
  ⟨le_rfl, fun _ => rfl, id, id, .refl _⟩

theorem Follows.trans {a b c : Operation} (first : Follows a b) (second : Follows b c) :
    Follows a c where
  revision := first.revision.trans second.revision
  same level := by
    have lower := first.revision
    have upper := second.revision
    have left : b = a := first.same (by omega)
    have right : c = b := second.same (by omega)
    exact right.trans left
  executed h := second.executed (first.executed h)
  launched h := second.launched (first.launched h)
  binding := first.binding.trans second.binding

def Operation.stored (op : Operation) : Operation := { op with revision := op.revision + 1 }

theorem Evolves.follows (evolves : Evolves base op) : Follows base op.stored where
  revision := by
    have level : op.revision = base.revision := evolves.revision
    simp only [Operation.stored]
    omega
  same level := by
    have same : op.revision = base.revision := evolves.revision
    simp only [Operation.stored] at level
    omega
  executed := evolves.executed
  launched := evolves.launched
  binding :=
    ⟨evolves.id, evolves.environment, evolves.target, evolves.mode, evolves.runtimePolicy⟩

structure Later (w after : World) : Prop where
  operations : ∀ {id op}, w.operations.get id = some op →
    ∃ now, after.operations.get id = some now ∧ Follows op now
  planned : ∀ {id plan}, w.plans.get id = some plan → ∃ now, after.plans.get id = some now
  epoch : ∀ {e}, w.lease.epoch = some e → ∃ now, after.lease.epoch = some now ∧ e ≤ now

theorem Later.refl (w : World) : Later w w :=
  ⟨fun found => ⟨_, found, .refl _⟩, fun found => ⟨_, found⟩, fun found => ⟨_, found, le_rfl⟩⟩

theorem Later.trans {a b c : World} (first : Later a b) (second : Later b c) : Later a c where
  operations found := by
    obtain ⟨mid, here, follows⟩ := first.operations found
    obtain ⟨last, there, further⟩ := second.operations here
    exact ⟨last, there, follows.trans further⟩
  planned found := by
    obtain ⟨mid, here⟩ := first.planned found
    exact second.planned here
  epoch found := by
    obtain ⟨mid, here, lower⟩ := first.epoch found
    obtain ⟨last, there, upper⟩ := second.epoch here
    exact ⟨last, there, lower.trans upper⟩

/-- A record read from the store: what is stored now follows it. -/
def Known (w : World) (op : Operation) : Prop :=
  ∃ now, w.operations.get op.id = some now ∧ Follows op now

theorem Known.later {w after : World} {op : Operation} (known : Known w op)
    (later : Later w after) : Known after op := by
  obtain ⟨now, found, follows⟩ := known
  obtain ⟨last, there, further⟩ := later.operations found
  exact ⟨last, there, follows.trans further⟩

/-- What holds of every store the runtime leaves behind. -/
structure Consistent (w : World) : Prop where
  keyed : ∀ {id op}, w.operations.get id = some op → op.id = id
  named : ∀ {id op}, w.operations.get id = some op → id ≠ ""
  revised : ∀ {id op}, w.operations.get id = some op → 0 < op.revision
  planned : ∀ {id op}, w.operations.get id = some op → ∃ plan, w.plans.get id = some plan
  attempted : ∀ {id attemptId record}, w.attempt id attemptId = some record →
    ∃ op, w.operations.get id = some op ∧ op.state.isExecuted = true
  journaled : ∀ {id attemptId record}, w.attempt id attemptId = some record →
    record.operationId = id ∧ record.attemptId = attemptId

theorem Consistent.known (consistent : Consistent w) (found : w.operations.get id = some op) :
    Known w op := by
  refine ⟨op, ?_, .refl op⟩
  rw [consistent.keyed found]
  exact found

structure Fresh (w : World) (op : Operation) : Prop where
  named : op.id ≠ ""
  unexecuted : op.state.isExecuted = false
  planned : ∃ plan, w.plans.get op.id = some plan

def World.HoldsLock (w : World) (op : Operation) : Prop :=
  ∃ lock, w.readLock op.environment op.target = some lock ∧ lock.operationId = op.id

def World.Inactive (w : World) (id : String) : Prop :=
  ∀ op, w.operations.get id = some op → op.state.isActive = false

def World.Receipted (w : World) (op : Operation) : Prop :=
  ∃ source, w.receipts.get op.id = some source ∧ source.history = op.history

def World.Exportable (w : World) (op : Operation) : Prop :=
  ∀ now, w.operations.get op.id = some now → now.state.isTerminalReceipt = true →
    now.history = op.history

def Operation.isInterrupted (op : Operation) : Bool :=
  op.history.getLast?.any fun entry => entry.reason == "interrupted_by_restart" ||
    entry.reason == "interrupted_resume" || entry.reason == "interrupted_retry"

inductive Outboxed (w : World) (base op : Operation) : Prop where
  | pending (marker : World.isProjectionPending op = true)
  | blocked (blocker : op.recoveryBlocker.isSome = true)
  | exported (receipt : w.Receipted op)
  | kept (same : op.core = base.core)
  | interrupted (active : base.state.isActive = true) (recovered : op.isInterrupted = true)

/-- A failed operation is retried only without indeterminate side effects, and only the holder
of the target's lock becomes active. -/
structure LegalSave (w : World) (base op : Operation) : Prop where
  evolves : Evolves base op
  calm : base.state = .failed → op.state = .retrying → w.hasIndeterminateSideEffect op.id = false
  locked : base.state.isActive = false → op.state.isActive = true →
    usesTargetLock op = true → w.HoldsLock op
  outboxed : op.state.isTerminalReceipt = true → Outboxed w base op

/-- What the runs of a regime give a call to rely on. -/
structure Grounds where
  issued : LeaseRecord → Prop
  undisturbed : Prop
  leases : Prop

variable {G : Grounds}

def Legal (G : Grounds) (w : World) : Command → Prop
  | .saveOperation _ op =>
    (∀ base, w.operations.get op.id = some base → base.revision = op.revision →
      LegalSave w base op) ∧
    (w.operations.get op.id = none → op.revision = 0 → Fresh w op)
  | .writeLeaseEpoch _ => G.leases
  | .writeLease record => G.leases ∧ G.issued record ∧
    ∃ e, w.lease.epoch = some e ∧ record.leaseEpoch ≤ e
  | .releaseLease _ => G.leases
  | .saveReceipt op => w.Exportable op
  | .queue (.enqueue id) => ∃ op, w.operations.get id = some op
  | .acquireLock environment target id => ∃ op, w.operations.get id = some op ∧
    op.environment = environment ∧ op.target = target ∧ usesTargetLock op = true
  | .releaseLock _ _ id => G.undisturbed → w.Inactive id
  | _ => True

theorem usesTargetLock_congr {op now : Operation} (same : SameBinding op.core now.core) :
    usesTargetLock now = usesTargetLock op := by
  have mode : now.mode = op.mode := same.mode
  have policy : now.runtimePolicy = op.runtimePolicy := same.runtimePolicy
  rw [usesTargetLock, usesTargetLock, mode, policy]

theorem holdsLock_binding {op now : Operation} (same : SameBinding op.core now.core)
    (holds : w.HoldsLock op) : w.HoldsLock now := by
  have environment : now.environment = op.environment := same.environment
  have target : now.target = op.target := same.target
  have id : now.id = op.id := same.id
  rw [World.HoldsLock, environment, target, id]
  exact holds

theorem holdsLock_congr (locks : after.locks = w.locks) (holds : w.HoldsLock op) :
    after.HoldsLock op := by
  simpa only [World.HoldsLock, World.readLock, locks] using holds

def Command.isStep : Command → Bool
  | .writePending _ _ _ _ _ _ _ | .writeStarted _ | .finishAttempt _ _ _ _
  | .finishIndeterminate _ _ | .markIndeterminate _ _ | .dispatch _ _ _ => true
  | _ => false

def Command.isDispatch : Command → Bool
  | .dispatch _ _ _ => true
  | _ => false

def World.put (w : World) (op : Operation) : World :=
  { w with operations := w.operations.set op.id op }

theorem saveOperation_cases (w : World) (op : Operation) :
    (∃ base, w.operations.get op.id = some base ∧ base.revision = op.revision ∧
      w.saveOperation op = (.ok op.stored, w.put op.stored)) ∨
    (w.operations.get op.id = none ∧ op.revision = 0 ∧
      w.saveOperation op = (.ok op.stored, w.put op.stored)) ∨
    ∃ fault, w.saveOperation op = (.error fault, w) := by
  unfold World.saveOperation
  split
  · rename_i base found
    split
    · exact .inr (.inr ⟨_, rfl⟩)
    · rename_i same
      exact .inl ⟨base, found, not_not.mp same, rfl⟩
  · rename_i found
    split
    · exact .inr (.inr ⟨_, rfl⟩)
    · rename_i zero
      exact .inr (.inl ⟨found, not_not.mp zero, rfl⟩)

theorem saveOperation_ok {w : World} {base op : Operation}
    (found : w.operations.get op.id = some base) (level : base.revision = op.revision) :
    w.saveOperation op = (.ok op.stored, w.put op.stored) := by
  unfold World.saveOperation
  simp only [found]
  rw [if_neg (not_not.mpr level)]
  rfl

theorem later_put (found : w.operations.get op.id = some base) (follows : Follows base op) :
    Later w (w.put op) where
  operations {id other} here := by
    by_cases same : id = op.id
    · subst same
      rw [found] at here
      cases here
      exact ⟨op, Dict.get_set_self _ _ _, follows⟩
    · exact ⟨other, (Dict.get_set_ne _ _ same).trans here, .refl other⟩
  planned plan := ⟨_, plan⟩
  epoch here := ⟨_, here, le_rfl⟩

theorem later_create (absent : w.operations.get op.id = none) : Later w (w.put op) where
  operations {id other} here := by
    have other_id : id ≠ op.id := fun same => by rw [same, absent] at here; simp at here
    exact ⟨other, (Dict.get_set_ne _ _ other_id).trans here, .refl other⟩
  planned plan := ⟨_, plan⟩
  epoch here := ⟨_, here, le_rfl⟩

theorem later_of_same (operations : after.operations = w.operations) (plans : after.plans = w.plans)
    (epoch : after.lease.epoch = w.lease.epoch) : Later w after := by
  refine ⟨?_, ?_, ?_⟩
  · intro id op found
    exact ⟨op, operations ▸ found, .refl op⟩
  · intro id plan found
    exact ⟨plan, plans ▸ found⟩
  · intro e found
    exact ⟨e, epoch ▸ found, le_rfl⟩

/-- What a legal command outside the attempt journal does. -/
inductive Change (G : Grounds) (i : Input) (w : World) : Command → World → Prop
  where
  | nothing {command : Command} : Change G i w command w
  | saved {site : Site} {base op : Operation} (found : w.operations.get op.id = some base)
      (level : base.revision = op.revision) (legal : LegalSave w base op) :
      Change G i w (.saveOperation site op) (w.put op.stored)
  | created {site : Site} {op : Operation} (absent : w.operations.get op.id = none)
      (fresh : Fresh w op) : Change G i w (.saveOperation site op) (w.put op.stored)
  | planned {plan : OperationPlan} : Change G i w (.savePlan plan)
      { w with plans := w.plans.set plan.operationId plan }
  | epoch {workerId : String} {record : LeaseRecord} (leases : G.leases)
      (granted : w.acquireLease workerId i = .ok record) :
      Change G i w (.writeLeaseEpoch workerId)
        { w with lease := { w.lease with epoch := some record.leaseEpoch } }
  | leased {record : LeaseRecord} (leases : G.leases) (known : G.issued record)
      (bound : ∃ e, w.lease.epoch = some e ∧ record.leaseEpoch ≤ e) :
      Change G i w (.writeLease record)
        { w with lease := { w.lease with lease := some record } }
  | released {credential : Credential} (leases : G.leases) :
      Change G i w (.releaseLease credential) { w with lease := { w.lease with lease := none } }
  | approved {id : String} : Change G i w (.saveApproval id)
      { w with approvals := id :: w.approvals }
  | receipted {op : Operation} (legal : Legal G w (.saveReceipt op)) :
      Change G i w (.saveReceipt op) { w with receipts := w.receipts.set op.id op }
  | queued {call : QueueCall} (legal : Legal G w (.queue call)) :
      Change G i w (.queue call) { w with queue := w.queueAfter i call }
  | locked {environment target id : String}
      (legal : Legal G w (.acquireLock environment target id)) :
      Change G i w (.acquireLock environment target id)
        (w.acquireLock environment target id).2
  | unlocked {environment target id : String}
      (legal : Legal G w (.releaseLock environment target id)) :
      Change G i w (.releaseLock environment target id)
        (w.releaseLock environment target id)

theorem change_perform (legal : Legal G w command) (outside : command.isStep = false) :
    Change G i w command (w.perform i command) := by
  cases command with
  | read => exact .nothing
  | ask => exact .nothing
  | emit site => exact .nothing
  | executionReceipt operationId verdict => exact .nothing
  | writeLeaseEpoch workerId =>
    simp only [World.perform]
    split
    · rename_i record granted
      exact .epoch legal granted
    · exact .nothing
  | writeLease record => exact .leased legal.1 legal.2.1 legal.2.2
  | releaseLease credential =>
    simp only [World.perform]
    split
    · exact .released legal
    · exact .nothing
  | savePlan plan => exact .planned
  | saveOperation site op =>
    simp only [World.perform]
    rcases saveOperation_cases w op with ⟨base, found, level, saved⟩ | ⟨absent, zero, saved⟩ |
      ⟨fault, refused⟩
    · rw [saved]
      exact .saved found level (legal.1 base found level)
    · rw [saved]
      exact .created absent (legal.2 absent zero)
    · rw [refused]
      exact .nothing
  | saveApproval id => exact .approved
  | saveReceipt op => exact .receipted legal
  | queue call => exact .queued legal
  | acquireLock environment target id => exact .locked legal
  | releaseLock environment target id => exact .unlocked legal
  | writePending => simp [Command.isStep] at outside
  | writeStarted => simp [Command.isStep] at outside
  | finishAttempt => simp [Command.isStep] at outside
  | finishIndeterminate => simp [Command.isStep] at outside
  | markIndeterminate => simp [Command.isStep] at outside
  | dispatch => simp [Command.isStep] at outside

theorem change_effect {G : Grounds} {i : Input} {w : World} {command : Command}
    (legal : Legal G w command) (outside : command.isStep = false) :
    Change G i w command (effect command i w) := by
  unfold effect
  split
  · simp [Command.isStep] at outside
  · exact .nothing
  · exact change_perform legal outside

theorem acquireLock_operations (w : World) (environment target id : String) :
    (w.acquireLock environment target id).2 =
      { w with locks := (w.acquireLock environment target id).2.locks } := by
  unfold World.acquireLock
  dsimp only
  split
  · split <;> rfl
  · rfl

theorem releaseLock_operations (w : World) (environment target id : String) :
    w.releaseLock environment target id =
      { w with locks := (w.releaseLock environment target id).locks } := by
  unfold World.releaseLock
  split
  · split <;> rfl
  · rfl

theorem refinish_operations (w : World) (operationId attemptId : String)
    (finish : Attempt → Except Fault Attempt) :
    (w.refinish operationId attemptId finish).2.operations = w.operations := by
  unfold World.refinish
  split
  · rfl
  · split <;> rfl

theorem markLost_operations (w : World) (operationId attemptId : String) (i : Input) :
    (w.markLost operationId attemptId i).2.operations = w.operations := by
  unfold World.markLost
  split
  · split <;> rfl
  · rfl

theorem operations_effect (other : ∀ site op, command ≠ .saveOperation site op) (i : Input)
    (w : World) : (effect command i w).operations = w.operations := by
  have performed : (w.perform i command).operations = w.operations := by
    cases command with
    | saveOperation site op => exact absurd rfl (other site op)
    | writeLeaseEpoch workerId => simp only [World.perform]; split <;> rfl
    | releaseLease credential => simp only [World.perform]; split <;> rfl
    | acquireLock environment target id => rw [World.perform, acquireLock_operations]
    | releaseLock environment target id => rw [World.perform, releaseLock_operations]
    | writePending => simp only [World.perform]; split <;> rfl
    | finishAttempt => exact refinish_operations w _ _ _
    | finishIndeterminate => exact refinish_operations w _ _ _
    | markIndeterminate => exact markLost_operations w _ _ i
    | _ => rfl
  unfold effect
  split
  · exact performed
  · rfl
  · exact performed

theorem later_change (change : Change G i w command after) : Later w after := by
  cases change with
  | nothing => exact .refl w
  | saved found level legal => exact later_put found legal.evolves.follows
  | created absent fresh => exact later_create absent
  | @planned plan =>
    refine ⟨fun found => ⟨_, found, .refl _⟩, ?_, fun found => ⟨_, found, le_rfl⟩⟩
    intro id kept here
    rw [Dict.get_set]
    split
    · exact ⟨plan, rfl⟩
    · exact ⟨kept, here⟩
  | @epoch workerId record leases granted =>
    refine ⟨fun found => ⟨_, found, .refl _⟩, fun found => ⟨_, found⟩, ?_⟩
    intro e found
    refine ⟨record.leaseEpoch, rfl, ?_⟩
    have same := Lease.acquire_ok granted
    subst same
    simp only [Lease.grant, Lease.previousEpoch, found, Option.getD_some]
    omega
  | leased leases known bound => exact later_of_same rfl rfl rfl
  | released leases => exact later_of_same rfl rfl rfl
  | approved => exact later_of_same rfl rfl rfl
  | receipted => exact later_of_same rfl rfl rfl
  | queued legal => exact later_of_same rfl rfl rfl
  | locked legal =>
    rw [acquireLock_operations]
    exact later_of_same rfl rfl rfl
  | unlocked legal =>
    rw [releaseLock_operations]
    exact later_of_same rfl rfl rfl

theorem attempts_change (change : Change G i w command after) : after.attempts = w.attempts := by
  cases change with
  | locked legal => rw [acquireLock_operations]
  | unlocked legal => rw [releaseLock_operations]
  | _ => rfl

theorem put_get {op other : Operation} (found : (w.put op).operations.get id = some other) :
    (id = op.id ∧ other = op) ∨ w.operations.get id = some other := by
  rw [World.put, Dict.get_set] at found
  split at found
  · cases found
    exact .inl ⟨by assumption, rfl⟩
  · exact .inr found

theorem consistent_put (consistent : Consistent w) (named : op.id ≠ "")
    (planned : ∃ plan, w.plans.get op.id = some plan)
    (executed : ∀ base, w.operations.get op.id = some base → base.state.isExecuted = true →
      op.state.isExecuted = true) :
    Consistent (w.put op.stored) where
  keyed found := by
    rcases put_get found with ⟨rfl, rfl⟩ | kept
    · rfl
    · exact consistent.keyed kept
  named found := by
    rcases put_get found with ⟨rfl, rfl⟩ | kept
    · exact named
    · exact consistent.named kept
  revised found := by
    rcases put_get found with ⟨rfl, rfl⟩ | kept
    · exact Nat.succ_pos _
    · exact consistent.revised kept
  planned found := by
    rcases put_get found with ⟨rfl, rfl⟩ | kept
    · exact planned
    · exact consistent.planned kept
  attempted {id attemptId record} found := by
    obtain ⟨base, here, ran⟩ := consistent.attempted found
    by_cases same : id = op.id
    · subst same
      exact ⟨op.stored, Dict.get_set_self _ _ _, executed base here ran⟩
    · exact ⟨base, (Dict.get_set_ne _ _ same).trans here, ran⟩
  journaled found := consistent.journaled found

theorem consistent_rewrite (consistent : Consistent w) (found : w.operations.get op.id = some base)
    (executed : base.state.isExecuted = true → op.state.isExecuted = true) :
    Consistent (w.put op.stored) := by
  refine consistent_put consistent (consistent.named found) (consistent.planned found) ?_
  intro other here ran
  have same : base = other := Option.some.inj (found.symm.trans here)
  exact executed (same ▸ ran)

theorem consistent_of_same (consistent : Consistent w)
    (operations : after.operations = w.operations)
    (plans : ∀ id plan, w.plans.get id = some plan → ∃ now, after.plans.get id = some now)
    (attempts : after.attempts = w.attempts) : Consistent after where
  keyed found := consistent.keyed (operations ▸ found)
  named found := consistent.named (operations ▸ found)
  revised found := consistent.revised (operations ▸ found)
  planned found := by
    obtain ⟨plan, here⟩ := consistent.planned (operations ▸ found)
    exact plans _ plan here
  attempted {id attemptId record} found := by
    have here : w.attempt id attemptId = some record := by
      simpa only [World.attempt, World.attemptsOf, attempts] using found
    obtain ⟨op, stored, ran⟩ := consistent.attempted here
    exact ⟨op, operations ▸ stored, ran⟩
  journaled {id attemptId record} found := by
    have here : w.attempt id attemptId = some record := by
      simpa only [World.attempt, World.attemptsOf, attempts] using found
    exact consistent.journaled here

theorem consistent_empty : Consistent World.empty := by
  constructor <;> simp [World.empty, World.attempt, World.attemptsOf]

theorem mem_listExecutionAttempts :
    record ∈ w.listExecutionAttempts id ↔ ∃ attemptId, w.attempt id attemptId = some record :=
  Dict.mem_filterMap_fileOrder _ _ _

theorem attempt_congr (same : after.attempts = w.attempts) (id attemptId : String) :
    after.attempt id attemptId = w.attempt id attemptId := by
  simp only [World.attempt, World.attemptsOf, same]

theorem hasIndeterminateSideEffect_congr (same : after.attempts = w.attempts) (id : String) :
    after.hasIndeterminateSideEffect id = w.hasIndeterminateSideEffect id := by
  simp only [World.hasIndeterminateSideEffect, World.listExecutionAttempts, World.attemptsOf, same]

theorem putAttempt_found {record found : Attempt} {id attemptId : String}
    (here : (w.putAttempt record).attempt id attemptId = some found) :
    found = record ∨ w.attempt id attemptId = some found := by
  rw [attempt_putAttempt] at here
  split at here
  · exact .inl (Option.some.inj here).symm
  · exact .inr here

theorem later_putAttempt (w : World) (record : Attempt) : Later w (w.putAttempt record) :=
  later_of_same rfl rfl rfl

theorem consistent_putAttempt (consistent : Consistent w)
    (found : w.operations.get record.operationId = some op)
    (executed : op.state.isExecuted = true) : Consistent (w.putAttempt record) where
  keyed := consistent.keyed
  named := consistent.named
  revised := consistent.revised
  planned := consistent.planned
  attempted {id attemptId other} here := by
    rw [attempt_putAttempt] at here
    split at here
    · rename_i same
      rw [same.1]
      exact ⟨op, found, executed⟩
    · exact consistent.attempted here
  journaled {id attemptId other} here := by
    rw [attempt_putAttempt] at here
    split at here
    · rename_i same
      cases here
      exact ⟨same.1.symm, same.2.symm⟩
    · exact consistent.journaled here

theorem consistent_change (consistent : Consistent w) (change : Change G i w command after) :
    Consistent after := by
  have kept := later_change change
  cases change with
  | @saved site base op found level legal =>
    refine consistent_put consistent (consistent.named found) (consistent.planned found) ?_
    intro other here ran
    rw [found] at here
    cases here
    exact legal.evolves.executed ran
  | created absent fresh =>
    refine consistent_put consistent fresh.named fresh.planned ?_
    intro base here
    rw [absent] at here
    simp at here
  | locked legal =>
    rw [acquireLock_operations] at kept ⊢
    exact consistent_of_same consistent rfl (fun _ _ => kept.planned) rfl
  | unlocked legal =>
    rw [releaseLock_operations] at kept ⊢
    exact consistent_of_same consistent rfl (fun _ _ => kept.planned) rfl
  | _ => exact consistent_of_same consistent rfl (fun _ _ => kept.planned) rfl

theorem saveOperation_frame (w : World) (op : Operation) :
    ∃ operations, (w.saveOperation op).2 = { w with operations := operations } := by
  rcases saveOperation_cases w op with ⟨_, _, _, saved⟩ | ⟨_, _, saved⟩ | ⟨_, refused⟩
  · exact ⟨_, congrArg Prod.snd saved⟩
  · exact ⟨_, congrArg Prod.snd saved⟩
  · exact ⟨_, congrArg Prod.snd refused⟩

theorem pause_frame (w : World) (id : String) :
    ∃ operations, w.pause id = { w with operations := operations } := by
  unfold World.pause
  split
  · split
    · exact saveOperation_frame w _
    · exact ⟨_, rfl⟩
  · exact ⟨_, rfl⟩

theorem pause_attempts (w : World) (id : String) : (w.pause id).attempts = w.attempts := by
  obtain ⟨_, same⟩ := pause_frame w id
  rw [same]

theorem pause_plans (w : World) (id : String) : (w.pause id).plans = w.plans := by
  obtain ⟨_, same⟩ := pause_frame w id
  rw [same]

theorem pause_locks (w : World) (id : String) : (w.pause id).locks = w.locks := by
  obtain ⟨_, same⟩ := pause_frame w id
  rw [same]

theorem pause_receipts (w : World) (id : String) : (w.pause id).receipts = w.receipts := by
  obtain ⟨_, same⟩ := pause_frame w id
  rw [same]

theorem pause_cases (w : World) (consistent : Consistent w) (id : String) :
    w.pause id = w ∨ ∃ op, w.operations.get id = some op ∧ op.state = .running ∧
      Evolves op op.pausing ∧ op.id = id ∧ w.pause id = w.put op.pausing.stored := by
  unfold World.pause
  split
  · rename_i op plan found _
    split
    · rename_i accepted
      have keyed := consistent.keyed found
      have allowed : OperationState.paused ∈ op.state.allowedTransitions := by
        rw [accepted.1]
        decide
      have stored : w.operations.get op.id = some op := by rw [keyed, found]
      have saved := @saveOperation_ok w op op.pausing stored rfl
      exact .inr ⟨op, found, accepted.1,
        ⟨⟨rfl, rfl, rfl, rfl, rfl⟩, rfl, .inr (.inl allowed), fun _ => rfl,
          fun _ _ => ⟨rfl, rfl⟩⟩, keyed,
        congrArg Prod.snd saved⟩
    · exact .inl rfl
  · exact .inl rfl

theorem pause_get_ne (consistent : Consistent w) {id other : String} (distinct : other ≠ id) :
    (w.pause id).operations.get other = w.operations.get other := by
  rcases pause_cases w consistent id with same | ⟨op, -, -, -, named, saved⟩
  · rw [same]
  · rw [saved]
    have different : other ≠ op.pausing.stored.id := fun same => distinct (same.trans named)
    exact Dict.get_set_ne _ _ different

theorem pause_get (consistent : Consistent w) {id other : String}
    (found : (w.pause id).operations.get other = some op) :
    w.operations.get other = some op ∨ (other = id ∧ ∃ base, w.operations.get id = some base ∧
      base.state = .running ∧ op = base.pausing.stored) := by
  by_cases same : other = id
  · subst same
    rcases pause_cases w consistent other with unchanged | ⟨base, here, running, -, named, saved⟩
    · rw [unchanged] at found
      exact .inl found
    · rw [saved] at found
      have stored : (w.put base.pausing.stored).operations.get other =
          some base.pausing.stored := by
        rw [← named]
        exact Dict.get_set_self _ _ _
      exact .inr ⟨rfl, base, here, running, Option.some.inj (found.symm.trans stored)⟩
  · rw [pause_get_ne consistent same] at found
    exact .inl found

theorem later_pause (consistent : Consistent w) (id : String) : Later w (w.pause id) := by
  rcases pause_cases w consistent id with same | ⟨op, found, -, evolves, named, saved⟩
  · rw [same]
    exact .refl w
  · rw [saved]
    have stored : w.operations.get op.pausing.stored.id = some op := by rw [← found, ← named]; rfl
    exact later_put stored evolves.follows

theorem consistent_pause (consistent : Consistent w) (id : String) : Consistent (w.pause id) := by
  rcases pause_cases w consistent id with same | ⟨op, found, -, evolves, named, saved⟩
  · rw [same]
    exact consistent
  · rw [saved]
    subst named
    refine consistent_put consistent (consistent.named found) (consistent.planned found) ?_
    intro base here ran
    have same : some base = some op := here.symm.trans found
    cases same
    exact evolves.executed ran

end RExecOp
