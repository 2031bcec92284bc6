import RExecOp.Accesses
import RExecOp.Calls
import RExecOp.RecoveryRun

/-! The lease of a startup recovery is given back at its end and when the queue scan is refused;
an exception of any other phase passes the release by. -/

namespace RExecOp.Recovery

open Lease (Instant LeaseRecord)
open Prog (Only)

variable {α : Type} {lease : LeaseRecord} {observedAt : Instant} {repairReceipts : Bool}

def phases (lease : LeaseRecord) (observedAt : Instant) (repairReceipts : Bool) :
    Program (Except Fault Report) := do
  let released ← releaseStaleLocks
  let interrupted ← interruptActiveOperations observedAt
  let indeterminate ← recoverStartedAttempts
  match ← (QueueAccess.recoverExpiredClaimsFromLease lease.credential observedAt).attempt with
  | .error fault => if fault.isValidation then pure (.error fault) else raise fault
  | .ok recovered => do
    let repairs ← (if repairReceipts then repairTerminalReceipts else pure ([], []))
    let projections ← reconcilePendingProjections
    pure (.ok ⟨released, interrupted, indeterminate, recovered, repairs.1, repairs.2,
      projections.1, projections.2⟩)

theorem runStartupRecovery_none (observedAt : Instant) (repairReceipts : Bool) :
    runStartupRecovery none observedAt repairReceipts =
      (acquireExecutionLease "runtime-recovery" >>= fun lease =>
        phases lease observedAt repairReceipts >>= fun result =>
          releaseExecutionLease lease >>= fun _ => ofExcept result) := by
  unfold runStartupRecovery phases recoverQueue releaseOwned
  simp only [ownedLease, Option.isNone_none, if_true, Prog.bind_eq, Prog.bind_assoc]
  refine congrArg _ (funext fun lease => congrArg _ (funext fun released => ?_))
  refine congrArg _ (funext fun interrupted => congrArg _ (funext fun indeterminate => ?_))
  refine congrArg _ (funext fun scanned => ?_)
  cases scanned with
  | ok recovered => simp only [Prog.bind_assoc, Prog.pure_eq, Prog.bind]; rfl
  | error fault =>
    dsimp only
    by_cases refused : fault.isValidation
    · simp only [refused, if_true, Prog.bind_assoc, Prog.pure_eq, Prog.bind]
      rfl
    · simp only [refused]
      rfl

def reachesLease : Command → Bool
  | .read | .ask | .emit _ | .saveOperation _ _ | .saveReceipt _ | .queue _ => false
  | .releaseLock _ _ _ | .markIndeterminate _ _ => false
  | _ => true

abbrev Unleased (p : Program α) : Prop := p.Only (reachesLease · = false)

theorem lease_effect {command : Command} (unleased : reachesLease command = false) (i : Input)
    (w : World) : (effect command i w).lease = w.lease := by
  have performed : (w.perform i command).lease = w.lease := by
    cases command with
    | saveOperation site op =>
      simp only [World.perform, World.saveOperation]
      split <;> split <;> rfl
    | releaseLock environment target operationId =>
      simp only [World.perform, World.releaseLock]
      split
      · split <;> rfl
      · rfl
    | markIndeterminate operationId attemptId =>
      simp only [World.perform, World.markLost]
      split
      · split <;> rfl
      · rfl
    | read | ask | emit | saveReceipt | queue => rfl
    | _ => cases unleased
  unfold effect
  split
  · exact performed
  · rfl
  · exact performed

attribute [local simp] Unleased reachesLease loadOperation loadPlan emit saveOperation saveAt

theorem unleased_interruptOperation (op : Operation) :
    Unleased (interruptOperation observedAt op) := by
  simp [interruptOperation, markInterrupted, failInterrupted, transitionFrom, transitionOperation,
    Coordinator.releaseTargetOnly]

theorem unleased_exportReceipt (id : String) : Unleased (exportReceipt id) := by
  simp [exportReceipt, check, ask]

theorem unleased_orBlocker {op : Operation} {reason : String} {body : Program ReceiptStatus}
    (unleased : Unleased body) : Unleased (orBlocker op reason body) := by
  refine unleased.attempt.bind fun outcome => ?_
  cases outcome <;> simp [recordReceiptBlocker]

theorem unleased_repairReceipt (op : Operation) : Unleased (repairReceipt op) := by
  have ensures : Unleased (ensureTerminalReceipt op.id) := by
    refine Only.bind (by simp) fun op => Only.bind (by simp) fun needed => ?_
    refine Only.ite_iff.mpr ⟨fun _ => trivial, fun _ => ?_⟩
    refine (unleased_orBlocker (by simp)).bind fun planned => ?_
    refine Only.ite_iff.mpr ⟨fun _ => trivial, fun _ => unleased_orBlocker ?_⟩
    exact (unleased_exportReceipt _).bind fun _ => trivial
  simp_all [repairReceipt]

theorem unleased_releaseStaleLocks : Unleased releaseStaleLocks := by
  refine Only.bind (by simp) fun _ => Only.forEach (fun file => ?_) _
  refine Only.bind (by simp) fun found => ?_
  cases found with
  | none => simp
  | some payload => exact Only.bind (by simp) fun stale => by cases stale <;> simp

theorem unleased_interruptActiveOperations : Unleased (interruptActiveOperations observedAt) :=
  Only.bind (by simp) fun _ => Only.forEach unleased_interruptOperation _

theorem unleased_recoverStartedAttempts : Unleased recoverStartedAttempts :=
  Only.bind (by simp) fun _ => Only.forEach (fun _ => by simp) _

theorem unleased_scan (lease : LeaseRecord) :
    Unleased (QueueAccess.recoverExpiredClaimsFromLease lease.credential observedAt) :=
  Only.request rfl

theorem unleased_repairs :
    Unleased (if repairReceipts then repairTerminalReceipts else pure ([], [])) := by
  refine Only.ite_iff.mpr ⟨fun _ => ?_, fun _ => trivial⟩
  exact Only.bind (by simp) fun _ => (Only.forEach unleased_repairReceipt _).bind fun _ => trivial

theorem unleased_reconcilePendingProjections : Unleased reconcilePendingProjections := by
  refine Only.bind (by simp) fun pending => Only.bind ?_ fun _ => trivial
  exact Only.forEach (fun op => by have := unleased_exportReceipt op.id; simp_all) pending

theorem unleased_phases : Unleased (phases lease observedAt repairReceipts) := by
  refine unleased_releaseStaleLocks.bind fun _ => unleased_interruptActiveOperations.bind fun _ =>
    unleased_recoverStartedAttempts.bind fun _ => (unleased_scan lease).attempt.bind fun scanned =>
      ?_
  cases scanned with
  | error fault => exact Only.ite_iff.mpr ⟨fun _ => trivial, fun _ => trivial⟩
  | ok recovered => exact unleased_repairs.bind fun _ =>
      unleased_reconcilePendingProjections.bind fun _ => trivial

structure Held (lease : LeaseRecord) (w : World) : Prop where
  keyed : Accesses.Keyed w
  owned : w.lease.lease = some lease

theorem acquireExecutionLease_exec {workerId : String} {inputs : Nat → Input} {w mid : World}
    (acquired : (acquireExecutionLease workerId).exec effect inputs w = (.returned lease, mid))
    (keyed : Accesses.Keyed w) :
    Held lease mid ∧ (acquireExecutionLease workerId).steps effect inputs w = 2 := by
  rw [acquireExecutionLease, access, Prog.exec_request_bind] at acquired
  split at acquired
  · next record granted =>
    rw [access, Prog.exec_request] at acquired
    cases failed : (inputs 1).fault with
    | some fault => simp [failed] at acquired
    | none =>
      simp only [failed, Prod.mk.injEq, Prog.Outcome.returned.injEq] at acquired
      obtain ⟨rfl, rfl⟩ := acquired
      refine ⟨⟨Accesses.keyed_effect _ _ (Accesses.keyed_effect _ _ keyed),
        by simp [effect, failed, World.perform]⟩, ?_⟩
      rw [acquireExecutionLease, access, Prog.request, Prog.bind_eq, Prog.bind,
        Prog.steps_access, granted]
      simp [Prog.ofExcept, Prog.bind, access, Prog.request, Prog.steps, Prog.count, failed]
  · cases acquired

theorem releaseExecutionLease_exec {inputs : Nat → Input} {w : World} (result : Except Fault α)
    (held : w.lease.lease = some lease) :
    ((releaseExecutionLease lease >>= fun _ => ofExcept result).exec effect inputs w).2.lease.lease
      = some lease ↔ (inputs 0).fault ≠ none := by
  have owned : Lease.requireOwner w.lease lease.credential = .ok lease := by
    simp [Lease.requireOwner, held, LeaseRecord.credential]
  rw [releaseExecutionLease, access, Prog.exec_request_bind]
  cases failed : (inputs 0).fault with
  | some fault => simp [effect, failed, held]
  | none => cases result <;> simp [effect, failed, World.perform, owned, Except.map, ofExcept,
      Prog.ofExcept, Prog.exec]

section Conditions

variable {β : Type}

abbrev Condition := (Nat → Input) → World → Prop

/-- What the components raise at the accesses of the program is tolerated. -/
def Raising (tolerated : Fault → Prop) (p : Program α) : Condition :=
  p.Throughout effect fun _ i _ => ∀ fault, i.fault = some fault → tolerated fault

abbrev Unraised (p : Program α) : Condition := Raising (fun _ => False) p

/-- Asked of the inputs that are left where the program has returned. -/
def Then (p : Program α) (rest : α → Condition) : Condition := fun inputs w =>
  ∀ a after, p.exec effect inputs w = (.returned a, after) →
    rest a (fun n => inputs (p.steps effect inputs w + n)) after

/-- The program raises validation errors only, and the access after one does not raise. -/
def Caught (p : Program α) : Condition := fun inputs w =>
  Raising (·.isValidation = true) p inputs w ∧ ((p.exec effect inputs w).1.returns = false →
    (inputs (p.steps effect inputs w)).fault = none)

def Each (body : α → Program (Option β)) (asks : α → Condition) : List α → Condition
  | [], _, _ => True
  | item :: rest, inputs, w =>
    asks item inputs w ∧ Then (body item) (fun _ => Each body asks rest) inputs w

def planLoads (id : String) : Program ReceiptStatus := do
  let _ ← loadPlan id
  pure .alreadySatisfied

def exports (id : String) : Program ReceiptStatus := do
  exportReceipt id
  pure .receiptExported

/-- Validation errors of the plan's load and of the export are caught. -/
def SparesEnsured (op : Operation) : Condition := fun inputs w =>
  (inputs 0).fault = none ∧ (inputs 1).fault = none ∧
    Caught (planLoads op.id) (fun n => inputs (n + 2)) w ∧
    Then (planLoads op.id) (fun _ => Caught (exports op.id)) (fun n => inputs (n + 2)) w

def SparesRepair (op : Operation) : Condition := fun inputs w => (inputs 0).fault = none ∧
  (w.needsReceipt op = true → SparesEnsured op (fun n => inputs (n + 1)) w)

/-- The projections catch nothing, a missing plan included. -/
def SparesProjection (op : Operation) : Condition := fun inputs w =>
  op.state.isTerminalReceipt = true →
    (w.plans.get op.id).isSome = true ∧ Unraised (exportReceipt op.id) inputs w

def SparesReceipts (repairReceipts : Bool) : Condition := fun inputs w =>
  (repairReceipts = true → (inputs 0).fault = none ∧
      Each repairReceipt SparesRepair w.listOperations (fun n => inputs (n + 1)) w) ∧
    Then (if repairReceipts then repairTerminalReceipts else pure ([], [])) (fun _ inputs w =>
      ((inputs 0).fault = none ∧ Each project SparesProjection w.listPendingProjectionOperations
        (fun n => inputs (n + 1)) w) ∧
      Then reconcilePendingProjections (fun _ inputs _ => (inputs 0).fault = none) inputs w)
      inputs w

/-- Which accesses of a recovery that has its lease must not raise. -/
def Spares (lease : LeaseRecord) (observedAt : Instant) (repairReceipts : Bool) : Condition :=
  fun inputs w => Unraised releaseStaleLocks inputs w ∧ Then releaseStaleLocks (fun _ inputs w =>
    Unraised (interruptActiveOperations observedAt) inputs w ∧
      Then (interruptActiveOperations observedAt) (fun _ inputs w =>
        Unraised recoverStartedAttempts inputs w ∧ Then recoverStartedAttempts (fun _ inputs w =>
          Caught (QueueAccess.recoverExpiredClaimsFromLease lease.credential observedAt)
              inputs w ∧
            Then (QueueAccess.recoverExpiredClaimsFromLease lease.credential observedAt)
              (fun _ => SparesReceipts repairReceipts) inputs w)
          inputs w) inputs w) inputs w

/-- The program returns exactly where the inputs are as asked. -/
def Exact (p : Program α) (asks : Condition) (w : World) : Prop :=
  ∀ inputs, (p.exec effect inputs w).1.returns = true ↔ asks inputs w

end Conditions

section Exact

variable {β : Type} {p : Program α} {next : α → Program β} {asks : Condition}
  {more : α → Condition} {w after : World} {refuses : Fault → Prop} {inputs : Nat → Input}

theorem then_iff {a : α} (ran : p.exec effect inputs w = (.returned a, after)) :
    Then p more inputs w ↔ more a (fun n => inputs (p.steps effect inputs w + n)) after := by
  unfold Then
  rw [ran]
  constructor
  · exact fun holds => holds a after rfl
  · intro holds b last same
    cases same
    exact holds

theorem exact_bind (first : Exact p asks w)
    (rest : ∀ inputs a after, p.exec effect inputs w = (.returned a, after) →
      Exact (next a) (more a) after) :
    Exact (p >>= next) (fun inputs w => asks inputs w ∧ Then p more inputs w) w := by
  intro inputs
  dsimp only
  rw [Prog.exec_bind, ← first inputs]
  split
  · next a after ran =>
    rw [then_iff ran, rest inputs a after ran]
    simp only [ran, Prog.Outcome.returns, true_and]
  · next fault after ran => simp [ran, Prog.Outcome.returns]
  · next after ran => simp [ran, Prog.Outcome.returns]

theorem exact_map (first : Exact p asks w) (f : α → β) :
    Exact (p >>= fun a => pure (f a)) asks w := by
  intro inputs
  rw [← first inputs, Prog.exec_bind]
  split
  · next a after ran => simp [ran, Prog.Outcome.returns, Prog.exec]
  · next fault after ran => simp [ran, Prog.Outcome.returns]
  · next after ran => simp [ran, Prog.Outcome.returns]

theorem exact_pure {a : α} : Exact (pure a) (fun _ _ => True) w :=
  fun _ => iff_of_true rfl trivial

theorem exact_read_bind {look : World → Except Fault α} {a : α} {rest : Condition}
    (looked : look w = .ok a) (follows : Exact (next a) rest w) : Exact (read look >>= next)
      (fun inputs w => (inputs 0).fault = none ∧ rest (fun n => inputs (n + 1)) w) w := by
  intro inputs
  dsimp only
  rw [read, access, Prog.exec_request_bind]
  cases faulted : (inputs 0).fault with
  | some fault => simp [Prog.Outcome.returns]
  | none =>
    simp only [looked, effect_read, true_and]
    exact follows _

theorem exact_look_bind {look : World → α} {rest : Condition}
    (follows : Exact (next (look w)) rest w) : Exact (read (fun w => .ok (look w)) >>= next)
      (fun inputs w => (inputs 0).fault = none ∧ rest (fun n => inputs (n + 1)) w) w :=
  exact_read_bind rfl follows

theorem exact_access {command : Command} {reply : Input → World → Except Fault α}
    (replies : ∀ i, ∃ a, reply i w = .ok a) :
    Exact (access command reply) (fun inputs _ => (inputs 0).fault = none) w := by
  intro inputs
  dsimp only
  rw [access, Prog.exec_request]
  obtain ⟨a, replied⟩ := replies (inputs 0)
  cases faulted : (inputs 0).fault with
  | some fault => simp [Prog.Outcome.returns]
  | none => simp [replied, Prog.Outcome.returns]

theorem exact_attempt {handler : Except Fault α → Program β}
    (uncaught : p.Uncaught (·.fault) refuses)
    (own : ∀ inputs fault after, p.exec effect inputs w = (.raised fault, after) →
      refuses fault → Unraised p inputs w → fault.isValidation = true)
    (passes : ∀ fault, fault.isValidation = false → handler (.error fault) = raise fault)
    (blocks : ∀ inputs fault after, p.exec effect inputs w = (.raised fault, after) →
      fault.isValidation = true →
      Exact (handler (.error fault)) (fun inputs _ => (inputs 0).fault = none) after)
    (goes : ∀ inputs a after, p.exec effect inputs w = (.returned a, after) →
      Exact (handler (.ok a)) (more a) after) :
    Exact (p.attempt >>= handler) (fun inputs w => Caught p inputs w ∧ Then p more inputs w) w := by
  intro inputs
  have told := uncaught.exec effect inputs w
  dsimp only
  rw [Prog.exec_bind, Prog.exec_attempt, Prog.steps_attempt]
  cases ran : p.exec effect inputs w with
  | mk outcome after =>
    rw [ran] at told
    cases outcome with
    | returned a =>
      have caught : Caught p inputs w := by
        refine ⟨told _, fun raised => ?_⟩
        rw [ran] at raised
        cases raised
      rw [then_iff ran, ← goes inputs a after ran]
      exact (and_iff_right caught).symm
    | raised fault =>
      have refused : Raising (·.isValidation = true) p inputs w ↔ fault.isValidation = true := by
        rcases told with ⟨unraised, refuses⟩ | told
        · exact iff_of_true (unraised _) (own inputs fault after ran refuses (unraised _))
        · exact told _
      have silent : Then p more inputs w := by
        intro a last returned
        rw [ran] at returned
        cases returned
      simp only [Caught, refused, silent, ran, and_true]
      cases valid : fault.isValidation with
      | true =>
        have saves := blocks inputs fault after ran valid
          (fun n => inputs (p.steps effect inputs w + n))
        simp only [Prog.Outcome.returns, true_and, forall_const]
        exact saves
      | false =>
        rw [passes fault valid]
        simp [Prog.Outcome.returns, raise, Prog.exec]
    | halted => exact told.elim

theorem exact_of_uncaught (uncaught : p.Uncaught (·.fault) fun _ => False) :
    Exact p (Unraised p) w := by
  intro inputs
  have told := uncaught.exec effect inputs w
  cases ran : (p.exec effect inputs w).1 with
  | returned a =>
    rw [ran] at told
    exact iff_of_true rfl (told _)
  | raised fault =>
    rw [ran] at told
    exact iff_of_false Bool.false_ne_true (told.resolve_left And.right _).mp
  | halted =>
    rw [ran] at told
    exact told.elim

theorem exact_of_gives {post : α → World → Prop} (uncaught : p.Uncaught (·.fault) refuses)
    (gives : (solo True fun _ => True).Gives p post w) : Exact p (Unraised p) w := by
  intro inputs
  constructor
  · intro returns
    have told := uncaught.exec effect inputs w
    obtain ⟨a, after, ran⟩ := Prog.exists_of_returns returns
    rw [ran] at told
    exact told _
  · refine fun unraised => gives.returns trivial unraised fun _ i _ unfaulted _ => ?_
    exact ⟨Option.eq_none_iff_forall_ne_some.mpr unfaulted, trivial⟩

theorem exact_forEach {body : α → Program (Option β)} {each : α → Condition}
    {inv : List α → World → Prop}
    (exactly : ∀ item rest w, inv (item :: rest) w → Exact (body item) (each item) w)
    (keeps : ∀ item rest w inputs found after, inv (item :: rest) w →
      (body item).exec effect inputs w = (.returned found, after) → inv rest after)
    {items : List α} (holds : inv items w) :
    Exact (Prog.forEach items body) (Each body each items) w := by
  induction items generalizing w with
  | nil => exact exact_pure
  | cons item rest ih =>
    refine exact_bind (exactly item rest w holds) fun inputs found after ran => ?_
    exact exact_map (ih (keeps item rest w inputs found after holds ran)) _

end Exact

section Phases

variable {w : World} {op : Operation} {refuses : Fault → Prop}

theorem uncaught_access {command : Command} {reply : Input → World → Except Fault α}
    (own : ∀ i w fault, reply i w = .error fault → refuses fault) :
    (access command reply).Uncaught (·.fault) refuses := by
  refine .request (fun i w fault faulted => ?_) fun i w fault unfaulted replied => ?_
  · simp only [faulted]
  · simp only [unfaulted] at replied
    exact own i w fault replied

theorem uncaught_reply {command : Command} {reply : Input → World → α} :
    (access command fun i w => .ok (reply i w)).Uncaught (·.fault) refuses :=
  uncaught_access fun _ _ _ impossible => by cases impossible

theorem uncaught_releaseStaleLocks :
    releaseStaleLocks.Uncaught (·.fault) fun _ => False := by
  refine .bind uncaught_reply fun files => .forEach fun file => ?_
  refine .bind uncaught_reply fun found => ?_
  cases found with
  | none => exact trivial
  | some payload =>
    refine .bind uncaught_reply fun stale => ?_
    cases stale with
    | none => exact trivial
    | some record => exact .bind uncaught_reply fun _ => trivial

theorem uncaught_recoverStartedAttempts :
    recoverStartedAttempts.Uncaught (·.fault) fun _ => False :=
  .bind uncaught_reply fun _ => .forEach fun _ => uncaught_reply

theorem uncaught_any {command : Command} {reply : Input → World → Except Fault α} :
    (access command reply).Uncaught (·.fault) fun _ => True :=
  uncaught_access fun _ _ _ _ => trivial

theorem uncaught_transitionOperation (op : Operation) (target : OperationState) (reason : String) :
    (transitionOperation op target reason).Uncaught (·.fault) fun _ => True :=
  .bind (.ofExcept fun _ _ => trivial) fun _ => .bind uncaught_any fun _ =>
    .bind uncaught_any fun _ => trivial

theorem uncaught_transitionFrom (op : Operation) (state target : OperationState)
    (reason : String) :
    (transitionFrom op state target reason).Uncaught (·.fault) fun _ => True :=
  .ite (.bind (uncaught_transitionOperation _ _ _) fun _ => uncaught_any) trivial

theorem uncaught_interruptActiveOperations (observedAt : Instant) :
    (interruptActiveOperations observedAt).Uncaught (·.fault) fun _ => True := by
  refine .bind uncaught_any fun ops => .forEach fun op => .ite ?_ trivial
  have fails : (failInterrupted op).Uncaught (·.fault) fun _ => True := by
    refine .ite (uncaught_transitionOperation _ _ _) (.ite ?_ trivial)
    refine .bind (uncaught_transitionFrom _ _ _ _) fun _ => ?_
    refine .bind (uncaught_transitionFrom _ _ _ _) fun _ => ?_
    refine .bind (uncaught_transitionFrom _ _ _ _) fun _ => ?_
    exact .ite (uncaught_transitionOperation _ _ _) trivial
  have releases (op : Operation) :
      (Coordinator.releaseTargetOnly op).Uncaught (·.fault) fun _ => True :=
    .ite uncaught_any trivial
  refine .bind ?_ fun _ => .bind uncaught_any fun _ => trivial
  refine .bind fails fun _ => .bind uncaught_any fun latest => ?_
  exact .bind (releases latest) fun _ => .bind uncaught_any fun _ => .bind uncaught_any fun _ =>
    trivial

theorem uncaught_exportReceipt (id : String) :
    (exportReceipt id).Uncaught (·.fault) fun _ => True :=
  .bind uncaught_any fun _ => .bind uncaught_any fun _ => .bind uncaught_any fun _ =>
    .bind uncaught_any fun _ => .bind uncaught_any fun _ => .bind uncaught_any fun _ =>
      .bind uncaught_any fun _ => trivial

theorem uncaught_planLoads (id : String) :
    (planLoads id).Uncaught (·.fault) (·.isValidation = true) := by
  refine .bind (uncaught_access fun _ w fault refused => ?_) fun _ => trivial
  simp only [World.loadPlan] at refused
  split at refused
  · cases refused
  · cases refused
    rfl

theorem exact_exportReceipt (found : w.operations.get op.id = some op)
    (planned : (w.plans.get op.id).isSome = true) :
    Exact (exportReceipt op.id) (Unraised (exportReceipt op.id)) w :=
  exact_of_gives (uncaught_exportReceipt op.id)
    (gives_exportReceipt found fun _ => Option.isSome_iff_exists.mp planned)

end Phases

section Phases

variable {w after : World} {op : Operation} {inputs : Nat → Input}

theorem Exact.congr {p : Program α} {asks others : Condition} (exactly : Exact p asks w)
    (same : ∀ inputs, asks inputs w ↔ others inputs w) : Exact p others w :=
  fun inputs => (exactly inputs).trans (same inputs)

theorem lax_allows (command : Command) (n : Nat) (store : World) :
    (solo False fun _ => True).allows command (inputs n) store := False.elim

theorem exact_interruptActiveOperations (keyed : Accesses.Keyed w) :
    Exact (interruptActiveOperations observedAt)
      (Unraised (interruptActiveOperations observedAt)) w :=
  exact_of_gives (uncaught_interruptActiveOperations observedAt)
    (@gives_interruptActiveOperations _ _ _ _ False ⟨fun found => keyed _ _ found, False.elim⟩)

theorem exact_recordReceiptBlocker {next : ReceiptStatus → Program α} {a : α}
    (found : w.operations.get op.id = some op) (last : next .recoveryBlocker = pure a)
    (reason : String) : Exact (recordReceiptBlocker op reason >>= next)
      (fun inputs _ => (inputs 0).fault = none) w := by
  have same : recordReceiptBlocker op reason >>= next =
      saveOperation { op with recoveryBlocker := some reason } >>= fun _ => pure a := by
    rw [← last]
    exact Prog.bind_assoc _ _ _
  have saved := @saveOperation_ok w op { op with recoveryBlocker := some reason } found rfl
  rw [same]
  exact exact_map (exact_access fun _ => ⟨_, congrArg Prod.fst saved⟩) _

theorem exact_orBlocker {body : Program ReceiptStatus} {next : ReceiptStatus → Program α}
    {more : ReceiptStatus → Condition} {reason : String} {refuses : Fault → Prop} {a : α}
    (uncaught : body.Uncaught (·.fault) refuses)
    (own : ∀ inputs fault after, body.exec effect inputs w = (.raised fault, after) →
      refuses fault → Unraised body inputs w → fault.isValidation = true)
    (kept : ∀ inputs fault after, body.exec effect inputs w = (.raised fault, after) →
      after.operations.get op.id = some op) (last : next .recoveryBlocker = pure a)
    (goes : ∀ inputs status after, body.exec effect inputs w = (.returned status, after) →
      Exact (next status) (more status) after) :
    Exact (orBlocker op reason body >>= next)
      (fun inputs w => Caught body inputs w ∧ Then body more inputs w) w := by
  rw [orBlocker, Prog.bind_eq, Prog.bind_eq, Prog.bind_assoc]
  refine exact_attempt uncaught own (fun fault invalid => ?_)
    (fun inputs fault after ran valid => ?_) goes
  · simp only [invalid]
    rfl
  · simp only [valid, if_true]
    exact exact_recordReceiptBlocker (kept inputs fault after ran) last reason

theorem then_true {p : Program α} : Then p (fun _ _ _ => True) inputs w := fun _ _ _ => trivial

theorem uncaught_exports (id : String) : (exports id).Uncaught (·.fault) fun _ => True :=
  (uncaught_exportReceipt id).bind fun _ => trivial

theorem exact_exports (found : w.operations.get op.id = some op)
    (planned : (w.plans.get op.id).isSome = true) :
    Exact (exports op.id) (Unraised (exports op.id)) w := by
  have gives : (solo True fun _ => True).Gives (exports op.id) (fun _ _ => True) w := by
    refine Solo.Gives.bind (gives_exportReceipt found fun _ => ?_) fun _ _ _ => .pure trivial
    exact Option.isSome_iff_exists.mp planned
  exact exact_of_gives (uncaught_exports op.id) gives

theorem exports_raised {fault : Fault} (found : w.operations.get op.id = some op)
    (ran : (exports op.id).exec effect inputs w = (.raised fault, after)) :
    after.operations.get op.id = some op := by
  have ends : (solo False fun _ => True).Ends (exports op.id)
      (fun outcome after => ∀ fault, outcome = .error fault →
        after.operations.get op.id = some op) w := by
    refine Solo.Ends.bind (ends_exportReceipt found False.elim) ?_ fun _ _ _ => ?_
    · rintro fault after ⟨receipts, -, rfl⟩ _ _
      exact found
    · exact ⟨fun _ => ⟨_, rfl⟩, fun _ impossible => by cases impossible⟩
  exact ends.raised lax_allows ran fault rfl

theorem planned_of_loads {plan : OperationPlan} {i : Input}
    (looked : (match i.fault with
      | some fault => Except.error fault
      | none => w.loadPlan op.id) = .ok plan) : (w.plans.get op.id).isSome = true := by
  split at looked
  · cases looked
  · unfold World.loadPlan at looked
    split at looked
    · next found => rw [found]; rfl
    · cases looked

theorem planLoads_exec {outcome : Prog.Outcome Fault ReceiptStatus}
    (ran : (planLoads op.id).exec effect inputs w = (outcome, after)) :
    after = w ∧ (outcome.returns = true →
      outcome = .returned .alreadySatisfied ∧ (w.plans.get op.id).isSome = true) := by
  rw [planLoads, loadPlan, read, access, Prog.exec_request_bind, effect_read] at ran
  split at ran
  · next plan looked =>
    cases ran
    exact ⟨rfl, fun _ => ⟨rfl, planned_of_loads looked⟩⟩
  · cases ran
    exact ⟨rfl, fun impossible => by cases impossible⟩

theorem exact_ensureTerminalReceipt (found : w.operations.get op.id = some op)
    (needed : w.needsReceipt op = true) :
    Exact (ensureTerminalReceipt op.id) (SparesEnsured op) w := by
  have loaded : w.loadOperation op.id = .ok op := by rw [World.loadOperation, found]
  unfold ensureTerminalReceipt
  refine Exact.congr (exact_read_bind loaded (exact_look_bind (?_ : Exact _ (fun inputs w =>
    Caught (planLoads op.id) inputs w ∧ Then (planLoads op.id) (fun _ => Caught (exports op.id))
      inputs w) w))) fun _ => Iff.rfl
  rw [needed]
  refine exact_orBlocker (uncaught_planLoads op.id) (fun _ _ _ _ refused _ => refused)
    (fun inputs fault after ran => (planLoads_exec ran).1 ▸ found) (if_pos rfl) ?_
  intro inputs status after ran
  obtain ⟨rfl, told⟩ := planLoads_exec ran
  obtain ⟨same, planned⟩ := told rfl
  cases same
  rw [if_neg (by decide)]
  have exported : Exact (orBlocker op "receipt_export_failed" (exports op.id) >>= pure)
      (fun inputs w => Caught (exports op.id) inputs w ∧
        Then (exports op.id) (fun _ _ _ => True) inputs w) after := by
    refine exact_orBlocker (uncaught_exports op.id) (fun inputs fault last ran _ unraised => ?_)
      (fun _ _ _ ran => exports_raised found ran) rfl fun _ _ _ _ => exact_pure
    have returns := (exact_exports found planned inputs).mpr unraised
    rw [ran] at returns
    cases returns
  rw [Prog.bind_pure] at exported
  exact exported.congr fun inputs => and_iff_left then_true

theorem exact_repairReceipt (found : w.operations.get op.id = some op) :
    Exact (repairReceipt op) (SparesRepair op) w := by
  have answers : Exact (if w.needsReceipt op then do
        let status ← ensureTerminalReceipt op.id
        pure (some (op.id, status))
      else pure none) (fun inputs w => w.needsReceipt op = true → SparesEnsured op inputs w) w := by
    split
    · next needed =>
      refine (exact_map (exact_ensureTerminalReceipt found needed) _).congr fun inputs => ?_
      simp only [needed, true_imp_iff]
    · next unneeded =>
      refine exact_pure.congr fun inputs => ?_
      simp only [unneeded, Bool.false_eq_true, false_imp_iff]
  unfold repairReceipt
  exact Exact.congr (exact_look_bind answers) fun _ => Iff.rfl

theorem exact_repairTerminalReceipts (keyed : Accesses.Keyed w) : Exact repairTerminalReceipts
    (fun inputs w => (inputs 0).fault = none ∧
      Each repairReceipt SparesRepair w.listOperations (fun n => inputs (n + 1)) w) w := by
  have filed : Filed False w := ⟨fun found => keyed _ _ found, False.elim⟩
  refine exact_read_bind rfl (exact_map (@exact_forEach _ _ _ repairReceipt SparesRepair
    (Noting Receipted w) (fun op rest after walk => ?_)
    (fun op rest after inputs found last walk ran => ?_) _
    (.begin_listed filed)) _)
  · exact exact_repairReceipt (walk.ahead op List.mem_cons_self)
  · exact ((gives_repairReceipt filed walk).exec lax_allows).1 found last ran

theorem planned_of_export
    (returns : ((exportReceipt op.id).exec effect inputs w).1.returns = true) :
    (w.plans.get op.id).isSome = true := by
  rw [exportReceipt, loadOperation, read, access, Prog.exec_request_bind, effect_read] at returns
  split at returns
  · rw [loadPlan, read, access, Prog.exec_request_bind, effect_read] at returns
    split at returns
    · next looked => exact planned_of_loads looked
    · cases returns
  · cases returns

theorem exact_project (found : w.operations.get op.id = some op) :
    Exact (project op) (SparesProjection op) w := by
  unfold project
  cases ended : op.state.isTerminalReceipt with
  | true =>
    cases planned : (w.plans.get op.id).isSome with
    | true =>
      refine (exact_map (exact_exportReceipt found planned) _).congr fun inputs => ?_
      simp only [SparesProjection, ended, planned, true_and, true_imp_iff]
    | false =>
      have never : Exact (exportReceipt op.id) (fun _ _ => False) w := by
        refine fun inputs => iff_of_false (fun returns => ?_) id
        rw [planned_of_export returns] at planned
        cases planned
      refine (exact_map never _).congr fun inputs => ?_
      simp only [SparesProjection, ended, planned, Bool.false_eq_true, false_and, true_imp_iff]
  | false =>
    refine exact_pure.congr fun inputs => ?_
    simp only [SparesProjection, ended, Bool.false_eq_true, false_imp_iff]

theorem exact_reconcilePendingProjections (keyed : Accesses.Keyed w) :
    Exact reconcilePendingProjections (fun inputs w => (inputs 0).fault = none ∧
      Each project SparesProjection w.listPendingProjectionOperations (fun n => inputs (n + 1)) w)
      w := by
  have filed : Filed False w := ⟨fun found => keyed _ _ found, False.elim⟩
  refine exact_read_bind rfl (exact_map (@exact_forEach _ _ _ project SparesProjection
    (Noting Projected w) (fun op rest after walk => ?_)
    (fun op rest after inputs found last walk ran => ?_) _
    (.begin_pending filed)) _)
  · exact exact_project (walk.ahead op List.mem_cons_self)
  · exact ((gives_project filed walk).exec lax_allows).1 found last ran

end Phases

section Release

variable {w after : World} {inputs : Nat → Input}

theorem Held.exec {p : Program α} {outcome : Prog.Outcome Fault α} (held : Held lease w)
    (unleased : Unleased p) (ran : p.exec effect inputs w = (outcome, after)) :
    Held lease after := by
  have step : ∀ {command}, reachesLease command = false → ∀ i w,
      Held lease w → Held lease (effect command i w) := fun plain i w held =>
    ⟨Accesses.keyed_effect _ i held.keyed, (congrArg _ (lease_effect plain i w)).trans held.owned⟩
  have kept := unleased.exec (fun before after => Held lease before → Held lease after)
    (fun _ => id) (fun _ _ _ first second held => second (first held)) step inputs w held
  rwa [ran] at kept

theorem exact_releaseExecutionLease (held : Held lease w) :
    Exact (releaseExecutionLease lease) (fun inputs _ => (inputs 0).fault = none) w := by
  refine exact_access fun _ => ⟨(), ?_⟩
  simp [Lease.requireOwner, held.owned, LeaseRecord.credential, Except.map]

theorem refused_scan {ctx : RunNowQueue.Context} {credential : Lease.Credential}
    {stored : RunNowQueue.Queue} {fault : Fault}
    (refused : (RunNowQueue.recoverExpiredClaimsFromLease ctx credential observedAt stored).1 =
      .error fault) : fault.isValidation = true := by
  unfold RunNowQueue.recoverExpiredClaimsFromLease at refused
  split at refused
  · next guarded =>
    cases refused
    unfold RunNowQueue.enterLeaseGuard at guarded
    split at guarded <;> cases guarded
    rfl
  · split at refused
    · next loaded =>
      cases refused
      unfold RunNowQueue.loadUnlocked at loaded
      split at loaded <;> cases loaded
      rfl
    · split at refused <;> cases refused
      rfl

theorem exact_receipts (held : Held lease w) :
    Exact ((if repairReceipts then repairTerminalReceipts else pure ([], [])) >>= fun _ =>
      reconcilePendingProjections >>= fun _ => releaseExecutionLease lease)
      (SparesReceipts repairReceipts) w := by
  have repairs : Exact (if repairReceipts then repairTerminalReceipts else pure ([], []))
      (fun inputs w => repairReceipts = true → (inputs 0).fault = none ∧
        Each repairReceipt SparesRepair w.listOperations (fun n => inputs (n + 1)) w) w := by
    cases repairReceipts with
    | true => exact (exact_repairTerminalReceipts held.keyed).congr fun _ => by simp
    | false => exact exact_pure.congr fun _ => by simp
  refine exact_bind repairs fun inputs _ after ran => ?_
  have held := held.exec unleased_repairs ran
  refine exact_bind (exact_reconcilePendingProjections held.keyed) fun inputs _ last ran => ?_
  exact exact_releaseExecutionLease (held.exec unleased_reconcilePendingProjections ran)

theorem exact_phases (held : Held lease w) :
    Exact (phases lease observedAt repairReceipts >>= fun _ => releaseExecutionLease lease)
      (Spares lease observedAt repairReceipts) w := by
  have split_ : phases lease observedAt repairReceipts >>= (fun _ => releaseExecutionLease lease) =
      releaseStaleLocks >>= fun _ => interruptActiveOperations observedAt >>= fun _ =>
        recoverStartedAttempts >>= fun _ =>
          (QueueAccess.recoverExpiredClaimsFromLease lease.credential observedAt).attempt >>=
            fun scanned => match scanned with
              | .error fault =>
                if fault.isValidation then releaseExecutionLease lease else raise fault
              | .ok _ =>
                (if repairReceipts then repairTerminalReceipts else pure ([], [])) >>= fun _ =>
                  reconcilePendingProjections >>= fun _ => releaseExecutionLease lease := by
    unfold phases
    simp only [Prog.bind_eq, Prog.bind_assoc]
    refine congrArg _ (funext fun _ => congrArg _ (funext fun _ => congrArg _ (funext fun _ => ?_)))
    refine congrArg _ (funext fun scanned => ?_)
    cases scanned with
    | ok recovered => simp only [Prog.bind_assoc]; rfl
    | error fault => cases valid : fault.isValidation <;> simp only [valid] <;> rfl
  rw [split_]
  refine exact_bind (exact_of_uncaught uncaught_releaseStaleLocks) fun _ _ _ ran => ?_
  have held := held.exec unleased_releaseStaleLocks ran
  refine exact_bind (exact_interruptActiveOperations held.keyed) fun _ _ _ ran => ?_
  have held := held.exec unleased_interruptActiveOperations ran
  refine exact_bind (exact_of_uncaught uncaught_recoverStartedAttempts) fun _ _ _ ran => ?_
  have held := held.exec unleased_recoverStartedAttempts ran
  refine exact_attempt (uncaught_access fun _ _ _ => refused_scan)
    (fun _ _ _ _ refused _ => refused)
    (fun _ invalid => by simp only [invalid]; rfl) (fun _ fault after ran valid => ?_)
    fun _ _ _ ran => exact_receipts (held.exec (unleased_scan lease) ran)
  simp only [valid, if_true]
  exact exact_releaseExecutionLease (held.exec (unleased_scan lease) ran)

end Release

def scanFails (n : Nat) : Input :=
  if n = 5 then .raising 0 "token" (.exception "OSError") else .agreeing 0 "token"

def unreceipted : World :=
  { World.empty with
    operations := Dict.set ∅ "op-a" { (PlanRequest.applying "a" ["act"] ⟨0, [], []⟩).operation with
      state := .completed, revision := 1 } }

end RExecOp.Recovery
