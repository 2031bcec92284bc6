import RExecOp.Accesses
import RExecOp.QueueBlind
import RExecOp.QueueDrain

/-! Resuming and retrying a read-only operation beside the queue records of others: only the
release at the end looks at the queue. -/

namespace RExecOp.ReadOnlyIndependence

open Accesses Controller
open Lease (LeaseRecord)
open RunNowQueue

inductive Readmission where
  | resume
  | retry
  deriving DecidableEq, Repr

def Readmission.guard (id : String) : Readmission → Program Unit
  | .resume => pure ()
  | .retry => do
    let indeterminate ← read fun w => .ok (w.hasIndeterminateSideEffect id)
    require (!indeterminate)
      (.outcomeIndeterminate "side-effectful attempt requires explicit reconciliation")

def Readmission.orchestrated (fuel : Nat) (lease : LeaseRecord) (id : String) :
    Readmission → Program Operation
  | .resume => Orchestrator.resume fuel lease id
  | .retry => Orchestrator.retry fuel lease id

def finish (id : String) (result : Operation) : Program (Option Operation) := do
  releaseRuntimeIfTerminal result false
  ensureReceipt id
  pure (some result)

def Readmission.untilDrain (call : Readmission) (fuel : Nat) (lease : LeaseRecord) (id : String) :
    Program (Option Operation) := do
  call.guard id
  let admitted ← prepareReadmission id
  if admitted then do
    let result ← call.orchestrated fuel lease id
    finish id result
  else pure none

def drained (fuel : Nat) (lease : LeaseRecord) (id : String) (ran : Option Operation) :
    Program Unit := do
  (if ran.isSome then drainUnlessQueued fuel lease true else pure ())
  let _ ← loadOperation id
  pure ()

theorem runReadmitted_eq (fuel : Nat) (lease : LeaseRecord) (id : String) (run : Program Operation)
    (admitted : Bool) (rest : Program Unit) :
    (runReadmitted fuel lease id run admitted >>= fun _ => rest) =
      ((if admitted then run >>= finish id else pure none) >>= fun ran =>
        (if ran.isSome then drainUnlessQueued fuel lease true else pure ()) >>=
          fun _ => rest) := by
  cases admitted with
  | false => rfl
  | true =>
    simp only [runReadmitted, finish, if_true, Prog.bind_eq, Prog.bind_assoc]
    rfl

theorem resume_eq (fuel : Nat) (id : String) :
    resume fuel id = withExecutionLease "operator" fun lease =>
      Readmission.untilDrain .resume fuel lease id >>= drained fuel lease id := by
  refine congrArg _ (funext fun lease => ?_)
  simp only [Readmission.untilDrain, Readmission.guard, Readmission.orchestrated, Prog.bind_eq,
    Prog.bind_assoc]
  refine congrArg _ (funext fun admitted => ?_)
  exact runReadmitted_eq fuel lease id _ admitted _

theorem retry_eq (fuel : Nat) (id : String) :
    retry fuel id = withExecutionLease "operator" fun lease =>
      Readmission.untilDrain .retry fuel lease id >>= drained fuel lease id := by
  refine congrArg _ (funext fun lease => ?_)
  simp only [Readmission.untilDrain, Readmission.guard, Readmission.orchestrated, Prog.bind_eq,
    Prog.bind_assoc]
  refine congrArg _ (funext fun indeterminate => ?_)
  refine congrArg _ (funext fun _ => ?_)
  refine congrArg _ (funext fun admitted => ?_)
  exact runReadmitted_eq fuel lease id _ admitted _

def Readmission.untilRelease (call : Readmission) (fuel : Nat) (lease : LeaseRecord)
    (id : String) : Program Operation := do
  call.guard id
  let op ← loadOperation id
  let _ ← preflightRollbackAuthority op
  requireMutationExecutionEnabled op.mode
  call.orchestrated fuel lease id

theorem queueBlind_untilRelease (call : Readmission) (fuel : Nat) (lease : LeaseRecord)
    (id : String) : QueueBlind (call.untilRelease fuel lease id) := by
  have guards : QueueBlind (call.guard id) := by
    cases call with
    | resume => exact .pure
    | retry => exact Prog.Blind.bind (QueueBlind.read fun _ _ => rfl) fun _ => QueueBlind.require
  refine guards.bind fun _ => ?_
  refine Prog.Blind.bind (QueueBlind.read fun _ _ => rfl) fun op => ?_
  refine (QueueBlind.preflightRollbackAuthority op).queueBlind.bind fun _ => ?_
  refine Prog.Blind.bind QueueBlind.ask fun _ => ?_
  cases call with
  | resume => exact QueueBlind.resume fuel lease id
  | retry => exact QueueBlind.retry fuel lease id

section Load

variable {α : Type} {id : String} {w : World}

theorem exec_load_congr {next next' : Operation → Program α}
    (same : ∀ op, w.operations.get id = some op → next op = next' op) (inputs : Nat → Input) :
    (loadOperation id >>= next).exec effect inputs w =
      (loadOperation id >>= next').exec effect inputs w := by
  rw [Prog.exec_bind, Prog.exec_bind]
  split
  · next op after ran =>
    rw [same op (World.loadOperation_ok (exec_read ran).1)]
  · rfl
  · rfl

theorem exec_guard {call : Readmission} {inputs : Nat → Input} {after : World} {value : Unit}
    (ran : (call.guard id).exec effect inputs w = (.returned value, after)) : after = w := by
  cases call with
  | resume =>
    cases ran
    rfl
  | retry =>
    rw [Readmission.guard, Prog.exec_bind] at ran
    split at ran
    · next found between looked =>
      obtain rfl := (exec_read looked).2
      unfold require at ran
      split at ran
      · cases ran
        rfl
      · cases ran
    · cases ran
    · cases ran

end Load

theorem exec_untilDrain {call : Readmission} {fuel : Nat} {lease : LeaseRecord} {id : String}
    {w : World} {op : Operation} (found : w.operations.get id = some op)
    (readOnly : isMutatingMode op.mode = false) (inputs : Nat → Input) :
    (call.untilDrain fuel lease id).exec effect inputs w =
      (call.untilRelease fuel lease id >>= finish id).exec effect inputs w := by
  have same : (prepareReadmission id >>= fun admitted =>
        if admitted then call.orchestrated fuel lease id >>= finish id else pure none) =
      loadOperation id >>= fun op => (do
        let _ ← preflightRollbackAuthority op
        requireMutationExecutionEnabled op.mode
        let admitted ← readmit op
        if admitted then call.orchestrated fuel lease id >>= finish id else pure none) := by
    simp only [prepareReadmission, Prog.bind_eq, Prog.bind_assoc]
  have direct : call.untilRelease fuel lease id >>= finish id =
      call.guard id >>= fun _ => loadOperation id >>= fun op => (do
        let _ ← preflightRollbackAuthority op
        requireMutationExecutionEnabled op.mode
        call.orchestrated fuel lease id >>= finish id) := by
    simp only [Readmission.untilRelease, Prog.bind_eq, Prog.bind_assoc]
  rw [Readmission.untilDrain, direct, same, Prog.exec_bind, Prog.exec_bind]
  split
  · next value after ran =>
    obtain rfl := exec_guard ran
    refine exec_load_congr (fun stored present => ?_) _
    rw [found] at present
    cases present
    have admits : readmit op = pure true := by
      unfold readmit
      rw [readOnly]
      rfl
    rw [admits]
    rfl
  · rfl
  · rfl

def stateOf (id : String) (w : World) : Option OperationState :=
  (w.operations.get id).map (·.state)

def Command.isSave : Command → Bool
  | .saveOperation _ _ => true
  | _ => false

def Keeps {α : Type} (id : String) (state : Option OperationState) (p : Program α) : Prop :=
  ∀ inputs w, stateOf id w = state → stateOf id (p.exec effect inputs w).2 = state

namespace Keeps

variable {α β : Type} {id : String} {state : Option OperationState}
  {p : Program α}

theorem bind {next : α → Program β} (first : Keeps id state p)
    (rest : ∀ value, Keeps id state (next value)) : Keeps id state (p >>= next) := by
  intro inputs w holds
  have between := first inputs w holds
  rw [Prog.exec_bind]
  generalize p.exec effect inputs w = run at between
  obtain ⟨outcome, after⟩ := run
  cases outcome with
  | returned value => exact rest value _ after between
  | raised fault => exact between
  | halted => exact between

theorem attempt (keeps : Keeps id state p) : Keeps id state p.attempt := by
  intro inputs w holds
  have ended := keeps inputs w holds
  rw [Prog.exec_attempt]
  generalize p.exec effect inputs w = run at ended
  obtain ⟨outcome, after⟩ := run
  cases outcome <;> exact ended

theorem of_only (quiet : p.Only (Command.isSave · = false)) :
    Keeps id state p := by
  intro inputs w holds
  have same : (p.exec effect inputs w).2.operations = w.operations := by
    refine quiet.exec (fun s t => t.operations = s.operations) (fun _ => rfl)
      (fun _ _ _ first second => second.trans first) (fun legal i w => ?_) inputs w
    refine operations_effect (fun site op same => ?_) i w
    rw [same] at legal
    cases legal
  rw [← holds, stateOf, same]
  rfl

theorem access {command : Command} {reply : Input → World → Except Fault α}
    (quiet : Command.isSave command = false) : Keeps id state (access command reply) :=
  of_only (Prog.Only.request quiet)

theorem read {look : World → Except Fault α} : Keeps id state (read look) :=
  of_only (Prog.Only.request rfl)

theorem pure {value : α} : Keeps id state (pure value : Program α) := fun _ _ holds => holds

theorem raise {fault : Fault} : Keeps id state (raise fault : Program α) := fun _ _ holds => holds

theorem load {next : Operation → Program α}
    (rest : ∀ op, state = some op.state → Keeps id state (next op)) :
    Keeps id state (loadOperation id >>= next) := by
  intro inputs w holds
  rw [Prog.exec_bind]
  split
  · next op after ran =>
    obtain ⟨loaded, rfl⟩ := exec_read ran
    refine rest op ?_ _ after holds
    rw [← holds, stateOf, World.loadOperation_ok loaded]
    rfl
  · next fault after ran =>
    have kept : Keeps id state (loadOperation id) := read
    have ended := kept inputs w holds
    rwa [ran] at ended
  · next after ran =>
    have kept : Keeps id state (loadOperation id) := read
    have ended := kept inputs w holds
    rwa [ran] at ended

theorem save {op : Operation} (same : state = some op.state) :
    Keeps id state (saveOperation op) := by
  intro inputs w holds
  rw [saveOperation, saveAt, RExecOp.access, Prog.exec_request]
  dsimp only
  rw [effect_saveOperation]
  split
  · rw [stateOf, World.put, Dict.get_set]
    split
    · exact same.symm
    · exact holds
  · exact holds

theorem exportReceipt : Keeps id state (exportReceipt id) := by
  refine load fun op same => ?_
  refine read.bind fun _ => ?_
  refine (access rfl).bind fun _ => ?_
  refine (access rfl).bind fun _ => ?_
  refine (access rfl).bind fun _ => ?_
  refine (access rfl).bind fun _ => ?_
  have marks : Keeps id state (saveOperation op.projectedMarker) := save same
  exact marks.bind fun _ => pure

theorem orBlocker {op : Operation} {reason : String} {body : Program ReceiptStatus}
    (same : state = some op.state) (keeps : Keeps id state body) :
    Keeps id state (orBlocker op reason body) := by
  refine keeps.attempt.bind fun outcome => ?_
  cases outcome with
  | ok status => exact pure
  | error fault =>
    dsimp only
    split
    · exact Keeps.bind (save same) fun _ => pure
    · exact raise

theorem ensureReceipt : Keeps id state (ensureReceipt id) := by
  have ensures : Keeps id state (ensureTerminalReceipt id) := by
    refine load fun op same => ?_
    refine read.bind fun needed => ?_
    split
    · exact pure
    · refine (orBlocker same (Keeps.bind read fun _ => pure)).bind fun planned => ?_
      split
      · exact pure
      · exact orBlocker same (exportReceipt.bind fun _ => pure)
  exact ensures.bind fun _ => pure

theorem releaseTargetOnly (op : Operation) :
    Keeps id state (Coordinator.releaseTargetOnly op) := by
  unfold Coordinator.releaseTargetOnly
  split
  · exact access rfl
  · exact pure

end Keeps

def Unclaimed (q : Queue) : Prop := ∀ id c, q.claims.get id = some c → c.status = .completed

theorem discardPending_of_unclaimed {q : Queue} (valid : loadForTopology q = .ok q)
    (unclaimed : Unclaimed q) (id : String) : (discardPending id q).1 = .ok () := by
  have idle : ∀ id status, status ≠ .completed → hasStatus q id status = false := by
    intro id status other
    rw [Bool.eq_false_iff]
    intro has
    obtain ⟨c, found, same⟩ := hasStatus_iff.mp has
    exact other (same.symm.trans (unclaimed id c found))
  unfold loadForTopology at valid
  split at valid
  · cases valid
  · next data loaded =>
    obtain rfl := loadUnlocked_ok loaded
    split at valid
    · cases valid
    · next accepted =>
      have strict : validateStrictMutationTopology data = .ok () := by
        simp [validateStrictMutationTopology, accepted, idle _ .claimed]
      have free : validatePublicMutation data = .ok () := by
        have none_found : data.claims.sortedKeys.find?
            (fun id => hasStatus data id .claimed || hasStatus data id .requeued) = none := by
          simp [List.find?_eq_none, idle _ .claimed, idle _ .requeued]
        simp only [validatePublicMutation, strict, none_found]
      simp only [discardPending, loadForPublicMutation, loaded, free, Except.map]
      split <;> rfl

theorem discardPending_of_claimed {q : Queue} (claimed : ¬Unclaimed q) (id : String) :
    ∃ fault, discardPending id q = (.error fault, q) := by
  cases loaded : loadForPublicMutation q with
  | error fault => exact ⟨fault, by rw [discardPending, loaded]⟩
  | ok data => exact absurd (loadForPublicMutation_ok loaded).2 claimed

def afterDiscard (id : String) (result : Operation) : Program (Option Operation) := do
  Coordinator.releaseTargetOnly result
  ensureReceipt id
  pure (some result)

theorem finish_eq (id : String) (result : Operation) : finish id result =
    if result.state.isTerminalRecovery then
      QueueAccess.discardPending result.id >>= fun _ => afterDiscard id result
    else ensureReceipt id >>= fun _ => pure (some result) := by
  unfold finish releaseRuntimeIfTerminal
  split
  · simp only [Bool.false_eq_true, if_false, Coordinator.releaseOperation, afterDiscard,
      Prog.bind_eq, Prog.bind_assoc]
  · rfl

theorem finish_returned {id : String} {result : Operation} {inputs : Nat → Input}
    {w after : World} {value : Option Operation}
    (ran : (finish id result).exec effect inputs w = (.returned value, after)) :
    value = some result := by
  rw [finish, Prog.exec_bind] at ran
  split at ran
  · rw [Prog.exec_bind] at ran
    split at ran
    · cases ran
      rfl
    · cases ran
    · cases ran
  · cases ran
  · cases ran

theorem queueBlind_afterDiscard (id : String) (result : Operation) :
    QueueBlind (afterDiscard id result) := by
  refine (QueueBlind.releaseTargetOnly result).queueBlind.bind fun _ => ?_
  exact (QueueBlind.ensureReceipt id).bind fun _ => QueueBlind.pure

theorem keeps_afterDiscard (id : String) (result : Operation)
    (state : Option OperationState) : Keeps id state (afterDiscard id result) := by
  refine (Keeps.releaseTargetOnly result).bind fun _ => ?_
  exact Keeps.ensureReceipt.bind fun _ => Keeps.pure

def Agree {α : Type} (id : String) (run bare : Prog.Outcome Fault α × World) : Prop :=
  stateOf id run.2 = stateOf id bare.2 ∧ run.1.returns = bare.1.returns

theorem agree_blind {α : Type} {p : Program α} (blind : QueueBlind p) (id : String)
    (inputs : Nat → Input) (q q' : Queue) (w : World) :
    Agree id (p.exec effect inputs (w.withQueue q)) (p.exec effect inputs (w.withQueue q')) := by
  rw [blind.exec effect_withQueue, blind.exec effect_withQueue]
  exact ⟨rfl, rfl⟩

theorem exec_discard (result : Operation) (next : Program (Option Operation))
    (inputs : Nat → Input) (q : Queue) (w : World) :
    (QueueAccess.discardPending result.id >>= fun _ => next).exec effect inputs (w.withQueue q) =
      match (inputs 0).fault with
      | some fault => (.raised fault, w.withQueue q)
      | none => match (discardPending result.id q).1 with
        | .ok () => next.exec effect (fun n => inputs (n + 1))
            (w.withQueue (discardPending result.id q).2)
        | .error fault => (.raised fault, w.withQueue (discardPending result.id q).2) := by
  rw [QueueAccess.discardPending, access, Prog.exec_request_bind]
  cases faulted : (inputs 0).fault with
  | some fault => simp only [effect, faulted]
  | none =>
    simp only [effect, faulted, World.withQueue_queue]
    cases (discardPending result.id q).1 <;> rfl

section Independence

variable {call : Readmission} {fuel : Nat} {lease : LeaseRecord} {id : String} {w : World}

/-- The call ends in the lifecycle state it has with an empty queue. -/
def Independent (call : Readmission) (fuel : Nat) (lease : LeaseRecord) (id : String)
    (inputs : Nat → Input) (w : World) (q : Queue) : Prop :=
  Agree id ((call.untilDrain fuel lease id).exec effect inputs (w.withQueue q))
    ((call.untilDrain fuel lease id).exec effect inputs (w.withQueue .empty))

/-- With an empty queue the call comes through the release. -/
def Releases (call : Readmission) (fuel : Nat) (lease : LeaseRecord) (id : String)
    (inputs : Nat → Input) (w : World) : Bool :=
  match (call.untilDrain fuel lease id).exec effect inputs (w.withQueue .empty) with
  | (.returned (some result), _) => result.state.isTerminalRecovery
  | _ => false

theorem agree_finish_iff {q : Queue} (valid : loadForTopology q = .ok q) (result : Operation)
    (inputs : Nat → Input) :
    Agree id ((finish id result).exec effect inputs (w.withQueue q))
        ((finish id result).exec effect inputs (w.withQueue .empty)) ↔
      Unclaimed q ∨ ¬(result.state.isTerminalRecovery = true ∧
        ((finish id result).exec effect inputs (w.withQueue .empty)).1.returns = true) := by
  rw [finish_eq]
  by_cases terminal : result.state.isTerminalRecovery = true
  · have bare : (discardPending result.id Queue.empty).1 = .ok () :=
      discardPending_of_unclaimed rfl (fun _ _ found => by cases found) result.id
    simp only [terminal, if_true, true_and, exec_discard, bare]
    cases faulted : (inputs 0).fault with
    | some fault =>
      simp only [Prog.Outcome.returns, Bool.false_eq_true, not_false_eq_true, or_true, iff_true]
      exact ⟨rfl, rfl⟩
    | none =>
      by_cases unclaimed : Unclaimed q
      · have free := discardPending_of_unclaimed valid unclaimed result.id
        simp only [free, unclaimed, true_or, iff_true]
        exact agree_blind (queueBlind_afterDiscard id result) id _ _ _ w
      · obtain ⟨fault, refused⟩ := discardPending_of_claimed unclaimed result.id
        simp only [refused, unclaimed, false_or]
        -- The refused call stops with the state it has, which the rest would have kept.
        have kept := keeps_afterDiscard id result (stateOf id w) (fun n => inputs (n + 1))
          (w.withQueue (discardPending result.id .empty).2) rfl
        rw [Bool.not_eq_true]
        exact ⟨fun agree => agree.2.symm, fun raised => ⟨kept.symm, raised.symm⟩⟩
  · have stays : QueueBlind (ensureReceipt id >>= fun _ =>
        (pure (some result) : Program (Option Operation))) :=
      (QueueBlind.ensureReceipt id).bind fun _ => QueueBlind.pure
    rw [if_neg terminal]
    have same := agree_blind stays id inputs q .empty w
    exact ⟨fun _ => .inr fun ended => terminal ended.1, fun _ => same⟩

/-- A read-only operation is resumed as with an empty queue exactly when no operation holds a
claim or waits after one, or when there is nothing to release. -/
theorem readmission_independent_iff (call : Readmission) (fuel : Nat) (lease : LeaseRecord)
    {id : String} {w : World} {op : Operation} {q : Queue}
    (found : w.operations.get id = some op) (readOnly : isMutatingMode op.mode = false)
    (valid : loadForTopology q = .ok q) (inputs : Nat → Input) :
    Independent call fuel lease id inputs w q ↔
      Unclaimed q ∨ Releases call fuel lease id inputs w = false := by
  unfold Independent Releases
  rw [exec_untilDrain (w := w.withQueue q) found readOnly,
    exec_untilDrain (w := w.withQueue .empty) found readOnly]
  have blind := queueBlind_untilRelease call fuel lease id
  simp only [Prog.exec_bind, blind.exec effect_withQueue, blind.steps effect_withQueue]
  generalize (call.untilRelease fuel lease id).exec effect inputs w = run
  obtain ⟨outcome, after⟩ := run
  cases outcome with
  | returned result =>
    dsimp only
    rw [agree_finish_iff valid]
    refine or_congr_right ?_
    split
    · next ended last ran =>
      cases finish_returned ran
      simp [ran, Prog.Outcome.returns]
    · next other =>
      refine ⟨fun _ => rfl, fun _ ended => ?_⟩
      obtain ⟨value, last, ran⟩ := Prog.exists_of_returns ended.2
      obtain rfl := finish_returned ran
      exact other result last ran
  | raised fault => exact ⟨fun _ => .inr rfl, fun _ => ⟨rfl, rfl⟩⟩
  | halted => exact ⟨fun _ => .inr rfl, fun _ => ⟨rfl, rfl⟩⟩

end Independence

def observing : PlanRequest :=
  { PlanRequest.applying "a" [] ⟨0, [], []⟩ with mode := "observe" }

def pausedObservation : World :=
  { World.empty with
    operations := Dict.set ∅ "op-a" { observing.operation with state := .paused, revision := 1 }
    plans := Dict.set ∅ "op-a" observing.plan }

def ruled : Input :=
  { Input.agreeing 0 "f" with
    profile := some ⟨"profile", fun _ => .steps [.step (.requireMapping "report" none)]⟩ }

def claimedElsewhere : Queue :=
  ⟨[], Dict.set ∅ "op-b"
    (newClaim "op-b" QueueDrain.secondWorker.credential 1 120000000 0 none)⟩

/-- The observation is brought to its end, and its release is refused. -/
theorem claimed_elsewhere_refuses :
    loadForTopology claimedElsewhere = .ok claimedElsewhere ∧
      claimedElsewhere.claims.keys = ["op-b"] ∧
      ¬Independent .resume 4 QueueDrain.secondWorker "op-a" (fun _ => ruled)
        pausedObservation claimedElsewhere :=
  ⟨rfl, rfl, fun independent => absurd independent.2 (by decide +kernel)⟩

theorem paused_observation_independent :
    Independent .resume 4 QueueDrain.secondWorker "op-a" (fun _ => ruled)
      pausedObservation ⟨["op-b"], ∅⟩ :=
  (readmission_independent_iff .resume 4 QueueDrain.secondWorker rfl rfl rfl _).mpr
    (.inl fun _ _ found => by cases found)

end RExecOp.ReadOnlyIndependence
