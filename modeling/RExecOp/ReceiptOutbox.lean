import RExecOp.Calls

/-! The receipt outbox: an operation that has ended has a receipt of its last
transition, or is marked as still to be exported, or has a recorded blocker. -/

namespace RExecOp.ReceiptOutbox

open Attempts (Attempt)

variable {w after : World} {op : Operation}

/-- What keeps an ended operation from being forgotten. -/
def Accounted (w : World) (op : Operation) : Prop :=
  w.Receipted op ∨ World.isProjectionPending op = true ∨ op.recoveryBlocker.isSome = true

theorem receipted_iff_any : w.Receipted op ↔
    (w.receipts.get op.id).any (·.history = op.history) = true := by
  simp [World.Receipted, Option.any_eq_true]

instance (w : World) (op : Operation) : Decidable (Accounted w op) :=
  have : Decidable (w.Receipted op) := decidable_of_iff' _ receipted_iff_any
  inferInstanceAs (Decidable (_ ∨ _ ∨ _))

structure Inv (w : World) : Prop where
  consistent : Consistent w
  accounted : ∀ id op, w.operations.get id = some op → op.state.isTerminalReceipt = true →
    Accounted w op

/-- Startup recovery ends only operations whose marker is pending. -/
def terms : Terms where
  allowsInput
    | .saveOperation _ op, _, w => ∀ base, w.operations.get op.id = some base →
      base.state.isActive = true → op.isInterrupted = true → op.state.isTerminalReceipt = true →
        World.isProjectionPending op = true
    | _, _, _ => True
  allowsPause _ _ _ := True
  allowsCrash _ _ := True
  rest := Inv
  promise _ _ _ := True

theorem Accounted.of_receipts (accounted : Accounted w op)
    (receipts : after.receipts = w.receipts) :
    Accounted after op := by
  rw [Accounted, World.Receipted, receipts]
  exact accounted

theorem Accounted.of_core {base op : Operation} (accounted : Accounted w base)
    (same : op.core = base.core) : Accounted w op := by
  have id : op.id = base.id := congrArg Core.id same
  have history : op.history = base.history := congrArg Core.history same
  have projection : op.projection = base.projection := congrArg Core.projection same
  have blocker : op.recoveryBlocker = base.recoveryBlocker := congrArg Core.recoveryBlocker same
  rw [Accounted, World.Receipted, World.isProjectionPending, id, history, projection, blocker]
  exact accounted

theorem Outboxed.accounted {base op : Operation} (outboxed : Outboxed w base op)
    (kept : base.state.isTerminalReceipt = true → Accounted w base)
    (ended : op.state.isTerminalReceipt = true)
    (recovery : base.state.isActive = true → op.isInterrupted = true →
      World.isProjectionPending op = true) :
    Accounted w op := by
  cases outboxed with
  | pending marker => exact .inr (.inl marker)
  | blocked blocker => exact .inr (.inr blocker)
  | exported receipt => exact .inl receipt
  | kept same =>
    have state : op.state = base.state := congrArg Core.state same
    exact (kept (state ▸ ended)).of_core same
  | interrupted active recovered => exact .inr (.inl (recovery active recovered))

theorem inv_of_same (inv : Inv w) (consistent : Consistent after)
    (operations : after.operations = w.operations) (receipts : after.receipts = w.receipts) :
    Inv after := by
  refine ⟨consistent, fun id op found ended => ?_⟩
  exact (inv.accounted id op (operations ▸ found) ended).of_receipts receipts

theorem inv_put {w : World} {op : Operation} (inv : Inv w)
    (consistent : Consistent (w.put op.stored))
    (own : op.state.isTerminalReceipt = true → Accounted w op) : Inv (w.put op.stored) := by
  refine ⟨consistent, fun id other found ended => ?_⟩
  rcases put_get found with ⟨-, rfl⟩ | kept
  · exact own ended
  · exact inv.accounted id other kept ended

theorem inv_receipted (inv : Inv w) (exportable : w.Exportable op)
    (consistent : Consistent { w with receipts := w.receipts.set op.id op }) :
    Inv { w with receipts := w.receipts.set op.id op } := by
  refine ⟨consistent, fun id other found ended => ?_⟩
  have keyed : other.id = id := inv.consistent.keyed found
  by_cases same : other.id = op.id
  · have here : w.operations.get op.id = some other := by rw [← same, keyed]; exact found
    refine .inl ⟨op, ?_, (exportable other here ended).symm⟩
    rw [same]
    exact Dict.get_set_self _ _ _
  · rcases inv.accounted id other found ended with ⟨source, exported, history⟩ | rest
    · exact .inl ⟨source, (Dict.get_set_ne _ _ same).trans exported, history⟩
    · exact .inr rest

theorem inv_change {G : Grounds} {i : Input} {command : Command} (inv : Inv w)
    (allowed : terms.allowsInput command i w) (change : Change G i w command after) :
    Inv after := by
  have consistent := consistent_change inv.consistent change
  cases change with
  | @saved site base op found level legal =>
    refine inv_put inv consistent fun ended => ?_
    exact Outboxed.accounted (legal.outboxed ended) (inv.accounted op.id base found) ended
      fun active recovered => allowed base found active recovered ended
  | @created site op absent fresh =>
    refine inv_put inv consistent fun ended => ?_
    have unexecuted := fresh.unexecuted
    cases state : op.state <;>
      simp_all [OperationState.isTerminalReceipt, OperationState.isExecuted]
  | receipted exportable => exact inv_receipted inv exportable consistent
  | locked legal =>
    rw [acquireLock_operations] at consistent ⊢
    exact inv_of_same inv consistent rfl rfl
  | unlocked legal =>
    rw [releaseLock_operations] at consistent ⊢
    exact inv_of_same inv consistent rfl rfl
  | _ => exact inv_of_same inv consistent rfl rfl

theorem inv_pause (inv : Inv w) (id : String) : Inv (w.pause id) := by
  have consistent := consistent_pause inv.consistent id
  refine ⟨consistent, fun other op found ended => ?_⟩
  rcases pause_get inv.consistent found with kept | ⟨-, base, -, -, rfl⟩
  · exact (inv.accounted other op kept ended).of_receipts (pause_receipts w id)
  · cases ended

def regime : Regime terms where
  inv := Inv
  consistent inv := inv.consistent
  crash inv _ := inv
  pause inv _ := inv_pause inv _
  grounds := ⟨fun _ => True, False, True⟩
  legal inv allowed legal outside := inv_change inv allowed (change_effect legal outside)
  issues _ _ _ := trivial
  still := False.elim

theorem regime_journal {record : Attempt} (inv : regime.inv w)
    (found : w.operations.get record.operationId = some op)
    (executed : op.state.isExecuted = true) : regime.inv (w.putAttempt record) :=
  inv_of_same inv (consistent_putAttempt inv.consistent found executed) rfl rfl

theorem plain : regime.Plain where
  promised := trivial
  journal inv found executed _ := regime_journal inv found executed
  dispatch {w i command} inv dispatches := by
    cases command with
    | dispatch =>
      exact inv_of_same inv
        (consistent_of_same inv.consistent rfl (fun _ plan here => ⟨plan, here⟩) rfl) rfl rfl
    | _ => simp [Command.isDispatch] at dispatches
  progress {w latest cursor run} inv found := by
    refine @inv_put w (recordProgress latest cursor run) inv
      (consistent_rewrite inv.consistent found fun ran => ran) fun ended => ?_
    exact inv.accounted latest.id latest found ended

theorem runsSteps : regime.RunsSteps :=
  (plain.journaling fun inv operationId stepId effectful _ _ =>
    plain.leads_start regime_journal inv operationId stepId effectful).runsSteps fun inv => inv

theorem inv_empty : Inv World.empty :=
  ⟨consistent_empty, fun _ _ found => by simp [World.empty] at found⟩

/-- Every operation that has ended is accounted for, in every store of a run. -/
theorem ended_accounted (events : List SystemEvent)
    (meets : terms.Meets (fun _ => True) System.start events) {id : String} {op : Operation}
    (found : (System.start.run events).store.operations.get id = some op)
    (ended : op.state.isTerminalReceipt = true) :
    Accounted (System.start.run events).store op := by
  have sound : terms.setting.Sound (System.start.run events) :=
    Regime.sound_run runsSteps trivial (fun _ _ _ => plain.marksLost) (fun rest => rest) inv_empty
      meets
  have inv : Inv (System.start.run events).store :=
    Terms.rest_of_sound (fun _ _ => trivial) sound
  exact inv.accounted id op found ended

def interruptedEvents (first : PlannedStep) (accesses : Nat) : List SystemEvent :=
  (Call.plan { PlanRequest.applying "1" [] ⟨0, [], []⟩ with
      plannedSteps := [first, ⟨"second", .connector, "act", "ssh", true, false⟩] }).events 13
        (.agreeing 1 "a") ++
    (Call.advance 5 "op-1" 1).events accesses (.agreeing 2 "b") ++
    (Call.recover 3 true).events 30 (.agreeing 3 "c")

def connectorEvents : List SystemEvent :=
  interruptedEvents ⟨"first", .connector, "act", "ssh", true, false⟩ 45

def reportEvents : List SystemEvent :=
  interruptedEvents ⟨"report", .evidence, "produce_receipt", "", true, false⟩ 36

def endsPending (m : System) : SystemEvent → Bool
  | .input _ => match m.running with
    | some (.access (.saveOperation _ op) _) =>
      !(m.store.operations.get op.id).any (·.state.isActive) || !op.isInterrupted ||
        World.isProjectionPending op
    | _ => true
  | _ => true

theorem allows_of_endsPending (m : System) (event : SystemEvent) (ok : endsPending m event = true) :
    terms.setting.Allows (fun _ _ => True) m event := by
  obtain ⟨store, running⟩ := m
  cases event with
  | call c => exact fun _ => trivial
  | crash => trivial
  | intrude paused => trivial
  | input i =>
    match running with
    | none => trivial
    | some (.ret _) => trivial
    | some (.raise _) => trivial
    | some .halt => trivial
    | some (.access command next) =>
      cases command with
      | saveOperation site op =>
        intro base found active recovered _
        simpa [endsPending, found, active, recovered] using ok
      | _ => trivial

theorem connectorRun_accounted :
    ∃ op, (System.start.run connectorEvents).store.operations.get "op-1" = some op ∧
      op.state = .failed ∧ op.isInterrupted = true ∧
      Accounted (System.start.run connectorEvents).store op := by
  have failed : ∃ op ∈ (System.start.run connectorEvents).store.operations.get "op-1",
      op.state = .failed ∧ op.isInterrupted = true := by
    decide +kernel
  obtain ⟨op, found, state, interrupted⟩ := failed
  refine ⟨op, found, state, interrupted, ?_⟩
  exact ended_accounted connectorEvents
    (Terms.meets_of_checks allows_of_endsPending (by decide +kernel)) found (by rw [state]; rfl)

theorem reportRun_unaccounted :
    ∃ op, (System.start.run reportEvents).store.operations.get "op-1" = some op ∧
      op.state = .failed ∧ ¬Accounted (System.start.run reportEvents).store op := by
  change ∃ op ∈ (System.start.run reportEvents).store.operations.get "op-1", _
  decide +kernel

end RExecOp.ReceiptOutbox
