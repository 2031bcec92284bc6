import RExecOp.Supersession

/-! Operations on one target exclude each other: an active operation that uses its target's lock
has it. -/

namespace RExecOp.TargetExclusion

open Attempts (Attempt)
open Coordinator (usesTargetLock)

def Guarded (w : World) : Prop :=
  ∀ id op, w.operations.get id = some op → op.state.isActive = true →
    usesTargetLock op = true → w.HoldsLock op

structure Inv (w : World) : Prop where
  consistent : Consistent w
  guarded : Guarded w

/-- No pause reaches an operation that recovery has taken back to running. -/
def terms : Terms where
  allowsInput _ _ _ := True
  allowsPause _ id w := ∀ op, w.operations.get id = some op → op.state = .running →
    op.isInterrupted = false
  allowsCrash _ _ := True
  rest := Inv
  promise _ _ _ := True

theorem guarded_of_same {w after : World} (guarded : Guarded w)
    (operations : after.operations = w.operations) (locks : after.locks = w.locks) :
    Guarded after := by
  intro id op found active uses
  exact holdsLock_congr locks (guarded id op (operations ▸ found) active uses)

theorem guarded_put {w : World} {base op : Operation} (guarded : Guarded w)
    (found : w.operations.get op.id = some base) (binding : SameBinding base.core op.core)
    (locked : base.state.isActive = false → op.state.isActive = true →
      usesTargetLock op = true → w.HoldsLock op) : Guarded (w.put op.stored) := by
  intro id other here active uses
  have kept : (w.put op.stored).locks = w.locks := rfl
  rcases put_get here with ⟨-, rfl⟩ | stored
  · have owned : w.HoldsLock op := by
      cases before : base.state.isActive with
      | true =>
        have needs : usesTargetLock base = true := usesTargetLock_congr binding ▸ uses
        exact holdsLock_binding binding (guarded op.id base found before needs)
      | false => exact locked before active uses
    exact holdsLock_congr kept owned
  · exact holdsLock_congr kept (guarded id other stored active uses)

theorem guarded_create {w : World} {op : Operation} (guarded : Guarded w)
    (unexecuted : op.state.isExecuted = false) : Guarded (w.put op.stored) := by
  intro id other here active uses
  have kept : (w.put op.stored).locks = w.locks := rfl
  rcases put_get here with ⟨-, rfl⟩ | stored
  · change op.state.isActive = true at active
    cases state : op.state <;> simp_all [OperationState.isActive, OperationState.isExecuted]
  · exact holdsLock_congr kept (guarded id other stored active uses)

theorem guarded_acquireLock {w : World} {environment target id : String}
    (consistent : Consistent w) (guarded : Guarded w) :
    Guarded (w.acquireLock environment target id).2 := by
  have taken : (∀ record, w.readLock environment target = some record →
      w.isLockStale record = true) → Guarded { w with
        locks :=
          w.locks.set (World.lockFilename environment target) ⟨id, environment, target⟩ } := by
    intro stale other op here active uses
    obtain ⟨record, held, own⟩ := guarded other op here active uses
    by_cases file : World.lockFilename op.environment op.target =
        World.lockFilename environment target
    · have inactive := Regime.inactive_of_isLockStale consistent
        (stale record (by rw [World.readLock, ← file]; exact held))
      rw [own, consistent.keyed here] at inactive
      rw [inactive op here] at active
      cases active
    · exact ⟨record, (Dict.get_set_ne _ _ file).trans held, own⟩
  unfold World.acquireLock
  dsimp only
  split
  · rename_i existing here
    split
    · rename_i stale
      refine taken fun record found => ?_
      have same : existing = record := Option.some.inj (here.symm.trans found)
      exact same ▸ stale
    · exact guarded
  · rename_i free
    refine taken fun record found => ?_
    rw [free] at found
    cases found

theorem guarded_releaseLock {w : World} {environment target id : String}
    (consistent : Consistent w) (guarded : Guarded w) (inactive : w.Inactive id) :
    Guarded (w.releaseLock environment target id) := by
  unfold World.releaseLock
  split
  · rename_i existing there
    split
    · rename_i owned
      intro other op here active uses
      obtain ⟨record, held, own⟩ := guarded other op here active uses
      by_cases file : World.lockFilename op.environment op.target =
          World.lockFilename environment target
      · have same : existing = record := by
          rw [World.readLock, file] at held
          exact Option.some.inj (there.symm.trans held)
        rw [same, own, consistent.keyed here, Bool.or_eq_true, beq_iff_eq, beq_iff_eq] at owned
        rcases owned with unnamed | rfl
        · exact absurd unnamed (consistent.named here)
        · rw [inactive op here] at active
          cases active
      · exact ⟨record, (Dict.get_remove_ne _ file).trans held, own⟩
    · exact guarded
  · exact guarded

theorem guarded_change {G : Grounds} (undisturbed : G.undisturbed) {i : Input} {w after : World}
    {command : Command} (inv : Inv w) (change : Change G i w command after) : Guarded after := by
  cases change with
  | saved found level legal =>
    exact guarded_put inv.guarded found legal.evolves.toSameBinding legal.locked
  | created absent fresh => exact guarded_create inv.guarded fresh.unexecuted
  | locked legal => exact guarded_acquireLock inv.consistent inv.guarded
  | unlocked legal => exact guarded_releaseLock inv.consistent inv.guarded (legal undisturbed)
  | _ => exact guarded_of_same inv.guarded rfl rfl

theorem inv_pause {w : World} (inv : Inv w) (id : String) : Inv (w.pause id) := by
  refine ⟨consistent_pause inv.consistent id, ?_⟩
  rcases pause_cases w inv.consistent id with same | ⟨op, found, running, evolves, named, saved⟩
  · rw [same]
    exact inv.guarded
  · rw [saved]
    have stored : w.operations.get op.pausing.id = some op := by
      rw [← found, ← named]
      rfl
    refine guarded_put inv.guarded stored evolves.toSameBinding fun resting => ?_
    rw [running] at resting
    cases resting

def regime : Regime terms where
  inv := Inv
  consistent inv := inv.consistent
  crash inv _ := inv
  pause inv _ := inv_pause inv _
  grounds := ⟨fun _ => True, True, True⟩
  legal {command i w} inv _ legal outside := by
    have change := @change_effect _ i w command legal outside
    exact ⟨consistent_change inv.consistent change, guarded_change trivial inv change⟩
  issues _ _ _ := trivial
  still _ {command id w op} allowed found running := allowed op found running

theorem regime_journal {w : World} {record : Attempt} {op : Operation} (inv : regime.inv w)
    (found : w.operations.get record.operationId = some op)
    (executed : op.state.isExecuted = true) : regime.inv (w.putAttempt record) :=
  ⟨consistent_putAttempt inv.consistent found executed, guarded_of_same inv.guarded rfl rfl⟩

theorem plain : regime.Plain where
  promised := trivial
  journal inv found executed _ := regime_journal inv found executed
  dispatch {w i command} inv dispatches := by
    cases command with
    | dispatch =>
      exact ⟨consistent_of_same inv.consistent rfl (fun _ plan here => ⟨plan, here⟩) rfl,
        guarded_of_same inv.guarded rfl rfl⟩
    | _ => simp [Command.isDispatch] at dispatches
  progress {w latest cursor run} inv found := by
    refine ⟨consistent_rewrite inv.consistent found fun ran => ran, ?_⟩
    refine @guarded_put w latest (recordProgress latest cursor run) inv.guarded found
      ⟨rfl, rfl, rfl, rfl, rfl⟩ fun resting active => ?_
    cases resting.symm.trans active

theorem runsSteps : regime.RunsSteps :=
  (plain.journaling fun inv operationId stepId effectful _ _ =>
    plain.leads_start regime_journal inv operationId stepId effectful).runsSteps fun inv => inv

theorem inv_empty : Inv World.empty :=
  ⟨consistent_empty, fun _ _ found => by simp [World.empty] at found⟩

theorem reached (events : List SystemEvent)
    (meets : terms.Meets (fun _ => True) System.start events) :
    Inv (System.start.run events).store := by
  have sound : terms.setting.Sound (System.start.run events) :=
    Regime.sound_run runsSteps trivial (fun _ _ _ => plain.marksLost) (fun rest => rest) inv_empty
      meets
  exact Terms.rest_of_sound (fun _ _ => trivial) sound

/-- No two operations that change the same target are active at once. -/
theorem target_exclusive (events : List SystemEvent)
    (meets : terms.Meets (fun _ => True) System.start events) {id other : String}
    {op rival : Operation}
    (found : (System.start.run events).store.operations.get id = some op)
    (there : (System.start.run events).store.operations.get other = some rival)
    (distinct : id ≠ other) (mutates : isMutatingMode op.mode = true)
    (changes : isMutatingMode rival.mode = true)
    (locks : op.runtimePolicy.targetLockEnabled = true)
    (guards : rival.runtimePolicy.targetLockEnabled = true)
    (environment : op.environment = rival.environment) (target : op.target = rival.target) :
    ¬(op.state.isActive = true ∧ rival.state.isActive = true) := by
  rintro ⟨active, alive⟩
  have inv := reached events meets
  have uses : usesTargetLock op = true := by simp [usesTargetLock, mutates, locks]
  have needs : usesTargetLock rival = true := by simp [usesTargetLock, changes, guards]
  obtain ⟨record, held, own⟩ := inv.guarded id op found active uses
  obtain ⟨second, kept, owned⟩ := inv.guarded other rival there alive needs
  rw [environment, target] at held
  have same : record = second := Option.some.inj (held.symm.trans kept)
  apply distinct
  rw [← inv.consistent.keyed found, ← inv.consistent.keyed there, ← own, ← owned, same]

def request (suffix : String) : PlanRequest :=
  { PlanRequest.applying suffix ["first", "second"] ⟨0, [], []⟩ with
    runtimePolicy := ⟨2, true, false⟩ }

def pausedEvents : List SystemEvent :=
  (Call.plan (request "1")).events 13 (.agreeing 1 "a") ++
    (Call.plan (request "2")).events 13 (.agreeing 1 "b") ++
    (Call.start 5 "op-1").events 42 (.agreeing 2 "c") ++ [.intrude "op-1"] ++
    List.replicate 6 (.input (.agreeing 2 "c"))

def waitingEvents : List SystemEvent :=
  pausedEvents ++ (Call.start 5 "op-2").events 11 (.agreeing 3 "d")

def disturbedEvents : List SystemEvent :=
  pausedEvents ++ (Call.recover 500000000 false).events 11 (.agreeing 500000000 "d") ++
    [.intrude "op-1"] ++ List.replicate 11 (.input (.agreeing 500000000 "d")) ++
    (Call.start 5 "op-2").events 15 (.agreeing 500000001 "e")

def undisturbed (m : System) : SystemEvent → Bool
  | .intrude id => (m.store.operations.get id).all fun op =>
    op.state != .running || !op.isInterrupted
  | _ => true

theorem allows_of_undisturbed (m : System) (event : SystemEvent) (ok : undisturbed m event = true) :
    terms.setting.Allows (fun _ _ => True) m event := by
  cases event with
  | call c => exact fun _ => trivial
  | crash => trivial
  | input i =>
    simp only [Setting.Allows]
    split <;> trivial
  | intrude id =>
    intro op found running
    simpa [undisturbed, found, running] using ok

def summary (w : World) (id : String) : Option (OperationState × String × String × String × Bool) :=
  (w.operations.get id).map fun op =>
    (op.state, op.mode, op.environment, op.target, op.runtimePolicy.targetLockEnabled)

theorem paused_excludes :
    summary (System.start.run waitingEvents).store "op-1" =
        some (.paused, "apply", "lab", "host", true) ∧
      summary (System.start.run waitingEvents).store "op-2" =
        some (.approved, "apply", "lab", "host", true) ∧
      ∃ op rival, (System.start.run waitingEvents).store.operations.get "op-1" = some op ∧
        (System.start.run waitingEvents).store.operations.get "op-2" = some rival ∧
        ¬(op.state.isActive = true ∧ rival.state.isActive = true) := by
  have first : summary (System.start.run waitingEvents).store "op-1" =
      some (.paused, "apply", "lab", "host", true) := by decide +kernel
  have second : summary (System.start.run waitingEvents).store "op-2" =
      some (.approved, "apply", "lab", "host", true) := by decide +kernel
  obtain ⟨op, found, fields⟩ := Option.map_eq_some_iff.mp first
  obtain ⟨rival, there, others⟩ := Option.map_eq_some_iff.mp second
  simp only [Prod.mk.injEq] at fields others
  obtain ⟨-, mode, environment, target, locks⟩ := fields
  obtain ⟨-, rivalMode, rivalEnvironment, rivalTarget, rivalLocks⟩ := others
  refine ⟨first, second, op, rival, found, there, ?_⟩
  exact target_exclusive waitingEvents
    (Terms.meets_of_checks allows_of_undisturbed (by decide +kernel)) found there (by decide)
    (by rw [mode]; decide) (by rw [rivalMode]; decide) locks rivalLocks
    (environment.trans rivalEnvironment.symm) (target.trans rivalTarget.symm)

theorem disturbed_recovery_admits_both :
    summary (System.start.run disturbedEvents).store "op-1" =
        some (.paused, "apply", "lab", "host", true) ∧
      summary (System.start.run disturbedEvents).store "op-2" =
        some (.running, "apply", "lab", "host", true) := by
  decide +kernel

/-- The first operation is approved between the two reads of `start`. -/
def approvedBetweenEvents : List (Supersession.Worker × SystemEvent) :=
  Supersession.Worker.does .first
      ((Call.plan (request "1")).events 13
          { Input.agreeing 1 "a" with decision := .approvalRequired } ++
        (Call.plan (request "2")).events 13 (.agreeing 1 "b") ++
        (Call.start 5 "op-1").events 3 (.agreeing 2 "c")) ++
    Supersession.Worker.does .second ((Call.approve "op-1").events 5 (.agreeing 2 "d")) ++
    Supersession.Worker.does .first (List.replicate 35 (.input (.agreeing 2 "c")) ++
      .intrude "op-1" :: List.replicate 7 (.input (.agreeing 2 "c"))) ++
    Supersession.Worker.does .second ((Call.start 5 "op-2").events 15 (.agreeing 3 "e"))

theorem approval_between_loads_admits_both :
    summary ((Supersession.Pair.start World.empty).run approvedBetweenEvents).store "op-1" =
        some (.paused, "apply", "lab", "host", true) ∧
      summary ((Supersession.Pair.start World.empty).run approvedBetweenEvents).store "op-2" =
        some (.running, "apply", "lab", "host", true) := by
  decide +kernel

end RExecOp.TargetExclusion
