import RExecOp.RecoverySettles
import RExecOp.TargetLock

/-! What the runtime root keeps along every run: calls in any order, any input at any access,
pauses in between and a crash between any two writes. -/

namespace RExecOp

open Attempts (Attempt)

variable {w after : World} {op base : Operation} {i : Input} {command : Command} {G : Grounds}
  {m : System}

/-- An invariant that every write keeps, whatever the inputs of the accesses. -/
structure RunInvariant (inv : World → Prop) : Prop where
  consistent : ∀ {w}, inv w → Consistent w
  change : ∀ {w after i command G}, inv w → Change G i w command after → inv after
  pause : ∀ {w} id, inv w → inv (w.pause id)
  journal : ∀ {w} {record : Attempt} {op}, inv w →
    w.operations.get record.operationId = some op → op.state.isExecuted = true →
    inv (w.putAttempt record)
  dispatch : ∀ {w} entry, inv w → inv { w with dispatched := entry :: w.dispatched }
  progress : ∀ {w latest cursor run}, inv w → w.operations.get latest.id = some latest →
    inv (w.put (recordProgress latest cursor run).stored)

namespace RunInvariant

variable {inv : World → Prop}

def terms (inv : World → Prop) : Terms := { Recovery.anyRun with rest := inv }

def regime (steady : RunInvariant inv) : Regime (terms inv) where
  inv := inv
  consistent := steady.consistent
  crash kept _ := kept
  pause kept _ := steady.pause _ kept
  grounds := ⟨fun _ => True, False, True⟩
  legal kept _ legal outside := steady.change kept (change_effect legal outside)
  issues _ _ _ := trivial
  still := False.elim

theorem plain (steady : RunInvariant inv) : steady.regime.Plain where
  promised := trivial
  journal kept found executed _ := steady.journal kept found executed
  dispatch {w i command} kept dispatches := by
    cases command with
    | dispatch operationId stepId effectful => exact steady.dispatch _ kept
    | _ => simp [Command.isDispatch] at dispatches
  progress kept found := steady.progress kept found

theorem meets (events : List SystemEvent) : (terms inv).Meets (fun _ => True) m events := by
  induction events generalizing m with
  | nil => trivial
  | cons event rest ih =>
    refine ⟨?_, ih⟩
    cases event with
    | input i =>
      simp only [Setting.Allows]
      split <;> trivial
    | _ => simp [Setting.Allows, Terms.setting, terms, Recovery.anyRun]

theorem reached (steady : RunInvariant inv) (idle : m.running = none) (holds : inv m.store)
    (events : List SystemEvent) : inv (m.run events).store := by
  have sound : (terms inv).setting.Sound m := by
    rw [Setting.Sound, idle]
    exact holds
  have runs : steady.regime.RunsSteps :=
    (steady.plain.journaling fun kept operationId stepId effectful _ _ =>
      steady.plain.leads_start steady.journal kept operationId stepId effectful).runsSteps
        fun kept => kept
  exact Terms.rest_of_sound (fun _ _ => trivial)
    (Regime.sound_run runs trivial (fun _ _ _ => steady.plain.marksLost) (fun rest => rest) sound
      (meets events))

end RunInvariant

structure Extends (w after : World) : Prop where
  later : Later w after
  final : ∀ {id op}, w.operations.get id = some op → op.state.allowedTransitions = [] →
    ∃ now, after.operations.get id = some now ∧ now.state = op.state
  attempts : ∀ {id attemptId}, (w.attempt id attemptId).isSome = true →
    (after.attempt id attemptId).isSome = true
  receipts : w.receipts.keys ⊆ after.receipts.keys

namespace Extends

theorem refl (w : World) : Extends w w :=
  ⟨.refl w, fun found _ => ⟨_, found, rfl⟩, id, .refl _⟩

theorem trans {w₁ w₂ w₃ : World} (first : Extends w₁ w₂) (second : Extends w₂ w₃) :
    Extends w₁ w₃ where
  later := first.later.trans second.later
  final found ended := by
    obtain ⟨mid, here, same⟩ := first.final found ended
    obtain ⟨last, there, still⟩ := second.final here (same ▸ ended)
    exact ⟨last, there, still.trans same⟩
  attempts found := second.attempts (first.attempts found)
  receipts := List.Subset.trans first.receipts second.receipts

theorem of_same (later : Later w after) (operations : after.operations = w.operations)
    (attempts : ∀ {id attemptId}, (w.attempt id attemptId).isSome = true →
      (after.attempt id attemptId).isSome = true)
    (receipts : w.receipts.keys ⊆ after.receipts.keys) : Extends w after :=
  ⟨later, fun found _ => ⟨_, operations ▸ found, rfl⟩, attempts, receipts⟩

theorem put (found : w.operations.get op.id = some base) (follows : Follows base op)
    (final : base.state.allowedTransitions = [] → op.state = base.state) :
    Extends w (w.put op) := by
  refine ⟨later_put found follows, fun {id other} here ended => ?_, fun kept => kept, .refl _⟩
  by_cases own : id = op.id
  · subst own
    have same : base = other := Option.some.inj (found.symm.trans here)
    subst same
    exact ⟨op, Dict.get_set_self _ _ _, final ended⟩
  · exact ⟨other, (Dict.get_set_ne _ _ own).trans here, rfl⟩

end Extends

theorem Evolves.final (evolves : Evolves base op) (ended : base.state.allowedTransitions = []) :
    op.state = base.state := by
  rcases evolves.state with same | allowed | ⟨planned, -⟩
  · exact same
  · rw [show base.core.state = base.state from rfl, ended] at allowed
    cases allowed
  · rw [show base.state = .planned from planned] at ended
    cases ended

theorem extends_change (change : Change G i w command after) : Extends w after := by
  have later := later_change change
  have attempts : ∀ {id attemptId}, (w.attempt id attemptId).isSome = true →
      (after.attempt id attemptId).isSome = true := by
    intro id attemptId found
    rw [attempt_congr (attempts_change change)]
    exact found
  cases change with
  | saved found level legal =>
    exact .put found legal.evolves.follows fun ended => legal.evolves.final ended
  | @created site op absent fresh =>
    refine ⟨later, fun {id other} here _ => ?_, attempts, .refl _⟩
    have own : id ≠ op.id := fun same => by
      rw [same, absent] at here
      cases here
    exact ⟨other, (Dict.get_set_ne _ _ own).trans here, rfl⟩
  | receipted => exact .of_same later rfl attempts (Dict.keys_subset_set _ _ _)
  | locked legal =>
    rw [acquireLock_operations] at later attempts ⊢
    exact .of_same later rfl attempts (.refl _)
  | unlocked legal =>
    rw [releaseLock_operations] at later attempts ⊢
    exact .of_same later rfl attempts (.refl _)
  | _ => exact .of_same later rfl attempts (.refl _)

theorem extends_pause (consistent : Consistent w) (id : String) : Extends w (w.pause id) := by
  rcases pause_cases w consistent id with same | ⟨op, found, running, evolves, named, saved⟩
  · rw [same]
    exact .refl w
  · rw [saved]
    subst named
    exact .put found evolves.follows fun ended => evolves.final ended

theorem extends_putAttempt (w : World) (record : Attempt) : Extends w (w.putAttempt record) := by
  refine .of_same (later_putAttempt w record) rfl ?_ (.refl _)
  intro id attemptId found
  rw [attempt_putAttempt]
  split
  · rfl
  · exact found

theorem runInvariant_extends (start : World) :
    RunInvariant fun w => Consistent w ∧ Extends start w where
  consistent kept := kept.1
  change kept change :=
    ⟨consistent_change kept.1 change, kept.2.trans (extends_change change)⟩
  pause id kept := ⟨consistent_pause kept.1 id, kept.2.trans (extends_pause kept.1 id)⟩
  journal kept found executed :=
    ⟨consistent_putAttempt kept.1 found executed, kept.2.trans (extends_putAttempt _ _)⟩
  dispatch entry kept := by
    refine ⟨consistent_of_same kept.1 rfl (fun _ plan here => ⟨plan, here⟩) rfl, kept.2.trans ?_⟩
    exact .of_same (later_of_same rfl rfl rfl) rfl id (.refl _)
  progress kept found :=
    ⟨consistent_rewrite kept.1 found fun ran => ran,
      kept.2.trans (.put found (recordProgress_follows _ _ _) fun _ => rfl)⟩

/-- What a call has stored by its end stays: no record disappears or goes back to an older
revision, no binding changes, and an ended operation is never taken up again. -/
theorem left_behind_kept (before more : List SystemEvent)
    (idle : (System.start.run before).running = none) :
    Consistent (System.start.run (before ++ more)).store ∧
      Extends (System.start.run before).store (System.start.run (before ++ more)).store := by
  have consistent := (Recovery.reached before).1
  have appended : System.start.run (before ++ more) = (System.start.run before).run more :=
    List.foldl_append
  rw [appended]
  exact (runInvariant_extends _).reached idle ⟨consistent, .refl _⟩ more

/-- The process is lost while a connector runs; recovery loses nothing of it. -/
theorem lost_run_kept :
    ((System.start.run Recovery.lostEvents).store.operations.get "op-1").map (·.state) =
        some .running ∧
      Extends (System.start.run Recovery.lostEvents).store
        (System.start.run (Recovery.lostEvents ++
          (Call.recover 500000000 true).events 30 (.agreeing 500000000 "c"))).store :=
  ⟨by decide +kernel,
    (left_behind_kept _ _ (Option.isNone_iff_eq_none.mp (by decide +kernel))).2⟩

namespace TargetLock

variable (text : Value → String) (stamp : Input → String) {dir : LockDir}

def lockFiles (i : Input) (w : World) (dir : LockDir) : Command → LockDir
  | .acquireLock environment target id => if i.fault.isSome then dir
    else (acquire text (loaderOf w) (stamp i) dir environment target id).2
  | .releaseLock environment target id => if i.fault.isSome then dir
    else (release text dir environment target id).2
  | _ => dir

def lockFilesAfter (m : System) (dir : LockDir) : List SystemEvent → LockDir
  | [] => dir
  | event :: rest => lockFilesAfter (m.run [event]) (match event, m.running with
    | .input i, some (.access command _) => lockFiles text stamp i m.store dir command
    | _, _ => dir) rest

theorem represents_congr (represents : Represents dir w) (same : after.locks = w.locks) :
    Represents dir after := by
  intro file
  rw [same]
  exact represents file

theorem represents_perform (represents : Represents dir w) (sound : i.fault = none) :
    Represents (lockFiles text stamp i w dir command) (w.perform i command) := by
  have congr := @represents_congr w (w.perform i command) dir represents
  cases command with
  | acquireLock e t id =>
    rw [lockFiles, sound]
    exact (acquire_represents represents (stamp i) e t id).2
  | releaseLock e t id =>
    rw [lockFiles, sound]
    exact (release_represents represents e t id).2
  | saveOperation site op =>
    obtain ⟨_, same⟩ := saveOperation_frame w op
    exact congr (by rw [World.perform, same])
  | writeLeaseEpoch | releaseLease | writePending =>
    refine congr ?_
    simp only [World.perform]
    split <;> rfl
  | finishAttempt | finishIndeterminate =>
    refine congr ?_
    simp only [World.perform, World.refinish]
    split <;> [rfl; split <;> rfl]
  | markIndeterminate =>
    refine congr ?_
    simp only [World.perform, World.markLost]
    split <;> [split <;> rfl; rfl]
  | _ => exact represents

theorem represents_effect (represents : Represents dir w) :
    Represents (lockFiles text stamp i w dir command) (effect command i w) := by
  cases fault : i.fault with
  | none =>
    rw [effect_faultless fault]
    exact represents_perform text stamp represents fault
  | some raised =>
    have same : lockFiles text stamp i w dir command = dir := by
      cases command <;> simp [lockFiles, fault]
    rw [same]
    refine represents_congr represents ?_
    unfold effect
    rw [fault]
    split <;> first | rfl | contradiction

theorem represents_run (events : List SystemEvent) (represents : Represents dir m.store) :
    Represents (lockFilesAfter text stamp m dir events) (m.run events).store := by
  induction events generalizing m dir with
  | nil => exact represents
  | cons event rest ih =>
    refine ih ?_
    obtain ⟨store, running⟩ := m
    cases event with
    | call c => cases running <;> exact represents
    | crash => exact represents
    | intrude paused => exact represents_congr represents (pause_locks store paused)
    | input i =>
      rcases running with _ | _ | _ | _ | ⟨command, next⟩
      case some.access => exact represents_effect text stamp represents
      all_goals exact represents

/-- The lock directory holds a file for each lock and nothing else, and both answer alike. -/
theorem lock_files_represent (events : List SystemEvent) :
    let dir := lockFilesAfter text stamp System.start ∅ events
    let w := (System.start.run events).store
    Represents dir w ∧ ∀ acquiredAt environment target id,
      (acquire text (loaderOf w) acquiredAt dir environment target id).1 =
        .ok (w.acquireLock environment target id).1 := by
  have empty : Represents ∅ System.start.store := by
    intro file
    rw [System.start, World.empty, Dict.get_empty, Dict.get_empty]
    exact .free
  have represents := represents_run text stamp events empty
  exact ⟨represents, fun acquiredAt e t id => (acquire_represents represents acquiredAt e t id).1⟩

end TargetLock

end RExecOp
