import RExecOp.Walk

/-! The orchestrator keeps a regime, given that the execution of one step does. -/

namespace RExecOp

open Coordinator

open Attempts (Attempt)
open Lease (LeaseRecord Credential)

variable {w : World} {op : Operation} {id : String} {lease : LeaseRecord} {fuel : Nat}

def Held (w : World) (op : Operation) : Prop :=
  w.operations.get op.id = some op ∨ w.operations.get op.id = some op.pausing.stored

theorem Held.pause (consistent : Consistent w) (held : Held w op) (id : String) :
    Held (w.pause id) op := by
  by_cases same : op.id = id
  · subst same
    rcases pause_cases w consistent op.id with same | ⟨now, found, running, -, named, saved⟩
    · rw [same]
      exact held
    · have stored : now = op := by
        rcases held with kept | paused
        · exact Option.some.inj (found.symm.trans kept)
        · have same := Option.some.inj (found.symm.trans paused)
          rw [same] at running
          cases running
      subst stored
      rw [saved]
      exact .inr (Dict.get_set_self _ _ _)
  · rw [Held, pause_get_ne consistent same]
    exact held

theorem Held.isActive {op now : Operation} (held : Held w op)
    (found : w.operations.get op.id = some now) (active : op.state.isActive = true) :
    now.state.isActive = true := by
  rcases held with kept | paused
  · exact Option.some.inj (kept.symm.trans found) ▸ active
  · exact Option.some.inj (paused.symm.trans found) ▸ rfl

theorem Held.active {op now : Operation} (held : Held w op) (running : op.state = .running)
    (found : w.operations.get op.id = some now) : now.state = .running ∨ now.state = .paused := by
  rcases held with kept | paused
  · exact .inl (Option.some.inj (kept.symm.trans found) ▸ running)
  · exact .inr (Option.some.inj (paused.symm.trans found) ▸ rfl)

theorem recordProgress_follows (latest : Operation) (cursor : Cursor) (run : RunResult) :
    Follows latest (recordProgress latest cursor run).stored :=
  ⟨Nat.le_succ _, fun level => absurd level (Nat.succ_ne_self _), fun h => h, fun h => h,
    ⟨rfl, rfl, rfl, rfl, rfl⟩⟩

theorem inactive_pause (consistent : Consistent w) (inactive : w.Inactive id) (paused : String) :
    (w.pause paused).Inactive id := by
  intro op found
  rcases pause_get consistent found with kept | ⟨rfl, base, here, running, -⟩
  · exact inactive op kept
  · have resting := inactive base here
    rw [running] at resting
    cases resting

def World.Secured (w : World) (id : String) (s : OperationState) : Prop :=
  ∀ op, w.operations.get id = some op → op.state = s → usesTargetLock op = true →
    w.HoldsLock op

theorem secured_pause (consistent : Consistent w) {s : OperationState} (other : s ≠ .paused)
    (secured : w.Secured id s) (paused : String) : (w.pause paused).Secured id s := by
  intro op found state uses
  rcases pause_get consistent found with kept | ⟨rfl, base, here, running, rfl⟩
  · exact holdsLock_congr (pause_locks w paused) (secured op kept state uses)
  · exact absurd state.symm other

structure Returned (id : String) (op : Operation) (after : World) : Prop where
  named : op.id = id
  inactive : op.state.isTerminalRecovery = true → after.Inactive id

theorem Returned.of_stored (named : op.id = id) (found : w.operations.get id = some op) :
    Returned id op w := by
  refine ⟨named, fun ended other here => ?_⟩
  have same : op = other := Option.some.inj (found.symm.trans here)
  subst same
  exact OperationState.isActive_of_isTerminalRecovery ended

theorem Regime.Saved.returned {op saved : Operation} (done : Regime.Saved op saved w) :
    Returned op.id saved w := by
  refine .of_stored ?_ ?_
  · rw [done.same]
    rfl
  · rw [done.same]
    exact done.stored

def Advanced (id : String) (outcome : StepOutcome) (after : World) : Prop :=
  match outcome with
  | .advanced op _ => Known after op ∧ op.id = id
  | .failed op => Returned id op after
  | .retrying => True

namespace Regime

open Stage

variable {T : Terms} (R : Regime T) {α : Type} {w : World}

def holding (op : Operation) (plan : OperationPlan) : Stage T :=
  R.stage (fun w => Held w op ∧ w.plans.get op.id = some plan) fun id consistent fact =>
    ⟨fact.1.pause consistent id, by rw [pause_plans]; exact fact.2⟩

/-- What a regime has to establish about one step of a running operation. -/
structure RunsSteps : Prop where
  rest : ∀ {w : World}, R.inv w → T.rest w
  step : ∀ {w : World} {lease : LeaseRecord} {op : Operation} {plan : OperationPlan},
    (R.holding op plan).inv w → op.state = .running →
    op.executionCursor.nextStepIndex < plan.plannedSteps.length →
    R.Kept (stepOnce lease op plan) (fun outcome after => Advanced op.id outcome after) w

def armed (op : Operation) : Stage T :=
  R.stage (fun w => op.state = .approved → usesTargetLock op = true →
    w.HoldsLock op) fun id _ holds approved uses =>
      holdsLock_congr (pause_locks _ id) (holds approved uses)

variable {R}

end Regime

namespace Stage

variable {T : Terms} {R : Stage T} {w : World}

theorem kept_allowsMutating (inv : R.inv w) : R.Keeps (allowsMutating op) w := by
  unfold allowsMutating
  split
  · exact kept_pure inv trivial
  · split
    · exact kept_pure inv trivial
    · split
      · exact kept_pure inv trivial
      · split
        · exact kept_read inv fun _ _ _ _ _ => trivial
        · exact kept_pure inv trivial

theorem kept_approveReadOnly (inv : R.inv w) :
    R.Kept (approveReadOnly op) (fun next _ => next = op ∨
      ((op.state = .planned ∧ isReadOnlyMode op.mode = true) ∧
        Transitioned op .approved next)) w := by
  unfold approveReadOnly
  split
  · rename_i planned
    refine kept_mono (kept_transition inv) ?_
    intro next after _ _ moved
    exact .inr ⟨planned, moved⟩
  · split
    · exact kept_raise inv
    · exact kept_pure inv (.inl rfl)

theorem kept_enterRunning (inv : R.inv w) : R.Kept (enterRunning op) (fun next _ => next = op ∨
      (Evolves op next ∧ .running ∈ op.state.allowedTransitions)) w := by
  unfold enterRunning
  split
  · exact kept_mono (kept_transition inv) fun _ _ _ _ moved => .inr ⟨moved.1, moved.allowed⟩
  · exact kept_mono (kept_transition inv) fun _ _ _ _ moved => .inr ⟨moved.1, moved.allowed⟩
  · rename_i approved
    refine kept_bind (kept_transition inv) fun moved w₁ inv _ done => ?_
    refine kept_pure inv (.inr ⟨?_, done.allowed⟩)
    refine ⟨⟨done.1.id, done.1.environment, done.1.target, done.1.mode, done.1.runtimePolicy⟩,
      done.1.revision, done.1.state, fun executed => ?_, done.1.failure⟩
    rw [show op.core.state = .approved from approved] at executed
    simp [OperationState.isExecuted] at executed
  · exact kept_pure inv (.inl rfl)

end Stage

namespace Regime

open Stage

variable {T : Terms} {R : Regime T} {α : Type} {w : World}

theorem evolves_running {op mid next : Operation}
    (first : mid = op ∨ ((op.state = .planned ∧ isReadOnlyMode op.mode = true) ∧
      Transitioned op .approved mid))
    (second : next = mid ∨ (Evolves mid next ∧ .running ∈ mid.state.allowedTransitions))
    (running : next.state = .running) : Evolves op next := by
  rcases first with rfl | ⟨⟨planned, -⟩, moved⟩
  · rcases second with rfl | ⟨evolves, -⟩
    · exact .refl _
    · exact evolves
  · rcases second with rfl | ⟨further, -⟩
    · rw [moved.state] at running
      simp at running
    · refine ⟨moved.evolves.toSameBinding.trans further.toSameBinding,
        further.revision.trans moved.evolves.revision, .inr (.inr ⟨planned, running⟩), ?_, ?_⟩
      · intro executed
        rw [show op.core.state = .planned from planned] at executed
        simp [OperationState.isExecuted] at executed
      · intro failed
        rw [show op.core.state = .planned from planned] at failed
        cases failed

theorem not_usesTargetLock_of_isReadOnlyMode (reads : isReadOnlyMode op.mode = true) :
    usesTargetLock op = false := by
  have apart : isMutatingMode op.mode = false := by
    simp only [isReadOnlyMode, Bool.or_eq_true, beq_iff_eq] at reads
    rcases reads with (same | same) | same <;> rw [same] <;> decide
  rw [usesTargetLock, apart, Bool.false_and]

theorem legalSave_running {op mid next : Operation} {found : World}
    (first : mid = op ∨ ((op.state = .planned ∧ isReadOnlyMode op.mode = true) ∧
      Transitioned op .approved mid))
    (second : next = mid ∨ (Evolves mid next ∧ .running ∈ mid.state.allowedTransitions))
    (running : next.state = .running)
    (armed : op.state = .approved → usesTargetLock op = true → found.HoldsLock op) :
    LegalSave found op next := by
  have evolves := evolves_running first second running
  have uses := usesTargetLock_congr evolves.toSameBinding
  refine ⟨evolves, fun _ retrying => ?_, fun resting active used => ?_, fun ended => ?_⟩
  · rw [running] at retrying
    cases retrying
  · refine holdsLock_binding evolves.toSameBinding ?_
    rcases evolves.state with same | allowed | ⟨planned, -⟩
    · have same : next.state = op.state := same
      rw [same, resting] at active
      cases active
    · have allowed : next.state ∈ op.state.allowedTransitions := allowed
      rcases OperationState.isActive_of_allowed allowed active with kept | ⟨approved, -⟩ |
        ⟨-, retrying⟩
      · rw [resting] at kept
        cases kept
      · exact armed approved (uses ▸ used)
      · rw [running] at retrying
        cases retrying
    · have planned : op.state = .planned := planned
      rcases first with rfl | ⟨⟨-, reads⟩, -⟩
      · rcases second with rfl | ⟨-, allowed⟩
        · rw [running] at planned
          cases planned
        · rw [planned] at allowed
          exact absurd allowed (by decide)
      · rw [uses, not_usesTargetLock_of_isReadOnlyMode reads] at used
        cases used
  · rw [running] at ended
    cases ended

theorem kept_prepareStart (inv : (R.armed op).inv w) (known : Known w op) :
    R.Keeps (prepareStart op) w := by
  let V := R.armed op
  refine kept_bind (kept_within V And.left (kept_preflightRollbackAuthority inv))
    fun _ w₁ _ later₁ armed => ?_
  refine kept_bind (kept_within V And.left (kept_check armed.2)) fun _ w₂ _ later₂ armed => ?_
  refine kept_bind (kept_within V And.left (kept_approveReadOnly armed.2))
    fun mid w₃ _ later₃ first => ?_
  refine kept_bind (kept_within V And.left (kept_enterRunning first.2))
    fun next w₄ inv later₄ second => ?_
  split
  · exact kept_raise inv
  · split
    · exact kept_raise inv
    · rename_i running
      have state : next.state = .running := not_not.mp running
      have allowed : (R.armed op).Keeps
          (if isMutatingMode next.mode then allowsMutating next else pure true) w₄ := by
        split
        · exact kept_allowsMutating second.2
        · exact kept_pure second.2 trivial
      refine kept_bind (kept_within V And.left allowed) fun allowed w₅ inv later₅ armed => ?_
      split
      · exact kept_raise inv
      · have now := known.later
          (later₁.trans (later₂.trans (later₃.trans (later₄.trans later₅))))
        exact keeps_of_kept (@kept_saveFrom T R w₅ .plain V op next And.left armed.2 now
          fun found strong => legalSave_running first.1 second.1 state strong.2)

theorem kept_validationPassed (inv : R.inv w) : R.Keeps (validationPassed op) w := by
  unfold validationPassed
  split
  · exact kept_bind (kept_loadPlan inv) fun _ _ inv _ _ => kept_pure inv trivial
  · refine kept_bind (kept_ask inv) fun profile _ inv _ _ => ?_
    exact kept_bind (kept_ofExcept inv) fun _ _ inv _ _ => kept_pure inv trivial

theorem kept_planReaction (inv : R.inv w) : R.Keeps planReaction w := by
  refine kept_bind (kept_ask inv) fun child _ inv _ _ => ?_
  cases child with
  | none => exact kept_pure inv trivial
  | some r => exact kept_bind (kept_planOperation inv) fun _ _ inv _ _ => kept_pure inv trivial

theorem kept_maybePlanAutoReaction (inv : R.inv w) : R.Keeps (maybePlanAutoReaction op) w := by
  unfold maybePlanAutoReaction
  split
  · exact kept_pure inv trivial
  · split
    · exact kept_raise inv
    · have planned : R.Keeps (if (Value.get op.sharedState "reaction_observation").isDict then
          planReaction else pure ()) w := by
        split
        · exact kept_planReaction inv
        · exact kept_pure inv trivial
      exact kept_bind planned fun _ _ inv _ _ => kept_emit inv

theorem kept_finalizeValidation (inv : R.inv w) (known : Known w op) :
    R.Kept (finalizeValidation op) (fun result after => Returned op.id result after) w := by
  have ends : ∀ {moved : Operation} {target after}, Transitioned op target moved →
      target ≠ .retrying → target ≠ .running → R.inv after → Known after op →
      R.Kept (saveOperation moved) (fun saved last => Saved moved saved last) after := by
    intro moved target after done calm launched inv known
    exact kept_saveOperation inv known (.of_transition done rfl (fun _ => calm) fun _ => launched)
  refine kept_bind (kept_validationPassed inv) fun passed w₁ inv later₁ _ => ?_
  refine kept_bind (kept_emit inv) fun _ w₂ inv later₂ _ => ?_
  split
  · refine kept_bind (kept_transition inv) fun moved w₃ inv later₃ done => ?_
    refine kept_bind (kept_emit inv) fun _ w₄ inv later₄ _ => ?_
    have now := known.later (later₁.trans (later₂.trans (later₃.trans later₄)))
    refine kept_bind (ends done (by decide) (by decide) inv now) fun saved w₅ inv _ stored => ?_
    refine kept_bind (kept_maybePlanAutoReaction inv) fun _ w₆ inv later₆ _ => ?_
    refine kept_mono (kept_saveNote inv (stored.known.later later₆) rfl) fun last after _ _ done' =>
      ?_
    have named : saved.id = op.id := (congrArg Operation.id stored.same).trans done.evolves.id
    exact named ▸ done'.returned
  · refine kept_bind (kept_transition inv) fun moved w₃ inv later₃ done => ?_
    refine kept_bind (kept_emit inv) fun _ w₄ inv later₄ _ => ?_
    have now := known.later (later₁.trans (later₂.trans (later₃.trans later₄)))
    refine kept_mono (ends done (by decide) (by decide) inv now) fun saved after _ _ stored => ?_
    have named : moved.id = op.id := done.evolves.id
    exact named ▸ stored.returned

theorem kept_beginValidation (inv : R.inv w) (known : Known w op) :
    R.Kept (beginValidation op) (fun result after => Returned op.id result after) w := by
  refine kept_bind (kept_transition inv) fun moved w₁ inv later₁ done => ?_
  refine kept_bind (kept_emit inv) fun _ w₂ inv later₂ _ => ?_
  have validates : R.Kept (saveOperation moved) (fun saved after => Saved moved saved after) w₂ :=
    kept_saveOperation inv (known.later (later₁.trans later₂))
      (.of_transition done rfl (fun _ => by decide) fun _ => by decide)
  refine kept_bind validates fun saved _ inv _ stored => ?_
  have named : saved.id = op.id := (congrArg Operation.id stored.same).trans done.evolves.id
  exact named ▸ kept_finalizeValidation inv stored.known

theorem kept_pauseAfterStep {stepId : String} (inv : R.inv w) (known : Known w op) : R.Kept (do
      let op ← transition { op with currentStepId := stepId } .paused "operator_pause"
      saveOperation { op with
        cursor := some { op.executionCursor with pausedAtStepId := some stepId } })
      (fun result after => Returned op.id result after) w := by
  refine kept_bind (kept_transition inv) fun moved w₁ inv later₁ done => ?_
  have moves : Transitioned op .paused moved := ⟨done.1, done.2, done.3, done.4⟩
  have plain : PlainSave op { moved with
      cursor := some { moved.executionCursor with pausedAtStepId := some stepId } } :=
    .of_transition moves rfl (fun _ => by decide) fun _ => by decide
  refine kept_mono (kept_saveOperation inv (known.later later₁) plain) fun saved after _ _ stored =>
    ?_
  have named : moved.id = op.id := moves.evolves.id
  exact named ▸ stored.returned

theorem kept_continueExecution (runs : R.RunsSteps) (fuel : Nat) (maxSteps : Option Int)
    (stepsExecuted : Nat) (inv : R.inv w) :
    R.Kept (continueExecution lease id fuel maxSteps stepsExecuted)
      (fun result after => Returned id result after) w := by
  induction fuel generalizing w maxSteps stepsExecuted with
  | zero => exact kept_halt (runs.rest inv)
  | succ fuel ih =>
    refine kept_bind (kept_loadOperation inv) fun op w₁ inv _ loaded => ?_
    have here := Returned.of_stored loaded.2.1 loaded.2.2
    split
    · exact kept_pure inv here
    split
    · exact loaded.2.1 ▸ kept_finalizeValidation inv loaded.1
    split
    · exact kept_pure inv here
    rename_i running
    -- Only pauses can come between the two loads.
    let V := R.stage (fun w => Held w op) fun id consistent fact => fact.pause consistent id
    have held : V.inv w₁ := by
      refine ⟨inv, .inl ?_⟩
      rw [loaded.2.1]
      exact loaded.2.2
    refine kept_bind (kept_within V And.left (@kept_loadPlan _ _ _ id held))
      fun plan w₂ inv later₂ planned => ?_
    have known := loaded.1.later later₂
    split
    · exact loaded.2.1 ▸ kept_beginValidation inv known
    rename_i inside
    split
    · refine kept_bind (kept_transition inv) fun moved w₃ inv later₃ done => ?_
      have cancels := kept_saveOperation inv (known.later later₃)
        (.of_transition done rfl (fun _ => by decide) fun _ => by decide)
      refine kept_mono cancels fun saved after _ _ stored => ?_
      have named : moved.id = id := done.evolves.id.trans loaded.2.1
      exact named ▸ stored.returned
    have here : w₂.plans.get op.id = some plan := by
      rw [loaded.2.1]
      exact planned.1
    have step := @RunsSteps.step T R runs w₂ lease op plan ⟨inv, planned.2.2, here⟩
      (not_not.mp running) (not_le.mp inside)
    refine kept_bind step fun outcome w₃ inv later₃ advanced => ?_
    rw [loaded.2.1] at advanced
    cases outcome with
    | failed op => exact kept_pure inv advanced
    | retrying => exact ih none 0 inv
    | advanced op run =>
      obtain ⟨known, named⟩ : Known w₃ op ∧ op.id = id := advanced
      dsimp only
      split
      · exact named ▸ kept_pauseAfterStep inv known
      split
      · refine kept_bind (kept_loadOperation inv) fun op _ inv _ loaded => ?_
        exact loaded.2.1 ▸ kept_beginValidation inv loaded.1
      split
      · exact kept_mono (kept_loadOperation inv) fun _ _ _ _ loaded =>
          .of_stored loaded.2.1 loaded.2.2
      · exact ih maxSteps (stepsExecuted + 1) inv

def ready (R : Regime T) (id : String) : Stage T :=
  R.stage (fun w => w.Secured id .approved) fun paused consistent secured =>
    secured_pause consistent (by decide) secured paused

def retriable (R : Regime T) (id : String) : Stage T :=
  R.stage (fun w => w.Secured id .failed) fun paused consistent secured =>
    secured_pause consistent (by decide) secured paused

theorem armed_of_ready (inv : (R.ready id).inv w) (found : w.operations.get id = some op) :
    (R.armed op).inv w :=
  ⟨inv.1, fun approved uses => inv.2 op found approved uses⟩

theorem kept_orchestratorStart (runs : R.RunsSteps) (inv : (R.ready id).inv w) :
    R.Kept (Orchestrator.start fuel lease id) (fun result after => Returned id result after) w := by
  refine kept_bind (kept_within (R.ready id) And.left (kept_loadOperation inv))
    fun op w₁ _ _ loaded => ?_
  have armed := armed_of_ready loaded.2 loaded.1.2.2
  refine kept_bind (kept_prepareStart armed loaded.1.1) fun _ w₂ inv _ _ => ?_
  exact kept_continueExecution runs fuel none 0 inv

theorem kept_orchestratorAdvance (runs : R.RunsSteps) {maxSteps : Int} (inv : (R.ready id).inv w) :
    R.Kept (Orchestrator.advance fuel lease id maxSteps)
      (fun result after => Returned id result after) w := by
  refine kept_bind (kept_within (R.ready id) And.left (kept_loadOperation inv))
    fun op w₁ inv _ loaded => ?_
  have armed := armed_of_ready loaded.2 loaded.1.2.2
  have prepared : R.Keeps (if op.state = .approved ∨ op.state = .resuming ∨
      op.state = .retrying then prepareStart op else pure op) w₁ := by
    split
    · exact kept_prepareStart armed loaded.1.1
    · exact kept_pure inv trivial
  refine kept_bind prepared fun _ w₂ inv _ _ => ?_
  exact kept_continueExecution runs fuel (some maxSteps) 0 inv

theorem kept_orchestratorResume (runs : R.RunsSteps) (inv : R.inv w) :
    R.Kept (Orchestrator.resume fuel lease id)
      (fun result after => Returned id result after) w := by
  refine kept_bind (kept_loadOperation inv) fun op w₁ inv _ loaded => ?_
  refine kept_bind (kept_require inv) fun _ w₂ inv later₂ _ => ?_
  refine kept_bind (kept_preflightRollbackAuthority inv) fun _ w₃ inv later₃ _ => ?_
  refine kept_bind (kept_transition inv) fun moved w₄ inv later₄ done => ?_
  have known := loaded.1.later (later₂.trans (later₃.trans later₄))
  have plain : PlainSave op { moved with pauseRequested := false } :=
    .of_transition done rfl (fun _ => by decide) fun _ => by decide
  refine kept_bind (kept_saveOperation inv known plain) fun saved w₅ inv _ stored => ?_
  have armed : (R.armed saved).inv w₅ := by
    refine ⟨inv, fun approved => ?_⟩
    have state : saved.state = .resuming := (congrArg Operation.state stored.same).trans done.state
    rw [state] at approved
    cases approved
  refine kept_bind (kept_prepareStart armed stored.known) fun _ w₆ inv _ _ => ?_
  exact kept_continueExecution runs fuel none 0 inv

theorem kept_orchestratorCancel (inv : R.inv w) :
    R.Kept (Orchestrator.cancel id) (fun result after => Returned id result after ∧
      result.state.isTerminalRecovery = true) w := by
  refine kept_bind (kept_loadOperation inv) fun op w₁ inv _ loaded => ?_
  refine kept_bind (kept_require inv) fun _ w₂ inv later₂ _ => ?_
  refine kept_bind (kept_transition inv) fun moved w₃ inv later₃ done => ?_
  have cancels := kept_saveOperation inv (loaded.1.later (later₂.trans later₃))
    (.of_transition done rfl (fun _ => by decide) fun _ => by decide)
  refine kept_mono cancels fun saved after _ _ stored => ?_
  have named : moved.id = id := done.evolves.id.trans loaded.2.1
  refine ⟨named ▸ stored.returned, ?_⟩
  rw [stored.same, show moved.stored.state = moved.state from rfl, done.state]
  rfl

theorem kept_orchestratorEscalate (inv : R.inv w) : R.Keeps (Orchestrator.escalate id) w := by
  refine kept_bind (kept_loadOperation inv) fun op w₁ inv _ loaded => ?_
  refine kept_bind (kept_require inv) fun _ w₂ inv later₂ _ => ?_
  refine kept_bind (kept_check inv) fun _ w₃ inv later₃ _ => ?_
  refine kept_bind (kept_transition inv) fun moved w₄ inv later₄ done => ?_
  refine kept_bind (kept_emit inv) fun _ w₅ inv later₅ _ => ?_
  have known := loaded.1.later (later₂.trans (later₃.trans (later₄.trans later₅)))
  exact keeps_of_kept (kept_saveOperation inv known
    (.of_transition done rfl (fun _ => by decide) fun _ => by decide))

def calm (R : Regime T) (id : String) : Regime T where
  inv w := R.inv w ∧ w.hasIndeterminateSideEffect id = false
  grounds := R.grounds
  consistent inv := R.consistent inv.1
  crash inv := R.crash inv.1
  pause inv allowed := by
    refine ⟨R.pause inv.1 allowed, ?_⟩
    rw [hasIndeterminateSideEffect_congr (pause_attempts _ _)]
    exact inv.2
  legal inv allowed legal outside := by
    refine ⟨R.legal inv.1 allowed legal outside, ?_⟩
    rw [hasIndeterminateSideEffect_congr (attempts_change (change_effect legal outside))]
    exact inv.2
  issues inv := R.issues inv.1
  still := R.still

theorem kept_calm {p : Program α} {post : α → World → Prop} (kept : (R.calm id).Kept p post w) :
    R.Kept p (fun a after => post a after ∧ (R.calm id).inv after) w :=
  kept_remember kept fun _ strong => strong.1

theorem legalSave_retrying {op moved : Operation} {found : World}
    (done : Transitioned op .retrying moved)
    (calm : found.hasIndeterminateSideEffect moved.id = false)
    (holds : usesTargetLock op = true → found.HoldsLock op) :
    LegalSave found op moved where
  evolves := done.evolves
  calm _ _ := calm
  locked _ _ uses := by
    rw [usesTargetLock_congr done.evolves.toSameBinding] at uses
    exact holdsLock_binding done.evolves.toSameBinding (holds uses)
  outboxed ended := by
    rw [done.state] at ended
    cases ended

theorem kept_orchestratorRetry (runs : R.RunsSteps) (inv : ((R.calm id).retriable id).inv w) :
    R.Kept (Orchestrator.retry fuel lease id) (fun result after => Returned id result after) w := by
  let V := (R.calm id).retriable id
  have weaker : ∀ {w}, V.inv w → R.inv w := fun strong => strong.1.1
  refine kept_bind (kept_within V weaker (kept_loadOperation inv)) fun op w₁ _ _ loaded => ?_
  -- The lock of the record read: pauses do not touch a failed operation.
  have holds : op.state = .failed → usesTargetLock op = true → w₁.HoldsLock op :=
    fun failed uses => loaded.2.2 op loaded.1.2.2 failed uses
  let W := (R.calm id).stage (fun w => op.state = .failed → usesTargetLock op = true →
    w.HoldsLock op) fun paused _ holds failed uses =>
      holdsLock_congr (pause_locks _ paused) (holds failed uses)
  have weaker : ∀ {w}, W.inv w → R.inv w := fun strong => strong.1.1
  have armed : W.inv w₁ := ⟨loaded.2.1, holds⟩
  refine kept_bind (kept_within W weaker (kept_require armed)) fun _ w₂ _ later₂ failed => ?_
  refine kept_bind (kept_within W weaker (kept_preflightRollbackAuthority failed.2))
    fun plan w₃ _ later₃ planned => ?_
  refine kept_bind (kept_within W weaker (kept_require planned.2)) fun _ w₄ _ later₄ retryable => ?_
  refine kept_bind (kept_within W weaker (kept_transition retryable.2))
    fun moved w₅ _ later₅ done => ?_
  have known := loaded.1.1.later (later₂.trans (later₃.trans (later₄.trans later₅)))
  have moves : Transitioned op .retrying moved := ⟨done.1.1, done.1.2, done.1.3, done.1.4⟩
  have same_id : moved.id = id := moves.evolves.id.trans loaded.1.2.1
  have state : op.state = .failed := by simpa using failed.1
  have retries := @kept_saveFrom T R w₅ .plain W op moved weaker done.2 known
    fun found strong => legalSave_retrying moves (same_id ▸ strong.1.2) (strong.2 state)
  refine kept_bind retries fun saved w₆ inv _ stored => ?_
  have rests : (R.armed saved).inv w₆ := by
    refine ⟨inv, fun approved => ?_⟩
    have state : saved.state = .retrying :=
      (congrArg Operation.state stored.1.same).trans moves.state
    rw [state] at approved
    cases approved
  refine kept_bind (kept_prepareStart rests stored.1.known) fun _ w₇ inv _ _ => ?_
  exact kept_continueExecution runs fuel none 0 inv

end Regime

end RExecOp
