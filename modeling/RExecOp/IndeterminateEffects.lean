import RExecOp.Calls

/-! Indeterminate side effects are not dispatched again, except under retry policies that admit
the connector's own error class and by pauses in between. -/

namespace RExecOp

open Attempts (Attempt)
open Lease (LeaseRecord)

variable {w : World} {id : String} {record : Attempt} {op : Operation}

def World.isOpen (w : World) (id : String) : Bool :=
  w.hasIndeterminateSideEffect id && (w.operations.get id).any fun op =>
    !op.state.isTerminalRecovery

def World.isCalm (w : World) : Bool := w.operations.keys.all fun id => !w.isOpen id

namespace IndeterminateEffects

structure Inv (w : World) : Prop where
  consistent : Consistent w
  ended : ∀ {id op}, w.hasIndeterminateSideEffect id = true → w.operations.get id = some op →
    op.state.isTerminalRecovery = true

def hasIndeterminate (w : World) (id stepId : String) : Bool :=
  (w.listExecutionAttempts id).any fun record =>
    World.isIndeterminateSideEffect record && record.stepId == stepId

def refusesRetry (w : World) (id stepId errorClass : String) : Bool :=
  match w.operations.get id, w.plans.get id with
  | some op, some plan => !canRetry plan (orElse errorClass "unknown") (failureCount op stepId)
  | _, _ => false

def recordsWhileRunning (w : World) (id attemptId : String) : Bool :=
  (w.attempt id attemptId).all fun record => !record.sideEffectful ||
    (w.operations.get id).any fun op => op.state == .running

def permitsInput (w : World) (i : Input) : Command → Bool
  | .dispatch id stepId true => i.fault.all fun fault =>
    fault.isException && refusesRetry w id stepId fault.reasonCode
  | .finishIndeterminate id attemptId => recordsWhileRunning w id attemptId
  | _ => true

/-- A connector that raises does so past the retry policy, an indeterminate outcome is recorded
while the operation runs, and until the operation has failed nothing faults, pauses or stops. -/
def terms : Terms where
  allowsInput command i w := permitsInput w i command = true ∧ (i.fault ≠ none → w.isCalm = true)
  allowsPause _ id w := w.isOpen id = true → w.pause id = w
  allowsCrash _ w := w.isCalm = true
  rest := Inv
  promise id stepId w := hasIndeterminate w id stepId = false

theorem hasIndeterminateSideEffect_iff :
    w.hasIndeterminateSideEffect id = true ↔ ∃ attemptId record,
      w.attempt id attemptId = some record ∧ World.isIndeterminateSideEffect record = true := by
  unfold World.hasIndeterminateSideEffect
  rw [List.any_eq_true]
  constructor
  · rintro ⟨record, listed, lost⟩
    obtain ⟨attemptId, here⟩ := mem_listExecutionAttempts.mp listed
    exact ⟨attemptId, record, here, lost⟩
  · rintro ⟨attemptId, record, here, lost⟩
    exact ⟨record, mem_listExecutionAttempts.mpr ⟨attemptId, here⟩, lost⟩

theorem indeterminate_of_putAttempt (plain : World.isIndeterminateSideEffect record = false)
    (lost : (w.putAttempt record).hasIndeterminateSideEffect id = true) :
    w.hasIndeterminateSideEffect id = true := by
  obtain ⟨attemptId, found, here, indeterminate⟩ := hasIndeterminateSideEffect_iff.mp lost
  rcases putAttempt_found here with rfl | there
  · rw [plain] at indeterminate
    simp at indeterminate
  · exact hasIndeterminateSideEffect_iff.mpr ⟨attemptId, found, there, indeterminate⟩

theorem indeterminate_of_putAttempt_ne (other : id ≠ record.operationId)
    (lost : (w.putAttempt record).hasIndeterminateSideEffect id = true) :
    w.hasIndeterminateSideEffect id = true := by
  obtain ⟨attemptId, found, here, indeterminate⟩ := hasIndeterminateSideEffect_iff.mp lost
  rw [attempt_putAttempt, if_neg fun both => other both.1] at here
  exact hasIndeterminateSideEffect_iff.mpr ⟨attemptId, found, here, indeterminate⟩

theorem not_isCalm (isOpen : w.isOpen id = true) : w.isCalm = false := by
  obtain ⟨op, found⟩ : ∃ op, w.operations.get id = some op := by
    unfold World.isOpen at isOpen
    cases here : w.operations.get id with
    | none => simp [here] at isOpen
    | some op => exact ⟨op, rfl⟩
  by_contra calm
  have all : ∀ id ∈ w.operations.keys, (!w.isOpen id) = true := by
    simpa [World.isCalm] using calm
  have closed := all id ((Dict.mem_keys_iff _ _).mpr ⟨op, found⟩)
  rw [isOpen] at closed
  simp at closed

theorem inv_pause (inv : Inv w) (id : String) : Inv (w.pause id) where
  consistent := consistent_pause inv.consistent id
  ended {other op} lost found := by
    rw [hasIndeterminateSideEffect_congr (pause_attempts w id)] at lost
    by_cases same : other = id
    · subst same
      rcases pause_cases w inv.consistent other with same | ⟨stored, here, running, -⟩
      · rw [same] at found
        exact inv.ended lost found
      · have ended := inv.ended lost here
        rw [running] at ended
        simp [OperationState.isTerminalRecovery] at ended
    · rw [pause_get_ne inv.consistent same] at found
      exact inv.ended lost found

theorem ended_of_evolves {base op : Operation} (evolves : Evolves base op)
    (ended : base.state.isTerminalRecovery = true)
    (unretried : ¬(base.state = .failed ∧ op.state = .retrying)) :
    op.state.isTerminalRecovery = true := by
  rcases evolves.state with same | allowed | ⟨planned, -⟩
  · exact (congrArg OperationState.isTerminalRecovery same).trans ended
  · change op.state ∈ base.state.allowedTransitions at allowed
    revert ended unretried allowed
    cases base.state <;> cases op.state <;>
      simp [OperationState.allowedTransitions, OperationState.isTerminalRecovery]
  · rw [show base.state = .planned from planned] at ended
    simp [OperationState.isTerminalRecovery] at ended

theorem inv_change {G : Grounds} {i : Input} {w after : World}
    {command : Command} (inv : Inv w) (change : Change G i w command after) : Inv after where
  consistent := consistent_change inv.consistent change
  ended {id op} lost found := by
    rw [hasIndeterminateSideEffect_congr (attempts_change change)] at lost
    cases change with
    | @saved site base saved here level legal =>
      rcases put_get found with ⟨rfl, rfl⟩ | kept
      · have ended := inv.ended lost here
        change saved.state.isTerminalRecovery = true
        refine ended_of_evolves legal.evolves ended fun retried => ?_
        have calm := legal.calm retried.1 retried.2
        rw [show saved.stored.id = saved.id from rfl, calm] at lost
        simp at lost
      · exact inv.ended lost kept
    | @created site created absent fresh =>
      rcases put_get found with ⟨rfl, rfl⟩ | kept
      · obtain ⟨attemptId, record, here, -⟩ := hasIndeterminateSideEffect_iff.mp lost
        obtain ⟨stored, there, -⟩ := inv.consistent.attempted here
        rw [show created.stored.id = created.id from rfl, absent] at there
        simp at there
      · exact inv.ended lost kept
    | locked legal =>
      rw [acquireLock_operations] at found
      exact inv.ended lost found
    | unlocked legal =>
      rw [releaseLock_operations] at found
      exact inv.ended lost found
    | _ => exact inv.ended lost found

def regime : Regime terms where
  inv := Inv
  consistent inv := inv.consistent
  crash inv _ := inv
  pause inv _ := inv_pause inv _
  grounds := ⟨fun _ => True, False, True⟩
  legal inv _ legal outside := inv_change inv (change_effect legal outside)
  issues _ _ _ := trivial
  still := False.elim

theorem inv_putAttempt (inv : Inv w) (found : w.operations.get record.operationId = some op)
    (executed : op.state.isExecuted = true)
    (plain : World.isIndeterminateSideEffect record = false) : Inv (w.putAttempt record) :=
  ⟨consistent_putAttempt inv.consistent found executed, fun lost here =>
    inv.ended (indeterminate_of_putAttempt plain lost) here⟩

theorem progresses : regime.Progresses := by
  intro d latest run w inv found _
  obtain ⟨kept, stored, here, active, -, planned⟩ := inv
  have same : stored = latest := Option.some.inj (here.symm.trans found)
  subst same
  have named : stored.id = d.op.id := kept.consistent.keyed found
  refine ⟨consistent_put kept.consistent (named ▸ kept.consistent.named found)
    ⟨d.plan, named ▸ planned⟩ fun base there ran => ?_, fun {id op} lost there => ?_⟩
  · rcases active with running | paused
    · exact congrArg OperationState.isExecuted running
    · exact congrArg OperationState.isExecuted paused
  · rcases put_get there with ⟨rfl, rfl⟩ | kept_op
    · have own : w.hasIndeterminateSideEffect d.op.id = true := by
        rw [← named]
        exact lost
      have ended := kept.ended own found
      exact ended
    · exact kept.ended lost kept_op

structure Open (op : Operation) (w : World) : Prop where
  consistent : Consistent w
  running : op.state = .running
  stored : w.operations.get op.id = some op
  lost : w.hasIndeterminateSideEffect op.id = true
  others : ∀ {id other}, id ≠ op.id → w.hasIndeterminateSideEffect id = true →
    w.operations.get id = some other → other.state.isTerminalRecovery = true

theorem Open.isOpen {op : Operation} {w : World} (isOpen : Open op w) :
    w.isOpen op.id = true := by
  simp [World.isOpen, isOpen.lost, isOpen.stored, isOpen.running,
    OperationState.isTerminalRecovery]

theorem open_pause (inv : Open op w) (allowed : w.isOpen id = true → w.pause id = w) :
    Open op (w.pause id) := by
  by_cases same : id = op.id
  · subst same
    rw [allowed inv.isOpen]
    exact inv
  · have kept : ∀ other, other ≠ id →
        (w.pause id).operations.get other = w.operations.get other :=
      fun other distinct => pause_get_ne inv.consistent distinct
    have journal := hasIndeterminateSideEffect_congr (pause_attempts w id)
    refine ⟨consistent_pause inv.consistent id, inv.running,
      (kept op.id (Ne.symm same)).trans inv.stored, (journal op.id).trans inv.lost, ?_⟩
    intro other record distinct lost found
    rw [journal] at lost
    by_cases paused : other = id
    · subst paused
      rcases pause_cases w inv.consistent other with same | ⟨stored, here, running, -⟩
      · rw [same] at found
        exact inv.others distinct lost found
      · have ended := inv.others distinct lost here
        rw [running] at ended
        simp [OperationState.isTerminalRecovery] at ended
    · rw [kept other paused] at found
      exact inv.others distinct lost found

def opened (op : Operation) : Stage terms where
  inv := Open op
  consistent inv := inv.consistent
  crash {command w} inv calm := by
    have calm : w.isCalm = true := calm
    rw [not_isCalm inv.isOpen] at calm
    simp at calm
  pause inv allowed := open_pause inv allowed

theorem Open.faultless {command : Command} {i : Input} (inv : Open op w)
    (allowed : terms.allowsInput command i w) : i.fault = none := by
  by_contra faulted
  have calm := allowed.2 faulted
  rw [not_isCalm inv.isOpen] at calm
  simp at calm

open Stage Terms Regime

theorem leads_open_emit {site : Site} (inv : Open op w) :
    terms.Leads (emit site) (fun outcome after => outcome = .ok () ∧ Open op after) w := by
  refine @leads_access terms _ w (opened op) _ _ _ inv fun i found inv _ allowed => ?_
  have sound := inv.faultless allowed
  refine ⟨trivial, fun fault failed => ?_, fun _ => ⟨.refl found, rfl, inv⟩⟩
  rw [sound] at failed
  simp at failed

theorem leads_open_save {op saved : Operation} {site : Site} {post : World → Prop} (inv : Open op w)
    (named : saved.id = op.id) (level : saved.revision = op.revision)
    (follows : Follows op saved.stored)
    (holds : ∀ found, Open op found → post (found.put saved.stored)) :
    terms.Leads (saveAt site saved)
      (fun outcome after => outcome = .ok saved.stored ∧
        after.operations.get saved.id = some saved.stored ∧ post after) w := by
  refine @leads_access terms _ w (opened op) _ _ _ inv fun i found inv _ allowed => ?_
  have sound := inv.faultless allowed
  have here : found.operations.get saved.id = some op := by
    rw [named]
    exact inv.stored
  have stores := saveOperation_ok here level.symm
  refine ⟨fun base stored _ failed => ?_, fun fault failed => ?_, fun _ => ?_⟩
  · have same : op = base := Option.some.inj (here.symm.trans stored)
    rw [← same, inv.running] at failed
    cases failed
  · rw [sound] at failed
    simp at failed
  · rw [World.perform, stores]
    exact ⟨later_put here follows, rfl, Dict.get_set_self _ _ _, holds found inv⟩

theorem open_put {op saved : Operation} (inv : Open op w) (named : saved.id = op.id)
    (running : saved.state = .running) : Open saved.stored (w.put saved.stored) where
  consistent := consistent_put inv.consistent (named ▸ inv.consistent.named inv.stored)
    (named ▸ inv.consistent.planned inv.stored) fun _ _ _ => by rw [running]; rfl
  running := running
  stored := Dict.get_set_self _ _ _
  lost := by
    rw [show saved.stored.id = op.id from named]
    exact inv.lost
  others distinct lost found := by
    rcases put_get found with ⟨same, -⟩ | kept
    · exact absurd same distinct
    · exact inv.others (fun same => distinct (same.trans named.symm)) lost kept

theorem inv_put {op saved : Operation} {w : World} (inv : Open op w) (named : saved.id = op.id)
    (failed : saved.state = .failed) : Inv (w.put saved.stored) where
  consistent := consistent_put inv.consistent (named ▸ inv.consistent.named inv.stored)
    (named ▸ inv.consistent.planned inv.stored) fun _ _ _ => by rw [failed]; rfl
  ended {id other} lost found := by
    rcases put_get found with ⟨-, rfl⟩ | kept
    · rw [show saved.stored.state = .failed from failed]
      rfl
    · by_cases same : id = op.id
      · have here : (w.put saved.stored).operations.get id = some saved.stored := by
          rw [same, ← named]
          exact Dict.get_set_self _ _ _
        have same : saved.stored = other := Option.some.inj (here.symm.trans found)
        rw [← same, show saved.stored.state = .failed from failed]
        rfl
      · exact inv.others same lost kept

theorem kept_lost_tail {d : ActiveStep} {run : RunResult} (inv : Open d.op w)
    (hopeless : d.Hopeless run.errorClass) (stopped : run.stoppedStepId = d.step.id) :
    regime.Kept (do
      let op ← storeProgress d.op.id d.op.executionCursor run
      handleStepFailure op d.plan run)
      (fun outcome after => Advanced d.op.id outcome after) w := by
  have raises : ∀ {α : Type} {fault : Fault} {a : α} {P Q : Prop},
      (Except.error fault : Except Fault α) = .ok a ∧ P → Q := by
    rintro α fault a P Q ⟨impossible, -⟩
    simp at impossible
  let recorded := recordProgress d.op d.op.executionCursor run
  have stored : terms.Leads (storeProgress d.op.id d.op.executionCursor run)
      (fun outcome after => outcome = .ok recorded.stored ∧ Open recorded.stored after) w := by
    have loads : terms.Leads (loadOperation d.op.id)
        (fun outcome after => outcome = .ok d.op ∧ Open d.op after) w := by
      refine @leads_read terms _ w (opened d.op) _ _ inv ?_ fun found inv _ => ⟨?_, inv⟩
      · intro i found fault inv allowed failed
        rw [inv.faultless allowed] at failed
        cases failed
      simp only [World.loadOperation, inv.stored]
    refine leads_bind loads (fun _ _ h => raises h) ?_
    rintro _ w₁ - ⟨same, inv⟩
    cases same
    refine leads_bind (leads_open_emit inv) (fun _ _ h => raises h) ?_
    rintro _ w₂ - ⟨-, inv⟩
    refine leads_mono (leads_open_save inv rfl rfl (recordProgress_follows _ _ _)
      fun found inv => open_put inv rfl d.running) fun outcome after _ h => ⟨h.1, h.2.2⟩
  refine kept_of_leads (leads_bind stored (fun _ _ h => raises h) ?_)
  rintro _ w₁ - ⟨same, inv⟩
  cases same
  have refused : canRetry d.plan (orElse run.errorClass "unknown")
      (failureCount recorded.stored run.stoppedStepId) = false := by
    rw [stopped]
    exact hopeless
  unfold handleStepFailure
  simp only [refused]
  let noted := recordFailure recorded.stored run.stoppedStepId run.error
    (orElse run.errorClass "unknown") (failureCount recorded.stored run.stoppedStepId)
  let failed := (noted.moved .failed "step_execution_failed").markProjectionPending
    (noted.revision + 1) .failed
  have moves : noted.transition .failed "step_execution_failed" = .ok failed := by
    have allowed : noted.state = .running := d.running
    unfold Operation.transition
    rw [allowed]
    rfl
  have transits : terms.Leads (transition noted .failed "step_execution_failed")
      (fun outcome after => outcome = .ok failed ∧ Open recorded.stored after) w₁ := by
    unfold transition
    rw [moves]
    change terms.Leads (emit .plain >>= fun _ => pure failed) _ w₁
    refine leads_bind (leads_open_emit inv) (fun _ _ h => raises h) ?_
    rintro _ w₂ - ⟨-, inv⟩
    exact leads_pure ⟨rfl, inv⟩
  refine leads_bind transits (fun _ _ h => raises h) ?_
  rintro _ w₂ - ⟨same, inv⟩
  cases same
  have unfailed : recorded.stored.state ≠ .failed := fun failed => by
    cases d.running.symm.trans failed
  have evolves : Evolves recorded.stored failed :=
    ((evolves_transition moves).of_noted rfl unfailed).evolves
  refine leads_bind (leads_open_save inv rfl rfl evolves.follows
    fun found inv => inv_put inv rfl rfl) (fun _ _ h => raises h) ?_
  rintro _ w₃ - ⟨same, stored, inv⟩
  cases same
  refine leads_pure ⟨inv, fun _ same => ?_⟩
  cases same
  exact .of_stored rfl stored

theorem held_cases (running : op.state = .running) (held : Held w op) :
    ∃ now, w.operations.get op.id = some now ∧
      now.state.isExecuted = true ∧ now.state.isTerminalRecovery = false ∧
      now.executionCursor.attemptsByStep = op.executionCursor.attemptsByStep ∧
      (now.state = .running → now = op) := by
  rcases held with kept | paused
  · exact ⟨op, kept, by rw [running]; rfl, by rw [running]; rfl, rfl, fun _ => rfl⟩
  · refine ⟨op.pausing.stored, paused, rfl, rfl, rfl, fun impossible => ?_⟩
    cases impossible

def journaling : regime.Journaling where
  completed := regime.idle
  lost d := opened d.op
  promised {d w} inv := by
    obtain ⟨kept, held, planned⟩ := inv
    obtain ⟨now, found, -, unended, -⟩ := held_cases d.running held
    by_contra restarted
    obtain ⟨record, listed, lost, -⟩ : ∃ record, record ∈ w.listExecutionAttempts d.op.id ∧
        World.isIndeterminateSideEffect record = true ∧ record.stepId = d.step.id := by
      simpa [terms, hasIndeterminate] using restarted
    obtain ⟨attemptId, here⟩ := mem_listExecutionAttempts.mp listed
    have ended := kept.ended (hasIndeterminateSideEffect_iff.mpr ⟨attemptId, record, here, lost⟩)
      found
    rw [unended] at ended
    simp at ended
  pending {d r w} inv operationId stepId effectful pending _ := by
    have put : ∀ {found : World} {record : Attempt}, Inv found → Held found d.op →
        record.operationId = d.op.id → World.isIndeterminateSideEffect record = false →
        Inv (found.putAttempt record) := by
      intro found record kept held named plain
      obtain ⟨now, here, executed, -⟩ := held_cases d.running held
      exact inv_putAttempt kept (named ▸ here) executed plain
    refine leads_writeStarted inv operationId stepId effectful
      (put inv.1 inv.2.1 operationId ?_) fun now kept held => put kept held operationId ?_
    · simp [World.isIndeterminateSideEffect, pending]
    · simp [World.isIndeterminateSideEffect, Attempts.markAttemptStarted]
  dispatch {d a i w} inv allowed := by
    obtain ⟨kept, ⟨held, planned⟩, attempted, -⟩ := inv
    refine ⟨⟨consistent_of_same kept.consistent rfl (fun _ _ here => ⟨_, here⟩) rfl, kept.ended⟩,
      fun fault failed effectful => .inl ?_⟩
    obtain ⟨now, found, -, -, counts, -⟩ := held_cases d.running held
    have permitted := allowed.1
    rw [effectful] at permitted
    simp only [permitsInput, failed, refusesRetry, found, planned, Option.all_some,
      Bool.and_eq_true, Bool.not_eq_true', failureCount, counts] at permitted
    exact permitted
  finish {d a status errorClass i w} inv final decided _ _ := by
    obtain ⟨kept, ⟨held, planned⟩, attempted, -⟩ := inv
    obtain ⟨now, here, executed, -⟩ := held_cases d.running held
    have done : Inv (w.putAttempt (finished a status errorClass i.now)) := by
      refine inv_putAttempt kept (attempted.operationId ▸ here) executed ?_
      simp [World.isIndeterminateSideEffect, finished, decided]
    split
    · exact ⟨done, d.working_of_held held planned⟩
    · exact done
  lose {d a i w} inv allowed _ := by
    obtain ⟨kept, ⟨held, planned⟩, attempted, journaled⟩ := inv
    obtain ⟨now, here, executed, unended, -, same⟩ := held_cases d.running held
    have keyed : w.operations.get a.operationId = some now := attempted.operationId ▸ here
    split
    · rename_i effectful
      have running : now.state = .running := by
        have permitted := allowed.1
        simpa [permitsInput, recordsWhileRunning, journaled, effectful, here] using permitted
      have same := same running
      subst same
      refine ⟨consistent_putAttempt kept.consistent keyed executed, d.running, here, ?_, ?_⟩
      · refine hasIndeterminateSideEffect_iff.mpr ⟨a.attemptId,
          finished a .indeterminate "outcome_indeterminate" i.now, ?_, ?_⟩
        · rw [attempt_putAttempt, if_pos ⟨attempted.operationId.symm, rfl⟩]
        · simp [World.isIndeterminateSideEffect, finished, effectful]
      · intro id other distinct lost found
        refine kept.ended (indeterminate_of_putAttempt_ne (fun same => distinct ?_) lost) found
        exact same.trans attempted.operationId
    · rename_i harmless
      refine inv_putAttempt kept keyed executed ?_
      simpa [World.isIndeterminateSideEffect, finished] using harmless
  completed_fault inv _ _ := inv
  lost_fault {d command i w} inv allowed faulted :=
    absurd (Open.faultless inv allowed) faulted
  progress := progresses
  completed_tail inv next := kept_mono (kept_storeProgress progresses inv (.inr next))
    fun _ _ _ _ stored => stored.1
  lost_tail inv hopeless stopped _ := kept_lost_tail inv hopeless stopped

theorem inv_empty : Inv World.empty :=
  ⟨consistent_empty, fun _ found => by simp [World.empty] at found⟩

/-- No attempt is started of a step that has an indeterminate side effect. -/
theorem indeterminate_not_restarted (events : List SystemEvent)
    (meets : terms.Meets (fun call => call.isRecovery = false) System.start events)
    {operationId stepId : String}
    (starting : (System.start.run events).starting = some (operationId, stepId)) :
    hasIndeterminate (System.start.run events).store operationId stepId = false := by
  have sound : terms.setting.Sound (System.start.run events) :=
    Regime.sound_run (journaling.runsSteps fun inv => inv) trivial
      (fun call allowed recovery => absurd recovery (by rw [allowed]; simp))
      (fun rest => rest) inv_empty meets
  exact System.promise_of_sound sound starting fun w =>
    ⟨Input.agreeing 0 "", rfl, fun faulted => absurd rfl faulted⟩

def raisingEvents (retryPolicy : RetryPolicy) : List SystemEvent :=
  (Call.plan (.applying "1" ["first"] retryPolicy)).events 13 (.agreeing 1 "a") ++
    (Call.start 5 "op-1").events 32 (.agreeing 2 "b") ++
    [.input (.raising 2 "b" (.exception "connection reset"))]

def failedEvents : List SystemEvent :=
  raisingEvents ⟨0, [], []⟩ ++ List.replicate 22 (.input (.agreeing 2 "c")) ++
    (Call.plan (.applying "2" ["first"] ⟨0, [], []⟩)).events 13 (.agreeing 3 "d") ++
    (Call.start 5 "op-2").events 27 (.agreeing 4 "e")

def retriedEvents : List SystemEvent :=
  raisingEvents ⟨1, [], []⟩ ++ List.replicate 22 (.input (.agreeing 2 "c"))

def permitted (m : System) : SystemEvent → Bool
  | .call c => !c.isRecovery
  | .input i => match m.running with
    | some (.access command _) =>
      permitsInput m.store i command && (i.fault.isNone || m.store.isCalm)
    | _ => true
  | .intrude _ => false
  | .crash => false

theorem allows_of_permitted (m : System) (event : SystemEvent) (ok : permitted m event = true) :
    terms.setting.Allows (fun call _ => call.isRecovery = false) m event := by
  obtain ⟨store, running⟩ := m
  cases event with
  | call c => exact fun _ => by simpa [permitted] using ok
  | input i =>
    match running with
    | none => trivial
    | some (.ret _) => trivial
    | some (.raise _) => trivial
    | some .halt => trivial
    | some (.access command next) =>
      simp only [permitted, Bool.and_eq_true, Bool.or_eq_true, Option.isNone_iff_eq_none] at ok
      exact ⟨ok.1, fun faulted => ok.2.resolve_left faulted⟩
  | intrude id => simp [permitted] at ok
  | crash => simp [permitted] at ok

theorem failedOperation_not_restarted :
    (System.start.run failedEvents).starting = some ("op-2", "first") ∧
      hasIndeterminate (System.start.run failedEvents).store "op-1" "first" = true ∧
      hasIndeterminate (System.start.run failedEvents).store "op-2" "first" = false :=
  ⟨by decide +kernel, by decide +kernel,
    indeterminate_not_restarted failedEvents
      (Terms.meets_of_checks allows_of_permitted (by decide +kernel)) (by decide +kernel)⟩

theorem exception_restarts_indeterminate :
    (System.start.run retriedEvents).starting = some ("op-1", "first") ∧
      hasIndeterminate (System.start.run retriedEvents).store "op-1" "first" = true := by
  decide +kernel

end IndeterminateEffects

end RExecOp
