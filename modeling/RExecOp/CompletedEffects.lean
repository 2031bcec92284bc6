import RExecOp.Calls

/-! Completed side effects are not dispatched again, unless a run stops, faults or pauses
between the journal write and the cursor write. -/

namespace RExecOp

open Attempts (Attempt)
open Lease (LeaseRecord)

variable {w after : World} {id stepId : String} {op : Operation} {G : Grounds} {i : Input}
  {command : Command}

namespace CompletedEffects

def Past (w : World) (id stepId : String) : Prop :=
  ∃ op plan index step, w.operations.get id = some op ∧ w.plans.get id = some plan ∧
    index < op.executionCursor.nextStepIndex ∧ plan.plannedSteps[index]? = some step ∧
    step.id = stepId

def isCompletedEffect (record : Attempt) : Bool :=
  record.status == .completed && record.sideEffectful

/-- Every completed side effect is behind its operation's cursor. -/
def Settled (w : World) : Prop :=
  ∀ id attemptId record, w.attempt id attemptId = some record →
    isCompletedEffect record = true → Past w id record.stepId

def DistinctSteps (plan : OperationPlan) : Prop := (plan.plannedSteps.map (·.id)).Nodup

instance (plan : OperationPlan) : Decidable (DistinctSteps plan) :=
  inferInstanceAs (Decidable (List.Nodup _))

structure Inv (w : World) : Prop where
  consistent : Consistent w
  distinct : ∀ {id plan}, w.plans.get id = some plan → DistinctSteps plan
  settled : Settled w

def isProgress : Command → Bool
  | .emit .progress | .saveOperation .progress _ => true
  | _ => false

/-- The step has a completed side effect in the journal. -/
def hasCompleted (w : World) (id stepId : String) : Bool :=
  (w.listExecutionAttempts id).any fun record =>
    isCompletedEffect record && record.stepId == stepId

/-- While a completed side effect is ahead of its cursor no access faults, nothing stops and no
pause is accepted; a plan has distinct step ids and a fresh operation id. -/
def terms : Terms where
  allowsInput command i w := (i.fault ≠ none → Settled w) ∧ match command with
    | .savePlan plan => w.operations.get plan.operationId = none ∧ DistinctSteps plan
    | _ => True
  allowsPause command id w := ∀ c, command = some c → isProgress c = true →
    Settled w ∨ w.pause id = w
  allowsCrash _ w := Settled w
  rest := Inv
  promise id stepId w := hasCompleted w id stepId = false

theorem Past.of_cursor (past : Past w id stepId)
    (kept : ∀ {op}, w.operations.get id = some op → ∃ now, after.operations.get id = some now ∧
      op.executionCursor.nextStepIndex ≤ now.executionCursor.nextStepIndex)
    (plans : ∀ {op plan}, w.operations.get id = some op → w.plans.get id = some plan →
      after.plans.get id = some plan) :
    Past after id stepId := by
  obtain ⟨op, plan, index, step, found, planned, before, here, named⟩ := past
  obtain ⟨now, there, further⟩ := kept found
  exact ⟨now, plan, index, step, there, plans found planned, by omega, here, named⟩

theorem not_past {w : World} {op : Operation} {plan : OperationPlan} {step : PlannedStep}
    {id : String} (found : w.operations.get id = some op) (planned : w.plans.get id = some plan)
    (distinct : DistinctSteps plan)
    (here : plan.plannedSteps[op.executionCursor.nextStepIndex]? = some step) :
    ¬Past w id step.id := by
  rintro ⟨op', plan', index, other, found', planned', before, there, named⟩
  have same_op : op = op' := Option.some.inj (found.symm.trans found')
  have same_plan : plan = plan' := Option.some.inj (planned.symm.trans planned')
  subst same_op same_plan
  obtain ⟨inside, -⟩ := List.getElem?_eq_some_iff.mp here
  refine List.nodup_iff_getElem?_ne_getElem?.mp distinct index op.executionCursor.nextStepIndex
    before (by simpa using inside) ?_
  rw [List.getElem?_map, List.getElem?_map, here, there]
  simp [named]

theorem settled_putAttempt {record : Attempt} (settled : Settled w)
    (plain : isCompletedEffect record = false) : Settled (w.putAttempt record) := by
  intro id attemptId found here completed
  rcases putAttempt_found here with rfl | there
  · rw [plain] at completed
    simp at completed
  · exact settled id attemptId found there completed

theorem pause_cursor (consistent : Consistent w) (paused : String)
    (found : w.operations.get id = some op) : ∃ now, (w.pause paused).operations.get id = some now ∧
      now.executionCursor.nextStepIndex = op.executionCursor.nextStepIndex := by
  by_cases same : id = paused
  · subst same
    rcases pause_cases w consistent id with same | ⟨stored, here, -, -, named, saved⟩
    · rw [same]
      exact ⟨op, found, rfl⟩
    · have same : stored = op := Option.some.inj (here.symm.trans found)
      subst same
      refine ⟨stored.pausing.stored, ?_, rfl⟩
      rw [saved, ← named]
      exact Dict.get_set_self _ _ _
  · rw [pause_get_ne consistent same]
    exact ⟨op, found, rfl⟩

theorem past_pause (consistent : Consistent w) {paused id stepId : String}
    (past : Past w id stepId) : Past (w.pause paused) id stepId := by
  refine past.of_cursor (fun found => ?_) fun _ planned => ?_
  · obtain ⟨now, there, cursor⟩ := pause_cursor consistent paused found
    exact ⟨now, there, cursor.ge⟩
  · rw [pause_plans]
    exact planned

theorem past_of_pause (consistent : Consistent w) {paused id stepId : String}
    (stored : w.operations.get id = some op) (past : Past (w.pause paused) id stepId) :
    Past w id stepId := by
  obtain ⟨now, plan, index, step, found, planned, before, here, named⟩ := past
  obtain ⟨other, there, cursor⟩ := pause_cursor consistent paused stored
  have same : other = now := Option.some.inj (there.symm.trans found)
  subst same
  rw [pause_plans] at planned
  exact ⟨op, plan, index, step, stored, planned, by omega, here, named⟩

theorem settled_pause (consistent : Consistent w) (paused : String) :
    Settled (w.pause paused) ↔ Settled w := by
  have attempts := attempt_congr (pause_attempts w paused)
  constructor
  · intro settled id attemptId record here completed
    obtain ⟨op, stored, -⟩ := consistent.attempted here
    exact past_of_pause consistent stored
      (settled id attemptId record ((attempts id attemptId).trans here) completed)
  · intro settled id attemptId record here completed
    exact past_pause consistent
      (settled id attemptId record ((attempts id attemptId).symm.trans here) completed)

theorem inv_pause (inv : Inv w) (id : String) : Inv (w.pause id) where
  consistent := consistent_pause inv.consistent id
  distinct found := by
    rw [pause_plans] at found
    exact inv.distinct found
  settled := (settled_pause inv.consistent id).mpr inv.settled

theorem cursor_change (change : Change G i w command after) (found : w.operations.get id = some op)
    (executed : op.state.isExecuted = true) : ∃ now, after.operations.get id = some now ∧
      now.executionCursor.nextStepIndex = op.executionCursor.nextStepIndex := by
  cases change with
  | @saved site base saved here level legal =>
    by_cases same : id = saved.id
    · subst same
      have same : base = op := Option.some.inj (here.symm.trans found)
      subst same
      exact ⟨saved.stored, Dict.get_set_self _ _ _, legal.evolves.cursor executed⟩
    · exact ⟨op, (Dict.get_set_ne _ _ same).trans found, rfl⟩
  | @created site created absent fresh =>
    have other : id ≠ created.id := fun same => by
      rw [same, absent] at found
      simp at found
    exact ⟨op, (Dict.get_set_ne _ _ other).trans found, rfl⟩
  | locked legal =>
    rw [acquireLock_operations]
    exact ⟨op, found, rfl⟩
  | unlocked legal =>
    rw [releaseLock_operations]
    exact ⟨op, found, rfl⟩
  | _ => exact ⟨op, found, rfl⟩

theorem settled_change (consistent : Consistent w) (settled : Settled w)
    (change : Change G i w command after)
    (plans : ∀ {id op plan}, w.operations.get id = some op → w.plans.get id = some plan →
      after.plans.get id = some plan) :
    Settled after := by
  intro id attemptId record here completed
  rw [attempt_congr (attempts_change change)] at here
  obtain ⟨op, stored, executed⟩ := consistent.attempted here
  refine (settled id attemptId record here completed).of_cursor (fun found => ?_)
    fun found planned => plans found planned
  have same : op = _ := Option.some.inj (stored.symm.trans found)
  subst same
  obtain ⟨now, there, cursor⟩ := cursor_change change found executed
  exact ⟨now, there, cursor.ge⟩

theorem plans_change (change : Change G i w command after) :
    after.plans = w.plans ∨ ∃ plan, command = .savePlan plan ∧
      after.plans = w.plans.set plan.operationId plan := by
  cases change with
  | planned => exact .inr ⟨_, rfl, rfl⟩
  | locked legal => rw [acquireLock_operations]; exact .inl rfl
  | unlocked legal => rw [releaseLock_operations]; exact .inl rfl
  | _ => exact .inl rfl

def regime : Regime terms where
  inv := Inv
  consistent inv := inv.consistent
  crash inv _ := inv
  pause inv _ := inv_pause inv _
  grounds := ⟨fun _ => True, False, True⟩
  legal {command i w} inv allowed legal outside := by
    have change := @change_effect _ i w command legal outside
    have plans := plans_change change
    refine ⟨consistent_change inv.consistent change, fun {id plan} found => ?_,
      settled_change inv.consistent inv.settled change fun {id op plan} stored planned => ?_⟩
    · rcases plans with same | ⟨saved, rfl, same⟩
      · exact inv.distinct (same ▸ found)
      · rw [same, Dict.get_set] at found
        split at found
        · cases found
          exact allowed.2.2
        · exact inv.distinct found
    · rcases plans with same | ⟨saved, rfl, same⟩
      · exact same ▸ planned
      · have other : id ≠ saved.operationId := fun same => by
          rw [same, allowed.2.1] at stored
          simp at stored
        rw [same, Dict.get_set_ne _ _ other]
        exact planned
  issues _ _ _ := trivial
  still := False.elim

theorem inv_putAttempt {record : Attempt} (inv : Inv w)
    (found : w.operations.get record.operationId = some op) (executed : op.state.isExecuted = true)
    (plain : isCompletedEffect record = false) : Inv (w.putAttempt record) :=
  ⟨consistent_putAttempt inv.consistent found executed, inv.distinct,
    settled_putAttempt inv.settled plain⟩

theorem held_executed (running : op.state = .running) (held : Held w op) :
    ∃ now, w.operations.get op.id = some now ∧
      now.state.isExecuted = true ∧
      now.executionCursor.nextStepIndex = op.executionCursor.nextStepIndex := by
  rcases held with kept | paused
  · exact ⟨op, kept, by rw [running]; rfl, rfl⟩
  · exact ⟨op.pausing.stored, paused, rfl, rfl⟩

variable (d : ActiveStep)

structure Ahead (w : World) : Prop where
  consistent : Consistent w
  distinct : ∀ {id plan}, w.plans.get id = some plan → DistinctSteps plan
  held : Held w d.op
  planned : w.plans.get d.op.id = some d.plan
  almost : ∀ id attemptId record, w.attempt id attemptId = some record →
    isCompletedEffect record = true →
    Past w id record.stepId ∨ (id = d.op.id ∧ record.stepId = d.step.id)
  unsettled : ¬Settled w

theorem ahead_pause (ahead : Ahead d w) (id : String) : Ahead d (w.pause id) where
  consistent := consistent_pause ahead.consistent id
  distinct found := by
    rw [pause_plans] at found
    exact ahead.distinct found
  held := ahead.held.pause ahead.consistent id
  planned := by
    rw [pause_plans]
    exact ahead.planned
  almost other attemptId record here completed := by
    rw [attempt_congr (pause_attempts _ id)] at here
    rcases ahead.almost other attemptId record here completed with past | own
    · exact .inl (past_pause ahead.consistent past)
    · exact .inr own
  unsettled settled := ahead.unsettled ((settled_pause ahead.consistent id).mp settled)

def ahead : Stage terms where
  inv := Ahead d
  consistent inv := inv.consistent
  crash inv settled := absurd settled inv.unsettled
  pause inv _ := ahead_pause d inv _

variable {d}

theorem ahead_finish {a : Attempt} {errorClass : String} {now : Lease.Instant}
    (inv : (regime.live d a).inv w) (effectful : a.sideEffectful = true) :
    Ahead d (w.putAttempt (Regime.finished a .completed errorClass now)) := by
  obtain ⟨kept, ⟨held, planned⟩, attempted, -⟩ := inv
  obtain ⟨stored, found, executed, cursor⟩ := held_executed d.running held
  have keyed : w.operations.get (Regime.finished a .completed errorClass now).operationId =
      some stored := by
    rw [← found]
    exact congrArg _ attempted.operationId
  refine ⟨consistent_putAttempt kept.consistent keyed executed, kept.distinct, held, planned,
    fun id attemptId record here completed => ?_, fun settled => ?_⟩
  · rw [attempt_putAttempt] at here
    split at here
    · rename_i own
      cases here
      exact .inr ⟨own.1.trans attempted.operationId, attempted.stepId⟩
    · exact .inl (kept.settled id attemptId record here completed)
  · have past := settled d.op.id a.attemptId (Regime.finished a .completed errorClass now)
      (by rw [attempt_putAttempt, if_pos ⟨attempted.operationId.symm, rfl⟩])
      (by simp [isCompletedEffect, Regime.finished, effectful])
    have named : (Regime.finished a .completed errorClass now).stepId = d.step.id :=
      attempted.stepId
    rw [named] at past
    have here := d.here
    rw [← cursor] at here
    exact @not_past w stored d.plan d.step d.op.id found planned (kept.distinct planned) here past

theorem inv_progress {latest : Operation} {run : RunResult} (ahead : Ahead d w)
    (found : w.operations.get d.op.id = some latest)
    (next : run.nextStepIndex = d.op.executionCursor.nextStepIndex + 1) :
    Inv (w.put (recordProgress latest d.op.executionCursor run).stored) := by
  obtain ⟨stored, here, executed, cursor⟩ := held_executed d.running ahead.held
  have same : stored = latest := Option.some.inj (here.symm.trans found)
  subst same
  have named : stored.id = d.op.id := ahead.consistent.keyed found
  have own : (w.put (recordProgress stored d.op.executionCursor run).stored).operations.get
      d.op.id = some (recordProgress stored d.op.executionCursor run).stored := by
    rw [← named]
    exact Dict.get_set_self _ _ _
  refine ⟨consistent_put ahead.consistent ?_ ?_ fun base there ran => ?_, ahead.distinct, ?_⟩
  · exact named ▸ ahead.consistent.named found
  · exact ⟨d.plan, named ▸ ahead.planned⟩
  · exact executed
  · intro id attemptId record there completed
    rcases ahead.almost id attemptId record there completed with past | ⟨rfl, step⟩
    · refine past.of_cursor (fun {op} kept => ?_) fun _ planned => planned
      by_cases same : id = d.op.id
      · subst same
        have same : stored = op := Option.some.inj (here.symm.trans kept)
        subst same
        refine ⟨_, own, ?_⟩
        change stored.executionCursor.nextStepIndex ≤ run.nextStepIndex
        omega
      · have different : id ≠ (recordProgress stored d.op.executionCursor run).stored.id :=
          fun own => same (own.trans named)
        exact ⟨op, (Dict.get_set_ne _ _ different).trans kept, le_rfl⟩
    · refine ⟨_, d.plan, d.op.executionCursor.nextStepIndex, d.step, own, ahead.planned, ?_,
        d.here, step.symm⟩
      change d.op.executionCursor.nextStepIndex < run.nextStepIndex
      omega

theorem progresses : regime.Progresses := by
  intro d latest run w inv found counted
  obtain ⟨kept, stored, here, active, cursor, planned⟩ := inv
  have same : stored = latest := Option.some.inj (here.symm.trans found)
  subst same
  have named : stored.id = d.op.id := kept.consistent.keyed found
  refine ⟨consistent_put kept.consistent ?_ ?_ fun base there ran => ?_, kept.distinct, ?_⟩
  · exact named ▸ kept.consistent.named found
  · exact ⟨d.plan, named ▸ planned⟩
  · rcases active with running | paused
    · exact congrArg OperationState.isExecuted running
    · exact congrArg OperationState.isExecuted paused
  · intro id attemptId record there completed
    refine (kept.settled id attemptId record there completed).of_cursor (fun {op} other => ?_)
      fun _ planned => planned
    by_cases same : id = d.op.id
    · subst same
      have same : stored = op := Option.some.inj (here.symm.trans other)
      subst same
      refine ⟨(recordProgress stored d.op.executionCursor run).stored, ?_, ?_⟩
      · rw [← named]
        exact Dict.get_set_self _ _ _
      · change stored.executionCursor.nextStepIndex ≤ run.nextStepIndex
        rcases counted with same | next <;> omega
    · have different : id ≠ (recordProgress stored d.op.executionCursor run).stored.id :=
        fun own => same (own.trans named)
      exact ⟨op, (Dict.get_set_ne _ _ different).trans other, le_rfl⟩

open Stage Terms Regime

theorem kept_completed_tail {run : RunResult} (inv : Ahead d w)
    (next : run.nextStepIndex = d.op.executionCursor.nextStepIndex + 1) :
    regime.Kept (storeProgress d.op.id d.op.executionCursor run)
      (fun op after => Known after op ∧ op.id = d.op.id) w := by
  have faultless : ∀ {command i found}, Ahead d found → terms.allowsInput command i found →
      i.fault = none := by
    intro command i found inv allowed
    by_contra faulted
    exact inv.unsettled (allowed.1 faulted)
  have still : ∀ {command found}, isProgress command = true → Ahead d found →
      ∀ id, terms.allowsPause (some command) id found → found.pause id = found := by
    intro command found progress inv id allowed
    rcases allowed command rfl progress with settled | same
    · exact absurd settled inv.unsettled
    · exact same
  have loads : terms.Leads (loadOperation d.op.id) (fun outcome after => ∃ latest,
      outcome = .ok latest ∧ Ahead d after ∧ after.operations.get d.op.id = some latest) w := by
    refine @leads_read terms _ w (ahead d) _ _ inv ?_ fun found inv _ => ?_
    · intro i found fault inv allowed failed
      rw [faultless inv allowed] at failed
      cases failed
    obtain ⟨latest, here, -⟩ := held_executed d.running inv.held
    refine ⟨latest, ?_, inv, here⟩
    simp only [World.loadOperation, here]
  refine kept_of_leads (leads_bind loads ?_ ?_)
  · rintro fault after ⟨_, impossible, -⟩
    simp at impossible
  rintro latest w₁ - ⟨_, same, inv, found⟩
  cases same
  have emits : terms.Leads (emit .progress) (fun outcome after => outcome = .ok () ∧ after = w₁)
      w₁ := by
    refine @leads_still terms _ w₁ (ahead d) _ _ _ inv (still rfl inv) fun i allowed => ?_
    have sound := faultless inv allowed
    refine ⟨trivial, fun fault failed => ?_, fun _ => ⟨.refl _, rfl, rfl⟩⟩
    rw [sound] at failed
    simp at failed
  refine leads_bind emits ?_ ?_
  · rintro fault after ⟨impossible, -⟩
    simp at impossible
  rintro _ after - ⟨-, rfl⟩
  refine @leads_still terms _ after (ahead d) _ _ _ inv (still rfl inv) fun i allowed => ?_
  have sound := faultless inv allowed
  have named : latest.id = d.op.id := inv.consistent.keyed found
  refine ⟨promises_progress (inv.consistent.known found) (inv.held.active d.running found),
    fun fault failed => ?_, fun _ => ?_⟩
  · rw [sound] at failed
    simp at failed
  · have keyed : after.operations.get (recordProgress latest d.op.executionCursor run).id =
        some latest := by
      change after.operations.get latest.id = some latest
      rw [named]
      exact found
    have saved := saveOperation_ok keyed rfl
    have follows : Follows latest (recordProgress latest d.op.executionCursor run).stored :=
      recordProgress_follows latest _ run
    rw [World.perform, saved]
    refine ⟨later_put keyed follows, inv_progress inv found next, fun op same => ?_⟩
    cases same
    exact ⟨⟨_, Dict.get_set_self _ _ _, .refl _⟩, named⟩

def journaling : regime.Journaling where
  completed := ahead
  lost := regime.idle
  promised {d w} inv := by
    by_contra restarted
    obtain ⟨record, listed, completed, named⟩ : ∃ record, record ∈ w.listExecutionAttempts d.op.id ∧
        isCompletedEffect record = true ∧ record.stepId = d.step.id := by
      simpa [terms, hasCompleted] using restarted
    obtain ⟨attemptId, here⟩ := mem_listExecutionAttempts.mp listed
    obtain ⟨kept, held, planned⟩ := inv
    obtain ⟨stored, found, -, cursor⟩ := held_executed d.running held
    have past := kept.settled d.op.id attemptId record here completed
    rw [named] at past
    have step := d.here
    rw [← cursor] at step
    exact not_past found planned (kept.distinct planned) step past
  pending {d r w} inv operationId stepId effectful pending _ := by
    have put : ∀ {found : World} {record : Attempt}, Inv found → Held found d.op →
        record.operationId = d.op.id → isCompletedEffect record = false →
        Inv (found.putAttempt record) := by
      intro found record kept held named plain
      obtain ⟨stored, here, executed, -⟩ := held_executed d.running held
      exact inv_putAttempt kept (named ▸ here) executed plain
    refine leads_writeStarted inv operationId stepId effectful
      (put inv.1 inv.2.1 operationId ?_) fun now kept held => put kept held operationId ?_
    · simp [isCompletedEffect, pending]
    · simp [isCompletedEffect, Attempts.markAttemptStarted]
  dispatch inv _ := ⟨⟨consistent_of_same inv.1.consistent rfl (fun _ _ here => ⟨_, here⟩) rfl,
    inv.1.distinct, inv.1.settled⟩, fun _ _ _ => .inr fun _ idle => idle⟩
  finish {d a status errorClass i w} inv final decided _ _ := by
    split
    · rename_i both
      rw [both.1]
      exact ahead_finish inv both.2
    · rename_i other
      obtain ⟨kept, ⟨held, -⟩, attempted, -⟩ := inv
      obtain ⟨stored, here, executed, -⟩ := held_executed d.running held
      refine inv_putAttempt kept (attempted.operationId ▸ here) executed ?_
      simpa [isCompletedEffect, finished] using other
  lose {d a i w} inv _ _ := by
    obtain ⟨kept, ⟨held, planned⟩, attempted, -⟩ := inv
    obtain ⟨stored, here, executed, -⟩ := held_executed d.running held
    have lost : Inv (w.putAttempt (finished a .indeterminate "outcome_indeterminate" i.now)) :=
      inv_putAttempt kept (attempted.operationId ▸ here) executed
        (by simp [isCompletedEffect, finished])
    split
    · exact ⟨lost, d.working_of_held held planned⟩
    · exact lost
  completed_fault inv allowed faulted := absurd (allowed.1 faulted) inv.unsettled
  lost_fault inv _ _ := inv
  progress := progresses
  completed_tail := kept_completed_tail
  lost_tail inv _ _ counted := kept_idle_failure progresses inv counted

theorem runsSteps : regime.RunsSteps := journaling.runsSteps fun inv => inv

theorem marksLost : regime.MarksLost := by
  intro w operationId attemptId inv
  refine kept_of_leads (leads_access inv fun i found inv _ _ => ?_)
  have kept : Inv (found.markLost operationId attemptId i).2 := by
    unfold World.markLost
    split
    · rename_i record here
      split
      · obtain ⟨op, stored, executed⟩ := inv.consistent.attempted here
        have named : (World.lost record i.now).operationId = operationId :=
          (inv.consistent.journaled here).1
        exact inv_putAttempt inv (named ▸ stored) executed (by simp [isCompletedEffect, World.lost])
      · exact inv
    · exact inv
  have later : Later found (found.markLost operationId attemptId i).2 := by
    unfold World.markLost
    split
    · split
      · exact later_putAttempt _ _
      · exact .refl found
    · exact .refl found
  exact .plain (by simp) trivial (fun _ => ⟨inv, fun _ _ => trivial⟩)
    fun _ => ⟨later, kept, fun _ _ => trivial⟩

theorem inv_empty : Inv World.empty :=
  ⟨consistent_empty, fun found => by simp [World.empty] at found,
    fun _ _ _ here => by simp [World.empty, World.attempt, World.attemptsOf] at here⟩

/-- No attempt is started of a step that has a completed side effect. -/
theorem completed_not_restarted (events : List SystemEvent)
    (meets : terms.Meets (fun _ => True) System.start events) {operationId stepId : String}
    (starting : (System.start.run events).starting = some (operationId, stepId)) :
    hasCompleted (System.start.run events).store operationId stepId = false := by
  have sound : terms.setting.Sound (System.start.run events) :=
    Regime.sound_run runsSteps trivial (fun _ _ _ => marksLost) (fun rest => rest) inv_empty meets
  exact System.promise_of_sound sound starting fun w =>
    ⟨Input.agreeing 0 "", fun faulted => absurd rfl faulted, trivial⟩

def planEvents : List SystemEvent :=
  (Call.plan (.applying "1" ["first", "second"] ⟨0, [], []⟩)).events 13 (.agreeing 1 "a")

def twoStepEvents : List SystemEvent :=
  planEvents ++ (Call.start 5 "op-1").events 54 (.agreeing 2 "b")

/-- The process stops when the first attempt is recorded as completed; the operation is started
again. -/
def crashEvents : List SystemEvent :=
  planEvents ++ (Call.start 5 "op-1").events 36 (.agreeing 2 "b") ++ [.crash] ++
    (Call.start 5 "op-1").events 21 (.agreeing 200000000 "c")

/-- A check of the terms for runs without faults and crashes. -/
def permitted (m : System) : SystemEvent → Bool
  | .call _ => true
  | .input i => i.fault.isNone && match m.running with
    | some (.access (.savePlan plan) _) =>
      (m.store.operations.get plan.operationId).isNone && decide (DistinctSteps plan)
    | _ => true
  | .intrude _ => match Machine.awaiting m.running with
    | some command => !isProgress command
    | none => true
  | .crash => false

theorem allows_of_permitted (m : System) (event : SystemEvent)
    (ok : permitted m event = true) : terms.setting.Allows (fun _ _ => True) m event := by
  obtain ⟨store, running⟩ := m
  cases event with
  | call c => exact fun _ => trivial
  | input i =>
    simp only [permitted, Bool.and_eq_true, Option.isNone_iff_eq_none] at ok
    have faultless : i.fault ≠ none → Settled store := fun faulted => absurd ok.1 faulted
    match running with
    | none => trivial
    | some (.ret _) => trivial
    | some (.raise _) => trivial
    | some .halt => trivial
    | some (.access command next) =>
      refine ⟨faultless, ?_⟩
      cases command with
      | savePlan plan => simpa using ok.2
      | _ => trivial
  | intrude id =>
    intro command awaited progress
    simp only [permitted, awaited] at ok
    rw [progress] at ok
    simp at ok
  | crash => simp [permitted] at ok

theorem twoSteps_completed_not_restarted :
    (System.start.run twoStepEvents).starting = some ("op-1", "second") ∧
      hasCompleted (System.start.run twoStepEvents).store "op-1" "first" = true ∧
      hasCompleted (System.start.run twoStepEvents).store "op-1" "second" = false :=
  ⟨by decide +kernel, by decide +kernel,
    completed_not_restarted twoStepEvents
      (Terms.meets_of_checks allows_of_permitted (by decide +kernel)) (by decide +kernel)⟩

theorem crash_restarts_completed :
    (System.start.run crashEvents).starting = some ("op-1", "first") ∧
      hasCompleted (System.start.run crashEvents).store "op-1" "first" = true := by
  decide +kernel

end CompletedEffects

end RExecOp
