import RExecOp.Execution

/-! One step of a running operation: the journal moves through pending, started and a final
status while other processes may pause the operation. -/

namespace RExecOp

open Attempts Setting

open Attempts (Attempt)
open Lease (LeaseRecord Credential)

namespace Terms

variable {T : Terms} {α β : Type} {w : World}
  {V : Stage T} {p : Program α} {post : Except Fault α → World → Prop} {command : Command}
  {reply : Input → World → Except Fault α}

/-- However the program ends, its outcome and the store meet `post`. -/
def Leads (T : Terms) (p : Program α) (post : Except Fault α → World → Prop) (w : World) : Prop :=
  T.setting.Safe p (fun outcome after => Later w after ∧ post outcome after) w

theorem leads_pure {a : α} (holds : post (.ok a) w) :
    T.Leads (pure a) post w :=
  ⟨.refl w, holds⟩

theorem leads_raise {fault : Fault}
    (holds : post (.error fault) w) : T.Leads (raise fault) post w :=
  ⟨.refl w, holds⟩

theorem leads_mono {post weaker : Except Fault α → World → Prop} (leads : T.Leads p post w)
    (weaken : ∀ outcome after, Later w after → post outcome after → weaker outcome after) :
    T.Leads p weaker w := by
  refine Safe.mono leads ?_
  rintro outcome after ⟨later, holds⟩
  exact ⟨later, weaken outcome after later holds⟩

theorem leads_bind {next : α → Program β} {mid : Except Fault α → World → Prop}
    {post : Except Fault β → World → Prop} (leads : T.Leads p mid w)
    (raised : ∀ fault after, mid (.error fault) after → post (.error fault) after)
    (rest : ∀ a after, Later w after → mid (.ok a) after → T.Leads (next a) post after) :
    T.Leads (p >>= next) post w := by
  apply Safe.bind
  refine Safe.mono leads ?_
  rintro (fault | a) after ⟨later, holds⟩
  · exact ⟨later, raised fault after holds⟩
  · refine Safe.mono (rest a after later holds) ?_
    rintro outcome final ⟨further, holds⟩
    exact ⟨later.trans further, holds⟩

theorem leads_attempt (leads : T.Leads p post w) :
    T.Leads p.attempt (fun found after => ∃ outcome, found = .ok outcome ∧ post outcome after)
      w := by
  apply Safe.attempt
  refine Safe.mono leads ?_
  rintro outcome after ⟨later, holds⟩
  exact ⟨later, outcome, rfl, holds⟩

theorem leads_attemptException {mid : Except Fault α → World → Prop}
    {post : Except Fault (Except Fault α) → World → Prop} (leads : T.Leads p mid w)
    (returned : ∀ a after, mid (.ok a) after → post (.ok (.ok a)) after)
    (caught : ∀ fault after, fault.isException = true → mid (.error fault) after →
      post (.ok (.error fault)) after)
    (passed : ∀ fault after, fault.isException = false → mid (.error fault) after →
      post (.error fault) after) :
    T.Leads (attemptException p) post w := by
  refine leads_bind (leads_attempt leads) ?_ ?_
  · rintro fault after ⟨outcome, impossible, -⟩
    simp at impossible
  · rintro outcome after later ⟨found, same, holds⟩
    cases same
    cases outcome with
    | ok a => exact leads_pure (returned a after holds)
    | error fault =>
      dsimp only
      split
      · rename_i exception
        exact leads_pure (caught fault after exception holds)
      · rename_i interrupt
        exact leads_raise (passed fault after (Bool.not_eq_true _ ▸ interrupt) holds)

theorem leads_of_kept {post : α → World → Prop} (kept : V.Kept p post w) :
    T.Leads p (fun outcome after => V.inv after ∧ ∀ a, outcome = .ok a → post a after) w := by
  refine Safe.mono kept ?_
  rintro outcome after ⟨inv, later, holds⟩
  exact ⟨later, inv, holds⟩

theorem kept_of_leads {post : α → World → Prop}
    (leads : T.Leads p (fun outcome after => V.inv after ∧ ∀ a, outcome = .ok a → post a after) w) :
    V.Kept p post w := by
  refine Safe.mono leads ?_
  rintro outcome after ⟨later, inv, holds⟩
  exact ⟨inv, later, holds⟩

theorem leads_stage_bind {next : α → Program β} {mid : α → World → Prop}
    {post : Except Fault β → World → Prop} (kept : V.Kept p mid w)
    (raised : ∀ fault after, V.inv after → post (.error fault) after)
    (rest : ∀ a after, V.inv after → mid a after → T.Leads (next a) post after) :
    T.Leads (p >>= next) post w :=
  leads_bind (leads_of_kept kept) (fun fault after holds => raised fault after holds.1)
    fun a after _ holds => rest a after holds.1 (holds.2 a rfl)

structure Answers (T : Terms) (command : Command) (reply : Input → World → Except Fault α)
    (post : Except Fault α → World → Prop) (i : Input) (found : World) : Prop where
  promise : T.promises found command
  faulted : ∀ fault, i.fault = some fault → Later found (effect command i found) ∧
    post (.error fault) (effect command i found)
  replied : i.fault = none → Later found (found.perform i command) ∧
    post (reply i found) (found.perform i command)

theorem Answers.plain {i : Input} {found : World}
    (silent : ∀ id step effectful, command ≠ .dispatch id step effectful)
    (promise : T.promises found command) (faulted : ∀ fault, post (.error fault) found)
    (replied : i.fault = none → Later found (found.perform i command) ∧
      post (reply i found) (found.perform i command)) :
    T.Answers command reply post i found where
  promise := promise
  faulted fault failed := by
    rw [effect_faulted failed found silent]
    exact ⟨.refl found, faulted fault⟩
  replied := replied

theorem leads_drift
    (step : ∀ found, T.setting.Drift (some command) w found →
      (T.allowsCrash (some command) found → T.rest found) ∧ Later w found ∧
        ∀ i, T.allowsInput command i found → T.Answers command reply post i found) :
    T.Leads (access command reply) post w := by
  intro found drifted
  obtain ⟨crash, later, answers⟩ := step found drifted
  refine ⟨crash, fun i allowed => ⟨(answers i allowed).promise, ?_⟩⟩
  refine Safe.ofExcept ?_
  change Later w (effect command i found) ∧ post _ (effect command i found)
  dsimp only
  cases failed : i.fault with
  | some fault =>
    obtain ⟨further, holds⟩ := (answers i allowed).faulted fault failed
    exact ⟨later.trans further, holds⟩
  | none =>
    obtain ⟨further, holds⟩ := (answers i allowed).replied failed
    rw [effect_faultless failed]
    cases answer : reply i found with
    | ok a => exact ⟨later.trans further, answer ▸ holds⟩
    | error fault => exact ⟨later.trans further, answer ▸ holds⟩

theorem leads_access (inv : V.inv w)
    (step : ∀ i found, V.inv found → Later w found → T.allowsInput command i found →
      T.Answers command reply post i found) :
    T.Leads (access command reply) post w := by
  refine leads_drift fun found drifted => ?_
  obtain ⟨kept, later⟩ := Upkeep.drift (U := V.upkeep) inv drifted
  exact ⟨V.crash kept, later, fun i allowed => step i found kept later allowed⟩

theorem leads_read {look : World → Except Fault α} (inv : V.inv w)
    (raises : ∀ i found fault, V.inv found → T.allowsInput .read i found → i.fault = some fault →
      post (.error fault) found)
    (holds : ∀ found, V.inv found → Later w found → post (look found) found) :
    T.Leads (read look) post w := by
  refine leads_access inv fun i found kept later allowed => ⟨trivial, fun fault failed => ?_, ?_⟩
  · rw [effect_read]
    exact ⟨.refl found, raises i found fault kept allowed failed⟩
  · exact fun _ => ⟨.refl found, holds found kept later⟩

theorem leads_still (inv : V.inv w)
    (still : ∀ id, T.allowsPause (some command) id w → w.pause id = w)
    (step : ∀ i, T.allowsInput command i w → T.Answers command reply post i w) :
    T.Leads (access command reply) post w := by
  refine leads_drift fun found drifted => ?_
  have same : found = w := by
    induction drifted with
    | refl => rfl
    | tail _ last ih =>
      obtain ⟨id, allowed, rfl⟩ := last
      subst ih
      exact still id allowed
  subst same
  exact ⟨V.crash inv, .refl _, step⟩

end Terms

structure ActiveStep where
  op : Operation
  plan : OperationPlan
  step : PlannedStep
  running : op.state = .running
  here : plan.plannedSteps[op.executionCursor.nextStepIndex]? = some step

namespace ActiveStep

variable (d : ActiveStep)

def Working (w : World) : Prop :=
  ∃ now, w.operations.get d.op.id = some now ∧ (now.state = .running ∨ now.state = .paused) ∧
    now.executionCursor.nextStepIndex = d.op.executionCursor.nextStepIndex ∧
    w.plans.get d.op.id = some d.plan

abbrev context : StepContext := ⟨d.op.id, d.op.target, d.op.mode, d.step⟩

structure Attempted (a : Attempt) : Prop where
  operationId : a.operationId = d.op.id
  stepId : a.stepId = d.step.id
  sideEffectful : a.sideEffectful = isSideEffectful d.op.mode
  started : a.status = .started

def Hopeless (errorClass : String) : Prop :=
  canRetry d.plan (orElse errorClass "unknown") (failureCount d.op d.step.id) = false

def Counted (run : RunResult) : Prop :=
  run.nextStepIndex = d.op.executionCursor.nextStepIndex ∨
    run.nextStepIndex = d.op.executionCursor.nextStepIndex + 1

theorem hopeless_outcomeIndeterminate : d.Hopeless "outcome_indeterminate" := by
  simp [Hopeless, canRetry, errorRetryable, orElse]

theorem working_pause {w : World} (id : String) (consistent : Consistent w)
    (working : d.Working w) : d.Working (w.pause id) := by
  obtain ⟨now, found, active, cursor, planned⟩ := working
  have plans := pause_plans w id
  by_cases same : d.op.id = id
  · subst same
    rcases pause_cases w consistent d.op.id with same | ⟨op, stored, -, -, named, saved⟩
    · rw [same]
      exact ⟨now, found, active, cursor, planned⟩
    · have same := Option.some.inj (stored.symm.trans found)
      subst same
      refine ⟨op.pausing.stored, ?_, .inr rfl, cursor, plans ▸ planned⟩
      rw [saved, ← named]
      exact Dict.get_set_self _ _ _
  · refine ⟨now, ?_, active, cursor, plans ▸ planned⟩
    rw [pause_get_ne consistent same]
    exact found

theorem working_of_held {w : World} (held : Held w d.op)
    (planned : w.plans.get d.op.id = some d.plan) : d.Working w := by
  rcases held with kept | paused
  · exact ⟨d.op, kept, .inl d.running, rfl, planned⟩
  · exact ⟨d.op.pausing.stored, paused, .inr rfl, rfl, planned⟩

end ActiveStep

namespace Regime

open Stage Terms

variable {T : Terms} (R : Regime T) (d : ActiveStep)

def idle : Stage T := R.stage d.Working d.working_pause

def live (a : Attempt) : Stage T :=
  R.stage (fun w => (Held w d.op ∧ w.plans.get d.op.id = some d.plan) ∧ d.Attempted a ∧
      w.attempt d.op.id a.attemptId = some a) fun id consistent fact => by
    refine ⟨⟨fact.1.1.pause consistent id, ?_⟩, fact.2.1, ?_⟩
    · rw [pause_plans]
      exact fact.1.2
    · rw [attempt_congr (pause_attempts _ id)]
      exact fact.2.2

def finished (a : Attempt) (status : AttemptStatus) (errorClass : String) (now : Lease.Instant) :
    Attempt :=
  { a with status := status, finishedAt := some now, errorClass := errorClass }

def Progresses : Prop :=
  ∀ {d : ActiveStep} {latest : Operation} {run : RunResult} {w : World}, (R.idle d).inv w →
    w.operations.get d.op.id = some latest → d.Counted run →
    R.inv (w.put (recordProgress latest d.op.executionCursor run).stored)

/-- What the writes of a step do to a regime; the outcomes of side effects lead to stages of
their own, in which no access may fault. -/
structure Journaling where
  completed : ActiveStep → Stage T
  lost : ActiveStep → Stage T
  promised : ∀ {d : ActiveStep} {w}, (R.holding d.op d.plan).inv w →
    T.promise d.op.id d.step.id w
  pending : ∀ {d : ActiveStep} {r : Attempt} {w}, (R.holding d.op d.plan).inv w →
    r.operationId = d.op.id →
    r.stepId = d.step.id → r.sideEffectful = isSideEffectful d.op.mode →
    r.status = .pending → w.attempt d.op.id r.attemptId = none →
    T.Leads (access (.writeStarted r) fun i _ => .ok (markAttemptStarted r i.now))
      (fun outcome after => (R.idle d).inv after ∧ ∀ a, outcome = .ok a → (R.live d a).inv after)
      (w.putAttempt r)
  dispatch : ∀ {d : ActiveStep} {a : Attempt} {i w}, (R.live d a).inv w →
    T.allowsInput (.dispatch d.op.id d.step.id a.sideEffectful) i w →
    R.inv (w.perform i (.dispatch d.op.id d.step.id a.sideEffectful)) ∧
    ∀ fault, i.fault = some fault → a.sideEffectful = true →
      (fault.isException = true ∧ d.Hopeless fault.reasonCode) ∨
      ∀ after, (lost d).inv after → (R.idle d).inv after
  finish : ∀ {d : ActiveStep} {a : Attempt} {status : AttemptStatus} {errorClass i w},
    (R.live d a).inv w → status.isFinal = true →
    status ≠ .indeterminate →
    T.allowsInput (.finishAttempt d.op.id a.attemptId status errorClass) i w →
    i.fault = none → if status = .completed ∧ a.sideEffectful = true then
        (completed d).inv (w.putAttempt (finished a status errorClass i.now))
      else R.inv (w.putAttempt (finished a status errorClass i.now))
  lose : ∀ {d : ActiveStep} {a : Attempt} {i w}, (R.live d a).inv w →
    T.allowsInput (.finishIndeterminate d.op.id a.attemptId) i w →
    i.fault = none → if a.sideEffectful = true then
        (lost d).inv (w.putAttempt (finished a .indeterminate "outcome_indeterminate" i.now))
      else R.inv (w.putAttempt (finished a .indeterminate "outcome_indeterminate" i.now))
  completed_fault : ∀ {d : ActiveStep} {command i w}, (completed d).inv w →
    T.allowsInput command i w →
    i.fault ≠ none → (R.idle d).inv w
  lost_fault : ∀ {d : ActiveStep} {command i w}, (lost d).inv w → T.allowsInput command i w →
    i.fault ≠ none → (R.idle d).inv w
  progress : R.Progresses
  completed_tail : ∀ {d : ActiveStep} {run : RunResult} {w}, (completed d).inv w →
    run.nextStepIndex = d.op.executionCursor.nextStepIndex + 1 →
    R.Kept (storeProgress d.op.id d.op.executionCursor run)
      (fun op after => Known after op ∧ op.id = d.op.id) w
  lost_tail : ∀ {d : ActiveStep} {run : RunResult} {w}, (lost d).inv w →
    d.Hopeless run.errorClass → run.stoppedStepId = d.step.id → d.Counted run →
    R.Kept (do
      let op ← storeProgress d.op.id d.op.executionCursor run
      handleStepFailure op d.plan run)
      (fun outcome after => Advanced d.op.id outcome after) w

variable {R d} {w : World} {a : Attempt}

theorem idle_of_holding (inv : (R.holding d.op d.plan).inv w) : (R.idle d).inv w :=
  ⟨inv.1, d.working_of_held inv.2.1 inv.2.2⟩

theorem idle_of_live (inv : (R.live d a).inv w) : (R.idle d).inv w :=
  ⟨inv.1, d.working_of_held inv.2.1.1 inv.2.1.2⟩

theorem idle_putAttempt {record : Attempt} (inv : (R.idle d).inv w)
    (kept : R.inv (w.putAttempt record)) : (R.idle d).inv (w.putAttempt record) :=
  ⟨kept, inv.2⟩

theorem refinish_live (finish : Attempt → Except Fault Attempt) {last : Attempt}
    (inv : (R.live d a).inv w) (done : finish a = .ok last) :
    w.refinish a.operationId a.attemptId finish = (.ok last, w.putAttempt last) := by
  have found : w.attempt a.operationId a.attemptId = some a := by
    rw [inv.2.2.1.operationId]
    exact inv.2.2.2
  unfold World.refinish
  rw [found]
  dsimp only
  rw [done]

variable (J : R.Journaling)
  {lease : LeaseRecord} {result : StepResult} {r : Attempt} {run : RunResult} {errorClass : String}
  {fault : Fault} {executed : Executed}

def Journaling.Ended (d : ActiveStep) (a : Attempt) (status : AttemptStatus) (after : World) :
    Prop :=
  if status = .completed ∧ a.sideEffectful = true then (J.completed d).inv after
  else if status = .indeterminate ∧ a.sideEffectful = true then (J.lost d).inv after
  else (R.idle d).inv after

theorem leads_finishExecutionAttempt {status : AttemptStatus} (inv : (R.live d a).inv w)
    (final : status.isFinal = true) (decided : status ≠ .indeterminate) :
    T.Leads (finishExecutionAttempt a status errorClass) (fun outcome after => match outcome with
      | .ok _ => J.Ended d a status after
      | .error _ => (R.live d a).inv after) w := by
  unfold finishExecutionAttempt
  rw [inv.2.2.1.operationId]
  refine leads_access inv fun i found live _ allowed => ?_
  have done := J.finish live final decided allowed
  have finishes : finishAttemptRecord a status errorClass i.now =
      .ok (finished a status errorClass i.now) := by
    unfold finishAttemptRecord
    rw [final, live.2.2.1.started]
    simp [finished]
  have written := refinish_live
    (fun record => finishAttemptRecord record status errorClass i.now) live finishes
  rw [live.2.2.1.operationId] at written
  refine .plain (by nofun) trivial (fun _ => live) fun sound => ?_
  rw [World.perform, written]
  refine ⟨later_putAttempt _ _, ?_⟩
  have reached := done sound
  change J.Ended d a status (found.putAttempt (finished a status errorClass i.now))
  unfold Journaling.Ended
  split
  · rename_i completes
    rw [if_pos completes] at reached
    exact reached
  · rename_i other
    rw [if_neg other] at reached
    rw [if_neg fun both => decided both.1]
    exact idle_putAttempt (idle_of_live live) reached

theorem leads_finishIndeterminateIfStarted (inv : (R.live d a).inv w) :
    T.Leads (finishIndeterminateIfStarted a) (fun outcome after => match outcome with
      | .ok _ => J.Ended d a .indeterminate after
      | .error _ => (R.live d a).inv after) w := by
  unfold finishIndeterminateIfStarted
  rw [inv.2.2.1.operationId]
  refine leads_access inv fun i found live _ allowed => ?_
  have done := J.lose live allowed
  have finishes : finishAttemptIndeterminateIfStarted a i.now =
      .ok (finished a .indeterminate "outcome_indeterminate" i.now) := by
    unfold finishAttemptIndeterminateIfStarted finishAttemptRecord
    rw [live.2.2.1.started]
    rfl
  have written := refinish_live
    (fun record => finishAttemptIndeterminateIfStarted record i.now) live finishes
  rw [live.2.2.1.operationId] at written
  refine .plain (by nofun) trivial (fun _ => live) fun sound => ?_
  rw [World.perform, written]
  refine ⟨later_putAttempt _ _, ?_⟩
  have reached := done sound
  change J.Ended d a .indeterminate
    (found.putAttempt (finished a .indeterminate "outcome_indeterminate" i.now))
  unfold Journaling.Ended
  rw [if_neg fun both => by simp at both]
  split
  · rename_i lost
    rw [if_pos lost.2] at reached
    exact reached
  · rename_i other
    rw [if_neg fun effectful => other ⟨rfl, effectful⟩] at reached
    exact idle_putAttempt (idle_of_live live) reached

def Journaling.Failed (d : ActiveStep) (a : Attempt) (fault : Fault) (after : World) : Prop :=
  (R.idle d).inv after ∨
    ((J.lost d).inv after ∧ a.sideEffectful = true ∧ fault = finalizationLost)

theorem leads_finishAttempt {status : AttemptStatus} (inv : (R.live d a).inv w)
    (final : status.isFinal = true) :
    T.Leads (finishAttempt a status errorClass) (fun outcome after => match outcome with
      | .ok _ => J.Ended d a status after
      | .error fault => J.Failed d a fault after) w := by
  have writes : T.Leads (if status = .indeterminate then finishIndeterminateIfStarted a
      else finishExecutionAttempt a status errorClass) (fun outcome after => match outcome with
      | .ok _ => J.Ended d a status after
      | .error _ => (R.live d a).inv after) w := by
    split
    · rename_i lost
      subst lost
      exact leads_finishIndeterminateIfStarted J inv
    · rename_i decided
      exact leads_finishExecutionAttempt J inv final decided
  have tried : T.Leads (attemptException (if status = .indeterminate then
      finishIndeterminateIfStarted a else finishExecutionAttempt a status errorClass))
      (fun outcome after => match outcome with
        | .ok (.ok _) => J.Ended d a status after
        | .ok (.error _) => (R.live d a).inv after
        | .error _ => (R.live d a).inv after) w :=
    leads_attemptException writes (fun _ _ holds => holds) (fun _ _ _ holds => holds)
      fun _ _ _ holds => holds
  refine leads_bind tried (fun fault after live => .inl (idle_of_live live)) ?_
  rintro (fault | last) after - reached
  · dsimp only at reached ⊢
    split
    · exact leads_raise (.inl (idle_of_live reached))
    · rename_i effectful
      split
      · exact leads_raise (.inl (idle_of_live reached))
      · -- The second write records the side effect as indeterminate.
        have again : T.Leads (attemptException (finishIndeterminateIfStarted a))
            (fun outcome after => match outcome with
              | .ok _ => J.Failed d a finalizationLost after
              | .error _ => (R.live d a).inv after) after := by
          refine leads_attemptException (leads_finishIndeterminateIfStarted J reached) ?_ ?_ ?_
          · intro _ after ended
            have side : a.sideEffectful = true := by simpa using effectful
            simp only [Journaling.Ended, side] at ended
            exact .inr ⟨by simpa using ended, side, rfl⟩
          · intro _ after _ live
            exact .inl (idle_of_live live)
          · intro _ after _ live
            exact live
        refine leads_bind again (fun fault after live => .inl (idle_of_live live)) ?_
        intro _ after _ failed
        exact leads_raise failed
  · exact leads_pure reached

theorem buildPendingAttempt_ok {operationId attemptId stepId target mode : String} {revision : Nat}
    {lease : Credential} {now : Lease.Instant}
    (built : buildPendingAttempt operationId attemptId revision stepId target mode lease
      now = .ok r) :
    r.operationId = operationId ∧ r.attemptId = attemptId ∧ r.stepId = stepId ∧
      r.sideEffectful = isSideEffectful mode ∧ r.status = .pending ∧
      r.schema = attemptSchema ∧ r.attemptId ≠ "" := by
  unfold buildPendingAttempt at built
  split at built
  · simp at built
  · rename_i accepted
    cases built
    refine ⟨rfl, rfl, rfl, rfl, rfl, rfl, fun blank => accepted ?_⟩
    rw [show attemptId = "" from blank]
    rfl

theorem startAttempt_ok {operationId attemptId stepId target mode : String} {revision : Nat}
    {lease : Credential} {i : Input}
    (started : w.startAttempt operationId attemptId revision stepId target mode lease i = .ok r) :
    w.attempt operationId attemptId = none ∧
      buildPendingAttempt operationId attemptId revision stepId target mode lease
        i.now = .ok r := by
  unfold World.startAttempt at started
  split at started
  · simp at started
  · rename_i absent
    exact ⟨by simpa using absent, started⟩

include J in
theorem leads_startAttempt (inv : (R.holding d.op d.plan).inv w) :
    T.Leads (startAttempt lease d.context) (fun outcome after => (R.idle d).inv after ∧
      ∀ a, outcome = .ok a → (R.live d a).inv after) w := by
  have stays : ∀ (fault : Fault) after, (R.holding d.op d.plan).inv after →
      (R.idle d).inv after ∧ ∀ a, (Except.error fault : Except Fault Attempt) = .ok a →
        (R.live d a).inv after := fun fault after holds => ⟨idle_of_holding holds, nofun⟩
  have valid : (R.holding d.op d.plan).Keeps
      (access .read fun i w => Lease.validate w.lease lease.credential i.now) w :=
    kept_quiet inv rfl fun _ _ _ _ _ _ => trivial
  refine leads_stage_bind valid stays fun _ w₁ inv _ => ?_
  refine leads_stage_bind (kept_loadOperation inv) stays fun op w₂ inv loaded => ?_
  refine leads_stage_bind (kept_preflightRollbackAuthority inv) stays fun _ w₃ inv _ => ?_
  refine leads_stage_bind (kept_ask inv) stays fun attemptId w₄ inv _ => ?_
  refine leads_stage_bind (kept_check inv) stays fun _ w₅ inv _ => ?_
  have named : op.id = d.op.id := loaded.2.1
  rw [named]
  have writes : T.Leads (access (.writePending d.op.id attemptId op.revision d.step.id d.op.target
      d.op.mode lease.credential) fun i w => w.startAttempt d.op.id attemptId op.revision d.step.id
        d.op.target d.op.mode lease.credential i)
      (fun outcome after => match outcome with
        | .ok r => T.Leads
          (access (.writeStarted r) fun i _ => .ok (markAttemptStarted r i.now))
          (fun outcome after => (R.idle d).inv after ∧ ∀ a, outcome = .ok a →
            (R.live d a).inv after) after
        | .error _ => (R.holding d.op d.plan).inv after) w₅ := by
    refine leads_access inv fun i found holding _ allowed => ?_
    refine .plain (by nofun) (J.promised holding) (fun _ => holding) fun sound => ?_
    simp only [World.perform]
    cases started : found.startAttempt d.op.id attemptId op.revision d.step.id d.op.target
        d.op.mode lease.credential i with
    | error fault => exact ⟨.refl found, holding⟩
    | ok r =>
      obtain ⟨absent, built⟩ := startAttempt_ok started
      obtain ⟨operationId, named, stepId, effectful, pending, -⟩ := buildPendingAttempt_ok built
      rw [← named] at absent
      exact ⟨later_putAttempt _ _, J.pending holding operationId stepId effectful pending absent⟩
  refine leads_bind writes stays ?_
  intro r w₆ _ pending
  exact pending

def Journaling.Raised (d : ActiveStep) (fault : Fault) (after : World) : Prop :=
  (R.idle d).inv after ∨
    ((J.lost d).inv after ∧ isSideEffectful d.op.mode = true ∧
      fault.isException = true ∧ d.Hopeless fault.reasonCode)

variable {J}

theorem raised_of_failed (attempted : d.Attempted a)
    (failed : J.Failed d a fault w) : J.Raised d fault w := by
  rcases failed with idle | ⟨lost, effectful, rfl⟩
  · exact .inl idle
  · refine .inr ⟨lost, ?_, rfl, d.hopeless_outcomeIndeterminate⟩
    rw [← attempted.sideEffectful]
    exact effectful

variable (J)

def Journaling.Executes (d : ActiveStep) : Except Fault Executed → World → Prop
  | .ok executed, after => match executed.deferred with
    | none => (R.idle d).inv after
    | some deferral => ∃ a, executed.attempt = some a ∧ (R.live d a).inv after ∧
      (deferral = .sideEffectfulSuccess → a.sideEffectful = true)
  | .error fault, after => J.Raised d fault after

theorem leads_dispatch (inv : (R.live d a).inv w) :
    T.Leads (dispatch d.context a) (fun outcome after => (R.live d a).inv after ∧
      ∀ fault, outcome = .error fault → a.sideEffectful = true →
        (fault.isException = true ∧ d.Hopeless fault.reasonCode) ∨
        ∀ after, (J.lost d).inv after → (R.idle d).inv after) w := by
  refine leads_access inv fun i found live _ allowed => ?_
  obtain ⟨kept, hopeless⟩ := J.dispatch live allowed
  refine ⟨trivial, fun fault failed => ?_, fun sound => ?_⟩
  · unfold effect
    rw [failed]
    refine ⟨later_of_same rfl rfl rfl, ⟨kept, live.2⟩, ?_⟩
    intro raised same effectful
    cases same
    exact hopeless fault failed effectful
  · exact ⟨later_of_same rfl rfl rfl, ⟨kept, live.2⟩, nofun⟩

theorem leads_finishFailed (inv : (R.live d a).inv w) (plain : executed.deferred = none) :
    T.Leads (do
      finishAttempt a .failed errorClass
      pure executed) (J.Executes d) w := by
  refine leads_bind (leads_finishAttempt J inv rfl)
    (fun fault after failed => raised_of_failed inv.2.2.1 failed) fun _ after _ ended => ?_
  refine leads_pure ?_
  simp only [Journaling.Executes, plain]
  simpa [Journaling.Ended] using ended

theorem leads_finishDispatched (inv : (R.live d a).inv w)
    (hopeless : a.sideEffectful = true → (fault.isException = true ∧ d.Hopeless fault.reasonCode) ∨
      ∀ after, (J.lost d).inv after → (R.idle d).inv after) :
    T.Leads (do
      finishAttempt a .indeterminate "outcome_indeterminate"
      raise fault) (J.Executes d) w := by
  refine leads_bind (leads_finishAttempt J inv rfl)
    (fun fault after failed => raised_of_failed inv.2.2.1 failed) fun _ after _ ended => ?_
  refine leads_raise ?_
  change J.Raised d fault after
  cases effectful : a.sideEffectful with
  | false =>
    simp only [Journaling.Ended, effectful] at ended
    exact .inl (by simpa using ended)
  | true =>
    simp only [Journaling.Ended, effectful] at ended
    have lost : (J.lost d).inv after := by simpa using ended
    rcases hopeless effectful with ⟨exception, policy⟩ | harmless
    · refine .inr ⟨lost, ?_, exception, policy⟩
      rw [← inv.2.2.1.sideEffectful]
      exact effectful
    · exact .inl (harmless after lost)

theorem leads_invokeConnector (inv : (R.live d a).inv w) :
    T.Leads (invokeConnector d.context a) (J.Executes d) w := by
  have fresh : (R.live d a).Keeps (requireAttemptFresh a) w := by
    refine kept_bind (kept_loadOperation inv) fun _ _ inv _ _ => ?_
    exact kept_bind (kept_preflightRollbackAuthority inv) fun _ _ inv _ _ => kept_check inv
  have tried : T.Leads (attemptException (requireAttemptFresh a))
      (fun _ after => (R.live d a).inv after) w :=
    leads_attemptException (leads_of_kept fresh) (fun _ _ holds => holds.1)
      (fun _ _ _ holds => holds.1) fun _ _ _ holds => holds.1
  refine leads_bind tried (fun fault after live => .inl (idle_of_live live)) ?_
  rintro (fault | ⟨⟩) w₁ - inv
  · exact leads_finishFailed J inv rfl
  · refine leads_bind (leads_attempt (leads_dispatch J inv)) ?_ ?_
    · rintro fault after ⟨_, impossible, -⟩
      simp at impossible
    · rintro outcome w₂ - ⟨_, same, inv, hopeless⟩
      cases same
      match outcome with
      | .error fault => exact leads_finishDispatched J inv (hopeless fault rfl)
      | .ok .overLimit => exact leads_pure ⟨a, rfl, inv, nofun⟩
      | .ok (.failed errorClass) => exact leads_finishFailed J inv rfl
      | .ok .succeeded =>
        dsimp only
        split
        · rename_i effectful
          exact leads_pure ⟨a, rfl, inv, fun _ => effectful⟩
        · rename_i harmless
          refine leads_bind (leads_finishAttempt J inv rfl)
            (fun fault after failed => raised_of_failed inv.2.2.1 failed)
            fun _ after _ ended => ?_
          refine leads_pure ?_
          simp only [Journaling.Ended, harmless] at ended
          simpa [Journaling.Executes] using ended

theorem leads_executeConnector (inv : (R.holding d.op d.plan).inv w) :
    T.Leads (executeConnector lease d.context) (J.Executes d) w := by
  have stays : ∀ (fault : Fault) after, (R.holding d.op d.plan).inv after →
      J.Executes d (.error fault) after := fun fault after inv => .inl (idle_of_holding inv)
  have asks : (R.holding d.op d.plan).Keeps (ask fun i => .ok i.agrees) w := kept_ask inv
  refine leads_stage_bind (kept_attempt asks) stays fun spec w₁ inv _ => ?_
  cases spec with
  | error fault =>
    dsimp only
    split
    · exact leads_pure (idle_of_holding inv)
    · exact leads_raise (stays fault w₁ inv)
  | ok hasSpec =>
    have decides : (R.holding d.op d.plan).Keeps
        (if hasSpec then ask fun i => .ok i.agrees else pure true) w₁ := by
      split
      · exact kept_ask inv
      · exact kept_pure inv trivial
    refine leads_stage_bind decides stays fun admitted w₂ inv _ => ?_
    split
    · exact leads_pure (idle_of_holding inv)
    · refine leads_stage_bind (kept_ask inv) stays fun _ w₃ inv _ => ?_
      refine leads_bind (leads_startAttempt J inv) (fun fault after holds => .inl holds.1) ?_
      intro a w₄ _ started
      exact leads_invokeConnector J (started.2 a rfl)

theorem kept_stageWrite {fact : World → Prop}
    {stable : ∀ {w} id, Consistent w → fact w → fact (w.pause id)} {α : Type} {V : Stage T}
    {command : Command} {reply : Input → World → Except Fault α} {post : α → World → Prop}
    (weaker : ∀ {w}, V.inv w → (R.stage fact stable).inv w) (inv : V.inv w)
    (outside : command.isStep = false)
    (legal : ∀ found, V.inv found → Later w found → Legal R.grounds found command)
    (keeps : ∀ i found, V.inv found → Later w found → fact (found.perform i command))
    (holds : ∀ i (found : World) a, post a (found.perform i command)) :
    (R.stage fact stable).Kept (access command reply) post w := by
  refine Upkeep.Kept.requestFrom (V := V.upkeep) inv (fun grown => grown)
    fun i found kept later allowed => ?_
  have lawful := legal found kept later
  have after := R.legal (weaker kept).1 allowed lawful outside
  refine ⟨promises_of_legal lawful outside, ⟨after, ?_⟩,
    later_change (change_effect lawful outside), fun a replied => ?_⟩
  · change fact (effect command i found)
    unfold effect
    split
    · simp [Command.isStep] at outside
    · exact (weaker kept).2
    · exact keeps i found kept later
  · split at replied
    · simp at replied
    · rename_i sound
      change post a (effect command i found)
      rw [effect_faultless sound]
      exact holds i found a

theorem working_saveNote {op note : Operation} (working : d.Working w) (known : Known w op)
    (named : note.id = op.id) (level : note.revision = op.revision)
    (state : note.state = op.state) (cursor : note.executionCursor = op.executionCursor) :
    d.Working (w.saveOperation note).2 := by
  rcases saveOperation_cases w note with ⟨base, found, revised, saved⟩ | ⟨absent, _, _⟩ |
    ⟨fault, refused⟩
  · rw [saved]
    obtain ⟨now, here, follows⟩ := known
    rw [named, here] at found
    have same_base : now = base := Option.some.inj found
    have stored : now = op := follows.same (by rw [same_base]; omega)
    subst stored
    obtain ⟨other, there, active, index, planned⟩ := working
    by_cases own : d.op.id = now.id
    · rw [own, here] at there
      have same_other : now = other := Option.some.inj there
      subst same_other
      refine ⟨note.stored, ?_, state ▸ active,
        (congrArg Cursor.nextStepIndex cursor).trans index, planned⟩
      rw [own, ← named]
      exact Dict.get_set_self _ _ _
    · refine ⟨other, ?_, active, index, planned⟩
      have different : d.op.id ≠ note.stored.id := fun id => own (id.trans named)
      exact (Dict.get_set_ne _ _ different).trans there
  · obtain ⟨now, here, -⟩ := known
    rw [named, here] at absent
    simp at absent
  · rw [refused]
    exact working

theorem kept_idle_exportReceipt {id : String} (inv : (R.idle d).inv w) :
    (R.idle d).Keeps (exportReceipt id) w := by
  refine kept_bind (kept_loadOperation inv) fun op w₁ inv _ loaded => ?_
  let U := R.stage (fun w => d.Working w ∧ w.Exportable op) fun id consistent fact =>
    ⟨d.working_pause id consistent fact.1, exportable_pause consistent id fact.2⟩
  have within : ∀ {α : Type} {p : Program α} {mid : α → World → Prop} {found}, U.Kept p mid found →
      (R.idle d).Kept p (fun a after => mid a after ∧ U.inv after) found :=
    fun kept => kept_remember kept fun _ strong => ⟨strong.1, strong.2.1⟩
  have current : U.inv w₁ := ⟨inv.1, inv.2, exportable_loaded loaded⟩
  refine kept_bind (within (kept_loadPlan current)) fun _ w₂ _ later₂ planned => ?_
  refine kept_bind (within (kept_check planned.2)) fun _ w₃ _ later₃ checked => ?_
  have receipted : (R.idle d).Kept (access (.saveReceipt op) fun _ _ => .ok ())
      (fun _ after => after.Receipted op) w₃ := by
    refine @kept_stageWrite T R w₃ _ _ _ U _ _ _ (fun strong => ⟨strong.1, strong.2.1⟩)
      checked.2 rfl (fun _ strong _ => strong.2.2) (fun _ _ strong _ => strong.2.1) ?_
    exact fun _ _ _ => ⟨op, Dict.get_set_self _ _ _, rfl⟩
  refine kept_bind receipted fun _ w₄ inv later₄ receipted => ?_
  let V := R.stage (fun w => d.Working w ∧ w.Receipted op) fun id consistent fact =>
    ⟨d.working_pause id consistent fact.1, receipted_pause id fact.2⟩
  have emits : ∀ {found}, V.inv found →
      (R.idle d).Kept (emit .plain) (fun _ after => True ∧ V.inv after) found :=
    fun strong => kept_remember (kept_emit strong) fun _ strong => ⟨strong.1, strong.2.1⟩
  refine kept_bind (emits ⟨inv.1, inv.2, receipted⟩) fun _ w₅ inv later₅ exported => ?_
  refine kept_bind (emits exported.2) fun _ w₆ inv later₆ exported => ?_
  have known := loaded.1.later
    (later₂.trans (later₃.trans (later₄.trans (later₅.trans later₆))))
  have saved : (R.idle d).Keeps (saveOperation op.projectedMarker) w₆ := by
    refine @kept_stageWrite T R w₆ _ _ _ V _ _ _ (fun strong => ⟨strong.1, strong.2.1⟩)
      exported.2 rfl (fun found strong later => ?_) (fun _ found strong later => ?_)
      fun _ _ _ => trivial
    · exact legal_save (known.later later) (legalSave_projectedMarker strong.2.2)
    · exact working_saveNote strong.2.1 (known.later later) rfl rfl rfl rfl
  exact kept_bind saved fun _ _ inv _ _ => kept_pure inv trivial

theorem leads_executeStep (inv : (R.holding d.op d.plan).inv w) :
    T.Leads (executeStep lease d.context) (J.Executes d) w := by
  have idle := idle_of_holding inv
  unfold executeStep
  split
  · exact leads_executeConnector J inv
  · have receipted : (R.idle d).Keeps (if d.step.action = "produce_receipt" then
        exportReceipt d.op.id else pure ()) w := by
      split
      · exact kept_idle_exportReceipt idle
      · exact kept_pure idle trivial
    exact leads_stage_bind receipted (fun _ _ idle => .inl idle) fun _ _ idle _ => leads_pure idle
  · exact leads_stage_bind (kept_ask idle) (fun _ _ idle => .inl idle)
      fun _ _ idle _ => leads_pure idle

def Journaling.Results (d : ActiveStep) (result : StepResult) (after : World) : Prop :=
  (R.idle d).inv after ∨ (result.success = true ∧ (J.completed d).inv after) ∨
    (result.success = false ∧ d.Hopeless result.errorClass ∧
      isSideEffectful d.op.mode = true ∧ (J.lost d).inv after)

variable {J}

theorem results_of_raised (raised : J.Raised d fault w) :
    J.Results d (.failure fault.reasonCode) w := by
  rcases raised with idle | ⟨lost, effectful, -, policy⟩
  · exact .inl idle
  · exact .inr (.inr ⟨rfl, policy, effectful, lost⟩)

variable (J)

theorem leads_finishSideEffectfulAttempt (inv : (R.live d a).inv w)
    (effectful : a.sideEffectful = true) :
    T.Leads (finishSideEffectfulAttempt a result) (fun outcome after => match outcome with
      | .ok final => J.Results d final after
      | .error _ => (R.idle d).inv after) w := by
  have mode : isSideEffectful d.op.mode = true := by
    rw [← inv.2.2.1.sideEffectful]
    exact effectful
  unfold finishSideEffectfulAttempt
  dsimp only
  generalize chosen : (if result.success = true then result else outcomeIndeterminate) = final
  have final_status : (if final.success = true then AttemptStatus.completed
      else .indeterminate).isFinal = true := by split <;> rfl
  have caught : T.Leads (attemptException (finishAttempt a (if final.success = true then
        AttemptStatus.completed else .indeterminate) final.errorClass))
      (fun outcome after => match outcome with
        | .ok (.ok _) => J.Results d final after
        | .ok (.error _) => J.Results d outcomeIndeterminate after
        | .error _ => (R.idle d).inv after) w := by
    refine leads_attemptException (leads_finishAttempt J inv final_status) ?_ ?_ ?_
    · intro _ after ended
      simp only [Journaling.Ended, effectful] at ended
      cases success : final.success with
      | true =>
        rw [success] at ended
        exact .inr (.inl ⟨success, by simpa using ended⟩)
      | false =>
        rw [success] at ended
        have same : final = outcomeIndeterminate := by
          rw [← chosen]
          split
          · rename_i good
            rw [← chosen, if_pos good, good] at success
            simp at success
          · rfl
        rw [same]
        exact .inr (.inr ⟨rfl, d.hopeless_outcomeIndeterminate, mode, by simpa using ended⟩)
    · rintro fault after - (idle | ⟨lost, -, -⟩)
      · exact .inl idle
      · exact .inr (.inr ⟨rfl, d.hopeless_outcomeIndeterminate, mode, lost⟩)
    · rintro fault after interrupt (idle | ⟨-, -, rfl⟩)
      · exact idle
      · simp [finalizationLost, Fault.outcomeIndeterminate, Fault.isException] at interrupt
  refine leads_bind caught (fun _ _ idle => idle) ?_
  rintro (fault | ⟨⟩) after - reached
  · exact leads_pure reached
  · exact leads_pure reached

def Journaling.Bounded (d : ActiveStep) (executed : Executed) (outcome : Except Fault StepResult)
    (after : World) : Prop :=
  if executed.deferred = some .sideEffectfulSuccess then
    ∃ a, executed.attempt = some a ∧ (R.live d a).inv after ∧ a.sideEffectful = true
  else match outcome with
    | .ok _ => (R.idle d).inv after
    | .error fault => J.Raised d fault after

theorem leads_boundResult (inv : J.Executes d (.ok executed) w) :
    T.Leads (boundResult executed) (J.Bounded d executed) w := by
  obtain ⟨result, attempt, deferred⟩ := executed
  match deferred with
  | none =>
    have idle : (R.idle d).inv w := inv
    refine leads_stage_bind (kept_ask idle) (fun _ _ idle => .inl idle) fun _ w₁ idle _ => ?_
    cases attempt with
    | none => exact leads_pure idle
    | some a =>
      have passes : (R.idle d).Keeps (pure ()) w₁ := kept_pure idle trivial
      refine leads_stage_bind passes (fun _ _ idle => .inl idle) fun _ w₂ idle _ => ?_
      exact leads_mono (leads_of_kept (kept_ask idle)) fun outcome after _ holds => by
        cases outcome with
        | ok bounded => exact holds.1
        | error fault => exact .inl holds.1
  | some .failed =>
    obtain ⟨a, rfl, live, -⟩ := inv
    refine leads_stage_bind (kept_ask live) (fun _ _ live => .inl (idle_of_live live))
      fun bounded w₁ live _ => ?_
    refine leads_bind (leads_finishAttempt J live rfl)
      (fun fault after failed => raised_of_failed live.2.2.1 failed) fun _ w₂ _ ended => ?_
    have idle : (R.idle d).inv w₂ := by simpa [Journaling.Ended] using ended
    exact leads_mono (leads_of_kept (kept_ask idle)) fun outcome after _ holds => by
      cases outcome with
      | ok bounded => exact holds.1
      | error fault => exact .inl holds.1
  | some .sideEffectfulSuccess =>
    obtain ⟨a, rfl, live, effectful⟩ := inv
    have bounds : ∀ {after}, (R.live d a).inv after → ∀ outcome,
        J.Bounded d ⟨result, some a, some .sideEffectfulSuccess⟩ outcome after :=
      fun live _ => ⟨a, rfl, live, effectful rfl⟩
    refine leads_stage_bind (kept_ask live) (fun _ _ live => bounds live _)
      fun bounded w₁ live _ => ?_
    have passes : (R.live d a).Keeps (pure ()) w₁ := kept_pure live trivial
    refine leads_stage_bind passes (fun _ _ live => bounds live _) fun _ w₂ live _ => ?_
    exact leads_mono (leads_of_kept (kept_ask live)) fun outcome after _ holds =>
      bounds holds.1 outcome

theorem leads_finishDeferred {outcome : Except Fault StepResult}
    (bounded : J.Bounded d executed outcome w)
    (same : outcome = .ok result ∨ ∃ fault, outcome = .error fault ∧
      result = .failure fault.reasonCode) :
    T.Leads (finishDeferred executed result) (fun outcome after => match outcome with
      | .ok final => J.Results d final after
      | .error _ => (R.idle d).inv after) w := by
  obtain ⟨raw, attempt, deferred⟩ := executed
  by_cases success : deferred = some .sideEffectfulSuccess
  · subst success
    obtain ⟨a, rfl, live, effectful⟩ := bounded
    exact leads_finishSideEffectfulAttempt J live effectful
  · have plain : finishDeferred ⟨raw, attempt, deferred⟩ result = pure result := by
      unfold finishDeferred
      split
      · rename_i here
        exact absurd here success
      · rfl
    rw [plain]
    refine leads_pure ?_
    simp only [Journaling.Bounded, if_neg success] at bounded
    rcases same with rfl | ⟨fault, rfl, rfl⟩
    · exact .inl bounded
    · exact results_of_raised bounded

theorem leads_special {V : Stage T} {α : Type} {command : Command}
    {reply : Input → World → Except Fault α} (inv : V.inv w) (quiet : command.isQuiet = true)
    (faulted : ∀ {i w}, V.inv w → T.allowsInput command i w → i.fault ≠ none →
      (R.idle d).inv w)
    (replies : ∀ i w, ∃ a, reply i w = .ok a) :
    T.Leads (access command reply) (fun outcome after => match outcome with
      | .ok a => V.inv after ∧ ∃ i, reply i after = .ok a
      | .error _ => (R.idle d).inv after) w := by
  refine leads_access inv fun i found kept _ allowed => ?_
  refine ⟨promises_of_isQuiet quiet, fun fault failed => ?_, fun sound => ?_⟩
  · rw [effect_of_isQuiet quiet]
    exact ⟨.refl found, faulted kept allowed (by rw [failed]; simp)⟩
  · have same : found.perform i command = found := by
      rw [← effect_faultless sound]
      exact effect_of_isQuiet quiet i found
    obtain ⟨a, replied⟩ := replies i found
    rw [same, replied]
    exact ⟨.refl found, kept, i, replied⟩

theorem leads_storeBoundedResult (reached : J.Results d result w) :
    T.Leads (storeBoundedResult result) (fun outcome after => match outcome with
      | .ok final => J.Results d final after
      | .error _ => (R.idle d).inv after) w := by
  have stored : T.Leads (attemptException check) (fun outcome after => match outcome with
      | .ok (.ok _) => J.Results d result after
      | .ok (.error _) => (R.idle d).inv after
      | .error _ => (R.idle d).inv after) w := by
    rcases reached with idle | ⟨success, completed⟩ | ⟨failed, policy, mode, lost⟩
    · exact leads_attemptException (leads_of_kept (kept_check idle)) (fun _ _ h => .inl h.1)
        (fun _ _ _ h => h.1) fun _ _ _ h => h.1
    · refine leads_attemptException (leads_special completed rfl J.completed_fault
        fun _ _ => ⟨(), rfl⟩) (fun _ _ h => .inr (.inl ⟨success, h.1⟩)) (fun _ _ _ h => h)
        fun _ _ _ h => h
    · refine leads_attemptException (leads_special lost rfl J.lost_fault
        fun _ _ => ⟨(), rfl⟩) (fun _ _ h => .inr (.inr ⟨failed, policy, mode, h.1⟩))
        (fun _ _ _ h => h) fun _ _ _ h => h
  unfold storeBoundedResult
  split
  · refine leads_bind stored (fun _ _ idle => idle) ?_
    rintro (fault | ⟨⟩) after - reached
    · exact leads_pure (.inl reached)
    · exact leads_pure reached
  · exact leads_pure reached

theorem leads_execute (inv : (R.holding d.op d.plan).inv w) :
    T.Leads (execute lease d.context) (fun outcome after => match outcome with
      | .ok result => J.Results d result after
      | .error _ => (R.idle d).inv after) w := by
  have interrupts : ∀ {fault after}, fault.isException = false → J.Raised d fault after →
      (R.idle d).inv after := by
    rintro fault after interrupt (idle | ⟨-, -, exception, -⟩)
    · exact idle
    · rw [interrupt] at exception
      simp at exception
  have executes : T.Leads (attemptException (executeStep lease d.context))
      (fun outcome after => match outcome with
        | .ok found => J.Executes d found after
        | .error _ => (R.idle d).inv after) w :=
    leads_attemptException (leads_executeStep J inv) (fun _ _ h => h) (fun _ _ _ h => h)
      fun _ _ interrupt raised => interrupts interrupt raised
  refine leads_bind executes (fun _ _ idle => idle) ?_
  rintro (fault | executed) w₁ - reached
  · exact leads_pure (results_of_raised reached)
  · have bounds : T.Leads (attemptException (boundResult executed))
        (fun outcome after => match outcome with
          | .ok found => J.Bounded d executed found after
          | .error _ => (R.idle d).inv after) w₁ := by
      refine leads_attemptException (leads_boundResult J reached) (fun _ _ h => h)
        (fun _ _ _ h => h) fun fault after interrupt bounded => ?_
      unfold Journaling.Bounded at bounded
      split at bounded
      · obtain ⟨a, -, live, -⟩ := bounded
        exact idle_of_live live
      · exact interrupts interrupt bounded
    refine leads_bind bounds (fun _ _ idle => idle) ?_
    rintro (fault | bounded) w₂ - reached
    · exact leads_finishDeferred J reached (.inr ⟨fault, rfl, rfl⟩)
    · refine leads_bind (leads_finishDeferred J reached (.inl rfl)) (fun _ _ idle => idle) ?_
      intro final w₃ _ reached
      exact leads_storeBoundedResult J reached

def Journaling.Ran (d : ActiveStep) (run : RunResult) (after : World) : Prop :=
  ((R.idle d).inv after ∧ d.Counted run) ∨
    (run.success = true ∧ run.nextStepIndex = d.op.executionCursor.nextStepIndex + 1 ∧
      (J.completed d).inv after) ∨
    (run.success = false ∧ d.Hopeless run.errorClass ∧ run.stoppedStepId = d.step.id ∧
      d.Counted run ∧ (J.lost d).inv after)

theorem isSideEffectful_of_isReadOnlyMode {mode : String} (reads : isReadOnlyMode mode = true) :
    isSideEffectful mode = false := by
  simp only [isReadOnlyMode, Bool.or_eq_true, beq_iff_eq] at reads
  rcases reads with (rfl | rfl) | rfl <;> decide

theorem leads_sharedStateAfter {executed : List String} {verdict : RunVerdict}
    {finish : Entries → RunResult}
    (reached : J.Results d result w)
    (idle : ∀ {after state}, (R.idle d).inv after → J.Ran d (finish state) after)
    (completed : ∀ {after state}, result.success = true → (J.completed d).inv after →
      J.Ran d (finish state) after)
    (lost : ∀ {after state}, result.success = false → d.Hopeless result.errorClass →
      isSideEffectful d.op.mode = true → (J.lost d).inv after →
      J.Ran d (finish state) after) :
    T.Leads (do
      let state ← sharedStateAfter executed d.op.id verdict
      pure (finish state)) (fun outcome after => match outcome with
      | .ok run => J.Ran d run after
      | .error _ => (R.idle d).inv after) w := by
  rcases reached with inv | ⟨success, inv⟩ | ⟨failed, policy, mode, inv⟩
  · exact leads_stage_bind (kept_sharedStateAfter inv) (fun _ _ inv => inv) fun _ _ inv _ =>
      leads_pure (idle inv)
  · exact leads_bind (leads_special inv rfl J.completed_fault fun _ _ => ⟨_, rfl⟩)
      (fun _ _ inv => inv) fun _ _ _ reached => leads_pure (completed success reached.1)
  · exact leads_bind (leads_special inv rfl J.lost_fault fun _ _ => ⟨_, rfl⟩)
      (fun _ _ inv => inv) fun _ _ _ reached => leads_pure (lost failed policy mode reached.1)

theorem leads_emit_results (reached : J.Results d result w) :
    T.Leads (emit .plain) (fun outcome after => match outcome with
      | .ok _ => J.Results d result after
      | .error _ => (R.idle d).inv after) w := by
  rcases reached with inv | ⟨success, inv⟩ | ⟨failed, policy, mode, inv⟩
  · refine leads_mono (leads_of_kept (kept_emit inv)) fun outcome after _ holds => ?_
    cases outcome with
    | ok _ => exact .inl holds.1
    | error _ => exact holds.1
  · refine leads_mono (leads_special inv rfl J.completed_fault fun _ _ => ⟨(), rfl⟩)
      fun outcome after _ holds => ?_
    cases outcome with
    | ok _ => exact .inr (.inl ⟨success, holds.1⟩)
    | error _ => exact holds
  · refine leads_mono (leads_special inv rfl J.lost_fault fun _ _ => ⟨(), rfl⟩)
      fun outcome after _ holds => ?_
    cases outcome with
    | ok _ => exact .inr (.inr ⟨failed, policy, mode, holds.1⟩)
    | error _ => exact holds

theorem leads_runStep (inv : (R.holding d.op d.plan).inv w) :
    T.Leads (runStep lease d.op d.plan d.op.executionCursor.nextStepIndex)
      (fun outcome after => match outcome with
        | .ok run => J.Ran d run after
        | .error _ => (R.idle d).inv after) w := by
  have stays : ∀ (fault : Fault) after, (R.holding d.op d.plan).inv after →
      (R.idle d).inv after := fun _ _ inv => idle_of_holding inv
  refine leads_stage_bind (kept_ask inv) stays fun maxSteps w₁ inv _ => ?_
  split
  · refine leads_stage_bind (kept_sharedStateAfter (idle_of_holding inv)) (fun _ _ inv => inv)
      fun _ _ inv _ => ?_
    exact leads_pure (.inl ⟨inv, .inl rfl⟩)
  · rw [d.here]
    refine leads_stage_bind (kept_emit inv) stays fun _ w₂ inv _ => ?_
    refine leads_bind (leads_execute J inv) (fun _ _ inv => inv) fun result w₃ _ reached => ?_
    refine leads_bind (leads_emit_results J reached) (fun _ _ inv => inv)
      fun _ w₄ _ reached => ?_
    split
    · rename_i success
      refine leads_sharedStateAfter J reached (fun inv => .inl ⟨inv, .inr rfl⟩)
        (fun _ inv => .inr (.inl ⟨rfl, rfl, inv⟩)) fun failed => ?_
      rw [success] at failed
      simp at failed
    · rename_i failed
      split
      · rename_i reads
        refine leads_sharedStateAfter J reached (fun inv => .inl ⟨inv, .inr rfl⟩)
          (fun success => absurd success failed) fun _ _ mode => ?_
        simp only [Bool.and_eq_true] at reads
        rw [isSideEffectful_of_isReadOnlyMode reads.2] at mode
        simp at mode
      · exact leads_sharedStateAfter J reached (fun inv => .inl ⟨inv, .inl rfl⟩)
          (fun success => absurd success failed)
          fun _ policy _ inv => .inr (.inr ⟨rfl, policy, rfl, .inl rfl, inv⟩)

theorem promises_progress {site : Site} {latest : Operation} {cursor : Cursor}
    (known : Known w latest) (active : latest.state = .running ∨ latest.state = .paused) :
    T.promises w (.saveOperation site (recordProgress latest cursor run)) := by
  intro base stored level failed
  obtain ⟨now, here, follows⟩ := known
  have same_base : now = base := Option.some.inj (here.symm.trans stored)
  have same : now = latest := follows.same (by rw [same_base]; exact level)
  rw [← same_base, same] at failed
  rcases active with running | paused
  · rw [running] at failed
    cases failed
  · rw [paused] at failed
    cases failed

theorem kept_storeProgress (progress : R.Progresses) (inv : (R.idle d).inv w)
    (counted : d.Counted run) :
    R.Kept (storeProgress d.op.id d.op.executionCursor run) (fun op after =>
      (Known after op ∧ op.id = d.op.id) ∧ (op.state = .running ∨ op.state = .paused)) w := by
  have loads : R.Kept (loadOperation d.op.id) (fun latest after =>
      (Known after latest ∧ latest.id = d.op.id ∧
        (latest.state = .running ∨ latest.state = .paused)) ∧ (R.idle d).inv after) w := by
    refine kept_remember (V := R.idle d) ?_ fun _ strong => strong.1
    refine kept_mono (kept_loadOperation inv) fun latest after inv _ loaded => ?_
    obtain ⟨now, found, active, -⟩ := inv.2
    have same : latest = now := Option.some.inj (loaded.2.2.symm.trans found)
    exact ⟨loaded.1, loaded.2.1, same ▸ active⟩
  refine kept_bind loads fun latest w₁ _ _ loaded => ?_
  obtain ⟨⟨known, named, active⟩, inv⟩ := loaded
  have emits : R.Kept (emit .progress) (fun _ after => True ∧ (R.idle d).inv after) w₁ :=
    kept_remember (V := R.idle d) (kept_emit inv) fun _ strong => strong.1
  refine kept_bind emits fun _ w₂ _ later₂ reached => ?_
  have known := known.later later₂
  refine kept_of_leads (leads_access reached.2 fun i found idle later allowed => ?_)
  refine .plain (by nofun) (promises_progress (known.later later) active)
    (fun _ => ⟨idle.1, fun _ impossible => by simp at impossible⟩) fun sound => ?_
  rw [World.perform]
  obtain ⟨now, here, follows⟩ := known.later later
  rcases saveOperation_cases found (recordProgress latest d.op.executionCursor run) with
    ⟨base, stored, level, done⟩ | ⟨absent, _, _⟩ | ⟨fault, refused⟩
  · have same_base : now = base := Option.some.inj (here.symm.trans stored)
    have same : now = latest := follows.same (by rw [same_base]; exact level)
    subst same
    rw [done]
    have kept := progress idle (named ▸ here) counted
    have evolved := recordProgress_follows now d.op.executionCursor run
    refine ⟨later_put stored (same_base ▸ evolved), kept, ?_⟩
    intro op same
    cases same
    exact ⟨⟨⟨_, Dict.get_set_self _ _ _, .refl _⟩, named⟩, active⟩
  · have absent : found.operations.get latest.id = none := absent
    rw [here] at absent
    simp at absent
  · rw [refused]
    exact ⟨.refl found, idle.1, fun _ impossible => by simp at impossible⟩

theorem kept_handleStepFailure {op : Operation} {plan : OperationPlan} (inv : R.inv w)
    (known : Known w op) (active : op.state = .running ∨ op.state = .paused) :
    R.Kept (handleStepFailure op plan run)
      (fun outcome after => Advanced op.id outcome after) w := by
  have unfailed : op.state ≠ .failed := by
    rcases active with running | paused
    · rw [running]
      decide
    · rw [paused]
      decide
  have unapproved : op.state ≠ .approved := by
    rcases active with running | paused
    · rw [running]
      decide
    · rw [paused]
      decide
  unfold handleStepFailure
  dsimp only
  split
  · refine kept_bind (kept_transition inv) fun moved w₁ inv later₁ done => ?_
    have moves : Transitioned op .retrying moved := done.of_noted rfl unfailed
    have retries := kept_saveOperation inv (known.later later₁)
      (.of_transition moves rfl (fun failed => absurd failed unfailed) fun _ => by decide)
    refine kept_bind retries fun saved w₂ inv _ stored => ?_
    refine kept_bind (kept_transition inv) fun next w₃ inv later₃ done => ?_
    have unlaunched : saved.state = .approved → OperationState.running ≠ .running := by
      have state : saved.state = .retrying :=
        (congrArg Operation.state stored.same).trans moves.state
      intro approved
      rw [state] at approved
      cases approved
    have runs := kept_saveOperation inv (stored.known.later later₃)
      (.of_transition done rfl (fun _ => by decide) unlaunched)
    exact kept_bind runs fun _ _ inv _ _ => kept_pure inv trivial
  · refine kept_bind (kept_transition inv) fun moved w₁ inv later₁ done => ?_
    have moves : Transitioned op .failed moved := done.of_noted rfl unfailed
    have fails := kept_saveOperation inv (known.later later₁)
      (.of_transition moves rfl (fun _ => by decide) fun _ => by decide)
    refine kept_bind fails fun saved w₂ inv _ stored => kept_pure inv ?_
    have named : moved.id = op.id := moves.evolves.id
    exact named ▸ stored.returned

theorem kept_idle_failure (progress : R.Progresses) (inv : (R.idle d).inv w)
    (counted : d.Counted run) :
    R.Kept (do
      let op ← storeProgress d.op.id d.op.executionCursor run
      handleStepFailure op d.plan run)
      (fun outcome after => Advanced d.op.id outcome after) w :=
  kept_bind (kept_storeProgress progress inv counted) fun _ _ inv _ stored =>
    stored.1.2 ▸ kept_handleStepFailure inv stored.1.1 stored.2

include J in
theorem Journaling.runsSteps (rest : ∀ {w : World}, R.inv w → T.rest w) : R.RunsSteps where
  rest := rest
  step {w lease op plan} inv running inside := by
    let d : ActiveStep := ⟨op, plan, plan.plannedSteps[op.executionCursor.nextStepIndex], running,
      List.getElem?_eq_getElem inside⟩
    refine kept_of_leads ?_
    refine leads_bind (leads_runStep (d := d) J inv)
      (fun _ _ idle => ⟨idle.1, fun _ impossible => by simp at impossible⟩) ?_
    rintro run w₁ - (⟨idle, counted⟩ | ⟨success, next, completed⟩ |
      ⟨failed, policy, stopped, counted, lost⟩)
    · refine leads_stage_bind (kept_storeProgress J.progress idle counted)
        (fun _ _ inv => ⟨inv, fun _ impossible => by simp at impossible⟩) fun op w₂ inv stored => ?_
      split
      · refine leads_pure ⟨inv, fun _ same => ?_⟩
        cases same
        exact stored.1
      · have fails := leads_of_kept
          (@kept_handleStepFailure T R w₂ run op plan inv stored.1.1 stored.2)
        rw [stored.1.2] at fails
        exact fails
    · refine leads_stage_bind (J.completed_tail (d := d) completed next)
        (fun _ _ inv => ⟨inv, fun _ impossible => by simp at impossible⟩) fun op w₂ inv stored => ?_
      rw [if_pos success]
      refine leads_pure ⟨inv, fun _ same => ?_⟩
      cases same
      exact stored
    · have tail := leads_of_kept (J.lost_tail (d := d) lost policy stopped counted)
      simp only [failed]
      exact tail

theorem leads_writeStarted (inv : (R.holding d.op d.plan).inv w)
    (operationId : r.operationId = d.op.id) (stepId : r.stepId = d.step.id)
    (effectful : r.sideEffectful = isSideEffectful d.op.mode)
    (written : R.inv (w.putAttempt r))
    (rewritten : ∀ {found : World} now, R.inv found → Held found d.op →
      R.inv (found.putAttempt (markAttemptStarted r now))) :
    T.Leads (access (.writeStarted r) fun i _ => .ok (markAttemptStarted r i.now))
      (fun outcome after => (R.idle d).inv after ∧ ∀ a, outcome = .ok a → (R.live d a).inv after)
      (w.putAttempt r) := by
  have holding : (R.holding d.op d.plan).inv (w.putAttempt r) := ⟨written, inv.2⟩
  refine leads_access holding fun i found held _ allowed => ?_
  refine .plain (by nofun) trivial
    (fun _ => ⟨idle_of_holding held, fun _ impossible => by simp at impossible⟩) fun sound => ?_
  rw [World.perform]
  have kept := rewritten i.now held.1 held.2.1
  have live : (R.live d (markAttemptStarted r i.now)).inv
      (found.putAttempt (markAttemptStarted r i.now)) := by
    refine ⟨kept, held.2, ⟨operationId, stepId, effectful, rfl⟩, ?_⟩
    rw [attempt_putAttempt, if_pos ⟨operationId.symm, rfl⟩]
  refine ⟨later_putAttempt _ _, idle_of_live live, fun a same => ?_⟩
  cases same
  exact live

/-- A regime that no write to the journal touches. -/
structure Plain (R : Regime T) : Prop where
  promised : ∀ {id stepId w}, T.promise id stepId w
  journal : ∀ {w : World} {record : Attempt} {op : Operation}, R.inv w →
    w.operations.get record.operationId = some op → op.state.isExecuted = true →
    record.status ≠ .pending → R.inv (w.putAttempt record)
  dispatch : ∀ {w : World} {i command}, R.inv w → command.isDispatch = true →
    R.inv (w.perform i command)
  progress : ∀ {w : World} {latest : Operation} {cursor : Cursor} {run : RunResult}, R.inv w →
    w.operations.get latest.id = some latest →
    R.inv (w.put (recordProgress latest cursor run).stored)

theorem held_stored {op : Operation} (running : op.state = .running) (held : Held w op) :
    ∃ now, w.operations.get op.id = some now ∧ now.state.isExecuted = true := by
  rcases held with kept | paused
  · exact ⟨op, kept, by rw [running]; rfl⟩
  · exact ⟨op.pausing.stored, paused, rfl⟩

theorem Plain.progresses (plain : R.Plain) : R.Progresses := by
  intro d latest run w inv found _
  have named : latest.id = d.op.id := (R.consistent inv.1).keyed found
  exact plain.progress inv.1 (by rw [named]; exact found)

def Plain.journaling (plain : R.Plain)
    (pending : ∀ {d : ActiveStep} {r : Attempt} {w}, (R.holding d.op d.plan).inv w →
      r.operationId = d.op.id → r.stepId = d.step.id →
      r.sideEffectful = isSideEffectful d.op.mode → r.status = .pending →
      w.attempt d.op.id r.attemptId = none →
      T.Leads (access (.writeStarted r) fun i _ => .ok (markAttemptStarted r i.now))
        (fun outcome after => (R.idle d).inv after ∧ ∀ a, outcome = .ok a → (R.live d a).inv after)
        (w.putAttempt r)) : R.Journaling where
  completed := R.idle
  lost := R.idle
  promised _ := plain.promised
  pending := pending
  dispatch inv _ := ⟨plain.dispatch inv.1 rfl, fun _ _ _ => .inr fun _ idle => idle⟩
  finish {d a status errorClass i w} inv final _ _ _ := by
    obtain ⟨stored, here, executed⟩ := held_stored d.running inv.2.1.1
    have kept : R.inv (w.putAttempt (finished a status errorClass i.now)) := by
      refine plain.journal inv.1 (inv.2.2.1.operationId ▸ here) executed fun open_ => ?_
      change status = .pending at open_
      rw [open_] at final
      cases final
    split
    · exact idle_putAttempt (idle_of_live inv) kept
    · exact kept
  lose {d a i w} inv _ _ := by
    obtain ⟨stored, here, executed⟩ := held_stored d.running inv.2.1.1
    have kept : R.inv (w.putAttempt (finished a .indeterminate "outcome_indeterminate" i.now)) :=
      plain.journal inv.1 (inv.2.2.1.operationId ▸ here) executed (by simp [finished])
    split
    · exact idle_putAttempt (idle_of_live inv) kept
    · exact kept
  completed_fault inv _ _ := inv
  lost_fault inv _ _ := inv
  progress := plain.progresses
  completed_tail inv next :=
    kept_mono (kept_storeProgress plain.progresses inv (.inr next)) fun _ _ _ _ stored => stored.1
  lost_tail inv _ _ counted := kept_idle_failure plain.progresses inv counted

theorem Plain.leads_start (plain : R.Plain)
    (open_ : ∀ {w : World} {record : Attempt} {op : Operation}, R.inv w →
      w.operations.get record.operationId = some op → op.state.isExecuted = true →
      R.inv (w.putAttempt record)) (inv : (R.holding d.op d.plan).inv w)
    (operationId : r.operationId = d.op.id) (stepId : r.stepId = d.step.id)
    (effectful : r.sideEffectful = isSideEffectful d.op.mode) :
    T.Leads (access (.writeStarted r) fun i _ => .ok (markAttemptStarted r i.now))
      (fun outcome after => (R.idle d).inv after ∧ ∀ a, outcome = .ok a → (R.live d a).inv after)
      (w.putAttempt r) := by
  refine leads_writeStarted inv operationId stepId effectful ?_ fun now kept held => ?_
  · obtain ⟨stored, here, executed⟩ := held_stored d.running inv.2.1
    exact open_ inv.1 (operationId ▸ here) executed
  · obtain ⟨stored, here, executed⟩ := held_stored d.running held
    exact plain.journal kept (operationId ▸ here) executed (by simp [markAttemptStarted])

end Regime

end RExecOp
