import RExecOp.Discipline
import RExecOp.Lib.Crowd
import RExecOp.QueueBlind

/-! Protocols over the runtime's accesses; where accesses that save no operation leave the phase
alone, so does the execution of a step. -/

namespace RExecOp.Accesses

open Protocol

open Attempts (Attempt)
open Lease (LeaseRecord)

def commits (op : Operation) (i : Input) (w : World) : Bool :=
  i.fault.isNone && (w.saveOperation op).1.isOk

theorem saved_eq_stored {w : World} {op saved : Operation}
    (returned : (w.saveOperation op).1 = .ok saved) : saved = op.stored := by
  rcases saveOperation_cases w op with ⟨_, _, _, same⟩ | ⟨_, _, same⟩ | ⟨fault, same⟩
  · rw [same] at returned
    exact (Except.ok.inj returned).symm
  · rw [same] at returned
    exact (Except.ok.inj returned).symm
  · rw [same] at returned
    cases returned

theorem commits_of_saved {w : World} {op saved : Operation} {i : Input} (unfaulted : i.fault = none)
    (returned : (w.saveOperation op).1 = .ok saved) : commits op i w = true := by
  rw [commits, unfaulted, returned]
  rfl

/-- Records are stored under their own ids. -/
def Keyed (w : World) : Prop := ∀ key op, w.operations.get key = some op → op.id = key

theorem effect_saveOperation (site : Site) (op : Operation) (i : Input) (w : World) :
    effect (.saveOperation site op) i w =
      if commits op i w = true then w.put op.stored else w := by
  cases faulted : i.fault with
  | some fault => simp only [effect, commits, faulted, Option.isNone_some, Bool.false_and,
      Bool.false_eq_true, if_false]
  | none =>
    simp only [effect, commits, faulted, World.perform, Option.isNone_none, Bool.true_and]
    rcases saveOperation_cases w op with ⟨_, _, _, same⟩ | ⟨_, _, same⟩ | ⟨fault, same⟩
    · rw [same]
      rfl
    · rw [same]
      rfl
    · rw [same]
      rfl

theorem keyed_put {w : World} {op : Operation} (keyed : Keyed w) : Keyed (w.put op) := by
  intro key found present
  rw [World.put, Dict.get_set] at present
  split at present
  · next here =>
    cases present
    exact here.symm
  · exact keyed key found present

theorem keyed_effect (command : Command) (i : Input) {w : World} (keyed : Keyed w) :
    Keyed (effect command i w) := by
  by_cases saves : ∃ site op, command = .saveOperation site op
  · obtain ⟨site, op, same⟩ := saves
    rw [same, effect_saveOperation]
    split
    · exact keyed_put keyed
    · exact keyed
  · intro key op present
    rw [operations_effect fun site op same => saves ⟨site, op, same⟩] at present
    exact keyed key op present

section Phases

variable {Φ α β : Type} {P : Protocol Input World Command Φ} {phase : Φ}

variable (P) in
structure Steady (phase : Φ) : Prop where
  legal : ∀ {command}, isInert command = true → P.legal phase command
  next : ∀ {command i w}, isInert command = true → P.allows phase command i w →
    P.next phase command i w = phase
  halts : P.halts

variable (P) in
/-- The program ends in the phase it starts from. -/
def Stays (phase : Φ) (p : Program α) : Prop := P.Follows p (fun _ last => last = phase) phase

variable (P) in
def Rewrites (phase : Φ) (op : Operation) : Prop :=
  P.legal phase (.saveOperation .plain op) ∧
    ∀ i w, P.allows phase (.saveOperation .plain op) i w →
      P.next phase (.saveOperation .plain op) i w = phase

namespace Stays

variable {p : Program α}

theorem bind {next : α → Program β} (first : Stays P phase p)
    (rest : ∀ a, Stays P phase (next a)) : Stays P phase (p >>= next) := by
  apply Follows.bind
  refine Follows.mono first ?_
  intro outcome last same
  cases outcome with
  | ok a =>
    rw [same]
    exact rest a
  | error fault => exact same

theorem pure {a : α} : Stays P phase (pure a : Program α) := rfl

theorem access {command : Command} {reply : Input → World → Except Fault α}
    (steady : Steady P phase) (inert : isInert command = true) :
    Stays P phase (access command reply) :=
  Follows.request (steady.legal inert)
    fun _ _ allowed => steady.next inert allowed

theorem read {look : World → Except Fault α} (steady : Steady P phase) :
    Stays P phase (read look) :=
  Follows.request (steady.legal rfl)
    fun _ _ allowed => steady.next rfl allowed

theorem ite {choice : Prop} [Decidable choice] {p q : Program α} (first : Stays P phase p)
    (second : Stays P phase q) : Stays P phase (if choice then p else q) := by
  split
  · exact first
  · exact second

theorem of_only (steady : Steady P phase) (only : p.Only (isInert · = true)) :
    Stays P phase p := by
  induction p with
  | ret value => exact rfl
  | raise fault => exact rfl
  | halt => exact steady.halts
  | access command next ih =>
    refine ⟨steady.legal only.1, fun i w allowed => ?_⟩
    rw [steady.next only.1 allowed]
    exact ih i w (only.2 i w)

theorem of_quiet (steady : Steady P phase) (quiet : Quiet p) : Stays P phase p := by
  refine of_only steady (quiet.only.mono fun {command} quiet => ?_)
  rw [Command.isStill, Bool.and_eq_true] at quiet
  exact quiet.1

end Stays

/-- An answer whose fault, if it is one, is `good`. -/
def Good (good : Fault → Prop) : Except Fault α → Prop
  | .ok _ => True
  | .error fault => good fault

variable (P) in
/-- From the phase the program returns what meets `post` or raises what is `good`. -/
def Triple (good : Fault → Prop) (phase : Φ) (p : Program α) (post : α → Φ → Prop) : Prop :=
  P.Follows p (fun outcome last => match outcome with
    | .ok a => post a last
    | .error fault => good fault) phase

variable (P) in
def Keeps (good : Fault → Prop) (phase : Φ) (p : Program α) : Prop :=
  Triple P good phase p fun _ last => last = phase

variable (P) in
/-- Interrupts and the faults of inputs are `good`. -/
structure Tame (good : Fault → Prop) (phase : Φ) : Prop where
  interrupt : ∀ {fault : Fault}, fault.isException = false → good fault
  input : ∀ {command i w fault}, P.allows phase command i w → i.fault = some fault → good fault

namespace Triple

variable {good : Fault → Prop} {p : Program α} {post : α → Φ → Prop}

theorem mono {post weaker : α → Φ → Prop} (triple : Triple P good phase p post)
    (weaken : ∀ a last, post a last → weaker a last) : Triple P good phase p weaker := by
  refine Follows.mono triple fun outcome last ended => ?_
  cases outcome with
  | ok a => exact weaken a last ended
  | error fault => exact ended

theorem bind {next : α → Program β} {mid : α → Φ → Prop} {post : β → Φ → Prop}
    (first : Triple P good phase p mid)
    (rest : ∀ a last, mid a last → Triple P good last (next a) post) :
    Triple P good phase (p >>= next) post := by
  apply Follows.bind
  refine Follows.mono first fun outcome last ended => ?_
  cases outcome with
  | ok a => exact rest a last ended
  | error fault => exact ended

theorem bind_to {next : α → Program β} {there : Φ} {mid : α → Prop} {post : β → Φ → Prop}
    (first : Triple P good phase p fun a last => last = there ∧ mid a)
    (rest : ∀ a, mid a → Triple P good there (next a) post) :
    Triple P good phase (p >>= next) post := by
  refine first.bind fun a last reached => ?_
  rw [reached.1]
  exact rest a reached.2

theorem ite {choice : Prop} [Decidable choice] {p q : Program α}
    (first : Triple P good phase p post) (second : Triple P good phase q post) :
    Triple P good phase (if choice then p else q) post := by
  split
  · exact first
  · exact second

theorem pure {a : α} (holds : post a phase) : Triple P good phase (pure a : Program α) post := holds

theorem raise {fault : Fault} (lawful : good fault) :
    Triple P good phase (raise fault : Program α) post := lawful

theorem ofExcept {result : Except Fault α} (lawful : Good good result)
    (holds : ∀ a, result = .ok a → post a phase) : Triple P good phase (ofExcept result) post := by
  cases result with
  | ok a => exact holds a rfl
  | error fault => exact lawful

theorem access {command : Command} {reply : Input → World → Except Fault α}
    (tame : Tame P good phase) (legal : P.legal phase command)
    (lawful : ∀ i w, Good good (reply i w))
    (holds : ∀ i w, P.allows phase command i w → i.fault = none → ∀ a, reply i w = .ok a →
      post a (P.next phase command i w)) : Triple P good phase (access command reply) post := by
  refine Follows.request legal fun i w allowed => ?_
  have replied := lawful i w
  cases faulted : i.fault with
  | some fault => exact tame.input allowed faulted
  | none =>
    cases answered : reply i w with
    | ok a => exact holds i w allowed faulted a answered
    | error fault =>
      rw [answered] at replied
      exact replied

theorem read {look : World → Except Fault α} (tame : Tame P good phase)
    (legal : P.legal phase .read) (lawful : ∀ w, Good good (look w))
    (holds : ∀ i w, P.allows phase .read i w → ∀ a, look w = .ok a →
      post a (P.next phase .read i w)) : Triple P good phase (read look) post :=
  access tame legal (fun _ w => lawful w) fun i w allowed _ a looked => holds i w allowed a looked

end Triple

namespace Keeps

variable {good : Fault → Prop}

theorem bind {p : Program α} {next : α → Program β} {post : β → Φ → Prop}
    (first : Keeps P good phase p) (rest : ∀ a, Triple P good phase (next a) post) :
    Triple P good phase (p >>= next) post := by
  refine Triple.bind first fun a last same => ?_
  rw [same]
  exact rest a

theorem pure {a : α} : Keeps P good phase (pure a : Program α) := rfl

theorem access {command : Command} {reply : Input → World → Except Fault α}
    (steady : Steady P phase) (tame : Tame P good phase) (inert : isInert command = true)
    (lawful : ∀ i w, Good good (reply i w)) : Keeps P good phase (access command reply) :=
  Triple.access tame (steady.legal inert) lawful fun _ _ allowed _ _ _ => steady.next inert allowed

theorem read {look : World → Except Fault α} (steady : Steady P phase)
    (tame : Tame P good phase) (lawful : ∀ w, Good good (look w)) :
    Keeps P good phase (read look) :=
  Triple.read tame (steady.legal rfl) lawful fun _ _ allowed _ _ => steady.next rfl allowed

theorem answer {command : Command} {answer : Input → α} (steady : Steady P phase)
    (tame : Tame P good phase) (inert : isInert command = true) :
    Keeps P good phase (RExecOp.access command fun i _ => .ok (answer i)) :=
  access steady tame inert fun _ _ => trivial

theorem attemptException {p : Program α} (tame : Tame P good phase) (stays : Stays P phase p) :
    Keeps P good phase (attemptException p) := by
  apply Follows.bind
  apply Follows.attempt
  refine Follows.mono stays fun outcome last same => ?_
  cases outcome with
  | ok value => exact same
  | error fault =>
    dsimp only
    split
    · exact same
    · next interrupted => exact tame.interrupt (Bool.not_eq_true _ ▸ interrupted)

end Keeps

end Phases

section Step

variable {Φ : Type} {P : Protocol Input World Command Φ} {phase : Φ} (steady : Steady P phase)

include steady

theorem stays_exportReceipt {id : String}
    (marks : ∀ {i w op}, P.allows phase .read i w → w.operations.get id = some op →
      Rewrites P phase op.projectedMarker) :
    Stays P phase (exportReceipt id) := by
  apply Follows.bind
  refine Follows.request (steady.legal rfl) ?_
  intro i w allowed
  rw [steady.next rfl allowed]
  dsimp only
  cases i.fault with
  | some fault => exact rfl
  | none =>
  cases loaded : w.loadOperation id with
  | error fault => exact rfl
  | ok op =>
    have rewrites := marks allowed (World.loadOperation_ok loaded)
    have saves : Stays P phase (saveOperation op.projectedMarker) :=
      Follows.request rewrites.1 rewrites.2
    refine Stays.bind (.read steady) fun _ => ?_
    refine Stays.bind (.access steady rfl) fun _ => ?_
    refine Stays.bind (.access steady rfl) fun _ => ?_
    refine Stays.bind (.access steady rfl) fun _ => ?_
    refine Stays.bind (.access steady rfl) fun _ => ?_
    exact saves.bind fun _ => .pure

theorem stays_executeStep (lease : LeaseRecord) {ctx : StepContext}
    (marks : ∀ {i w op}, P.allows phase .read i w →
      w.operations.get ctx.operationId = some op → Rewrites P phase op.projectedMarker) :
    Stays P phase (executeStep lease ctx) := by
  unfold executeStep
  split
  · exact .of_quiet steady (QueueBlind.executeConnector lease ctx)
  · exact .bind (.ite (stays_exportReceipt steady marks) .pure) fun _ => .pure
  · exact .bind (.access steady rfl) fun _ => .pure

variable {good : Fault → Prop} (tame : Tame P good phase)

include tame

theorem keeps_finishDeferred (executed : Executed) (result : StepResult) :
    Keeps P good phase (finishDeferred executed result) := by
  unfold finishDeferred
  split
  · refine Keeps.bind (.attemptException tame (.of_quiet steady (QueueBlind.finishAttempt _ _ _)))
      fun finished => ?_
    cases finished with
    | ok _ => exact .pure rfl
    | error fault => exact .pure rfl
  · exact .pure

theorem keeps_storeBoundedResult (result : StepResult) :
    Keeps P good phase (storeBoundedResult result) := by
  unfold storeBoundedResult
  split
  · have checks : Stays P phase check := .access steady rfl
    refine Keeps.bind (.attemptException tame checks) fun stored => ?_
    cases stored with
    | ok _ => exact .pure rfl
    | error fault => exact .pure rfl
  · exact .pure

theorem keeps_execute (lease : LeaseRecord) {ctx : StepContext}
    (marks : ∀ {i w op}, P.allows phase .read i w →
      w.operations.get ctx.operationId = some op → Rewrites P phase op.projectedMarker) :
    Keeps P good phase (execute lease ctx) := by
  refine Keeps.bind (.attemptException tame (stays_executeStep steady lease marks)) fun outcome =>
    ?_
  cases outcome with
  | error fault => exact .pure rfl
  | ok executed =>
    have bounds := Stays.of_quiet steady (QueueBlind.boundResult executed)
    refine Keeps.bind (.attemptException tame bounds) fun bounded => ?_
    cases bounded with
    | error fault => exact keeps_finishDeferred steady tame executed _
    | ok bounded =>
      refine Keeps.bind (keeps_finishDeferred steady tame executed bounded) fun finished => ?_
      exact keeps_storeBoundedResult steady tame finished

structure Ran (plan : OperationPlan) (index : Nat) (run : RunResult) : Prop where
  failed : run.success = false → run.nextStepIndex = index
  next : run.nextStepIndex = index ∨
    run.nextStepIndex = index + 1 ∧ index < plan.plannedSteps.length

theorem triple_runStep (lease : LeaseRecord) {op : Operation} (plan : OperationPlan) (index : Nat)
    {settled : RunVerdict → Φ → Prop}
    (settles : ∀ executed verdict, Triple P good phase (sharedStateAfter executed op.id verdict)
      fun _ last => settled verdict last)
    (marks : ∀ {i w latest}, P.allows phase .read i w →
      w.operations.get op.id = some latest → Rewrites P phase latest.projectedMarker) :
    Triple P good phase (runStep lease op plan index) fun run last =>
      settled run.toRunVerdict last ∧ Ran plan index run := by
  have emits : Keeps P good phase (emit .plain) := .answer steady tame rfl
  refine Keeps.bind (.answer steady tame rfl) fun maxSteps => ?_
  split
  · exact (settles _ _).bind fun _ _ reached => .pure ⟨reached, fun _ => rfl, .inl rfl⟩
  · split
    · exact (settles _ _).bind fun _ _ reached => .pure ⟨reached, fun _ => rfl, .inl rfl⟩
    · next step here =>
      have executes : Keeps P good phase (execute lease ⟨op.id, op.target, op.mode, step⟩) :=
        keeps_execute steady tame lease marks
      have within : index < plan.plannedSteps.length := (List.getElem?_eq_some_iff.mp here).1
      have passed : ∀ run : RunResult, run.success = true → run.nextStepIndex = index + 1 →
          Ran plan index run := by
        refine fun run success next => ⟨fun failed => ?_, .inr ⟨next, within⟩⟩
        rw [success] at failed
        cases failed
      refine Keeps.bind emits fun _ => ?_
      refine Keeps.bind executes fun result => ?_
      refine Keeps.bind emits fun _ => ?_
      split
      · exact (settles _ _).bind fun _ _ reached => .pure ⟨reached, passed _ rfl rfl⟩
      · split
        · exact (settles _ _).bind fun _ _ reached => .pure ⟨reached, passed _ rfl rfl⟩
        · exact (settles _ _).bind fun _ _ reached => .pure ⟨reached, fun _ => rfl, .inl rfl⟩

end Step

structure Moved (op : Operation) (target : OperationState) (moved : Operation) : Prop where
  id : moved.id = op.id
  state : moved.state = target
  revision : moved.revision = op.revision
  cursor : moved.cursor = op.cursor

/-- The faults of checks and of refused saves are `good`. -/
structure Usual (good : Fault → Prop) : Prop where
  invalid : ∀ {message}, good (.invalid message)
  saves : ∀ {w : World} {op}, Good good (w.saveOperation op).1

section Planning

variable {Φ : Type} {P : Protocol Input World Command Φ} {good : Fault → Prop} {phase : Φ}
  {op : Operation} {target : OperationState} {reason : String}

theorem good_transition (allowed : target ∈ op.state.allowedTransitions) :
    Good good (op.transition target reason) := by
  simp only [Operation.transition, OperationState.validateTransition, if_pos allowed]
  exact trivial

theorem triple_transition {rest : Φ} (emits : Triple P good phase (emit .plain)
      fun _ last => last = rest) (lawful : Good good (op.transition target reason)) :
    Triple P good phase (transition op target reason) fun moved last =>
      last = rest ∧ Moved op target moved := by
  unfold transition
  cases moves : op.transition target reason with
  | error fault =>
    rw [moves] at lawful
    exact lawful
  | ok moved =>
    have done := evolves_transition moves
    have cursor : moved.cursor = op.cursor := by
      unfold Operation.transition at moves
      split at moves
      · cases moves
      · cases moves
        rfl
    exact emits.bind fun _ last here =>
      Triple.pure ⟨here, done.evolves.id, done.state, done.evolves.revision, cursor⟩

theorem triple_saveOperation (tame : Tame P good phase) (usual : Usual good)
    (rewrites : Rewrites P phase op) :
    Triple P good phase (saveOperation op) fun saved last => last = phase ∧ saved = op.stored :=
  Triple.access tame rewrites.1 (fun _ _ => usual.saves) fun i w allowed _ _ saved =>
    ⟨rewrites.2 i w allowed, saved_eq_stored saved⟩

variable (steady : Steady P phase) (tame : Tame P good phase) (usual : Usual good)
  (plans : ∀ plan, Keeps P good phase (access (.savePlan plan) fun _ _ => .ok ()))
  (fresh : ∀ op : Operation, op.revision = 0 → op.state.isTerminalReceipt = false →
    op.state ≠ .running → Rewrites P phase op)

include steady tame

theorem triple_govern (planned : op.state = .planned) (zero : op.revision = 0) :
    Triple P good phase (govern op) fun op last => last = phase ∧ op.revision = 0 ∧
      op.state.isTerminalReceipt = false ∧ op.state ≠ .running := by
  have emits : Keeps P good phase (emit .plain) := .answer steady tame rfl
  refine emits.bind fun _ => ?_
  refine Keeps.bind (.answer steady tame rfl) fun decision => ?_
  refine emits.bind fun _ => ?_
  refine emits.bind fun _ => ?_
  have idle : ∀ target ∈ OperationState.planned.allowedTransitions,
      target.isTerminalReceipt = false ∧ target ≠ .running := by decide
  have moves (target : OperationState) (reason : String)
      (allowed : target ∈ OperationState.planned.allowedTransitions) :
      Triple P good phase (transition { op with govengineDecisionType := some decision } target
        reason) fun op last => last = phase ∧ op.revision = 0 ∧
          op.state.isTerminalReceipt = false ∧ op.state ≠ .running := by
    refine (triple_transition emits (good_transition (planned ▸ allowed))).mono ?_
    rintro moved last ⟨here, moves⟩
    exact ⟨here, moves.revision.trans zero, moves.state.symm ▸ idle target allowed⟩
  unfold applyGovernanceTransition
  exact .ite (moves .approved _ (by decide)) (.ite (moves .waitingForApproval _ (by decide))
    (.ite (moves .blocked _ (by decide)) (moves .blocked _ (by decide))))

include usual plans fresh

theorem keeps_planOperation (r : PlanRequest) : Keeps P good phase (planOperation r) := by
  have emits : Keeps P good phase (emit .plain) := .answer steady tame rfl
  have checks : Keeps P good phase check := .answer steady tame rfl
  have supported : Keeps P good phase (require (supportedModes.contains r.mode)
      (.invalid ("unsupported mode: " ++ r.mode))) := .ite (.pure rfl) (.raise usual.invalid)
  have allowed : OperationState.planned ∈ r.operation.state.allowedTransitions :=
    List.mem_singleton.mpr rfl
  refine supported.bind fun _ => ?_
  refine checks.bind fun _ => ?_
  refine emits.bind fun _ => ?_
  refine (triple_transition emits (good_transition allowed)).bind_to fun op moves => ?_
  refine emits.bind fun _ => ?_
  refine Keeps.bind (plans r.plan) fun _ => ?_
  refine emits.bind fun _ => ?_
  have governed : Triple P good phase (if isMutatingMode r.mode then govern op else pure op)
      fun op last => last = phase ∧ op.revision = 0 ∧ op.state.isTerminalReceipt = false ∧
        op.state ≠ .running := by
    refine .ite (triple_govern steady tame moves.state moves.revision) ?_
    refine .pure ⟨rfl, moves.revision, ?_⟩
    rw [moves.state]
    decide
  refine governed.bind_to fun op ⟨zero, running, idle⟩ => ?_
  refine checks.bind fun _ => ?_
  exact (triple_saveOperation tame usual (fresh op zero running idle)).mono fun _ _ saved => saved.1

theorem keeps_maybePlanAutoReaction (op : Operation) :
    Keeps P good phase (maybePlanAutoReaction op) := by
  have reacts : Keeps P good phase planReaction := by
    refine Keeps.bind (.answer steady tame rfl) fun reaction => ?_
    cases reaction with
    | none => exact .pure rfl
    | some child =>
      exact Keeps.bind (keeps_planOperation steady tame usual plans fresh child) fun _ => .pure rfl
  refine .ite (.pure rfl) (.ite (.raise usual.invalid) ?_)
  exact Keeps.bind (.ite reacts (.pure rfl)) fun _ => Keeps.answer steady tame rfl

end Planning

end RExecOp.Accesses
