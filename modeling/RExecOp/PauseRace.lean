import RExecOp.Accesses
import RExecOp.Calls

/-! The execution loop against a pause by another process. After a step the loop takes up the
stored operation and moves it on without a look at its state. -/

namespace RExecOp.PauseRace

open Accesses
open Lease (LeaseRecord)

variable {fault : Fault} {op : Operation} {w : World}
  {m : Crowd Input World Command Fault Operation}

def IllegalTransition (fault : Fault) : Prop :=
  ∃ current target, OperationState.validateTransition current target = .error fault

/-- Components raise interrupts, and no errors of transitions. -/
structure Components where
  raises : Fault → Prop
  interrupt : ∀ {fault : Fault}, fault.isException = false → raises fault
  lawful : ∀ {fault : Fault}, raises fault → ¬ IllegalTransition fault

inductive Expected (components : Components) : Fault → Prop
  | conflict (message : String) : Expected components (.conflict message)
  | invalid (message : String) : Expected components (.invalid message)
  | component {fault : Fault} (raises : components.raises fault) : Expected components fault

/-- The position of the loop; `away` is any other process. -/
inductive Phase where
  | away
  | head
  | loaded (op : Operation)
  | stepping (steps : Nat)
  | recording (steps : Nat)
  | finished
  | closing

variable {phase : Phase} {phases : Nat → Phase}

/-- The loop has seen a running operation and will rely on it once more. -/
def Phase.exposed : Phase → Bool
  | .loaded _ | .stepping _ | .finished => true
  | _ => false

section

variable (id : String)

def Phase.afterLoad (w : World) : Phase :=
  match w.operations.get id with
  | some op => if op.state = .running then .loaded op else .closing
  | none => .closing

def Phase.afterPlan (op : Operation) (w : World) : Phase :=
  match w.plans.get id with
  | some plan =>
    if plan.plannedSteps.length ≤ op.executionCursor.nextStepIndex ∨ op.cancelRequested = true then
      .closing
    else .stepping plan.plannedSteps.length
  | none => .closing

def Phase.afterProgress (steps : Nat) (op : Operation) (i : Input) (w : World) : Phase :=
  if commits op i w = true ∧ steps ≤ op.executionCursor.nextStepIndex then .finished else .head

def Phase.next (phase : Phase) (command : Command) (i : Input) (w : World) : Phase :=
  match phase, command with
  | .away, _ => .away
  | .head, .read => .afterLoad id w
  | .loaded op, .read => .afterPlan id op w
  | .stepping steps, .emit .progress => .recording steps
  | .stepping steps, _ => .stepping steps
  | .recording steps, .saveOperation _ op => .afterProgress steps op i w
  -- an automatic retry stores the operation as running and goes back to the head
  | .closing, .saveOperation _ op =>
    if op.id = id ∧ op.state = .running then .head else .closing
  | _, _ => .closing

def Phase.Legal : Phase → Command → Prop
  | .loaded _, command => command = .read
  | .stepping _, .saveOperation _ op => op.id = id → op.state = .running
  | .recording _, command =>
    ∃ op, command = .saveOperation .progress op ∧ op.id = id ∧ op.state = .running
  | _, _ => True

def Benign (components : Components) (i : Input) : Prop :=
  ∀ fault, i.fault = some fault → components.raises fault

def Running (w : World) : Prop := ∀ op, w.operations.get id = some op → op.state = .running

def loopProtocol (components : Components) : Protocol Input World Command Phase where
  legal := Phase.Legal id
  allows phase _ i w := Benign components i ∧ Keyed w ∧ (phase.exposed = true → Running id w)
  next := Phase.next id
  halts := True

end

theorem illegalTransition_state (illegal : IllegalTransition fault) :
    ∃ message, fault = .state message := by
  obtain ⟨current, target, same⟩ := illegal
  unfold OperationState.validateTransition at same
  split at same
  · cases same
  · cases same
    exact ⟨_, rfl⟩

theorem not_illegal (other : ∀ message, fault ≠ .state message) : ¬ IllegalTransition fault := by
  intro illegal
  obtain ⟨message, same⟩ := illegalTransition_state illegal
  exact other message same

variable {components : Components}

theorem Expected.lawful (expected : Expected components fault) : ¬ IllegalTransition fault := by
  cases expected with
  | conflict message => exact not_illegal nofun
  | invalid message => exact not_illegal nofun
  | component raises => exact components.lawful raises

abbrev Lawful {α : Type} (components : Components) : Except Fault α → Prop :=
  Good (Expected components)

theorem lawful_loadOperation (id : String) (w : World) :
    Lawful components (w.loadOperation id) := by
  unfold World.loadOperation
  split
  · exact trivial
  · exact .invalid _

theorem lawful_loadPlan (id : String) (w : World) : Lawful components (w.loadPlan id) := by
  unfold World.loadPlan
  split
  · exact trivial
  · exact .invalid _

theorem lawful_saveOperation (op : Operation) (w : World) :
    Lawful components (w.saveOperation op).1 := by
  unfold World.saveOperation
  dsimp only
  split <;> split
  · exact .conflict _
  · exact trivial
  · exact .conflict _
  · exact trivial

theorem lawful_validateOperationResult (intent : String) (state : Entries)
    (profile : Option Validation.LoadedProfile) :
    Lawful components (Validation.validateOperationResult intent state profile) := by
  have evaluated : ∀ items, Lawful components (Validation.evaluateItems intent state items) := by
    intro items
    induction items with
    | nil => exact .invalid _
    | cons item rest ih =>
      cases item with
      | notMapping => exact .invalid _
      | unsupported stepType => exact .invalid _
      | step step =>
        rw [Validation.evaluateItems]
        split
        · exact trivial
        · exact ih
  unfold Validation.validateOperationResult
  split
  · exact .invalid _
  · split
    · next fault failed =>
      unfold Validation.loadValidationRuleSpec at failed
      split at failed <;> cases failed <;> exact .invalid _
    · exact evaluated _

section Triples

variable {id : String} {phase : Phase} {α β : Type}

variable (id components) in
/-- The program raises expected errors only, and returns what meets `post`. -/
abbrev Reaches (phase : Phase) (p : Program α) (post : α → Phase → Prop) : Prop :=
  Triple (loopProtocol id components) (Expected components) phase p post

variable (id components) in
abbrev Keeps (phase : Phase) (p : Program α) : Prop :=
  Reaches components id phase p fun _ last => last = phase

def Phase.isSettled : Phase → Bool
  | .stepping _ | .closing => true
  | _ => false

theorem next_of_isInert {command : Command} (settled : phase.isSettled = true)
    (inert : isInert command = true) (i : Input) (w : World) :
    phase.next id command i w = phase := by
  cases phase with
  | stepping steps =>
    cases command with
    | emit site =>
      cases site with
      | plain => rfl
      | progress => cases inert
    | _ => rfl
  | closing =>
    cases command with
    | saveOperation site op => cases inert
    | _ => rfl
  | _ => cases settled

theorem steady_of_isSettled (settled : phase.isSettled = true) :
    Steady (loopProtocol id components) phase where
  legal {command} inert := by
    cases phase with
    | stepping steps =>
      cases command with
      | saveOperation site op => cases inert
      | _ => exact trivial
    | closing => exact trivial
    | _ => cases settled
  next inert _ := next_of_isInert settled inert _ _
  halts := trivial

theorem tame : Tame (loopProtocol id components) (Expected components) phase where
  interrupt interrupted := .component (components.interrupt interrupted)
  input allowed faulted := .component (allowed.1 _ faulted)

theorem usual : Usual (Expected components) :=
  ⟨.invalid _, fun {w op} => lawful_saveOperation op w⟩

theorem closing : Steady (loopProtocol id components) .closing := steady_of_isSettled rfl

theorem keeps_emit : Keeps components id .closing (emit .plain) := Keeps.answer closing tame rfl

end Triples

section Loop

variable {id : String} {steps : Nat}

theorem keeps_runStep (lease : LeaseRecord) (op : Operation) (plan : OperationPlan)
    (index : Nat) : Keeps components id (.stepping steps) (runStep lease op plan index) := by
  have steady : Steady (loopProtocol id components) (.stepping steps) := steady_of_isSettled rfl
  have marks : ∀ {i w latest}, (loopProtocol id components).allows (.stepping steps) .read i w →
      w.operations.get op.id = some latest →
      Rewrites (loopProtocol id components) (.stepping steps) latest.projectedMarker := by
    intro i w latest allowed found
    obtain ⟨-, keyed, running⟩ := allowed
    refine ⟨fun same => ?_, fun _ _ _ => rfl⟩
    have named : latest.id = op.id := keyed op.id latest found
    rw [← named, show latest.id = id from same] at found
    exact running rfl latest found
  have settles : ∀ executed verdict, Keeps components id (.stepping steps)
      (sharedStateAfter executed op.id verdict) :=
    fun _ _ => Triple.access tame trivial (fun _ _ => trivial) fun _ _ _ _ _ _ => rfl
  exact (triple_runStep steady tame lease plan index settles marks).mono fun _ _ reached =>
    reached.1

theorem reaches_storeProgress (cursor : Cursor) (run : RunResult) :
    Reaches components id (.stepping steps) (storeProgress id cursor run) fun op last =>
      op.state = .running ∧ op.id = id ∧
        last = if steps ≤ run.nextStepIndex then .finished else .head := by
  have loads : Reaches components id (.stepping steps) (loadOperation id) fun latest last =>
      last = .stepping steps ∧ latest.state = .running ∧ latest.id = id := by
    refine Triple.read tame trivial (lawful_loadOperation id) ?_
    intro i w ⟨_, keyed, running⟩ latest loaded
    have found := World.loadOperation_ok loaded
    exact ⟨rfl, running rfl latest found, keyed id latest found⟩
  have reports : Reaches components id (.stepping steps) (emit .progress) fun _ last =>
      last = .recording steps :=
    Triple.access tame trivial (fun _ _ => trivial) fun _ _ _ _ _ _ => rfl
  refine loads.bind_to fun latest ⟨running, named⟩ => ?_
  refine reports.bind fun _ last recording => ?_
  rw [recording]
  refine Triple.access tame ⟨_, rfl, named, running⟩ (fun _ w => lawful_saveOperation _ w) ?_
  intro i w _ unfaulted op saved
  have stored := saved_eq_stored saved
  have index : (recordProgress latest cursor run).executionCursor.nextStepIndex =
      run.nextStepIndex := rfl
  refine ⟨by rw [stored]; exact running, by rw [stored]; exact named, ?_⟩
  simp only [loopProtocol, Phase.next, Phase.afterProgress, commits_of_saved unfaulted saved,
    index, true_and]

def Phase.isOpen : Phase → Bool
  | .head | .finished | .closing => true
  | _ => false

theorem reaches_move {phase rest : Phase} (legal : phase.Legal id (.emit .plain))
    (next : ∀ i w, phase.next id (.emit .plain) i w = rest) {target : OperationState}
    {reason : String} (allowed : target ∈ op.state.allowedTransitions) :
    Reaches components id phase (transition op target reason) fun moved last =>
      last = rest ∧ Moved op target moved :=
  triple_transition (Triple.access tame legal (fun _ _ => trivial) fun i w _ _ _ _ => next i w)
    (good_transition allowed)

theorem reaches_transition (isOpen : phase.isOpen = true) {target : OperationState}
    {reason : String} (allowed : target ∈ op.state.allowedTransitions) :
    Reaches components id phase (transition op target reason) fun moved last =>
      last = .closing ∧ Moved op target moved := by
  cases phase with
  | head => exact reaches_move (by trivial) (fun _ _ => rfl) allowed
  | finished => exact reaches_move (by trivial) (fun _ _ => rfl) allowed
  | closing => exact reaches_move (by trivial) (fun _ _ => rfl) allowed
  | _ => cases isOpen

theorem reaches_from (isOpen : phase.isOpen = true) {state target : OperationState}
    {reason : String} (current : op.state = state) (allowed : target ∈ state.allowedTransitions) :
    Reaches components id phase (transition op target reason) fun moved last =>
      last = .closing ∧ Moved op target moved :=
  reaches_transition isOpen (current ▸ allowed)

theorem rewrites_of_idle (idle : op.state ≠ .running) :
    Rewrites (loopProtocol id components) .closing op :=
  ⟨trivial, fun _ _ _ => if_neg fun same => idle same.2⟩

theorem Moved.idle {target : OperationState} {moved : Operation} (moves : Moved op target moved)
    (other : target ≠ .running) : moved.state ≠ .running := moves.state.symm ▸ other

theorem reaches_saveOperation (idle : op.state ≠ .running) :
    Reaches components id .closing (saveOperation op) fun saved last =>
      last = .closing ∧ saved = op.stored :=
  triple_saveOperation tame usual (rewrites_of_idle idle)

theorem reaches_lastSave (idle : op.state ≠ .running) :
    Reaches components id .closing (saveOperation op) fun saved _ => saved.state ≠ .running :=
  (reaches_saveOperation idle).mono fun _ _ saved => saved.2 ▸ idle

theorem keeps_validationPassed (op : Operation) :
    Keeps components id .closing (validationPassed op) := by
  unfold validationPassed
  split
  · exact Keeps.bind (.read closing tame (lawful_loadPlan op.id)) fun _ => .pure rfl
  · refine Keeps.bind (.answer closing tame rfl) fun profile => ?_
    have validates : Keeps components id .closing
        (ofExcept (Validation.validateOperationResult op.intent op.sharedState profile)) :=
      Triple.ofExcept (lawful_validateOperationResult _ _ _) fun _ _ => rfl
    exact Keeps.bind validates fun _ => .pure rfl

theorem reaches_finalizeValidation (validating : op.state = .validating) :
    Reaches components id .closing (finalizeValidation op) fun op _ => op.state ≠ .running := by
  refine Keeps.bind (keeps_validationPassed op) fun passed => ?_
  refine Keeps.bind keeps_emit fun _ => ?_
  split
  · refine (reaches_from rfl validating (by decide)).bind_to fun op moves => ?_
    have idle := Moved.idle moves (by decide)
    refine Keeps.bind keeps_emit fun _ => ?_
    refine (reaches_saveOperation idle).bind_to ?_
    rintro saved rfl
    -- a reaction plans an operation of its own, which is not stored as running
    have plans : ∀ plan, Keeps components id .closing (access (.savePlan plan) fun _ _ => .ok ()) :=
      fun _ => Triple.access tame trivial (fun _ _ => trivial) fun _ _ _ _ _ _ => rfl
    refine Keeps.bind (keeps_maybePlanAutoReaction closing tame usual plans
      (fun _ _ _ idle => rewrites_of_idle idle) _) fun _ => ?_
    exact reaches_lastSave idle
  · refine (reaches_from rfl validating (by decide)).bind_to fun op moves => ?_
    exact Keeps.bind keeps_emit fun _ => reaches_lastSave (Moved.idle moves (by decide))

theorem reaches_beginValidation (running : op.state = .running) :
    Reaches components id .closing (beginValidation op) fun op _ => op.state ≠ .running := by
  refine (reaches_from rfl running (by decide)).bind_to fun op moves => ?_
  refine Keeps.bind keeps_emit fun _ => ?_
  refine (reaches_saveOperation (Moved.idle moves (by decide))).bind_to ?_
  rintro saved rfl
  exact reaches_finalizeValidation moves.state

theorem reaches_handleStepFailure (isOpen : phase.isOpen = true) (plan : OperationPlan)
    (run : RunResult) (running : op.state = .running) (named : op.id = id) :
    Reaches components id phase (handleStepFailure op plan run) fun outcome last =>
      (∃ op, outcome = .failed op ∧ op.state ≠ .running) ∨
        outcome = .retrying ∧ last = .head := by
  have still (errorClass : String) (attempts : Nat) :
      (recordFailure op run.stoppedStepId run.error errorClass attempts).state = .running ∧
        (recordFailure op run.stoppedStepId run.error errorClass attempts).id = id :=
    ⟨running, named⟩
  unfold handleStepFailure
  dsimp only
  obtain ⟨running, named⟩ := still (orElse run.errorClass "unknown")
    (failureCount op run.stoppedStepId)
  generalize recordFailure op run.stoppedStepId run.error (orElse run.errorClass "unknown")
    (failureCount op run.stoppedStepId) = recorded at running named ⊢
  split
  · refine (reaches_from isOpen running (by decide)).bind_to fun op moves => ?_
    refine (reaches_saveOperation (Moved.idle moves (by decide))).bind_to ?_
    rintro saved rfl
    have retrying : op.stored.state = .retrying := moves.state
    refine (reaches_from rfl retrying (by decide)).bind_to fun again further => ?_
    have back : again.id = id ∧ again.state = .running :=
      ⟨further.id.trans (moves.id.trans named), further.state⟩
    have saves : Reaches components id .closing (saveOperation again) fun _ last => last = .head :=
      Triple.access tame trivial (fun _ w => lawful_saveOperation again w)
        fun _ _ _ _ _ _ => if_pos back
    exact saves.bind fun _ last head => .pure (.inr ⟨rfl, head⟩)
  · refine (reaches_from isOpen running (by decide)).bind_to fun op moves => ?_
    exact (reaches_lastSave (Moved.idle moves (by decide))).bind fun saved _ idle =>
      .pure (.inl ⟨saved, rfl, idle⟩)

theorem reaches_stepOnce (lease : LeaseRecord) (plan : OperationPlan) (named : op.id = id) :
    Reaches components id (.stepping steps) (stepOnce lease op plan) fun outcome last =>
      match outcome with
      | .failed op => op.state ≠ .running
      | .retrying => last = .head
      | .advanced op run => op.state = .running ∧
        last = if steps ≤ run.nextStepIndex then .finished else .head := by
  refine Keeps.bind (keeps_runStep lease op plan _) fun run => ?_
  rw [named]
  refine (reaches_storeProgress _ run).bind fun latest last reached => ?_
  obtain ⟨running, named, here⟩ := reached
  split
  · exact Triple.pure ⟨running, here⟩
  · have isOpen : last.isOpen = true := by
      rw [here]
      split <;> rfl
    refine (reaches_handleStepFailure isOpen plan run running named).mono fun outcome last ended =>
      ?_
    rcases ended with ⟨op, same, idle⟩ | ⟨same, head⟩
    · rw [same]
      exact idle
    · rw [same]
      exact head

theorem reaches_head : Reaches components id .head (loadOperation id) fun op last => op.id = id ∧
    last = if op.state = .running then .loaded op else .closing := by
  refine Triple.read tame trivial (lawful_loadOperation id) ?_
  intro i w ⟨_, keyed, _⟩ op loaded
  have found := World.loadOperation_ok loaded
  refine ⟨keyed id op found, ?_⟩
  simp only [loopProtocol, Phase.next, Phase.afterLoad, found]

theorem reaches_loadPlan (op : Operation) :
    Reaches components id (.loaded op) (loadPlan id) fun plan last => last =
      if plan.plannedSteps.length ≤ op.executionCursor.nextStepIndex ∨
        op.cancelRequested = true then .closing
      else .stepping plan.plannedSteps.length := by
  refine Triple.read tame rfl (lawful_loadPlan id) ?_
  intro i w _ plan loaded
  simp only [loopProtocol, Phase.next, Phase.afterPlan, World.loadPlan_ok loaded]

theorem reaches_pausing (isOpen : phase.isOpen = true) (lastStepId : String)
    (running : op.state = .running) : Reaches components id phase (do
      let op ← transition { op with currentStepId := lastStepId } .paused "operator_pause"
      saveOperation { op with
        cursor := some { op.executionCursor with pausedAtStepId := some lastStepId } })
      fun op _ => op.state ≠ .running := by
  have current : ({ op with currentStepId := lastStepId } : Operation).state = .running := running
  refine (reaches_from isOpen current (by decide)).bind_to fun op moves => ?_
  have idle : op.state ≠ .running := Moved.idle moves (by decide)
  exact reaches_lastSave idle

theorem reaches_continueExecution (lease : LeaseRecord) (fuel : Nat) (maxSteps : Option Int)
    (executed : Nat) :
    Reaches components id .head (continueExecution lease id fuel maxSteps executed)
      fun op _ => maxSteps = none → op.state ≠ .running := by
  induction fuel generalizing maxSteps executed with
  | zero => exact trivial
  | succ fuel ih =>
    refine reaches_head.bind fun op last reached => ?_
    obtain ⟨named, here⟩ := reached
    split
    · next stopped =>
      refine Triple.pure fun _ running => ?_
      rw [running] at stopped
      revert stopped
      decide
    · split
      · next validating =>
        rw [here, if_neg (by rw [validating]; decide)]
        exact (reaches_finalizeValidation validating).mono fun _ _ idle _ => idle
      · split
        · next idle => exact Triple.pure fun _ => idle
        · next still =>
          have running : op.state = .running := not_not.mp still
          rw [here, if_pos running]
          refine (reaches_loadPlan op).bind fun plan last here => ?_
          split
          · next reached =>
            rw [here, if_pos (.inl reached)]
            exact (reaches_beginValidation running).mono fun _ _ idle _ => idle
          · next unfinished =>
            split
            · next cancelled =>
              rw [here, if_pos (.inr cancelled)]
              refine (reaches_from rfl running (by decide)).bind_to fun op moves => ?_
              exact (reaches_lastSave (Moved.idle moves (by decide))).mono fun _ _ idle _ => idle
            · next goes =>
              rw [here, if_neg (not_or.mpr ⟨unfinished, goes⟩)]
              refine (reaches_stepOnce lease plan named).bind fun outcome last ended => ?_
              cases outcome with
              | failed op => exact Triple.pure fun _ => ended
              | retrying =>
                rw [show last = .head from ended]
                exact (ih none 0).mono fun _ _ idle _ => idle rfl
              | advanced op run =>
                obtain ⟨running, here⟩ := ended
                dsimp only
                split
                · refine Triple.mono (reaches_pausing ?_ run.lastStepId running)
                    fun _ _ idle _ => idle
                  rw [here]
                  split <;> rfl
                · split
                  · next reached =>
                    rw [here, if_pos reached]
                    have loads : Reaches components id .finished (loadOperation id) fun op last =>
                        last = .closing ∧ op.state = .running := by
                      refine Triple.read tame trivial (lawful_loadOperation id) ?_
                      intro i w allowed op loaded
                      exact ⟨rfl, allowed.2.2 rfl op (World.loadOperation_ok loaded)⟩
                    refine loads.bind_to fun op running => ?_
                    exact (reaches_beginValidation running).mono fun _ _ idle _ => idle
                  · next unfinished =>
                    rw [here, if_neg unfinished]
                    split
                    · next bounded =>
                      refine reaches_head.mono fun _ _ _ unbounded => ?_
                      rw [unbounded] at bounded
                      cases bounded
                    · exact ih maxSteps (executed + 1)

theorem reaches_pause : Reaches components id .away (Orchestrator.pause id)
    fun op _ => op.state ≠ .running := by
  have requires (holds : Bool) (message : String) :
      Reaches components id .away (require holds (.invalid message)) fun _ last =>
        last = .away ∧ holds = true := by
    unfold require
    split
    · next held => exact .pure ⟨rfl, held⟩
    · exact .raise (.invalid _)
  have loads : Keeps components id .away (loadOperation id) :=
    Triple.read tame trivial (lawful_loadOperation id) fun _ _ _ _ _ => rfl
  have plans : Keeps components id .away (loadPlan id) :=
    Triple.read tame trivial (lawful_loadPlan id) fun _ _ _ _ _ => rfl
  refine Keeps.bind loads fun op => ?_
  refine (requires _ _).bind_to fun _ running => ?_
  refine Keeps.bind plans fun plan => ?_
  refine (requires _ _).bind_to fun _ _ => ?_
  have allowed : OperationState.paused ∈ op.state.allowedTransitions := by
    rw [of_decide_eq_true running]
    decide
  have moves : Reaches components id .away (transition op .paused "operator_pause")
    fun moved last =>
      last = .away ∧ Moved op .paused moved :=
    reaches_move (by trivial) (fun _ _ => rfl) allowed
  refine moves.bind_to fun moved moves => ?_
  refine Triple.access tame trivial (fun _ w => lawful_saveOperation _ w) fun _ _ _ _ _ saved => ?_
  rw [saved_eq_stored saved]
  have idle : moved.state ≠ .running := Moved.idle moves (by decide)
  exact idle

end Loop

section Runs

variable (id : String)

/-- Any number of pauses beside the process that runs the loop. -/
def pauseSystem : Crowd.System Input World Command Fault Operation Empty Unit where
  effect := effect
  intrude x _ := x.elim
  body _ := Orchestrator.pause id

def loopCrowd (lease : LeaseRecord) (fuel : Nat) (maxSteps : Option Int) (executed : Nat)
    (w : World) : Crowd Input World Command Fault Operation where
  store := w
  running who := if who = 0 then some (continueExecution lease id fuel maxSteps executed) else none

def loopPhases (who : Nat) : Phase := if who = 0 then .head else .away

/-- No pause is stored while the loop is exposed. -/
def Undisturbed (components : Components) (m : Crowd Input World Command Fault Operation)
    (phases : Nat → Phase) :
    CrowdEvent Input Empty Unit → Prop
  | .input who i => Benign components i ∧ (who ≠ 0 → (phases 0).exposed = true →
    ∀ site op, m.awaiting who = some (.saveOperation site op) → commits op i m.store = false)
  | _ => True

/-- How an answer ends the call of a process, if it does. -/
def ended (m : Crowd Input World Command Fault Operation) (who : Nat) (i : Input) :
    Option (Except Fault Operation) :=
  match m.running who with
  | some (.access _ next) => match next i m.store with
    | .ret op => some (.ok op)
    | .raise fault => some (.error fault)
    | _ => none
  | _ => none

/-- A loop stops at an operation that no longer runs, or raises an expected error. -/
def Stops (components : Components) (maxSteps : Option Int) : Except Fault Operation → Prop
  | .ok op => maxSteps = none → op.state ≠ .running
  | .error fault => Expected components fault

structure Guarded (w : World) (phases : Nat → Phase) : Prop where
  keyed : Keyed w
  others : ∀ who, who ≠ 0 → phases who = .away
  running : (phases 0).exposed = true → Running id w

variable {id}

theorem running_put (running : Running id w) (state : op.id = id → op.state = .running) :
    Running id (w.put op) := by
  intro found present
  rw [World.put, Dict.get_set] at present
  split at present
  · next here =>
    cases present
    exact state here.symm
  · exact running found present

theorem running_of_operations {w after : World} (same : after.operations = w.operations)
    (running : Running id w) : Running id after := by
  intro op found
  rw [same] at found
  exact running op found

theorem running_next {command : Command} (i : Input) (legal : phase.Legal id command)
    (running : phase.exposed = true → Running id w)
    (exposed : (phase.next id command i w).exposed = true) : Running id (effect command i w) := by
  cases phase with
  | away => cases exposed
  | head =>
    cases command with
    | read =>
      simp only [Phase.next, Phase.afterLoad] at exposed
      rw [effect_read]
      intro op found
      rw [found] at exposed
      by_contra other
      simp only [if_neg other] at exposed
      cases exposed
    | _ => cases exposed
  | loaded op =>
    rw [show command = .read from legal, effect_read]
    exact running rfl
  | stepping steps =>
    by_cases saves : ∃ site op, command = .saveOperation site op
    · obtain ⟨site, op, same⟩ := saves
      subst same
      rw [effect_saveOperation]
      split
      · exact running_put (running rfl) legal
      · exact running rfl
    · exact running_of_operations
        (operations_effect (fun site op same => saves ⟨site, op, same⟩) i w) (running rfl)
  | recording steps =>
    obtain ⟨op, same, named, state⟩ := legal
    subst same
    simp only [Phase.next, Phase.afterProgress] at exposed
    split at exposed
    · next ended =>
      rw [effect_saveOperation, if_pos ended.1]
      intro found present
      rw [World.put, Dict.get_set, if_pos (show id = op.stored.id from named.symm)] at present
      cases present
      exact state
    · cases exposed
  | finished => cases exposed
  | closing =>
    cases command with
    | saveOperation site op =>
      simp only [Phase.next] at exposed
      split at exposed <;> cases exposed
    | _ => cases exposed

theorem Guarded.leave (guarded : Guarded id w phases) (who : Nat) :
    Guarded id w (Function.update phases who .away) := by
  refine ⟨guarded.keyed, fun other different => ?_, fun exposed => ?_⟩
  · by_cases same : other = who
    · rw [same, Function.update_self]
    · rw [Function.update_of_ne same]
      exact guarded.others other different
  · by_cases same : 0 = who
    · rw [same, Function.update_self] at exposed
      cases exposed
    · rw [Function.update_of_ne same] at exposed
      exact guarded.running exposed

theorem of_ended {who : Nat} {i : Input} {outcome : Except Fault Operation}
    (ends : ended m who i = some outcome) :
    ∃ command next, m.running who = some (.access command next) ∧
      next i m.store = Prog.ofExcept outcome := by
  unfold ended at ends
  split at ends
  · next command next running =>
    refine ⟨command, next, running, ?_⟩
    split at ends
    · next returned =>
      cases ends
      exact returned
    · next raised =>
      cases ends
      exact raised
    · cases ends
  · cases ends

theorem Reaches.stops {p : Program Operation} {maxSteps : Option Int}
    (reaches : Reaches components id phase p fun op _ => maxSteps = none → op.state ≠ .running) :
    (loopProtocol id components).Follows p (fun outcome _ => Stops components maxSteps outcome)
      phase := by
  refine Protocol.Follows.mono reaches fun outcome last ended => ?_
  cases outcome with
  | ok op => exact ended
  | error fault => exact ended

theorem upholds_guarded (maxSteps : Option Int) :
    Crowd.Upholds (pauseSystem id) (loopProtocol id components) .away
      (fun outcome _ => Stops components maxSteps outcome) (Guarded id) (Undisturbed components)
      where
  call _ _ := Reaches.stops (reaches_pause.mono fun _ _ idle _ => idle)
  input := by
    intro m phases who command next i coherent guarded running undisturbed
    obtain ⟨benign, unpaused⟩ := undisturbed
    have waits := congrArg Machine.awaiting running
    have legal : (phases who).Legal id command := coherent.legal waits
    by_cases loop : who = 0
    · subst loop
      refine ⟨⟨benign, guarded.keyed, guarded.running⟩, keyed_effect command i guarded.keyed, ?_,
        ?_⟩
      · intro other different
        rw [Function.update_of_ne different]
        exact guarded.others other different
      · rw [Function.update_self]
        exact running_next i legal guarded.running
    · have away := guarded.others who loop
      have same : Function.update phases who
          ((loopProtocol id components).next (phases who) command i m.store) = phases := by
        rw [show (loopProtocol id components).next (phases who) command i m.store = phases who by
          rw [away]; rfl, Function.update_eq_self]
      rw [same]
      refine ⟨⟨benign, guarded.keyed, ?_⟩, keyed_effect command i guarded.keyed, guarded.others, ?_⟩
      · rw [away]
        nofun
      · intro exposed
        by_cases saves : ∃ site op, command = .saveOperation site op
        · obtain ⟨site, op, same⟩ := saves
          subst same
          have kept : effect (.saveOperation site op) i m.store = m.store := by
            rw [effect_saveOperation, unpaused loop exposed site op waits]
            rfl
          exact (congrArg (Running id) kept).mpr (guarded.running exposed)
        · exact running_of_operations
            (operations_effect (fun site op same => saves ⟨site, op, same⟩) i m.store)
            (guarded.running exposed)
  intrude {_ _ x} := x.elim
  crash _ guarded _ := guarded.leave _
  leave guarded _ := guarded.leave _

/-- As long as no pause is stored while the loop is exposed, the loop goes on, stops or raises
an expected error, and never asks for a transition that is not allowed. -/
theorem loop_transitions_allowed (components : Components) (id : String) (lease : LeaseRecord)
    (fuel : Nat) (maxSteps : Option Int) (executed : Nat) (w : World)
    (events : List (CrowdEvent Input Empty Unit)) (keyed : Keyed w)
    (undisturbed : Crowd.Attends (pauseSystem id) (loopProtocol id components) .away
      (Undisturbed components) (loopCrowd id lease fuel maxSteps executed w) loopPhases events)
    (i : Input) (benign : Benign components i) (outcome : Except Fault Operation)
    (ends : ended ((loopCrowd id lease fuel maxSteps executed w).run (pauseSystem id) events)
      0 i = some outcome) :
    Stops components maxSteps outcome ∧
      ∀ fault, outcome = .error fault → ¬ IllegalTransition fault := by
  have coherent : Crowd.Coherent (loopProtocol id components) .away
      (fun outcome _ => Stops components maxSteps outcome)
      (loopCrowd id lease fuel maxSteps executed w) loopPhases := by
    intro who
    simp only [loopCrowd, loopPhases]
    by_cases loop : who = 0
    · simp only [if_pos loop]
      have follows : (loopProtocol id components).Follows
          (continueExecution lease id fuel maxSteps executed)
          (fun outcome _ => Stops components maxSteps outcome) .head :=
        (reaches_continueExecution lease fuel maxSteps executed).stops
      cases fuel with
      | zero => exact trivial
      | succ fuel => exact follows
    · simp only [if_neg loop]
  have guarded : Guarded id w loopPhases :=
    ⟨keyed, fun who other => if_neg other, fun exposed => by cases exposed⟩
  obtain ⟨goes, kept⟩ := (upholds_guarded maxSteps).run coherent guarded undisturbed
  obtain ⟨command, next, running, here⟩ := of_ended ends
  have allowed : Undisturbed components ((loopCrowd id lease fuel maxSteps executed w).run
      (pauseSystem id) events) (Crowd.observed (pauseSystem id) (loopProtocol id components) .away
        (loopCrowd id lease fuel maxSteps executed w) loopPhases events) (.input 0 i) :=
    ⟨benign, fun other => absurd rfl other⟩
  have answered := (goes.follows running).2 i _
    ((upholds_guarded maxSteps).input goes kept running allowed).1
  rw [here] at answered
  have stops : Stops components maxSteps outcome := by
    cases outcome with
    | ok op => exact answered
    | error fault => exact answered
  refine ⟨stops, fun fault same => ?_⟩
  rw [same] at stops
  exact Expected.lawful stops

end Runs

def heeds (m : Crowd Input World Command Fault Operation) (phases : Nat → Phase) :
    CrowdEvent Input Empty Unit → Bool
  | .input who i => i.fault.isNone && (who == 0 || !(phases 0).exposed ||
    match m.awaiting who with
    | some (.saveOperation _ op) => !commits op i m.store
    | _ => true)
  | .call _ _ => true
  | .intrude _ => true
  | .crash _ => true

def attentive (components : Components) (id : String)
    (m : Crowd Input World Command Fault Operation)
    (phases : Nat → Phase) : List (CrowdEvent Input Empty Unit) → Bool
  | [] => true
  | event :: rest => heeds m phases event && attentive components id (m.step (pauseSystem id) event)
    (Crowd.observe (loopProtocol id components) .away m phases event) rest

theorem benign_of_unfaulted {i : Input} (unfaulted : i.fault = none) : Benign components i := by
  intro fault raised
  rw [unfaulted] at raised
  cases raised

theorem undisturbed_of_heeds {event : CrowdEvent Input Empty Unit}
    (heeded : heeds m phases event = true) : Undisturbed components m phases event := by
  cases event with
  | input who i =>
    simp only [heeds, Bool.and_eq_true, Option.isNone_iff_eq_none, Bool.or_eq_true, beq_iff_eq,
      Bool.not_eq_true'] at heeded
    refine ⟨benign_of_unfaulted heeded.1, fun other exposed site op waits => ?_⟩
    rcases heeded.2 with (loop | hidden) | refused
    · exact absurd loop other
    · rw [hidden] at exposed
      cases exposed
    · rw [waits] at refused
      simpa using refused
  | _ => exact trivial

theorem attends_of_attentive {id : String} {events : List (CrowdEvent Input Empty Unit)}
    (checked : attentive components id m phases events = true) :
    Crowd.Attends (pauseSystem id) (loopProtocol id components) .away (Undisturbed components) m
      phases events := by
  induction events generalizing m phases with
  | nil => exact trivial
  | cons event rest ih =>
    rw [attentive, Bool.and_eq_true] at checked
    exact ⟨undisturbed_of_heeds checked.1, ih checked.2⟩

def twoSteps : PlanRequest where
  suffix := "a"
  environment := "lab"
  intent := "inspect"
  target := "host"
  mode := "observe"
  autoReact := false
  runtimePolicy := ⟨1, false, false⟩
  hasCatalogRuntime := false
  plannedSteps := [⟨"collect", .internal, "collect", "", true, false⟩,
    ⟨"report", .internal, "report", "", false, false⟩]
  retryPolicy := ⟨0, [], []⟩
  rollback := none

def halfDone : World :=
  { World.empty with
    operations := Dict.set ∅ "op-a" { twoSteps.operation with
      state := .running, currentStepId := "collect", cursor := some ⟨1, ∅, none⟩, revision := 4 }
    plans := Dict.set ∅ "op-a" twoSteps.plan }

def sampleLease : LeaseRecord := ⟨"", "worker", "process", 1, "token", 0, 0, none, 0⟩

def sampleCrowd : Crowd Input World Command Fault Operation :=
  loopCrowd "op-a" sampleLease 5 none 0 halfDone

def answered (who accesses : Nat) : List (CrowdEvent Input Empty Unit) :=
  List.replicate accesses (.input who (.agreeing 0 "f"))

def sound : Components where
  raises fault := fault.isException = false
  interrupt interrupted := interrupted
  lawful {fault} interrupted := by
    refine not_illegal fun message state => ?_
    rw [state] at interrupted
    cases interrupted

def isError (fault : Fault) : Except Fault Operation → Bool
  | .ok _ => false
  | .error raised => raised = fault

theorem ended_of_any {who : Nat} {i : Input} (raises : (ended m who i).any (isError fault) = true) :
    ended m who i = some (.error fault) := by
  obtain ⟨outcome, here, same⟩ := (Option.any_eq_true _ _).mp raises
  cases outcome with
  | ok op => cases same
  | error raised => rw [here, of_decide_eq_true same]

theorem keyed_halfDone : Keyed halfDone := by
  intro key op found
  rw [halfDone, Dict.get_set] at found
  split at found
  · next here =>
    cases found
    exact here.symm
  · cases found

/-- An early pause stops the loop; a later one makes the save of the progress fail. -/
theorem late_pause_conflicts :
    (∃ op, ended (sampleCrowd.run (pauseSystem "op-a") (.call 1 () :: answered 1 4)) 0
        (.agreeing 0 "f") = some (.ok op) ∧ op.state = .paused ∧
        Stops sound none (.ok op)) ∧
      ∃ message, ended (sampleCrowd.run (pauseSystem "op-a")
        (answered 0 11 ++ .call 1 () :: answered 1 4)) 0 (.agreeing 0 "f") =
          some (.error (.conflict message)) ∧ ¬ IllegalTransition (.conflict message) := by
  have stops := loop_transitions_allowed sound "op-a" sampleLease 5 none 0 halfDone
    (.call 1 () :: answered 1 4) keyed_halfDone (attends_of_attentive (by decide +kernel))
    (.agreeing 0 "f") (benign_of_unfaulted rfl)
  have conflicts := loop_transitions_allowed sound "op-a" sampleLease 5 none 0 halfDone
    (answered 0 11 ++ .call 1 () :: answered 1 4) keyed_halfDone
    (attends_of_attentive (by decide +kernel)) (.agreeing 0 "f") (benign_of_unfaulted rfl)
  constructor
  · have paused : (ended (sampleCrowd.run (pauseSystem "op-a") (.call 1 () :: answered 1 4)) 0
        (.agreeing 0 "f")).any (·.toOption.any (·.state = .paused)) = true := by
      decide +kernel
    obtain ⟨outcome, here, state⟩ := (Option.any_eq_true _ _).mp paused
    cases outcome with
    | error fault => cases state
    | ok op => exact ⟨op, here, of_decide_eq_true state, (stops _ here).1⟩
  · have raises : ended (sampleCrowd.run (pauseSystem "op-a")
        (answered 0 11 ++ .call 1 () :: answered 1 4)) 0 (.agreeing 0 "f") = some (.error
          (.conflict "concurrency_conflict: operation op-a expected revision 4, found 5")) :=
      ended_of_any (by decide +kernel)
    exact ⟨_, raises, (conflicts _ raises).2 _ rfl⟩

/-- The pause is stored while the last step runs: a paused operation is to be validated. -/
theorem pause_during_step_illegal :
    ∃ fault, ended (sampleCrowd.run (pauseSystem "op-a")
      (answered 0 2 ++ .call 1 () :: answered 1 4 ++ answered 0 10)) 0 (.agreeing 0 "f") =
        some (.error fault) ∧ IllegalTransition fault := by
  refine ⟨.state "invalid transition: paused -> validating", ?_, .paused, .validating, rfl⟩
  exact ended_of_any (by decide +kernel)

end RExecOp.PauseRace
