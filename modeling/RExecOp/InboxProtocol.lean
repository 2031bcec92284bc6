import RExecOp.Inbox
import RExecOp.TriggerDedupe

/-! The order in which a poll handles one inbox item. Between the stored operation and the move
of the item, the item is exposed. -/

namespace RExecOp.Triggers

open Protocol

variable {action : Action} {command : Command} {α β : Type} {rule : TriggerRule}

namespace TriggerWorld

/-- How many operations have been planned from an inbox item. -/
def plannedItem (w : TriggerWorld) (name : String) : Nat :=
  w.operations.countP fun operation => operation.arguments.item = some name

end TriggerWorld

section

variable (libs : Libraries)

def dedupeKeyOf (event : Entries) : String :=
  orElse (libs.field event "dedupe_key" "")
    (defaultDedupeKey libs event (libs.digest (payloadOf event)))

def itemKey (name : String) (content : InboxContent) : Option String :=
  match parseItem libs name content with
  | .ok (.event trigger) =>
    match eventPayload libs trigger.event with
    | .ok event => some (dedupeKeyOf libs event)
    | .error _ => none
  | _ => none

/-- An operation was planned from the item, which is in the inbox without a marker. -/
def Exposed (w : TriggerWorld) (name : String) : Prop :=
  (w.inbox.get name).isSome = true ∧ ∃ operation ∈ w.operations,
    operation.arguments.item = some name ∧
    ∀ key, operation.arguments.dedupeKey = some key → w.marked libs key = false

inductive Stage where
  | idle
  | reading (name key : String)
  | ready (name : String) (key : Option String)
  | planned (name : String) (key : Option String)

def Stage.Ends (stage : Stage) : Prop := ∀ name key, stage ≠ .planned name key

def Action.covers : Action → Bool
  | .unlinkItem _ => true
  | .writeSeen _ _ _ => true
  | _ => false

def Stage.Legal (stage : Stage) (command : Command) : Prop :=
  match stage with
  | .planned name key => command.scope.item = some name ∧
    match command.action with
    | .writeSeen written path _ => key = some written ∧ path = seenPath libs written
    | .unlinkItem removed => removed = name
    | action => action.isIdle = true
  | _ =>
    match command.action with
    | .storeOperation arguments => ∃ name key, stage = .ready name key ∧
      arguments.item = some name ∧ arguments.dedupeKey = key
    | .checkSeen key path => path = seenPath libs key ∧ ∃ name, stage = .reading name key
    | _ => True

def Unfailing (exposed : Prop) (command : Command) (i : Input) : Prop :=
  (exposed → i.fault = none ∧ (command.action.covers = true ∨ i.lateFault = none)) ∧
    ∀ arguments, command.action = .storeOperation arguments → i.lateFault = none

def Stage.isPlanned : Stage → Bool
  | .planned _ _ => true
  | _ => false

def Stage.afterRead (i : Input) (w : TriggerWorld) (name : String) : Stage :=
  match i.fault, i.lateFault, w.inbox.get name with
  | none, none, some item =>
    match itemKey libs name item.content with
    | none => .ready name none
    | some key => .reading name key
  | _, _, _ => .idle

def Stage.next (stage : Stage) (command : Command) (i : Input) (w : TriggerWorld) : Stage :=
  match stage, command.action with
  | .planned name key, .writeSeen _ _ _ => if i.fault = none then .idle else .planned name key
  | .planned name key, .unlinkItem _ => if i.fault = none then .idle else .planned name key
  | .planned name key, _ => .planned name key
  | _, .readItem name => .afterRead libs i w name
  | .reading name key, .checkSeen _ path =>
    if i.fault = none ∧ i.lateFault = none ∧ (w.seen.get path).isSome = false then
      .ready name (some key)
    else .idle
  | .ready name key, .storeOperation _ =>
    if (creates command i w).isSome then .planned name key else .ready name key
  | stage, action => if action.isIdle then stage else .idle

def itemProtocol : Protocol Input TriggerWorld Command Stage where
  legal := Stage.Legal libs
  allows stage command i _ := Unfailing (stage.isPlanned = true) command i
  next := Stage.next libs

end

variable {stage : Stage}

section Polls

variable {libs : Libraries}

theorem Stage.ends_of_not_isPlanned (unplanned : stage.isPlanned = false) : stage.Ends := by
  intro name key same
  rw [same] at unplanned
  cases unplanned

theorem Stage.not_isPlanned_of_ends (ends : stage.Ends) : stage.isPlanned = false := by
  cases stage with
  | planned name key => exact absurd rfl (ends name key)
  | _ => rfl

theorem covers_of_isIdle (idle : action.isIdle = true) : action.covers = false := by
  cases action with
  | writeSeen key path record => cases idle
  | unlinkItem name => cases idle
  | _ => rfl

theorem Stage.next_of_isIdle (i : Input) (w : TriggerWorld) (idle : command.action.isIdle = true) :
    stage.next libs command i w = stage := by
  obtain ⟨scope, action⟩ := command
  cases stage <;> cases action <;> first | rfl | cases idle

theorem Stage.legal_of_isIdle (idle : command.action.isIdle = true)
    (inScope : ∀ name key, stage = .planned name key → command.scope.item = some name) :
    stage.Legal libs command := by
  obtain ⟨scope, action⟩ := command
  cases stage with
  | planned name key =>
    refine ⟨inScope name key rfl, ?_⟩
    cases action <;> first | exact idle | cases idle
  | _ => cases action <;> first | exact trivial | cases idle

theorem Stage.ends_afterRead (i : Input) (w : TriggerWorld) (name : String) :
    (Stage.afterRead libs i w name).Ends := by
  unfold Stage.afterRead
  split
  · split <;> nofun
  · nofun

theorem Stage.ends_next (i : Input) (w : TriggerWorld) (ends : stage.Ends)
    (other : ∀ arguments, command.action ≠ .storeOperation arguments) :
    (stage.next libs command i w).Ends := by
  obtain ⟨scope, action⟩ := command
  unfold Stage.next
  split
  · exact absurd rfl (ends _ _)
  · exact absurd rfl (ends _ _)
  · exact absurd rfl (ends _ _)
  · exact Stage.ends_afterRead i w _
  · split <;> simp [Stage.Ends]
  · next stores => exact absurd stores (other _)
  · split
    · exact ends
    · simp [Stage.Ends]

def Action.isFree : Action → Bool
  | .checkSeen _ _ => false
  | .storeOperation _ => false
  | _ => true

theorem Stage.legal_of_isFree (ends : stage.Ends) (free : command.action.isFree = true) :
    stage.Legal libs command := by
  obtain ⟨scope, action⟩ := command
  cases stage with
  | planned name key => exact absurd rfl (ends name key)
  | _ => cases action <;> first | exact trivial | cases free

def Free {α : Type} (libs : Libraries) (p : Program α) : Prop :=
  ∀ stage : Stage, stage.Ends → (itemProtocol libs).Follows p (fun _ last => last.Ends) stage

namespace Free

variable {scope : Scope}

theorem bind {p : Program α} {next : α → Program β} (first : Free libs p)
    (rest : ∀ a, Free libs (next a)) : Free libs (p >>= next) := by
  intro stage ends
  apply Follows.bind
  refine (first stage ends).mono ?_
  intro outcome last ended
  cases outcome with
  | ok a => exact rest a last ended
  | error fault => exact ended

theorem access {reply : Input → TriggerWorld → Except Fault α} (free : action.isFree = true) :
    Free libs (Triggers.access scope action reply) := by
  intro stage ends
  refine Follows.request (Stage.legal_of_isFree ends free) ?_
  intro i w _
  refine Stage.ends_next i w ends ?_
  intro arguments same
  simp only at same
  rw [same] at free
  cases free

theorem perform (free : action.isFree = true) : Free libs (Triggers.perform scope action) :=
  access free

theorem ofExcept {result : Except Fault α} : Free libs (Triggers.ofExcept result) :=
  fun _ ends => Follows.ofExcept ends

theorem pure {α : Type} {a : α} : Free libs (pure a : Program α) := fun _ ends => ends

theorem forEach {items : List α} {body : α → Program (Option β)}
    (each : ∀ item, Free libs (body item)) : Free libs (Prog.forEach items body) := by
  intro stage ends
  exact Follows.forEach (fun item _ => each item) ends

theorem moveToDeadLetter {name reason : String} :
    Free libs (Triggers.moveToDeadLetter name reason) := by
  refine bind (perform rfl) fun _ => ?_
  refine bind (access rfl) fun _ => ?_
  exact perform rfl

theorem recordInboxProcessingFailure {maxAttempts : Nat} {name : String} :
    Free libs (Triggers.recordInboxProcessingFailure maxAttempts name) := by
  refine bind ofExcept fun _ => ?_
  refine bind (perform rfl) fun _ => ?_
  refine bind (access rfl) fun budget => ?_
  refine bind (perform rfl) fun _ => ?_
  split
  · exact bind moveToDeadLetter fun _ => perform rfl
  · exact bind (access rfl) fun _ => perform rfl

theorem moveStaleInboxItems {maxAge : Int} : Free libs (Triggers.moveStaleInboxItems maxAge) := by
  refine bind ofExcept fun _ => ?_
  refine bind (perform rfl) fun _ => ?_
  refine bind (access rfl) fun now => ?_
  refine bind (access rfl) fun names => ?_
  refine forEach fun name => ?_
  refine bind (access rfl) fun modifiedAt => ?_
  split
  · exact pure
  · exact bind moveToDeadLetter fun _ => pure

end Free

theorem idles_stage {scope : Scope}
    (inScope : ∀ name key, stage = .planned name key → scope.item = some name) :
    Idles (itemProtocol libs) Stage.Ends scope stage := by
  intro α action reply idle returns
  refine Follows.request (Stage.legal_of_isIdle idle inScope) ?_
  intro i w unfailing
  refine ⟨Stage.next_of_isIdle i w idle, ?_⟩
  cases planned : stage.isPlanned with
  | false => exact .inr (Stage.ends_of_not_isPlanned planned)
  | true =>
    obtain ⟨fault, late⟩ := unfailing.1 planned
    have quiet : i.lateFault = none := by
      rcases late with covers | quiet
      · rw [covers_of_isIdle idle] at covers
        cases covers
      · exact quiet
    rcases returns with returns | ends
    · obtain ⟨a, replies⟩ := returns i w
      exact .inl ⟨a, by rw [replies, reply_eq_ok fault quiet]⟩
    · rw [Stage.not_isPlanned_of_ends ends] at planned
      cases planned

theorem idles_of_ends {scope : Scope} (ends : stage.Ends) :
    Idles (itemProtocol libs) Stage.Ends scope stage :=
  idles_stage fun name key same => absurd same (ends name key)

section Parts

variable {ruleSet : TriggerRuleSet} {scope outside : Scope} {call : EventCall}
  {prepared : Prepared} {name : String} {key : Option String}

theorem ends_ready : (Stage.ready name key).Ends := by simp [Stage.Ends]

theorem not_ends_planned : ¬ (Stage.planned name key).Ends := fun ends => ends name key rfl

theorem idles_planned (inScope : scope.item = some name) :
    Idles (itemProtocol libs) Stage.Ends scope (.planned name key) := by
  refine idles_stage fun other key same => ?_
  cases same
  exact inScope

theorem follows_item_marker {key path : String} {record : SeenRecord}
    (inScope : scope.item = some name) (at_path : path = seenPath libs key) :
    (itemProtocol libs).Follows (perform scope (.writeSeen key path record))
      (fun _ last => last.Ends) (.planned name (some key)) := by
  refine Follows.request ⟨inScope, rfl, at_path⟩ ?_
  intro i w unfailing
  have fault : i.fault = none := (unfailing.1 rfl).1
  simp only [itemProtocol, Stage.next, fault, if_true]
  simp [Stage.Ends]

theorem follows_item_plan {arguments : PlanArguments} (itemed : arguments.item = some name)
    (keyed : arguments.dedupeKey = key) :
    (itemProtocol libs).Follows (plan scope arguments)
      (LeadsTo (· = .planned name key) (.ready name key)) (.ready name key) := by
  refine follows_bind ((idles_of_ends ends_ready).perform rfl) (fun _ _ => rfl) fun _ => ?_
  refine Follows.request ⟨name, key, rfl, itemed, keyed⟩ ?_
  intro i w unfailing
  have late : i.lateFault = none := unfailing.2 arguments rfl
  cases fault : i.fault with
  | some raised => simp [itemProtocol, Stage.next, creates, Input.reply, fault, LeadsTo]
  | none =>
    by_cases taken : w.stored ("op-" ++ i.fresh)
    · simp [itemProtocol, Stage.next, creates, Input.reply, fault, taken, LeadsTo]
    · simp [itemProtocol, Stage.next, creates, Input.reply, fault, taken, late, LeadsTo]

theorem window_stage {key : String} (inScope : scope.item = some name) :
    Window libs (itemProtocol libs) Stage.Ends Stage.Ends scope outside (some name) key
      (.ready name (some key)) (.planned name (some key)) where
  ends_checked := ends_ready
  open_planned := not_ends_planned
  idles inside := by
    rcases inside with rfl | rfl
    · exact idles_of_ends ends_ready
    · exact idles_planned inScope
  plans itemed keyed := follows_item_plan itemed keyed
  marks inside := by
    refine Follows.mono ?_ fun _ _ ended => ⟨ended, fun _ _ => ended⟩
    rcases inside with rfl | rfl
    · exact Free.perform rfl _ ends_ready
    · exact follows_item_marker inScope rfl
  leaves left idle := by
    refine ((idles_of_ends left).perform idle).mono fun _ last stays => ?_
    rw [stays.1]
    exact left

theorem follows_item_processEvent (itemed : call.item = some name) (ends : stage.Ends)
    (read : ∀ prepared, prepare libs ruleSet call = .ok prepared →
      stage = .reading name prepared.dedupeKey) :
    (itemProtocol libs).Follows (processEvent libs ruleSet call) (fun _ last => last.Ends)
      stage := by
  apply Follows.bind
  apply Follows.ofExcept
  cases prepares : prepare libs ruleSet call with
  | error fault => exact ends
  | ok prepared =>
    rw [read prepared prepares]
    have reading : (Stage.reading name prepared.dedupeKey).Ends := by simp [Stage.Ends]
    refine follows_bind ((idles_of_ends reading).perform rfl) (fun _ ends => ends) fun _ => ?_
    apply Follows.bind
    refine Follows.request ⟨rfl, name, rfl⟩ ?_
    intro i w _
    cases fault : i.fault with
    | some raised =>
      simp only [itemProtocol, Stage.next, Input.reply, fault, reduceCtorEq, false_and, if_false]
      simp [Stage.Ends]
    | none =>
      cases late : i.lateFault with
      | some raised =>
        simp only [itemProtocol, Stage.next, Input.reply, fault, late, reduceCtorEq, false_and,
          and_false, if_false]
        simp [Stage.Ends]
      | none =>
        cases seen : (w.seen.get (seenPath libs prepared.dedupeKey)).isSome with
        | true =>
          simp only [itemProtocol, Stage.next, Input.reply, fault, late, seen]
          have ended : Stage.idle.Ends := by simp [Stage.Ends]
          refine ((idles_of_ends ended).dropDuplicate libs).mono fun _ last stays => ?_
          rw [stays.1]
          exact ended
        | false =>
          simp only [itemProtocol, Stage.next, Input.reply, fault, late, seen]
          exact (window_stage itemed).decideUnseen itemed

end Parts

theorem prepare_dedupeKey {ruleSet : TriggerRuleSet} {call : EventCall} {prepared : Prepared}
    (prepares : prepare libs ruleSet call = .ok prepared) :
    ∃ event, eventPayload libs call.payload = .ok event ∧
      prepared.dedupeKey = dedupeKeyOf libs event := by
  unfold prepare at prepares
  split at prepares
  · cases prepares
  · next event given =>
    simp only at prepares
    split at prepares
    · cases prepares
    split at prepares
    · cases prepares
    split at prepares
    · cases prepares
    split at prepares
    · cases prepares
    · cases prepares
      exact ⟨event, given, rfl⟩

section Items

variable {loadRules : String → Except Fault TriggerRuleSet} {name : String}

theorem follows_triggerEvent {trigger : EventTrigger} {content : InboxContent}
    (parsed : parseItem libs name content = .ok (.event trigger)) (ends : stage.Ends)
    (read : ∀ key, itemKey libs name content = some key → stage = .reading name key) :
    (itemProtocol libs).Follows (triggerEvent libs loadRules name trigger)
      (fun _ last => last.Ends) stage := by
  refine follows_bind (follows_ofExcept ends) (fun _ ends => ends) fun ruleSet => ?_
  refine follows_bind (idles_of_ends ends rfl (.inr ends)) (fun _ ends => ends) fun now => ?_
  refine follows_item_processEvent rfl ends ?_
  intro prepared prepares
  obtain ⟨event, given, keyed⟩ := prepare_dedupeKey prepares
  rw [keyed]
  apply read
  simp only at given
  simp only [itemKey, parsed, given]

theorem follows_triggerOperation {trigger : PlainTrigger} :
    (itemProtocol libs).Follows (triggerOperation name trigger) (fun outcome last =>
      match outcome with
      | .ok _ => last = .planned name none
      | .error _ => last.Ends) (.ready name none) := by
  apply Follows.bind
  refine (follows_item_plan rfl rfl).mono ?_
  intro outcome last ended
  cases outcome with
  | error fault =>
    rw [show last = _ from ended]
    exact ends_ready
  | ok id =>
    have idles : Idles (itemProtocol libs) Stage.Ends ⟨some name, none⟩ (.planned name none) :=
      idles_planned rfl
    have starts : (if trigger.autoStart then Action.start id
        else Action.getOperation id).isIdle = true := by
      split <;> rfl
    rw [show last = _ from ended]
    refine follows_bind (idles.perform rfl) (fun _ ends => absurd ends not_ends_planned) ?_
    intro _
    refine follows_bind (idles.perform rfl) (fun _ ends => absurd ends not_ends_planned) ?_
    intro _
    refine follows_bind (idles.perform starts) (fun _ ends => absurd ends not_ends_planned) ?_
    exact fun _ => rfl

theorem follows_dispatchItem (ends : stage.Ends) :
    (itemProtocol libs).Follows (dispatchItem libs loadRules name) (fun outcome last =>
      match outcome with
      | .ok _ => last.Ends ∨ last = .planned name none
      | .error _ => last.Ends) stage := by
  have legal : stage.Legal libs ⟨⟨some name, none⟩, .readItem name⟩ :=
    Stage.legal_of_isFree ends rfl
  apply Follows.bind
  refine Follows.request legal ?_
  intro i w _
  have moves : (itemProtocol libs).next stage ⟨⟨some name, none⟩, .readItem name⟩ i w =
      Stage.afterRead libs i w name := by
    cases stage with
    | planned other key => exact absurd rfl (ends other key)
    | _ => rfl
  rw [moves]
  have after : (Stage.afterRead libs i w name).Ends := Stage.ends_afterRead i w name
  generalize replied : i.reply _ = reply
  cases reply with
  | error fault => exact after
  | ok content =>
    have stage_read : Stage.afterRead libs i w name =
        (itemKey libs name content).casesOn (.ready name none) (.reading name) := by
      obtain ⟨fault, late, found⟩ := of_reply_eq_ok replied
      dsimp only at found
      split at found
      · next item stored =>
        cases found
        simp only [Stage.afterRead, fault, late, stored]
        cases itemKey libs name item.content <;> rfl
      · cases found
    simp only
    apply Follows.bind
    apply Follows.ofExcept
    cases parsed : parseItem libs name content with
    | error fault => exact after
    | ok trigger =>
      cases trigger with
      | event trigger =>
        apply Follows.bind
        refine (follows_triggerEvent parsed after ?_).mono ?_
        · intro key keyed
          rw [stage_read, keyed]
        · intro outcome last ended
          cases outcome with
          | error fault => exact ended
          | ok record => exact .inl ended
      | plain trigger =>
        have keyless : itemKey libs name content = none := by
          simp only [itemKey, parsed]
        rw [stage_read, keyless]
        apply Follows.bind
        refine follows_triggerOperation.mono ?_
        intro outcome last ended
        cases outcome with
        | error fault => exact ended
        | ok id => exact .inr ended

theorem follows_finishItem (before : stage.Ends ∨ stage = .planned name none) :
    (itemProtocol libs).Follows (finishItem name) (fun _ last => last.Ends) stage := by
  have removes : (itemProtocol libs).Follows (perform ⟨some name, none⟩ (.unlinkItem name))
      (fun _ last => last.Ends) stage := by
    rcases before with ends | planned
    · exact Free.perform rfl stage ends
    · subst planned
      refine Follows.request ⟨rfl, rfl⟩ ?_
      intro i w unfailing
      have fault : i.fault = none := (unfailing.1 rfl).1
      simp only [itemProtocol, Stage.next, fault, if_true]
      nofun
  apply Follows.bind
  refine removes.mono ?_
  intro outcome last ended
  cases outcome with
  | error fault => exact ended
  | ok _ =>
    have clears : Free libs (do
        perform ⟨some name, none⟩ .ensureLayout
        let budget ← loadRetryBudget ⟨some name, none⟩
        if (budget.get name).isSome then
          perform ⟨some name, none⟩ (.saveRetryBudget (budget.remove name))
        else pure () : Program Unit) := by
      refine Free.bind (Free.perform rfl) fun _ => ?_
      refine Free.bind (Free.access rfl) fun budget => ?_
      split
      · exact Free.perform rfl
      · exact Free.pure
    exact clears last ended

theorem Free.processItem {maxAttempts : Nat} :
    Free libs (Triggers.processItem libs loadRules maxAttempts name) := by
  intro stage ends
  apply Follows.bind
  apply Follows.attempt
  refine (follows_dispatchItem ends).mono ?_
  intro outcome last ended
  cases outcome with
  | error fault => exact (Free.recordInboxProcessingFailure.bind fun _ => Free.pure) last ended
  | ok started =>
    apply Follows.bind
    apply Follows.attempt
    refine (follows_finishItem ended).mono ?_
    intro outcome after finished
    cases outcome with
    | error fault =>
      exact (Free.recordInboxProcessingFailure.bind fun _ => Free.pure) after finished
    | ok _ => exact finished

theorem Free.poll {limits : WorkerLimits} :
    Free libs (Triggers.poll libs loadRules limits) := by
  refine bind (perform rfl) fun _ => ?_
  refine bind (perform rfl) fun _ => ?_
  refine bind moveStaleInboxItems fun _ => ?_
  refine bind (perform rfl) fun _ => ?_
  refine bind (bind (access rfl) fun names => forEach fun _ => processItem) fun _ => ?_
  refine bind (perform rfl) fun _ => ?_
  exact bind (perform rfl) fun _ => pure

end Items

end Polls

end RExecOp.Triggers
