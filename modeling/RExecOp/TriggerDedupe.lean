import RExecOp.Triggers

/-! A trigger event plans at most one operation. Between the dedupe check of a key and the write
of its marker nothing is locked. -/

namespace RExecOp.Triggers

open Protocol

variable {action : Action} {command : Command} {α : Type} {i : Input} {arguments : PlanArguments}
  {rule : TriggerRule} {outside : Scope} {m : Crowd Input TriggerWorld Command Fault DecisionRecord}
  {who : Nat}

namespace TriggerWorld

def planned (w : TriggerWorld) (key : String) : Nat :=
  w.operations.countP fun operation => operation.arguments.dedupeKey = some key

def marked (libs : Libraries) (w : TriggerWorld) (key : String) : Bool :=
  (w.seen.get (seenPath libs key)).isSome

end TriggerWorld

def creates (command : Command) (i : Input) (w : TriggerWorld) : Option PlanArguments :=
  match i.fault, command.action with
  | none, .storeOperation arguments =>
    if w.stored ("op-" ++ i.fresh) then none else some arguments
  | _, _ => none

def Action.marks : Action → Bool
  | .writeSeen _ _ _ => true
  | _ => false

theorem planned_effect (command : Command) (i : Input) (w : TriggerWorld) (key : String) :
    (effect command i w).planned key =
      w.planned key +
        if (creates command i w).bind (·.dedupeKey) = some key then 1 else 0 := by
  obtain ⟨scope, action⟩ := command
  unfold effect creates
  cases i.fault with
  | some fault => simp
  | none =>
    cases action with
    | storeOperation arguments =>
      by_cases taken : w.stored ("op-" ++ i.fresh)
      · simp [Action.write, taken]
      · simp [Action.write, taken, TriggerWorld.planned, List.countP_append,
          List.countP_singleton]
    | saveOperation id trigger =>
      simp only [Action.write, TriggerWorld.planned, List.countP_map, Option.bind_none,
        reduceCtorEq, if_false, Nat.add_zero]
      congr 1
      funext operation
      simp only [Function.comp_apply]
      split <;> rfl
    | refreshItem name =>
      simp only [Action.write]
      split <;> simp [TriggerWorld.planned]
    | moveToDeadLetter name reason =>
      simp only [Action.write]
      split <;> simp [TriggerWorld.planned]
    | _ => simp [Action.write, TriggerWorld.planned]

theorem marked_effect {libs : Libraries} (command : Command) (i : Input) {w : TriggerWorld}
    {key : String} (marked : w.marked libs key = true) :
    (effect command i w).marked libs key = true := by
  obtain ⟨scope, action⟩ := command
  unfold effect
  cases i.fault with
  | some fault => exact marked
  | none =>
    cases action with
    | storeOperation arguments =>
      simp only [Action.write]
      split <;> exact marked
    | refreshItem name =>
      simp only [Action.write]
      split <;> exact marked
    | moveToDeadLetter name reason =>
      simp only [Action.write]
      split <;> exact marked
    | writeSeen written path record =>
      simp only [Action.write, TriggerWorld.marked, Dict.get_set]
      split
      · rfl
      · exact marked
    | _ => exact marked

inductive Phase where
  | outside
  | checked (key : String)
  | planned (key : String)
  deriving DecidableEq

variable {phase : Phase} {phases : Nat → Phase}

def Phase.key : Phase → Option String
  | .outside => none
  | .checked key => some key
  | .planned key => some key

def Phase.Ends (phase : Phase) : Prop := ∀ key, phase ≠ .planned key

section

variable (libs : Libraries)

def Phase.Legal (phase : Phase) (command : Command) : Prop :=
  command.scope.key = phase.key ∧
    match command.action with
    | .checkSeen key path => phase = .outside ∧ path = seenPath libs key
    | .writeSeen key path _ => phase.key = some key ∧ path = seenPath libs key
    | .storeOperation arguments =>
      arguments.dedupeKey = phase.key ∧ ∀ key, phase ≠ .planned key
    | _ => True

/-- Once an operation is stored nothing raises until the marker is written. -/
def Steady (planned : Bool) (command : Command) (i : Input) : Prop :=
  (planned = true → i.fault = none ∧ (command.action.marks = true ∨ i.lateFault = none)) ∧
    ∀ arguments, command.action = .storeOperation arguments → i.lateFault = none

def Phase.isPlanned : Phase → Bool
  | .planned _ => true
  | _ => false

def Phase.next (phase : Phase) (command : Command) (i : Input) (w : TriggerWorld) : Phase :=
  match phase, command.action with
  | .outside, .checkSeen key path =>
    if i.fault = none ∧ i.lateFault = none ∧ (w.seen.get path).isSome = false then
      .checked key
    else .outside
  | .checked key, .storeOperation _ =>
    if (creates command i w).isSome then .planned key else .checked key
  | .checked key, .writeSeen _ _ _ => if i.fault = none then .outside else .checked key
  | .planned key, .writeSeen _ _ _ => if i.fault = none then .outside else .planned key
  | phase, _ => phase

def protocol : Protocol Input TriggerWorld Command Phase where
  legal := Phase.Legal libs
  allows phase command i _ := phase.key.isSome = true → Steady phase.isPlanned command i
  next := Phase.next

def Action.isPlain : Action → Bool
  | .checkSeen _ _ => false
  | .writeSeen _ _ _ => false
  | .storeOperation _ => false
  | _ => true

theorem marks_of_isPlain (plain : action.isPlain = true) : action.marks = false := by
  cases action with
  | writeSeen key path record => cases plain
  | _ => rfl

theorem reply_eq_ok {a : α} (fault : i.fault = none) (late : i.lateFault = none) :
    i.reply (.ok a) = .ok a := by
  simp only [Input.reply, fault, late]

theorem of_reply_eq_ok {result : Except Fault α} {a : α} (replied : i.reply result = .ok a) :
    i.fault = none ∧ i.lateFault = none ∧ result = .ok a := by
  unfold Input.reply at replied
  split at replied
  · cases replied
  · next fault =>
    split at replied
    · cases replied
    · next quiet =>
      subst replied
      cases late : i.lateFault with
      | some raised => exact (quiet a raised rfl late).elim
      | none => exact ⟨fault, rfl, rfl⟩

theorem planArguments_origin {call : EventCall} {prepared : Prepared}
    (asked : planArguments libs call prepared rule = .ok arguments) :
    arguments.item = call.item ∧ arguments.dedupeKey = some prepared.dedupeKey := by
  unfold planArguments at asked
  simp only at asked
  split at asked
  · cases asked
  split at asked
  · cases asked
  split at asked
  · cases asked
  split at asked
  · cases asked
  · cases asked
    exact ⟨rfl, rfl⟩

-- The part of a call between the two is the same for every protocol in which an
-- operation that was stored keeps the call from ending before its marker is written.

section Window

variable {Φ β : Type} {P : Protocol Input TriggerWorld Command Φ} {ends after : Φ → Prop}
  {phase checked planned : Φ} {ruleSet : TriggerRuleSet} {scope : Scope} {call : EventCall}
  {prepared : Prepared} {item : Option String}

def Stays (ends : Φ → Prop) (phase : Φ) (outcome : Except Fault α) (last : Φ) : Prop :=
  last = phase ∧ ((∃ a, outcome = .ok a) ∨ ends phase)

theorem follows_bind {p : Program α} {next : α → Program β} {post : Except Fault β → Φ → Prop}
    (first : P.Follows p (Stays ends phase) phase)
    (fails : ∀ fault, ends phase → post (.error fault) phase)
    (rest : ∀ a, P.Follows (next a) post phase) : P.Follows (p >>= next) post phase := by
  apply Follows.bind
  refine first.mono ?_
  intro outcome last stays
  obtain ⟨same, ended⟩ := stays
  rw [same]
  cases outcome with
  | ok a => exact rest a
  | error fault =>
    rcases ended with ⟨a, returned⟩ | ends
    · cases returned
    · exact fails fault ends

theorem follows_ofExcept {result : Except Fault α} (may : ends phase) :
    P.Follows (ofExcept result) (Stays ends phase) phase :=
  Follows.ofExcept ⟨rfl, .inr may⟩

theorem follows_pure {a : α} : P.Follows (pure a : Program α) (Stays ends phase) phase :=
  ⟨rfl, .inl ⟨a, rfl⟩⟩

theorem stays_error (fault : Fault) (may : ends phase) :
    Stays ends phase (.error fault : Except Fault α) phase :=
  ⟨rfl, .inr may⟩

def Action.isIdle : Action → Bool
  | .readItem _ => false
  | .unlinkItem _ => false
  | .moveToDeadLetter _ _ => false
  | action => action.isPlain

theorem isPlain_of_isIdle (idle : action.isIdle = true) : action.isPlain = true := by
  cases action <;> first | exact idle | cases idle

def Idles (P : Protocol Input TriggerWorld Command Φ) (ends : Φ → Prop) (scope : Scope)
    (phase : Φ) : Prop :=
  ∀ ⦃α : Type⦄ ⦃action : Action⦄ ⦃reply : Input → TriggerWorld → Except Fault α⦄,
    action.isIdle = true → (∀ i w, ∃ a, reply i w = .ok a) ∨ ends phase →
    P.Follows (access scope action reply) (Stays ends phase) phase

namespace Idles

variable (idles : Idles P ends scope phase)

include idles

theorem perform (idle : action.isIdle = true) :
    P.Follows (Triggers.perform scope action) (Stays ends phase) phase :=
  idles idle (.inl fun _ _ => ⟨(), rfl⟩)

theorem admission {decision : Decision} {rule : Option TriggerRule} :
    P.Follows (admitTriggerDecision libs ruleSet scope prepared decision rule)
      (Stays ends phase) phase :=
  idles rfl (.inl fun i _ => ⟨⟨_, i.agrees⟩, rfl⟩)

theorem persist {verdict : Verdict} :
    P.Follows (persistDecision libs ruleSet scope call prepared verdict)
      (Stays ends phase) phase := by
  refine follows_bind (idles.perform rfl) stays_error fun _ => ?_
  refine follows_bind (idles.perform rfl) stays_error fun _ => ?_
  exact follows_pure

theorem dropDuplicate :
    P.Follows (Triggers.dropDuplicate libs ruleSet scope call prepared) (Stays ends phase) phase :=
  follows_bind (idles.admission libs) stays_error fun _ => idles.persist libs

end Idles

def LeadsTo (good : Φ → Prop) (bad : Φ) : Except Fault α → Φ → Prop
  | .ok _, last => good last
  | .error _, last => last = bad

/-- The phases of a call that has checked its key and of one that has also planned. -/
structure Window (P : Protocol Input TriggerWorld Command Φ) (ends after : Φ → Prop)
    (scope outside : Scope) (item : Option String) (key : String) (checked planned : Φ) :
    Prop where
  ends_checked : ends checked
  open_planned : ¬ ends planned
  idles : ∀ {phase}, phase = checked ∨ phase = planned → Idles P ends scope phase
  plans : ∀ {arguments}, arguments.item = item → arguments.dedupeKey = some key →
    P.Follows (plan scope arguments) (LeadsTo (· = planned) checked) checked
  marks : ∀ {phase record}, phase = checked ∨ phase = planned →
    P.Follows (perform scope (.writeSeen key (seenPath libs key) record))
      (fun outcome last => ends last ∧ ∀ a, outcome = .ok a → after last) phase
  leaves : ∀ {phase action}, after phase → action.isIdle = true →
    P.Follows (perform outside action) (fun _ last => ends last) phase

namespace Window

variable {libs}
  (window : Window libs P ends after scope outside item prepared.dedupeKey checked planned)

include window

theorem planTriggered (itemed : call.item = item) :
    P.Follows (Triggers.planTriggered libs scope call prepared rule)
      (LeadsTo (· = planned) checked) checked := by
  apply Follows.bind
  apply Follows.ofExcept
  cases asked : planArguments libs call prepared rule with
  | error fault => exact rfl
  | ok arguments =>
    obtain ⟨origin, keyed⟩ := planArguments_origin libs asked
    apply Follows.bind
    refine (window.plans (origin.trans itemed) keyed).mono ?_
    intro outcome last ended
    cases outcome with
    | error fault => exact ended
    | ok id =>
      have idles := window.idles (.inr rfl)
      have never : ∀ fault, ends planned → (LeadsTo (· = planned) checked
          (.error fault : Except Fault String) planned) :=
        fun _ may => absurd may window.open_planned
      rw [show last = planned from ended]
      refine follows_bind (idles.perform rfl) never fun _ => ?_
      refine follows_bind (idles.perform rfl) never fun _ => ?_
      exact rfl

theorem planMatched {admission : Admission} (itemed : call.item = item) :
    P.Follows (Triggers.planMatched libs scope call prepared rule admission)
      (LeadsTo (fun last => last = checked ∨ last = planned) checked) checked := by
  unfold Triggers.planMatched
  split
  · refine follows_bind (follows_ofExcept window.ends_checked) (fun _ _ => rfl) fun _ => ?_
    apply Follows.bind
    refine (window.planTriggered itemed).mono ?_
    intro outcome last ended
    cases outcome with
    | error fault => exact ended
    | ok id => exact .inr ended
  · exact .inl rfl

theorem mark {record : DecisionRecord} {p : Program β}
    (inside : phase = checked ∨ phase = planned)
    (rest : ∀ last, ends last → after last → P.Follows p (fun _ last => ends last) last) :
    P.Follows (markSeen libs scope prepared record >>= fun _ => p) (fun _ last => ends last)
      phase := by
  apply Follows.bind
  refine (window.marks inside).mono ?_
  intro outcome last marked
  cases outcome with
  | ok a => exact rest last marked.1 (marked.2 a rfl)
  | error fault => exact marked.1

theorem dismiss {decision : Decision} {reason : String} {rule : Option TriggerRule}
    {cooldownKey : Option String} :
    P.Follows (Triggers.dismiss libs ruleSet scope call prepared decision reason rule cooldownKey)
      (fun _ last => ends last) checked := by
  have idles := window.idles (.inl rfl)
  refine follows_bind (idles.admission libs) (fun _ may => may) fun _ => ?_
  refine follows_bind (idles.persist libs) (fun _ may => may) fun _ => ?_
  exact window.mark (.inl rfl) fun _ ended _ => ended

theorem startCooldown (ended : ends phase) (left : after phase) :
    P.Follows (Triggers.startCooldown libs outside prepared rule) (fun _ last => ends last)
      phase := by
  unfold Triggers.startCooldown
  split
  · exact window.leaves left rfl
  · exact ended

theorem accept (itemed : call.item = item) :
    P.Follows (Triggers.accept libs ruleSet scope outside call prepared rule)
      (fun _ last => ends last) checked := by
  have start := window.idles (.inl rfl)
  refine follows_bind (start.admission libs) (fun _ may => may) fun _ => ?_
  apply Follows.bind
  refine (window.planMatched itemed).mono ?_
  intro outcome last inside
  cases outcome with
  | error fault =>
    rw [show last = checked from inside]
    exact window.ends_checked
  | ok operationId =>
    refine follows_bind ((window.idles inside).persist libs) (fun _ may => may) fun _ => ?_
    refine window.mark inside fun last ended left => ?_
    apply Follows.bind
    refine (window.startCooldown ended left).mono ?_
    intro outcome last ended
    cases outcome <;> exact ended

theorem decideUnseen (itemed : call.item = item) :
    P.Follows (Triggers.decideUnseen libs ruleSet scope outside call prepared)
      (fun _ last => ends last) checked := by
  have idles := window.idles (.inl rfl)
  refine follows_bind (follows_ofExcept window.ends_checked) (fun _ may => may) fun found => ?_
  cases found with
  | none => exact window.dismiss
  | some rule =>
    have reads : P.Follows (cooldownActive libs scope prepared rule) (Stays ends checked)
        checked := by
      unfold cooldownActive
      split
      · exact follows_pure
      · exact idles rfl (.inr window.ends_checked)
    refine follows_bind reads (fun _ may => may) fun active => ?_
    cases active with
    | true => exact window.dismiss
    | false => exact window.accept itemed

end Window

end Window

variable {libs}

theorem Phase.ends_outside : Phase.Ends .outside := by simp [Phase.Ends]

theorem Phase.ends_checked {key : String} : Phase.Ends (.checked key) := by simp [Phase.Ends]

theorem Phase.ends_of_not_isPlanned (unplanned : phase.isPlanned = false) : phase.Ends := by
  intro key same
  rw [same] at unplanned
  cases unplanned

theorem next_of_isPlain (i : Input) (w : TriggerWorld) (plain : command.action.isPlain = true) :
    phase.next command i w = phase := by
  obtain ⟨scope, action⟩ := command
  cases phase <;> cases action <;> first | rfl | cases plain

theorem legal_of_isPlain (plain : command.action.isPlain = true)
    (inScope : command.scope.key = phase.key) : Phase.Legal libs phase command := by
  refine ⟨inScope, ?_⟩
  split
  · next action => rw [action] at plain; cases plain
  · next action => rw [action] at plain; cases plain
  · next action => rw [action] at plain; cases plain
  · trivial

section Parts

variable {scope : Scope} {key : String}

theorem idles_phase (inScope : scope.key = phase.key) :
    Idles (protocol libs) Phase.Ends scope phase := by
  intro α action reply idle returns
  have plain := isPlain_of_isIdle idle
  refine Follows.request (legal_of_isPlain plain inScope) ?_
  intro i w allowed
  have stays : (protocol libs).next phase ⟨scope, action⟩ i w = phase :=
    next_of_isPlain i w plain
  refine ⟨stays, ?_⟩
  by_cases planned : phase.isPlanned
  · left
    have keyed : phase.key.isSome = true := by
      cases phase with
      | planned key => rfl
      | _ => cases planned
    obtain ⟨fault, late⟩ := (allowed keyed).1 planned
    have quiet : i.lateFault = none := by
      rcases late with marks | quiet
      · rw [marks_of_isPlain plain] at marks
        cases marks
      · exact quiet
    rcases returns with returns | ends
    · obtain ⟨a, replies⟩ := returns i w
      exact ⟨a, by rw [replies, reply_eq_ok fault quiet]⟩
    · cases phase with
      | planned key => exact absurd rfl (ends key)
      | _ => cases planned
  · exact .inr (Phase.ends_of_not_isPlanned (Bool.not_eq_true _ ▸ planned))

theorem follows_marker {record : SeenRecord} (inScope : scope.key = phase.key)
    (keyed : phase.key = some key) :
    (protocol libs).Follows (perform scope (.writeSeen key (seenPath libs key) record))
      (fun outcome last => last.Ends ∧ ∀ a, outcome = .ok a → last = .outside) phase := by
  refine Follows.request ⟨inScope, keyed, rfl⟩ ?_
  intro i w allowed
  have steady := allowed (by rw [keyed]; rfl)
  have left : i.fault = none → (protocol libs).next phase
      ⟨scope, .writeSeen key (seenPath libs key) record⟩ i w = .outside := by
    intro fault
    cases phase with
    | outside => cases keyed
    | checked key => simp only [protocol, Phase.next, if_pos fault]
    | planned key => simp only [protocol, Phase.next, if_pos fault]
  cases fault : i.fault with
  | none =>
    rw [left fault]
    exact ⟨Phase.ends_outside, fun _ _ => rfl⟩
  | some raised =>
    cases phase with
    | outside => cases keyed
    | checked key =>
      simp only [protocol, Phase.next, Input.reply, fault, reduceCtorEq, if_false]
      exact ⟨Phase.ends_checked, by simp⟩
    | planned key =>
      have quiet := (steady.1 rfl).1
      rw [fault] at quiet
      cases quiet

theorem follows_plan (inScope : scope.key = some key) (keyed : arguments.dedupeKey = some key) :
    (protocol libs).Follows (plan scope arguments)
      (LeadsTo (· = .planned key) (.checked key)) (.checked key) := by
  refine follows_bind ((idles_phase inScope).perform rfl) (fun _ _ => rfl) fun _ => ?_
  refine Follows.request ⟨inScope, keyed, by simp⟩ ?_
  intro i w allowed
  have late : i.lateFault = none := (allowed rfl).2 arguments rfl
  cases fault : i.fault with
  | some raised => simp [protocol, Phase.next, creates, Input.reply, fault, LeadsTo]
  | none =>
    by_cases taken : w.stored ("op-" ++ i.fresh)
    · simp [protocol, Phase.next, creates, Input.reply, fault, taken, LeadsTo]
    · simp [protocol, Phase.next, creates, Input.reply, fault, taken, late, LeadsTo]

theorem window_phase (inScope : scope.key = some key) (beyond : outside.key = none)
    (item : Option String) :
    Window libs (protocol libs) Phase.Ends (· = .outside) scope outside item key (.checked key)
      (.planned key) where
  ends_checked := Phase.ends_checked
  open_planned ends := ends key rfl
  idles inside := by rcases inside with rfl | rfl <;> exact idles_phase inScope
  plans _ keyed := follows_plan inScope keyed
  marks inside := by rcases inside with rfl | rfl <;> exact follows_marker inScope rfl
  leaves left idle := by
    subst left
    refine ((idles_phase beyond).perform idle).mono fun _ last stays => ?_
    rw [stays.1]
    exact Phase.ends_outside

end Parts

theorem follows_processEvent (ruleSet : TriggerRuleSet) (call : EventCall) :
    (protocol libs).Follows (processEvent libs ruleSet call) (fun _ last => last.Ends)
      .outside := by
  refine follows_bind (follows_ofExcept Phase.ends_outside) (fun _ may => may) fun prepared => ?_
  refine follows_bind ((idles_phase rfl).perform rfl) (fun _ may => may) fun _ => ?_
  apply Follows.bind
  refine Follows.request ⟨rfl, rfl, rfl⟩ ?_
  intro i w _
  cases fault : i.fault with
  | some raised =>
    simp [protocol, Phase.next, Input.reply, fault]
    exact Phase.ends_outside
  | none =>
    cases late : i.lateFault with
    | some raised =>
      simp [protocol, Phase.next, Input.reply, fault, late]
      exact Phase.ends_outside
    | none =>
      cases seen : (w.seen.get (seenPath libs prepared.dedupeKey)).isSome with
      | true =>
        simp only [protocol, Phase.next, Input.reply, fault, late, seen]
        refine ((idles_phase rfl).dropDuplicate libs).mono ?_
        intro outcome last stays
        rw [stays.1]
        exact Phase.ends_outside
      | false =>
        simp only [protocol, Phase.next, Input.reply, fault, late, seen]
        exact (window_phase rfl rfl call.item).decideUnseen rfl

end

section

variable (libs : Libraries)

structure Deduped (w : TriggerWorld) (phases : Nat → Phase) : Prop where
  atMostOne : ∀ key, w.planned key ≤ 1
  accounted : ∀ key, w.planned key ≠ 0 →
    w.marked libs key = true ∨ ∃ who, phases who = .planned key
  unplanned : ∀ who key, phases who = .checked key → w.planned key = 0
  stored : ∀ who key, phases who = .planned key → w.planned key ≠ 0
  alone : ∀ who other key, (phases who).key = some key → (phases other).key = some key →
    who = other

/-- One operation at most for every key, with a marker. -/
def Settled (w : TriggerWorld) : Prop :=
  ∀ key, w.planned key ≤ 1 ∧ (w.planned key ≠ 0 → w.marked libs key = true)

/-- No other call is between lookup and write of a marker that is looked up, and a call that has
stored its operation neither crashes nor faults before its marker is written. -/
def Careful (m : Crowd Input TriggerWorld Command Fault DecisionRecord) :
    CrowdEvent Input Empty EventCall → Prop
  | .call _ _ => True
  | .input who i => ∀ command, m.awaiting who = some command →
    (∀ key path, command.action = .checkSeen key path →
      ∀ other, other ≠ who → ∀ waiting, m.awaiting other = some waiting →
        waiting.scope.key ≠ some key) ∧
    ∀ key, command.scope.key = some key → Steady (decide (m.store.planned key ≠ 0)) command i
  | .intrude _ => True
  | .crash who => ∀ command key, m.awaiting who = some command →
    command.scope.key = some key → m.store.planned key = 0

def triggerSystem (ruleSet : TriggerRuleSet) :
    Crowd.System Input TriggerWorld Command Fault DecisionRecord Empty EventCall where
  effect := effect
  intrude x _ := x.elim
  body := processEvent libs ruleSet

variable {libs}

theorem Settled.deduped {w : TriggerWorld} (settled : Settled libs w) :
    Deduped libs w fun _ => .outside where
  atMostOne key := (settled key).1
  accounted key planned := .inl ((settled key).2 planned)
  unplanned _ _ same := by cases same
  stored _ _ same := by cases same
  alone _ _ _ keyed := by cases keyed

namespace Deduped

variable {w after : TriggerWorld} {phases : Nat → Phase} {who : Nat}

theorem move (deduped : Deduped libs w phases) (counts : ∀ key, after.planned key = w.planned key)
    (grows : ∀ key, w.marked libs key = true → after.marked libs key = true)
    (leaves : phase = phases who ∨ phase = .outside ∧ ∀ key, phases who = .planned key →
      after.marked libs key = true) :
    Deduped libs after (Function.update phases who phase) := by
  have before : ∀ other {last : Phase}, Function.update phases who phase other = last →
      last.key ≠ none → phases other = last := by
    intro other last now keyed
    by_cases same : other = who
    · subst same
      rw [Function.update_self] at now
      rcases leaves with stays | ⟨left, -⟩
      · rw [← stays, now]
      · rw [← now, left] at keyed
        exact absurd rfl keyed
    · rwa [Function.update_of_ne same] at now
  have keyBefore : ∀ other key, (Function.update phases who phase other).key = some key →
      (phases other).key = some key := by
    intro other key keyed
    rw [before other rfl (by rw [keyed]; nofun)]
    exact keyed
  constructor
  · intro key
    rw [counts]
    exact deduped.atMostOne key
  · intro key planned
    rw [counts] at planned
    rcases deduped.accounted key planned with marked | ⟨other, holds⟩
    · exact .inl (grows key marked)
    · by_cases same : other = who
      · subst same
        rcases leaves with stays | ⟨-, marked⟩
        · exact .inr ⟨other, by rw [Function.update_self, stays, holds]⟩
        · exact .inl (marked key holds)
      · exact .inr ⟨other, by rw [Function.update_of_ne same, holds]⟩
  · intro other key now
    rw [counts]
    exact deduped.unplanned other key (before other now nofun)
  · intro other key now
    rw [counts]
    exact deduped.stored other key (before other now nofun)
  · intro one other key first second
    exact deduped.alone one other key (keyBefore one key first) (keyBefore other key second)

theorem enter {key : String} (deduped : Deduped libs w phases) (outside : phases who = .outside)
    (free : ∀ other, other ≠ who → (phases other).key ≠ some key)
    (missing : w.marked libs key = false) :
    Deduped libs w (Function.update phases who (.checked key)) := by
  have nobody : ∀ other, (phases other).key ≠ some key := by
    intro other
    by_cases same : other = who
    · rw [same, outside]
      nofun
    · exact free other same
  have unplanned : w.planned key = 0 := by
    by_contra planned
    rcases deduped.accounted key planned with marked | ⟨other, holds⟩
    · rw [missing] at marked
      cases marked
    · exact nobody other (by rw [holds]; rfl)
  constructor
  · exact deduped.atMostOne
  · intro other planned
    rcases deduped.accounted other planned with marked | ⟨one, holds⟩
    · exact .inl marked
    · refine .inr ⟨one, ?_⟩
      have different : one ≠ who := by
        intro same
        rw [same, outside] at holds
        cases holds
      rw [Function.update_of_ne different, holds]
  · intro other found now
    by_cases same : other = who
    · subst same
      rw [Function.update_self] at now
      cases now
      exact unplanned
    · rw [Function.update_of_ne same] at now
      exact deduped.unplanned other found now
  · intro other found now
    by_cases same : other = who
    · subst same
      rw [Function.update_self] at now
      cases now
    · rw [Function.update_of_ne same] at now
      exact deduped.stored other found now
  · intro one other found first second
    by_cases same : one = who
    · by_cases also : other = who
      · rw [same, also]
      · rw [same, Function.update_self] at first
        rw [Function.update_of_ne also] at second
        cases first
        exact absurd second (nobody other)
    · rw [Function.update_of_ne same] at first
      by_cases also : other = who
      · rw [also, Function.update_self] at second
        cases second
        exact absurd first (nobody one)
      · rw [Function.update_of_ne also] at second
        exact deduped.alone one other found first second

theorem create {key : String} (deduped : Deduped libs w phases)
    (checked : phases who = .checked key)
    (counts : ∀ other, after.planned other = w.planned other + if other = key then 1 else 0)
    (grows : ∀ other, w.marked libs other = true → after.marked libs other = true) :
    Deduped libs after (Function.update phases who (.planned key)) := by
  have none_yet : w.planned key = 0 := deduped.unplanned who key checked
  have only : ∀ other, (phases other).key = some key → other = who := by
    intro other keyed
    exact deduped.alone other who key keyed (by rw [checked]; rfl)
  have keyBefore : ∀ other found,
      (Function.update phases who (.planned key) other).key = some found →
      (phases other).key = some found := by
    intro other found keyed
    by_cases same : other = who
    · subst same
      rw [Function.update_self] at keyed
      rw [checked]
      exact keyed
    · rwa [Function.update_of_ne same] at keyed
  constructor
  · intro other
    rw [counts]
    by_cases same : other = key
    · rw [if_pos same, same, none_yet]
    · rw [if_neg same]
      exact deduped.atMostOne other
  · intro other planned
    by_cases same : other = key
    · exact .inr ⟨who, by rw [Function.update_self, same]⟩
    · rw [counts, if_neg same] at planned
      rcases deduped.accounted other planned with marked | ⟨one, holds⟩
      · exact .inl (grows other marked)
      · refine .inr ⟨one, ?_⟩
        have different : one ≠ who := by
          intro also
          rw [also, checked] at holds
          cases holds
        rw [Function.update_of_ne different, holds]
  · intro other found now
    have different : other ≠ who := by
      intro same
      rw [same, Function.update_self] at now
      cases now
    rw [Function.update_of_ne different] at now
    have apart : found ≠ key := by
      intro same
      exact different (only other (by rw [now, same]; rfl))
    rw [counts, if_neg apart]
    exact deduped.unplanned other found now
  · intro other found now
    rw [counts]
    by_cases same : other = who
    · subst same
      rw [Function.update_self] at now
      cases now
      rw [if_pos rfl]
      exact Nat.succ_ne_zero _
    · rw [Function.update_of_ne same] at now
      have before := deduped.stored other found now
      omega
  · intro one other found first second
    exact deduped.alone one other found (keyBefore one found first) (keyBefore other found second)

end Deduped

section

variable {command : Command} {i : Input} {w : TriggerWorld} {phase : Phase}

theorem creates_storeOperation (made : creates command i w = some arguments) :
    command.action = .storeOperation arguments := by
  unfold creates at made
  split at made
  · next given _ action =>
    split at made
    · cases made
    · cases made
      exact action
  · cases made

theorem checked_of_creates {key : String} (legal : Phase.Legal libs phase command)
    (made : (creates command i w).bind (·.dedupeKey) = some key) :
    phase = .checked key ∧ phase.next command i w = .planned key := by
  cases given : creates command i w with
  | none =>
    rw [given] at made
    cases made
  | some arguments =>
    rw [given, Option.bind_some] at made
    have action := creates_storeOperation given
    have allowed := legal.2
    rw [action] at allowed
    obtain ⟨keyed, unplanned⟩ := allowed
    rw [made] at keyed
    cases phase with
    | outside => cases keyed
    | checked found =>
      cases keyed
      refine ⟨rfl, ?_⟩
      simp only [Phase.next, action, given, Option.isSome_some, if_true]
    | planned found => exact absurd rfl (unplanned found)

theorem marked_of_writeSeen {key path : String} {record : SeenRecord}
    (legal : Phase.Legal libs phase command) (action : command.action = .writeSeen key path record)
    (fault : i.fault = none) : (effect command i w).marked libs key = true := by
  have allowed := legal.2
  rw [action] at allowed
  simp only [effect, fault, action, Action.write, TriggerWorld.marked, allowed.2,
    Dict.get_set_self, Option.isSome_some]

theorem next_cases (legal : Phase.Legal libs phase command) :
    (∃ key, phase = .outside ∧ command.action = .checkSeen key (seenPath libs key) ∧
      phase.next command i w = .checked key ∧ w.marked libs key = false) ∨
    (∃ key, (creates command i w).bind (·.dedupeKey) = some key) ∨
    (phase.next command i w = phase ∨ phase.next command i w = .outside ∧
      ∀ key, phase = .planned key → (effect command i w).marked libs key = true) := by
  obtain ⟨scope, action⟩ := command
  by_cases plain : action.isPlain
  · exact .inr (.inr (.inl (next_of_isPlain i w plain)))
  cases action with
  | checkSeen key path =>
    obtain ⟨-, outside, located⟩ := legal
    subst outside located
    by_cases missing : i.fault = none ∧ i.lateFault = none ∧
        (w.seen.get (seenPath libs key)).isSome = false
    · refine .inl ⟨key, rfl, rfl, ?_, missing.2.2⟩
      simp only [Phase.next, if_pos missing]
    · refine .inr (.inr (.inl ?_))
      simp only [Phase.next, if_neg missing]
  | writeSeen key path record =>
    cases fault : i.fault with
    | some raised =>
      refine .inr (.inr (.inl ?_))
      cases phase <;> simp [Phase.next, fault]
    | none =>
      have keyed : phase.key = some key := legal.2.1
      have marked := marked_of_writeSeen (w := w) legal rfl fault
      refine .inr (.inr (.inr ?_))
      cases phase with
      | outside => cases keyed
      | checked found =>
        refine ⟨?_, nofun⟩
        simp only [Phase.next, fault, if_true]
      | planned found =>
        cases keyed
        refine ⟨?_, ?_⟩
        · simp only [Phase.next, fault, if_true]
        · intro other same
          cases same
          exact marked
  | storeOperation arguments =>
    cases given : creates ⟨scope, .storeOperation arguments⟩ i w with
    | none =>
      refine .inr (.inr (.inl ?_))
      cases phase <;> simp [Phase.next, given]
    | some made =>
      have same : Action.storeOperation arguments = .storeOperation made :=
        creates_storeOperation given
      cases same
      obtain ⟨-, keyed, -⟩ := legal
      cases phase with
      | outside => exact .inr (.inr (.inl rfl))
      | checked key => exact .inr (.inl ⟨key, keyed⟩)
      | planned key => exact .inr (.inl ⟨key, keyed⟩)
  | _ => exact absurd rfl plain

end

theorem allows_of_careful (deduped : Deduped libs m.store phases)
    (legal : Phase.Legal libs (phases who) command) (waits : m.awaiting who = some command)
    (careful : Careful m (.input who i)) :
    (protocol libs).allows (phases who) command i m.store := by
  intro keyed
  obtain ⟨key, has⟩ := Option.isSome_iff_exists.mp keyed
  have steady := (careful command waits).2 key (legal.1.trans has)
  refine ⟨fun planned => steady.1 ?_, steady.2⟩
  cases phase : phases who with
  | planned found =>
    rw [phase] at has
    cases has
    exact decide_eq_true (deduped.stored who key phase)
  | _ =>
    rw [phase] at planned
    cases planned

theorem deduped_input
    (coherent : Crowd.Coherent (protocol libs) .outside (fun _ => Phase.Ends) m phases)
    (deduped : Deduped libs m.store phases) (waits : m.awaiting who = some command)
    (careful : Careful m (.input who i)) : Deduped libs (effect command i m.store)
      (Function.update phases who ((phases who).next command i m.store)) := by
  have legal : Phase.Legal libs (phases who) command := coherent.legal waits
  have grows : ∀ key, m.store.marked libs key = true →
      (effect command i m.store).marked libs key = true :=
    fun _ marked => marked_effect command i marked
  by_cases made : ∃ key, (creates command i m.store).bind (·.dedupeKey) = some key
  · obtain ⟨key, made⟩ := made
    obtain ⟨checked, next⟩ := checked_of_creates legal made
    rw [next]
    refine deduped.create checked ?_ grows
    intro other
    rw [planned_effect, made]
    simp only [Option.some.injEq, eq_comm]
  · have counts : ∀ key, (effect command i m.store).planned key = m.store.planned key := by
      intro key
      rw [planned_effect, if_neg fun same => made ⟨key, same⟩, Nat.add_zero]
    rcases next_cases (i := i) (w := m.store) legal with
      ⟨key, outside, checks, next, missing⟩ | impossible | leaves
    · rw [next]
      have unchanged : effect command i m.store = m.store := by
        simp only [effect, checks, Action.write]
        split <;> rfl
      rw [unchanged]
      refine deduped.enter outside ?_ missing
      intro other different keyed
      -- whoever has the key is about to make an access in its scope
      have busy : phases other ≠ .outside := by
        intro resting
        rw [resting] at keyed
        cases keyed
      obtain ⟨waiting, issued⟩ := coherent.waits id busy
      have named : waiting.scope.key = (phases other).key := (coherent.legal issued).1
      exact (careful command waits).1 key _ checks other different waiting issued
        (named.trans keyed)
    · exact absurd impossible made
    · exact deduped.move counts grows leaves

theorem deduped_crash
    (coherent : Crowd.Coherent (protocol libs) .outside (fun _ => Phase.Ends) m phases)
    (deduped : Deduped libs m.store phases) (careful : Careful m (.crash who)) :
    Deduped libs m.store (Function.update phases who .outside) := by
  refine deduped.move (fun _ => rfl) (fun _ marked => marked) (.inr ⟨rfl, ?_⟩)
  intro key planned
  have busy : phases who ≠ .outside := by
    rw [planned]
    nofun
  obtain ⟨waiting, issued⟩ := coherent.waits id busy
  have named : waiting.scope.key = (phases who).key := (coherent.legal issued).1
  have unplanned := careful waiting key issued (by rw [named, planned]; rfl)
  exact absurd unplanned (deduped.stored who key planned)

theorem upholds_deduped (ruleSet : TriggerRuleSet) :
    Crowd.Upholds (triggerSystem libs ruleSet) (protocol libs) .outside (fun _ => Phase.Ends)
      (Deduped libs) (fun m _ event => Careful m event) where
  call _ _ := follows_processEvent ruleSet _
  input coherent deduped running careful := by
    have waits := congrArg Machine.awaiting running
    have legal := coherent.legal waits
    exact ⟨allows_of_careful deduped legal waits careful,
      deduped_input coherent deduped waits careful⟩
  intrude {_ _ x} := x.elim
  crash := deduped_crash
  leave deduped ends := by
    refine deduped.move (fun _ => rfl) (fun _ marked => marked) (.inr ⟨rfl, ?_⟩)
    exact fun key planned => absurd planned (ends key)

/-- As long as the run is careful, no key ever gets a second operation. -/
theorem planned_at_most_once (libs : Libraries) (ruleSet : TriggerRuleSet)
    (m : Crowd Input TriggerWorld Command Fault DecisionRecord)
    (events : List (CrowdEvent Input Empty EventCall)) (quiet : m.Quiet)
    (settled : Settled libs m.store)
    (careful : Crowd.Meets (triggerSystem libs ruleSet) Careful m events) (key : String) :
    (m.run (triggerSystem libs ruleSet) events).store.planned key ≤ 1 := by
  obtain ⟨-, deduped⟩ :=
    (upholds_deduped ruleSet).run quiet.coherent settled.deduped careful.attends
  exact deduped.atMostOne key

end

def smooth (who : Nat) : CrowdEvent Input Empty EventCall → Bool
  | .call caller _ => caller == who
  | .input asker i => asker == who && i.fault.isNone && i.lateFault.isNone
  | _ => false

theorem alone_step {libs : Libraries} {ruleSet : TriggerRuleSet}
    {event : CrowdEvent Input Empty EventCall} (goes : smooth who event = true)
    (alone : ∀ other, other ≠ who → m.running other = none) :
    ∀ other, other ≠ who → (m.step (triggerSystem libs ruleSet) event).running other = none := by
  intro other different
  cases event with
  | call caller c =>
    have same : caller = who := by simpa [smooth] using goes
    rw [Crowd.step]
    split
    · rw [Crowd.put, same]
      exact (Function.update_of_ne different _ _).trans (alone other different)
    · exact alone other different
  | input asker i =>
    have same : asker = who := by
      simp only [smooth, Bool.and_eq_true, beq_iff_eq] at goes
      exact goes.1.1
    rw [Crowd.step]
    split
    · rw [Crowd.put, same]
      exact (Function.update_of_ne different _ _).trans (alone other different)
    · exact alone other different
  | intrude x => exact x.elim
  | crash process => cases goes

theorem meets_of_smooth (libs : Libraries) (ruleSet : TriggerRuleSet) (who : Nat)
    {events : List (CrowdEvent Input Empty EventCall)}
    (alone : ∀ other, other ≠ who → m.running other = none)
    (goes : events.all (smooth who) = true) :
    Crowd.Meets (triggerSystem libs ruleSet) Careful m events := by
  induction events generalizing m with
  | nil => exact trivial
  | cons event rest ih =>
    rw [List.all_cons, Bool.and_eq_true] at goes
    refine ⟨?_, ih (alone_step goes.1 alone) goes.2⟩
    cases event with
    | call caller c => exact trivial
    | intrude x => exact trivial
    | crash process => cases goes.1
    | input asker i =>
      have plain := goes.1
      simp only [smooth, Bool.and_eq_true, beq_iff_eq, Option.isNone_iff_eq_none] at plain
      obtain ⟨⟨same, fault⟩, late⟩ := plain
      intro command _
      refine ⟨?_, fun key _ => ⟨fun _ => ⟨fault, .inr late⟩, fun _ _ => late⟩⟩
      intro key path _ other different waiting issued
      rw [Crowd.awaiting, alone other (same ▸ different)] at issued
      cases issued

def sampleLibraries : Libraries where
  text _ := "None"
  sha256 s := s
  canonicalJson _ := "json"
  fromIsoFormat _ := some (0, true)
  isoFormat _ := "1970-01-01T00:00:00+00:00"

def sampleRuleSet : TriggerRuleSet :=
  ⟨"lab", "1", [⟨"restart", "alarm", [], .planOperation,
    [("intent", .str "restart"), ("target", .str "db-1")], 0, "r1"⟩], "s1"⟩

def sampleCall : EventCall :=
  ⟨[("id", .str "7"), ("source", .str "probe"), ("type", .str "alarm"),
    ("subject", .str "db-1"), ("occurred_at", .str "1970-01-01T00:00:00Z"),
    ("payload", .dict []), ("dedupe_key", .str "alarm-7")], true, false, 0, "stdin", none⟩

def emptyWorld : TriggerWorld := ⟨[], ∅, ∅, ∅, ∅, ∅, []⟩

def answer (fresh : String) : Input := ⟨none, none, fresh, true, 0⟩

def answeredCall (fresh : String) (accesses : Nat) : List (CrowdEvent Input Empty EventCall) :=
  .call 0 sampleCall :: List.replicate accesses (.input 0 (answer fresh))

/-- The event comes twice; the second call finds the marker. -/
theorem repeated_planned_once :
    ((⟨emptyWorld, fun _ => none⟩ : Crowd _ _ _ _ _).run
      (triggerSystem sampleLibraries sampleRuleSet)
      (answeredCall "a" 10 ++ answeredCall "b" 5)).store.planned "alarm-7" = 1 := by
  have once := planned_at_most_once sampleLibraries sampleRuleSet
    ⟨emptyWorld, fun _ => none⟩ (answeredCall "a" 10 ++ answeredCall "b" 5) (fun _ => rfl)
    (fun key => ⟨Nat.zero_le 1, fun planned => absurd rfl planned⟩)
    (meets_of_smooth sampleLibraries sampleRuleSet 0 (fun _ _ => rfl) (by decide +kernel))
    "alarm-7"
  have some_planned : 0 < ((⟨emptyWorld, fun _ => none⟩ : Crowd _ _ _ _ _).run
      (triggerSystem sampleLibraries sampleRuleSet)
      (answeredCall "a" 10 ++ answeredCall "b" 5)).store.planned "alarm-7" := by
    decide +kernel
  omega

/-- The process crashes between the operation and the marker. -/
theorem crashed_planned_twice :
    ((⟨emptyWorld, fun _ => none⟩ : Crowd _ _ _ _ _).run
      (triggerSystem sampleLibraries sampleRuleSet)
      (answeredCall "a" 7 ++ .crash 0 :: answeredCall "b" 10)).store.planned "alarm-7" = 2 := by
  decide +kernel

section DefaultKeys

variable {libs : Libraries} {ruleSet ruleSet' : TriggerRuleSet} {call call' : EventCall}
  {p p' : Prepared}

def keyFields : List String := ["source", "id", "type", "subject"]

def keyParts (libs : Libraries) (event : Entries) : List (List Char) :=
  keyFields.flatMap fun key => (libs.str (Value.get event key)).toList.splitOn ':'

def Colonless (event : Entries) : Prop :=
  ∀ key ∈ keyFields, ∃ text, Value.get event key = .str text ∧ ':' ∉ text.toList

theorem Colonless.keyParts {event : Entries} (texts : Colonless event) :
    keyParts libs event = keyFields.map fun key => (libs.str (Value.get event key)).toList := by
  rw [Triggers.keyParts, List.map_eq_flatMap]
  refine List.flatMap_congr fun key inside => ?_
  obtain ⟨text, found, plain⟩ := texts key inside
  rw [found]
  exact List.splitOn_eq_singleton plain

theorem Colonless.keyParts_eq_iff {event event' : Entries} (texts : Colonless event)
    (texts' : Colonless event') :
    Triggers.keyParts libs event = Triggers.keyParts libs event' ↔
      ∀ key ∈ keyFields, Value.get event key = Value.get event' key := by
  rw [texts.keyParts, texts'.keyParts, List.map_inj_left]
  refine forall₂_congr fun key inside => ?_
  obtain ⟨text, found, _⟩ := texts key inside
  obtain ⟨text', found', _⟩ := texts' key inside
  rw [found, found', Value.str.injEq]
  exact String.toList_inj

theorem prepare_event (accepted : prepare libs ruleSet call = .ok p)
    (implicit : libs.field p.event "dedupe_key" "" = "") :
    p.dedupeKey = defaultDedupeKey libs p.event (libs.digest (payloadOf p.event)) := by
  unfold prepare at accepted
  split at accepted
  · cases accepted
  · dsimp only at accepted
    split at accepted
    · cases accepted
    · split at accepted
      · cases accepted
      · split at accepted
        · cases accepted
        · split at accepted
          · cases accepted
          · cases accepted
            exact if_pos implicit

theorem splitOn_defaultDedupeKey (event : Entries) {digest : String}
    (hex : ':' ∉ digest.toList) :
    (defaultDedupeKey libs event digest).toList.splitOn ':' =
      keyParts libs event ++ [digest.toList] := by
  simp only [defaultDedupeKey, String.intercalate_cons_cons, String.intercalate_singleton,
    String.toList_append, String.reduceToList, List.append_assoc, List.cons_append,
    List.nil_append, List.splitOn_append_cons_self, List.splitOn_eq_singleton hex, keyParts,
    keyFields, List.flatMap_cons, List.flatMap_nil]

section

variable (accepted : prepare libs ruleSet call = .ok p)
  (accepted' : prepare libs ruleSet' call' = .ok p')
  (implicit : libs.field p.event "dedupe_key" "" = "")
  (implicit' : libs.field p'.event "dedupe_key" "" = "")
  (hex : ∀ event, ':' ∉ (libs.digest (payloadOf event)).toList)
  (collisionFree : ∀ e e', libs.digest (payloadOf e) = libs.digest (payloadOf e') →
    libs.canonicalJson (payloadOf e) = libs.canonicalJson (payloadOf e'))

include accepted accepted' implicit implicit' hex collisionFree

theorem defaultDedupeKey_eq_iff :
    p.dedupeKey = p'.dedupeKey ↔ keyParts libs p.event = keyParts libs p'.event ∧
      libs.canonicalJson (payloadOf p.event) = libs.canonicalJson (payloadOf p'.event) := by
  rw [prepare_event accepted implicit, prepare_event accepted' implicit']
  constructor
  · intro same
    have parts := congrArg (fun key => key.toList.splitOn ':') same
    simp only [splitOn_defaultDedupeKey _ (hex _)] at parts
    obtain ⟨texts, digests⟩ := List.append_inj' parts rfl
    refine ⟨texts, collisionFree _ _ (String.toList_injective ?_)⟩
    simpa using digests
  · rintro ⟨texts, payloads⟩
    have joined : ∀ key : String, [':'].intercalate (key.toList.splitOn ':') = key.toList :=
      fun _ => List.intercalate_splitOn ':'
    apply String.toList_injective
    rw [← joined (defaultDedupeKey libs p.event _), ← joined (defaultDedupeKey libs p'.event _),
      splitOn_defaultDedupeKey _ (hex _), splitOn_defaultDedupeKey _ (hex _), texts,
      Libraries.digest, Libraries.digest, payloads]

/-- Default keys differ exactly if the texts, cut at every colon, or the payloads differ. -/
theorem default_keys_differ_iff :
    p.dedupeKey ≠ p'.dedupeKey ↔ keyParts libs p.event ≠ keyParts libs p'.event ∨
      libs.canonicalJson (payloadOf p.event) ≠ libs.canonicalJson (payloadOf p'.event) := by
  rw [← not_and_or, ne_eq, not_iff_not]
  exact defaultDedupeKey_eq_iff accepted accepted' implicit implicit' hex collisionFree

theorem textual_keys_eq_iff (texts : Colonless p.event) (texts' : Colonless p'.event) :
    p.dedupeKey = p'.dedupeKey ↔
      (∀ key ∈ keyFields, Value.get p.event key = Value.get p'.event key) ∧
      libs.canonicalJson (payloadOf p.event) = libs.canonicalJson (payloadOf p'.event) := by
  rw [defaultDedupeKey_eq_iff accepted accepted' implicit implicit' hex collisionFree,
    texts.keyParts_eq_iff texts']

end

def keylessCall (source id : String) : EventCall :=
  ⟨[("id", .str id), ("source", .str source), ("type", .str "alarm"),
    ("subject", .str "db-1"), ("occurred_at", .str "1970-01-01T00:00:00Z"),
    ("payload", .dict [])], true, false, 0, "stdin", none⟩

theorem exists_prepared (call : EventCall) (test : Prepared → Bool)
    (holds : (prepare sampleLibraries sampleRuleSet call).toOption.any test = true) :
    ∃ p, prepare sampleLibraries sampleRuleSet call = .ok p ∧ test p = true := by
  cases ready : prepare sampleLibraries sampleRuleSet call with
  | error fault => simp [ready, Except.toOption] at holds
  | ok p => exact ⟨p, rfl, by simpa [ready, Except.toOption] using holds⟩

def keylessWith (id : String) (p : Prepared) : Bool :=
  sampleLibraries.field p.event "dedupe_key" "" == "" &&
    (keyParts sampleLibraries p.event)[1]? == some id.toList

theorem other_id_other_key : ∃ p p',
    prepare sampleLibraries sampleRuleSet (keylessCall "probe" "7") = .ok p ∧
      prepare sampleLibraries sampleRuleSet (keylessCall "probe" "8") = .ok p' ∧
      p.dedupeKey ≠ p'.dedupeKey := by
  obtain ⟨p, accepted, known⟩ := exists_prepared (keylessCall "probe" "7") (keylessWith "7")
    (by decide +kernel)
  obtain ⟨p', accepted', known'⟩ := exists_prepared (keylessCall "probe" "8") (keylessWith "8")
    (by decide +kernel)
  simp only [keylessWith, Bool.and_eq_true, beq_iff_eq] at known known'
  refine ⟨p, p', accepted, accepted', ?_⟩
  refine (default_keys_differ_iff accepted accepted' known.1 known'.1
    (fun _ => (by decide : ':' ∉ "json".toList)) fun _ _ _ => rfl).mpr (.inl fun same => ?_)
  rw [same, known'.2] at known
  exact absurd known.2 (by decide +kernel)

/-- A colon moves from the source to the id. -/
theorem shifted_colon_same_key :
    (Value.get (keylessCall "a:b" "c").payload "source").eq
        (Value.get (keylessCall "a" "b:c").payload "source") = false ∧
      (prepare sampleLibraries sampleRuleSet (keylessCall "a:b" "c")).toOption.map (·.dedupeKey) =
        some "a:b:c:alarm:db-1:json" ∧
      (prepare sampleLibraries sampleRuleSet (keylessCall "a" "b:c")).toOption.map (·.dedupeKey) =
        some "a:b:c:alarm:db-1:json" := by
  decide +kernel

end DefaultKeys

end RExecOp.Triggers
