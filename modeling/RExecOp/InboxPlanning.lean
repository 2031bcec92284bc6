import RExecOp.InboxProtocol

/-! An inbox item plans at most one operation, in every run of polls where nothing
raises while an item is exposed. -/

namespace RExecOp.Triggers

variable {command : Command} {i : Input} {w : TriggerWorld} {name : String} {key : Option String}

namespace TriggerWorld

def plans (w : TriggerWorld) : List PlanArguments := w.operations.map (·.arguments)

def contentOf (w : TriggerWorld) (name : String) : Option InboxContent :=
  (w.inbox.get name).map (·.content)

theorem plannedItem_eq (w : TriggerWorld) (name : String) :
    w.plannedItem name = w.plans.countP fun arguments => arguments.item = some name := by
  rw [plannedItem, plans, List.countP_map]
  rfl

end TriggerWorld

theorem plans_effect (command : Command) (i : Input) (w : TriggerWorld) :
    (effect command i w).plans = w.plans ++ (creates command i w).toList := by
  obtain ⟨scope, action⟩ := command
  unfold effect creates
  cases i.fault with
  | some fault => simp
  | none =>
    cases action with
    | storeOperation arguments =>
      by_cases taken : w.stored ("op-" ++ i.fresh)
      · simp [Action.write, taken]
      · simp [Action.write, taken, TriggerWorld.plans]
    | saveOperation id trigger =>
      simp only [Action.write, TriggerWorld.plans, List.map_map, Option.toList_none,
        List.append_nil]
      congr 1
      funext operation
      simp only [Function.comp_apply]
      split <;> rfl
    | refreshItem name =>
      simp only [Action.write]
      split <;> simp [TriggerWorld.plans]
    | moveToDeadLetter name reason =>
      simp only [Action.write]
      split <;> simp [TriggerWorld.plans]
    | _ => simp [Action.write, TriggerWorld.plans]

def Action.takes : Action → Option String
  | .unlinkItem name => some name
  | .moveToDeadLetter name _ => some name
  | _ => none

theorem contentOf_effect (command : Command) (i : Input) (w : TriggerWorld) (name : String) :
    (effect command i w).contentOf name =
      if i.fault = none ∧ command.action.takes = some name then none else w.contentOf name := by
  obtain ⟨scope, action⟩ := command
  unfold effect
  cases i.fault with
  | some fault => simp
  | none =>
    cases action with
    | unlinkItem removed =>
      by_cases same : name = removed
      · simp [Action.write, Action.takes, TriggerWorld.contentOf, same]
      · have other : removed ≠ name := fun eq => same eq.symm
        simp [Action.write, Action.takes, TriggerWorld.contentOf, Dict.get_remove_ne _ same,
          other]
    | moveToDeadLetter moved reason =>
      by_cases same : name = moved
      · subst same
        simp only [Action.write, Action.takes]
        split
        · simp [TriggerWorld.contentOf]
        · next missing => simp [TriggerWorld.contentOf, missing]
      · have other : moved ≠ name := fun eq => same eq.symm
        simp only [Action.write, Action.takes]
        split <;> simp [TriggerWorld.contentOf, Dict.get_remove_ne _ same, other]
    | refreshItem refreshed =>
      simp only [Action.write, Action.takes]
      split
      · next item found =>
        by_cases same : name = refreshed
        · subst same
          simp [TriggerWorld.contentOf, found]
        · simp [TriggerWorld.contentOf, Dict.get_set_ne _ _ same]
      · simp
    | storeOperation arguments =>
      simp only [Action.write, Action.takes]
      split <;> simp [TriggerWorld.contentOf]
    | _ => simp [Action.write, Action.takes, TriggerWorld.contentOf]

theorem marked_of_effect {libs : Libraries} {key : String} (other : command.action.marks = false) :
    (effect command i w).marked libs key = w.marked libs key := by
  obtain ⟨scope, action⟩ := command
  unfold effect
  cases i.fault with
  | some fault => rfl
  | none =>
    cases action with
    | writeSeen written path record => cases other
    | storeOperation arguments =>
      simp only [Action.write]
      split <;> rfl
    | refreshItem name =>
      simp only [Action.write]
      split <;> rfl
    | moveToDeadLetter name reason =>
      simp only [Action.write]
      split <;> rfl
    | _ => rfl

section Invariant

variable (libs : Libraries)

def Stage.Holds (w : TriggerWorld) : Stage → Prop
  | .idle => True
  | .reading name key => ∃ content, w.contentOf name = some content ∧
    itemKey libs name content = some key
  | .ready name key => (∃ content, w.contentOf name = some content ∧
      itemKey libs name content = key) ∧
    (∀ arguments ∈ w.plans, arguments.item ≠ some name) ∧
    ∀ found, key = some found → w.marked libs found = false
  | .planned name key => (∃ content, w.contentOf name = some content ∧
      itemKey libs name content = key) ∧
    (∃ arguments ∈ w.plans, arguments.item = some name ∧ arguments.dedupeKey = key) ∧
    ∀ found, key = some found → w.marked libs found = false

/-- Every operation planned from an item in the inbox is the only one, and is marked or in hand. -/
structure Covered (w : TriggerWorld) (stage : Stage) : Prop where
  atMostOne : ∀ name, w.plans.countP (fun arguments => arguments.item = some name) ≤ 1
  agrees : ∀ arguments ∈ w.plans, ∀ name content, arguments.item = some name →
    w.contentOf name = some content → itemKey libs name content = arguments.dedupeKey
  accounted : ∀ arguments ∈ w.plans, ∀ name, arguments.item = some name →
    w.contentOf name ≠ none →
    (∃ key, arguments.dedupeKey = some key ∧ w.marked libs key = true) ∨
      ∃ key, stage = .planned name key
  held : stage.Holds libs w

variable {libs} {w after : TriggerWorld} {stage : Stage}

namespace Covered

theorem rest (covered : Covered libs w stage) (plans : after.plans = w.plans)
    (shrinks : ∀ name content, after.contentOf name = some content →
      w.contentOf name = some content)
    (grows : ∀ key, w.marked libs key = true → after.marked libs key = true)
    (covers : ∀ name key, stage = .planned name key →
      after.contentOf name = none ∨ ∃ found, key = some found ∧ after.marked libs found = true) :
    Covered libs after .idle := by
  constructor
  · intro name
    rw [plans]
    exact covered.atMostOne name
  · intro arguments planned name content item present
    rw [plans] at planned
    exact covered.agrees arguments planned name content item (shrinks name content present)
  · intro arguments planned name item present
    rw [plans] at planned
    obtain ⟨content, stored⟩ := Option.ne_none_iff_exists'.mp present
    have before := shrinks name content stored
    have there : w.contentOf name ≠ none := by
      rw [before]
      nofun
    left
    rcases covered.accounted arguments planned name item there with marked | ⟨key, exposed⟩
    · obtain ⟨key, keyed, marked⟩ := marked
      exact ⟨key, keyed, grows key marked⟩
    · rcases covers name key exposed with gone | ⟨found, keyed, marked⟩
      · exact absurd gone present
      · -- the operation was planned under the key of the item in hand
        have held := covered.held
        rw [exposed] at held
        obtain ⟨⟨own, content_own, key_own⟩, -⟩ := held
        have same : itemKey libs name own = arguments.dedupeKey :=
          covered.agrees arguments planned name own item content_own
        exact ⟨found, by rw [← same, key_own, keyed], marked⟩
  · exact trivial

theorem leave (covered : Covered libs w stage) (ends : stage.Ends) : Covered libs w .idle := by
  refine covered.rest rfl (fun _ _ present => present) (fun _ marked => marked) ?_
  exact fun name key planned => absurd planned (ends name key)

theorem keep (covered : Covered libs w stage) (plans : after.plans = w.plans)
    (contents : ∀ name, after.contentOf name = w.contentOf name)
    (marks : ∀ key, after.marked libs key = w.marked libs key) : Covered libs after stage := by
  constructor
  · intro name
    rw [plans]
    exact covered.atMostOne name
  · intro arguments planned name content item present
    rw [plans] at planned
    rw [contents] at present
    exact covered.agrees arguments planned name content item present
  · intro arguments planned name item present
    rw [plans] at planned
    rw [contents] at present
    simp only [marks]
    exact covered.accounted arguments planned name item present
  · have held := covered.held
    cases stage with
    | idle => exact trivial
    | _ => simpa only [Stage.Holds, contents, plans, marks] using held

theorem unplanned {content : InboxContent} (covered : Covered libs w stage) (ends : stage.Ends)
    (present : w.contentOf name = some content) (keyed : itemKey libs name content = key)
    (unmarked : ∀ found, key = some found → w.marked libs found = false) :
    ∀ arguments ∈ w.plans, arguments.item ≠ some name := by
  intro arguments planned item
  have there : w.contentOf name ≠ none := by
    rw [present]
    nofun
  have same := covered.agrees arguments planned name content item present
  rcases covered.accounted arguments planned name item there with marked | ⟨key, exposed⟩
  · obtain ⟨found, own, marked⟩ := marked
    rw [unmarked found (by rw [← keyed, same, own])] at marked
    cases marked
  · exact ends name key exposed

theorem create {arguments : PlanArguments} (covered : Covered libs w (.ready name key))
    (item : arguments.item = some name) (keyed : arguments.dedupeKey = key)
    (plans : after.plans = w.plans ++ [arguments])
    (contents : ∀ name, after.contentOf name = w.contentOf name)
    (marks : ∀ key, after.marked libs key = w.marked libs key) :
    Covered libs after (.planned name key) := by
  obtain ⟨⟨own, present, own_key⟩, unplanned, unmarked⟩ := covered.held
  constructor
  · intro other
    rw [plans, List.countP_append, List.countP_singleton]
    by_cases same : other = name
    · have none_before : w.plans.countP (fun arguments => arguments.item = some other) = 0 := by
        rw [List.countP_eq_zero]
        intro before planned
        rw [same, decide_eq_true_eq]
        exact unplanned before planned
      rw [none_before]
      split <;> omega
    · have elsewhere : ¬ arguments.item = some other := by
        intro claims
        rw [item] at claims
        exact same (Option.some.inj claims).symm
      simp only [elsewhere, decide_false, Bool.false_eq_true, if_false, Nat.add_zero]
      exact covered.atMostOne other
  · intro planned member other content claims stored
    rw [contents] at stored
    rw [plans, List.mem_append, List.mem_singleton] at member
    rcases member with old | new
    · exact covered.agrees planned old other content claims stored
    · subst new
      rw [item] at claims
      cases claims
      rw [present] at stored
      cases stored
      rw [own_key, keyed]
  · intro planned member other claims stored
    rw [contents] at stored
    rw [plans, List.mem_append, List.mem_singleton] at member
    simp only [marks]
    rcases member with old | new
    · rcases covered.accounted planned old other claims stored with marked | ⟨_, exposed⟩
      · exact .inl marked
      · cases exposed
    · subst new
      rw [item] at claims
      cases claims
      exact .inr ⟨key, rfl⟩
  · refine ⟨⟨own, ?_, own_key⟩, ⟨arguments, ?_, item, keyed⟩, ?_⟩
    · rw [contents, present]
    · rw [plans]
      exact List.mem_append_right _ List.mem_cons_self
    · intro found same
      rw [marks]
      exact unmarked found same

theorem creates_eq_none {scope : Scope} {action : Action}
    (other : ∀ arguments, action ≠ .storeOperation arguments) :
    creates ⟨scope, action⟩ i w = none := by
  cases made : creates ⟨scope, action⟩ i w with
  | none => rfl
  | some arguments => exact absurd (creates_storeOperation made) (other arguments)

theorem effect_idle (covered : Covered libs w stage) (stores : creates command i w = none)
    (covers : ∀ name key, stage = .planned name key →
      (effect command i w).contentOf name = none ∨ ∃ found, key = some found ∧
      (effect command i w).marked libs found = true) :
    Covered libs (effect command i w) .idle := by
  refine covered.rest ?_ ?_ (fun key => marked_effect command i) covers
  · rw [plans_effect, stores, Option.toList_none, List.append_nil]
  · intro name content present
    rw [contentOf_effect] at present
    split at present
    · cases present
    · exact present

theorem effect_isIdle (covered : Covered libs w stage) (idle : command.action.isIdle = true) :
    Covered libs (effect command i w) stage := by
  obtain ⟨scope, action⟩ := command
  refine covered.keep ?_ ?_ ?_
  · have stores : creates ⟨scope, action⟩ i w = none := by
      refine creates_eq_none fun arguments same => ?_
      rw [same] at idle
      cases idle
    rw [plans_effect, stores, Option.toList_none, List.append_nil]
  · intro name
    have takes : action.takes = none := by
      cases action <;> first | rfl | cases idle
    rw [contentOf_effect, if_neg]
    rintro ⟨-, taken⟩
    rw [takes] at taken
    cases taken
  · intro key
    refine marked_of_effect ?_
    cases action <;> first | rfl | cases idle

theorem take (covered : Covered libs w .idle) {taken : Stage} (held : taken.Holds libs w) :
    Covered libs w taken where
  atMostOne := covered.atMostOne
  agrees := covered.agrees
  accounted := by
    intro arguments planned name item present
    rcases covered.accounted arguments planned name item present with marked | ⟨_, exposed⟩
    · exact .inl marked
    · cases exposed
  held := held

theorem afterRead (covered : Covered libs w stage) (ends : stage.Ends) (name : String) :
    Covered libs w (Stage.afterRead libs i w name) := by
  have idle := covered.leave ends
  unfold Stage.afterRead
  split
  · next item _ _ found =>
    have present : w.contentOf name = some item.content := by
      rw [TriggerWorld.contentOf, found]
      rfl
    split
    · next keyless =>
      have nothing : ∀ found, (none : Option String) = some found → w.marked libs found = false :=
        nofun
      have unplanned := covered.unplanned ends present keyless nothing
      exact idle.take ⟨⟨item.content, present, keyless⟩, unplanned, nothing⟩
    · next key keyed => exact idle.take ⟨item.content, present, keyed⟩
  · exact idle

theorem afterCheck {name key : String} (covered : Covered libs w (.reading name key))
    (missing : w.marked libs key = false) : Covered libs w (.ready name (some key)) := by
  obtain ⟨content, present, keyed⟩ := covered.held
  have unmarked : ∀ found, some key = some found → w.marked libs found = false := by
    intro found same
    cases same
    exact missing
  have unplanned := covered.unplanned nofun present keyed unmarked
  exact (covered.leave nofun).take ⟨⟨content, present, keyed⟩, unplanned, unmarked⟩

theorem step_planned (covered : Covered libs w (.planned name key))
    (legal : (Stage.planned name key).Legal libs command) (idle : ¬ command.action.isIdle = true)
    (fault : i.fault = none) :
    Covered libs (effect command i w) ((Stage.planned name key).next libs command i w) := by
  obtain ⟨scope, action⟩ := command
  cases action with
  | writeSeen written path record =>
    obtain ⟨-, keyed, located⟩ := legal
    simp only [Stage.next, fault, if_true]
    refine covered.effect_idle (creates_eq_none (by simp)) ?_
    intro other found same
    cases same
    refine .inr ⟨written, keyed, ?_⟩
    simp only [effect, fault, Action.write, TriggerWorld.marked, located, Dict.get_set_self,
      Option.isSome_some]
  | unlinkItem removed =>
    obtain ⟨-, own⟩ := legal
    simp only [Stage.next, fault, if_true]
    refine covered.effect_idle (creates_eq_none (by simp)) ?_
    intro other found same
    cases same
    left
    rw [contentOf_effect, if_pos ⟨fault, congrArg some own⟩]
  | _ => exact absurd legal.2 idle

theorem step_ends (covered : Covered libs w stage) (ends : stage.Ends)
    (legal : stage.Legal libs command) (idle : ¬ command.action.isIdle = true) :
    Covered libs (effect command i w) (stage.next libs command i w) := by
  obtain ⟨scope, action⟩ := command
  have covers : ∀ name key, stage = .planned name key →
      (effect ⟨scope, action⟩ i w).contentOf name = none ∨
        ∃ found, key = some found ∧ (effect ⟨scope, action⟩ i w).marked libs found = true :=
    fun name key planned => absurd planned (ends name key)
  cases action with
  | readItem name =>
    have unchanged : effect ⟨scope, .readItem name⟩ i w = w := by
      rw [effect]
      split <;> rfl
    have next : stage.next libs ⟨scope, .readItem name⟩ i w = .afterRead libs i w name := by
      cases stage with
      | planned other key => exact absurd rfl (ends other key)
      | _ => rfl
    rw [unchanged, next]
    exact covered.afterRead ends name
  | checkSeen key path =>
    have unchanged : effect ⟨scope, .checkSeen key path⟩ i w = w := by
      rw [effect]
      split <;> rfl
    rw [unchanged]
    have reads : path = seenPath libs key ∧ ∃ name, stage = .reading name key := by
      cases stage with
      | planned other found => exact absurd rfl (ends other found)
      | _ => exact legal
    obtain ⟨located, name, reading⟩ := reads
    subst located reading
    simp only [Stage.next]
    split
    · next missing => exact covered.afterCheck missing.2.2
    · exact covered.leave (by simp [Stage.Ends])
  | storeOperation arguments =>
    have holds : ∃ name key, stage = .ready name key ∧
        arguments.item = some name ∧ arguments.dedupeKey = key := by
      cases stage with
      | planned other found => exact absurd rfl (ends other found)
      | _ => exact legal
    obtain ⟨name, key, ready, item, keyed⟩ := holds
    subst ready
    have contents : ∀ other, (effect ⟨scope, .storeOperation arguments⟩ i w).contentOf other =
        w.contentOf other := by
      intro other
      rw [contentOf_effect, if_neg]
      rintro ⟨-, taken⟩
      cases taken
    have marks : ∀ found, (effect ⟨scope, .storeOperation arguments⟩ i w).marked libs found =
        w.marked libs found :=
      fun _ => marked_of_effect rfl
    cases made : creates ⟨scope, .storeOperation arguments⟩ i w with
    | none =>
      simp only [Stage.next, made, Option.isSome_none, Bool.false_eq_true, if_false]
      refine covered.keep ?_ contents marks
      rw [plans_effect, made, Option.toList_none, List.append_nil]
    | some stored =>
      have same : Action.storeOperation arguments = .storeOperation stored :=
        creates_storeOperation made
      cases same
      simp only [Stage.next, made, Option.isSome_some, if_true]
      refine covered.create item keyed ?_ contents marks
      rw [plans_effect, made, Option.toList_some]
  | writeSeen written path record =>
    have next : stage.next libs ⟨scope, .writeSeen written path record⟩ i w = .idle := by
      cases stage with
      | planned other found => exact absurd rfl (ends other found)
      | _ => rfl
    rw [next]
    exact covered.effect_idle (creates_eq_none (by simp)) covers
  | unlinkItem removed =>
    have next : stage.next libs ⟨scope, .unlinkItem removed⟩ i w = .idle := by
      cases stage with
      | planned other found => exact absurd rfl (ends other found)
      | _ => rfl
    rw [next]
    exact covered.effect_idle (creates_eq_none (by simp)) covers
  | moveToDeadLetter moved reason =>
    have next : stage.next libs ⟨scope, .moveToDeadLetter moved reason⟩ i w = .idle := by
      cases stage with
      | planned other found => exact absurd rfl (ends other found)
      | _ => rfl
    rw [next]
    exact covered.effect_idle (creates_eq_none (by simp)) covers
  | _ => exact absurd rfl idle

theorem step {command : Command} {i : Input} (covered : Covered libs w stage)
    (legal : stage.Legal libs command) (unfailing : Unfailing (stage.isPlanned = true) command i) :
    Covered libs (effect command i w) (stage.next libs command i w) := by
  by_cases idle : command.action.isIdle = true
  · rw [Stage.next_of_isIdle i w idle]
    exact covered.effect_isIdle idle
  · cases planned : stage.isPlanned with
    | false => exact covered.step_ends (Stage.ends_of_not_isPlanned planned) legal idle
    | true =>
      cases stage with
      | planned name key => exact covered.step_planned legal idle (unfailing.1 rfl).1
      | _ => cases planned

end Covered

end Invariant

structure Delivery where
  name : String
  item : InboxItem

section Runs

variable (libs : Libraries) (loadRules : String → Except Fault TriggerRuleSet)

def inboxSystem :
    Crowd.System Input TriggerWorld Command Fault (List String) Delivery WorkerLimits where
  effect := effect
  intrude delivery w := { w with inbox := w.inbox.set delivery.name delivery.item }
  body := poll libs loadRules

/-- Polls come one after the other, and while an item is exposed nothing raises or crashes. -/
def Tended (m : Crowd Input TriggerWorld Command Fault (List String)) :
    CrowdEvent Input Delivery WorkerLimits → Prop
  | .call _ _ => m.Quiet
  | .input who i => ∀ command, m.awaiting who = some command →
    Unfailing (∃ name, command.scope.item = some name ∧ Exposed libs m.store name) command i
  | .intrude delivery => m.Quiet ∧ m.store.inbox.get delivery.name = none ∧
    m.store.plannedItem delivery.name = 0
  | .crash who => ∀ command name, m.awaiting who = some command →
    command.scope.item = some name → ¬ Exposed libs m.store name

/-- No item that was planned from is in the inbox. -/
def Clear (w : TriggerWorld) : Prop :=
  ∀ name, w.plannedItem name ≤ 1 ∧ (w.plannedItem name ≠ 0 → w.inbox.get name = none)

def InHand (w : TriggerWorld) (stages : Nat → Stage) : Prop :=
  ∃ who, (∀ other, other ≠ who → stages other = .idle) ∧ Covered libs w (stages who)

variable {libs loadRules}

theorem Clear.covered (clear : Clear w) : Covered libs w .idle := by
  have gone : ∀ arguments ∈ w.plans, ∀ name, arguments.item = some name →
      w.contentOf name = none := by
    intro arguments planned name item
    have counted : w.plannedItem name ≠ 0 := by
      rw [TriggerWorld.plannedItem_eq, Ne, List.countP_eq_zero]
      intro nothing
      exact nothing arguments planned (decide_eq_true item)
    rw [TriggerWorld.contentOf, (clear name).2 counted, Option.map_none]
  constructor
  · intro name
    rw [← TriggerWorld.plannedItem_eq]
    exact (clear name).1
  · intro arguments planned name content item present
    rw [gone arguments planned name item] at present
    cases present
  · intro arguments planned name item present
    exact absurd (gone arguments planned name item) present
  · exact trivial

theorem exposed_of_holds (held : (Stage.planned name key).Holds libs w) : Exposed libs w name := by
  obtain ⟨⟨content, present, -⟩, ⟨arguments, planned, item, keyed⟩, unmarked⟩ := held
  obtain ⟨operation, member, same⟩ := List.mem_map.mp planned
  obtain ⟨stored, found, -⟩ := Option.map_eq_some_iff.mp present
  refine ⟨by rw [found]; rfl, operation, member, ?_, ?_⟩
  · rw [same, item]
  · intro found has
    rw [same, keyed] at has
    exact unmarked found has

theorem InHand.covered {w : TriggerWorld} {stages : Nat → Stage} {who : Nat}
    (inHand : InHand libs w stages) (others : ∀ other, other ≠ who → stages other = .idle) :
    Covered libs w (stages who) := by
  obtain ⟨holder, resting, covered⟩ := inHand
  by_cases same : who = holder
  · rw [same]
    exact covered
  · rw [resting who same]
    rw [others holder fun eq => same eq.symm] at covered
    exact covered

theorem inHand_update {stages : Nat → Stage} {who : Nat} {stage : Stage}
    (covered : Covered libs w stage) (others : ∀ other, other ≠ who → stages other = .idle) :
    InHand libs w (Function.update stages who stage) := by
  refine ⟨who, fun other different => ?_, ?_⟩
  · rw [Function.update_of_ne different]
    exact others other different
  · rw [Function.update_self]
    exact covered

theorem Covered.deliver {delivery : Delivery} (covered : Covered libs w .idle)
    (unplanned : w.plannedItem delivery.name = 0) :
    Covered libs { w with inbox := w.inbox.set delivery.name delivery.item } .idle := by
  have elsewhere : ∀ arguments ∈ w.plans, ∀ name, arguments.item = some name →
      name ≠ delivery.name := by
    intro arguments planned name item same
    rw [TriggerWorld.plannedItem_eq, List.countP_eq_zero] at unplanned
    exact unplanned arguments planned (by rw [← same]; exact decide_eq_true item)
  have kept : ∀ name, name ≠ delivery.name →
      TriggerWorld.contentOf { w with inbox := w.inbox.set delivery.name delivery.item } name =
        w.contentOf name := by
    intro name different
    simp only [TriggerWorld.contentOf, Dict.get_set_ne _ _ different]
  constructor
  · exact covered.atMostOne
  · intro arguments planned name content item present
    rw [kept name (elsewhere arguments planned name item)] at present
    exact covered.agrees arguments planned name content item present
  · intro arguments planned name item present
    rw [kept name (elsewhere arguments planned name item)] at present
    exact covered.accounted arguments planned name item present
  · exact trivial

theorem upholds_inHand :
    Crowd.Upholds (inboxSystem libs loadRules) (itemProtocol libs) .idle (fun _ => Stage.Ends)
      (InHand libs) (fun m _ event => Tended libs m event ∧ m.Solo) where
  call _ _ := Free.poll .idle nofun
  input := by
    intro m stages who command next i coherent inHand running allowed
    obtain ⟨tended, solo⟩ := allowed
    have waits := congrArg Machine.awaiting running
    have legal := coherent.legal waits
    have others := solo.others coherent running
    have covered := inHand.covered others
    have unfailing : Unfailing ((stages who).isPlanned = true) command i := by
      have steady := tended command waits
      refine ⟨fun planned => steady.1 ?_, steady.2⟩
      cases stage : stages who with
      | planned name key =>
        rw [stage] at legal covered
        exact ⟨name, legal.1, exposed_of_holds covered.held⟩
      | _ =>
        rw [stage] at planned
        cases planned
    exact ⟨unfailing, inHand_update (covered.step legal unfailing) others⟩
  intrude := by
    intro m stages delivery coherent inHand allowed
    obtain ⟨quiet, -, unplanned⟩ := allowed.1
    have resting : ∀ who, stages who = .idle := by
      intro who
      have at_who := coherent who
      rwa [quiet who] at at_who
    obtain ⟨who, others, covered⟩ := inHand
    refine ⟨who, others, ?_⟩
    rw [resting who] at covered ⊢
    exact covered.deliver unplanned
  crash := by
    intro m stages who coherent inHand allowed
    obtain ⟨tended, only, resting⟩ := allowed
    have idle : ∀ other, other ≠ only → stages other = .idle := by
      intro other different
      have at_other := coherent other
      rwa [resting other different] at at_other
    have covered := inHand.covered idle
    by_cases same : who = only
    · subst same
      refine inHand_update (covered.leave ?_) idle
      intro name key planned
      have busy : stages who ≠ .idle := by
        rw [planned]
        nofun
      obtain ⟨command, waits⟩ := coherent.waits id busy
      have legal := coherent.legal waits
      rw [planned] at legal covered
      exact tended command name waits legal.1 (exposed_of_holds covered.held)
    · have same_stages : Function.update stages who .idle = stages := by
        rw [← idle who same, Function.update_eq_self]
      rw [same_stages]
      exact inHand
  leave := by
    intro w stages who outcome inHand ends
    obtain ⟨holder, resting, covered⟩ := inHand
    by_cases same : who = holder
    · subst same
      exact inHand_update (covered.leave ends) resting
    · have same_stages : Function.update stages who .idle = stages := by
        rw [← resting who same, Function.update_eq_self]
      rw [same_stages]
      exact ⟨holder, resting, covered⟩

/-- As long as the run is tended, no item ever gets a second operation. -/
theorem item_planned_at_most_once (libs : Libraries)
    (loadRules : String → Except Fault TriggerRuleSet)
    (m : Crowd Input TriggerWorld Command Fault (List String))
    (events : List (CrowdEvent Input Delivery WorkerLimits)) (quiet : m.Quiet)
    (clear : Clear m.store)
    (tended : Crowd.Meets (inboxSystem libs loadRules) (Tended libs) m events)
    (name : String) :
    (m.run (inboxSystem libs loadRules) events).store.plannedItem name ≤ 1 := by
  have solo : m.Solo := ⟨0, fun other _ => quiet other⟩
  have inHand : InHand libs m.store fun _ => .idle := ⟨0, fun _ _ => rfl, clear.covered⟩
  have meets := solo.meets (fun calls => calls) tended
  obtain ⟨-, holder, -, covered⟩ := upholds_inHand.run quiet.coherent inHand meets.attends
  rw [TriggerWorld.plannedItem_eq]
  exact covered.atMostOne name

end Runs

def orderly (libs : Libraries) (loadRules : String → Except Fault TriggerRuleSet)
    (m : Crowd Input TriggerWorld Command Fault (List String)) :
    List (CrowdEvent Input Delivery WorkerLimits) → Bool
  | [] => true
  | .call who c :: rest => who == 0 && (m.running 0).isNone &&
    orderly libs loadRules (m.step (inboxSystem libs loadRules) (.call who c)) rest
  | .input who i :: rest => who == 0 && i.fault.isNone && i.lateFault.isNone &&
    orderly libs loadRules (m.step (inboxSystem libs loadRules) (.input who i)) rest
  | _ => false

theorem meets_of_orderly {libs : Libraries} {loadRules : String → Except Fault TriggerRuleSet}
    {m : Crowd Input TriggerWorld Command Fault (List String)}
    {events : List (CrowdEvent Input Delivery WorkerLimits)}
    (alone : ∀ other, other ≠ 0 → m.running other = none)
    (goes : orderly libs loadRules m events = true) :
    Crowd.Meets (inboxSystem libs loadRules) (Tended libs) m events := by
  induction events generalizing m with
  | nil => exact trivial
  | cons event rest ih =>
    cases event with
    | call who c =>
      simp only [orderly, Bool.and_eq_true, beq_iff_eq, Option.isNone_iff_eq_none] at goes
      obtain ⟨⟨rfl, resting⟩, goes⟩ := goes
      refine ⟨?_, ih ?_ goes⟩
      · intro other
        by_cases same : other = 0
        · rw [same, resting]
        · exact alone other same
      · intro other different
        simp only [Crowd.step, resting, Crowd.put, Function.update_of_ne different,
          alone other different]
    | input who i =>
      simp only [orderly, Bool.and_eq_true, beq_iff_eq, Option.isNone_iff_eq_none] at goes
      obtain ⟨⟨⟨rfl, fault⟩, late⟩, goes⟩ := goes
      refine ⟨fun _ _ => ⟨fun _ => ⟨fault, .inr late⟩, fun _ _ => late⟩, ih ?_ goes⟩
      intro other different
      simp only [Crowd.step]
      split
      · exact (Function.update_of_ne different _ _).trans (alone other different)
      · exact alone other different
    | intrude x => cases goes
    | crash who => cases goes

def inboxWorld : TriggerWorld :=
  { emptyWorld with inbox := Dict.set ∅ "job.json" ⟨.json (.dict [("profile", .str "lab"),
      ("env", .str "lab.yaml"), ("intent", .str "restart"), ("target", .str "db-1")]), 0⟩ }

def noRules : String → Except Fault TriggerRuleSet := fun _ => .ok sampleRuleSet

def inboxCrowd : Crowd Input TriggerWorld Command Fault (List String) :=
  ⟨inboxWorld, fun _ => none⟩

def answers (fresh : String) (accesses : Nat) : List (CrowdEvent Input Delivery WorkerLimits) :=
  List.replicate accesses (.input 0 (answer fresh))

theorem polled_planned_once :
    (inboxCrowd.run (inboxSystem sampleLibraries noRules)
      (.call 0 ⟨10, 3⟩ :: answers "a" 19 ++ .call 0 ⟨10, 3⟩ :: answers "b" 8)).store.plannedItem
        "job.json" = 1 := by
  have clear : Clear inboxWorld := fun name => ⟨Nat.zero_le 1, fun planned => absurd rfl planned⟩
  have once := item_planned_at_most_once sampleLibraries noRules inboxCrowd
    (.call 0 ⟨10, 3⟩ :: answers "a" 19 ++ .call 0 ⟨10, 3⟩ :: answers "b" 8) (fun _ => rfl) clear
    (meets_of_orderly (fun _ _ => rfl) (by decide +kernel)) "job.json"
  have some_planned : 0 < (inboxCrowd.run (inboxSystem sampleLibraries noRules)
      (.call 0 ⟨10, 3⟩ :: answers "a" 19 ++ .call 0 ⟨10, 3⟩ :: answers "b" 8)).store.plannedItem
        "job.json" := by
    decide +kernel
  omega

/-- The report of the operation raises; the next poll plans the item again. -/
theorem retried_planned_twice :
    (inboxCrowd.run (inboxSystem sampleLibraries noRules)
      (.call 0 ⟨10, 3⟩ :: answers "a" 11 ++
        .input 0 { answer "a" with fault := some (.exception "OSError") } :: answers "a" 7 ++
        .call 0 ⟨10, 3⟩ :: answers "b" 20)).store.plannedItem "job.json" = 2 := by
  decide +kernel

end RExecOp.Triggers
