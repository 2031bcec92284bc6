import RExecOp.Lib.Alone
import RExecOp.TriggerDedupe

/-! What becomes of the record of a decision, whose file is named after the dedupe key alone. -/

namespace RExecOp.Triggers

variable {id : String} {α : Type} {action : Action}

section

variable (libs : Libraries) (ruleSet : TriggerRuleSet)

def handle (w : TriggerWorld) (call : EventCall) (inputs : Nat → Input) : TriggerWorld :=
  ((processEvent libs ruleSet call).exec effect inputs w).2

def handleAll (w : TriggerWorld) : List (EventCall × (Nat → Input)) → TriggerWorld
  | [] => w
  | (call, inputs) :: rest => handleAll (handle libs ruleSet w call inputs) rest

def spares (w : TriggerWorld) (call : EventCall) : Bool :=
  match prepare libs ruleSet call with
  | .error _ => true
  | .ok prepared =>
    match w.decisions.get prepared.decisionId with
    | none => true
    | some record => record.operationId.isNone

def allSpare (w : TriggerWorld) : List (EventCall × (Nat → Input)) → Bool
  | [] => true
  | (call, inputs) :: rest =>
    spares libs ruleSet w call && allSpare (handle libs ruleSet w call inputs) rest

end

def Action.Mild (id : String) : Action → Prop
  | .writeDecision record => record.decisionId = id
  | .writeCooldown _ _ => False
  | _ => True

section

variable {libs : Libraries} {ruleSet : TriggerRuleSet} {scope outside : Scope} {call : EventCall}
  {prepared : Prepared} {rule : TriggerRule}

abbrev Mild (id : String) (good : α → Prop) (p : Program α) : Prop :=
  p.Within (fun command => command.action.Mild id) good

theorem mild_access {reply : Input → TriggerWorld → Except Fault α} (mild : action.Mild id) :
    Mild id (fun _ => True) (access scope action reply) :=
  .request mild fun _ _ _ _ => trivial

theorem mild_ofExcept (result : Except Fault α) : Mild id (fun _ => True) (ofExcept result) :=
  .ofExcept fun _ _ => trivial

theorem mild_persistDecision (verdict : Verdict) :
    Mild prepared.decisionId (·.decision = verdict.decision)
      (persistDecision libs ruleSet scope call prepared verdict) :=
  .bind (mild_access trivial) fun _ _ => .bind (mild_access rfl) fun _ _ => rfl

theorem mild_dismiss {decision : Decision} {reason : String} {matched : Option TriggerRule}
    {cooldownKey : Option String} :
    Mild prepared.decisionId (·.decision = decision)
      (dismiss libs ruleSet scope call prepared decision reason matched cooldownKey) := by
  refine .bind (mild_access trivial) fun _ _ => ?_
  refine .bind (mild_persistDecision _) fun _ same => ?_
  exact .bind (mild_access trivial) fun _ _ => same

theorem mild_dropDuplicate :
    Mild prepared.decisionId (·.decision = .dropDuplicate)
      (dropDuplicate libs ruleSet scope call prepared) :=
  .bind (mild_access trivial) fun _ _ => mild_persistDecision _

theorem mild_planMatched {admission : Admission} :
    Mild id (fun _ => True) (planMatched libs scope call prepared rule admission) := by
  unfold planMatched planTriggered plan
  split
  · simp only [Prog.bind_eq, Prog.bind_assoc]
    refine .bind (mild_ofExcept _) fun _ _ => .bind (mild_ofExcept _) fun _ _ => ?_
    refine .bind (mild_access trivial) fun _ _ => .bind (mild_access trivial) fun _ _ => ?_
    exact .bind (mild_access trivial) fun _ _ => .bind (mild_access trivial) fun _ _ => trivial
  · exact trivial

def decideMatched (libs : Libraries) (ruleSet : TriggerRuleSet) (scope : Scope) (call : EventCall)
    (prepared : Prepared) (rule : TriggerRule) : Program DecisionRecord := do
  let admission ← admitTriggerDecision libs ruleSet scope prepared rule.decision (some rule)
  let operationId ← planMatched libs scope call prepared rule admission
  let record ← persistDecision libs ruleSet scope call prepared
    ⟨rule.decision, "matched:" ++ rule.ruleId, operationId, some rule,
      some (cooldownKeyOf libs prepared rule), admission⟩
  markSeen libs scope prepared record
  pure record

theorem accept_eq : accept libs ruleSet scope outside call prepared rule =
    (decideMatched libs ruleSet scope call prepared rule >>= fun record =>
      startCooldown libs outside prepared rule >>= fun _ => pure record) := by
  simp only [accept, decideMatched, Prog.bind_eq, Prog.bind_assoc]
  rfl

theorem mild_decideMatched :
    Mild prepared.decisionId (·.decision = rule.decision)
      (decideMatched libs ruleSet scope call prepared rule) := by
  refine .bind (mild_access trivial) fun _ _ => .bind mild_planMatched fun _ _ => ?_
  refine .bind (mild_persistDecision _) fun _ same => ?_
  exact .bind (mild_access trivial) fun _ _ => same

def Near (id : String) (w after : TriggerWorld) : Prop :=
  after.cooldowns = w.cooldowns ∧
    ∀ other, other ≠ id → after.decisions.get other = w.decisions.get other

theorem near_effect {command : Command} {w : TriggerWorld} (mild : command.action.Mild id)
    (i : Input) : Near id w (effect command i w) := by
  obtain ⟨scope, action⟩ := command
  unfold effect
  cases i.fault with
  | some fault => exact ⟨rfl, fun _ _ => rfl⟩
  | none =>
    cases action with
    | writeDecision record =>
      refine ⟨rfl, fun other apart => Dict.get_set_ne _ _ ?_⟩
      rw [show record.decisionId = id from mild]
      exact apart
    | writeCooldown path record => exact mild.elim
    | storeOperation arguments =>
      simp only [Action.write]
      split <;> exact ⟨rfl, fun _ _ => rfl⟩
    | refreshItem name =>
      simp only [Action.write]
      split <;> exact ⟨rfl, fun _ _ => rfl⟩
    | moveToDeadLetter name reason =>
      simp only [Action.write]
      split <;> exact ⟨rfl, fun _ _ => rfl⟩
    | _ => exact ⟨rfl, fun _ _ => rfl⟩

variable (libs ruleSet call) in
def Matches (prepared : Prepared) (rule : TriggerRule) : Prop :=
  prepare libs ruleSet call = .ok prepared ∧
    matchRule libs prepared.event ruleSet.rules = .ok (some rule)

theorem Matches.unique {other : Prepared} {another : TriggerRule}
    (matched : Matches libs ruleSet call prepared rule)
    (again : Matches libs ruleSet call other another) : prepared = other ∧ rule = another := by
  have same : prepared = other := Except.ok.inj (matched.1.symm.trans again.1)
  subst same
  exact ⟨rfl, Option.some.inj (Except.ok.inj (matched.2.symm.trans again.2))⟩

def lastAcceptedAt (libs : Libraries) (record : CooldownRecord) : Except Fault Int :=
  parseTimestamp libs (.str record.lastAcceptedAt) "last_accepted_at"

def Elapsed (libs : Libraries) (prepared : Prepared) (rule : TriggerRule) (w : TriggerWorld) :
    Prop :=
  ∀ record, w.cooldowns.get (cooldownPath libs (cooldownKeyOf libs prepared rule)) = some record →
    ∃ last, lastAcceptedAt libs record = .ok last ∧
      last + rule.cooldownSeconds * 1000000 ≤ prepared.decisionTime

variable (libs ruleSet call) in
def CoolsDown (w : TriggerWorld) (path : String) (record : CooldownRecord) : Prop :=
  ∃ prepared rule, Matches libs ruleSet call prepared rule ∧ rule.cooldownSeconds ≠ 0 ∧
    Elapsed libs prepared rule w ∧ path = cooldownPath libs (cooldownKeyOf libs prepared rule) ∧
    record = ⟨cooldownKeyOf libs prepared rule, libs.isoFormat prepared.decisionTime,
      prepared.decisionId, rule.ruleId⟩

variable (libs ruleSet call) in
structure Handled (w : TriggerWorld) (outcome : Except Fault DecisionRecord)
    (after : TriggerWorld) : Prop where
  decisions : ∀ id, (∀ prepared, prepare libs ruleSet call = .ok prepared →
    prepared.decisionId ≠ id) → after.decisions.get id = w.decisions.get id
  cooldowns : after.cooldowns = w.cooldowns ∧ (∀ record prepared rule, outcome = .ok record →
      record.decision = .planOperation → Matches libs ruleSet call prepared rule →
      rule.cooldownSeconds = 0) ∨
    ∃ path record, CoolsDown libs ruleSet call w path record ∧
      after.cooldowns = w.cooldowns.set path record

variable (libs ruleSet call) in
def cooling : Setting Input TriggerWorld Command Empty :=
  .alone effect fun command _ w => ∀ path record, command.action = .writeCooldown path record →
    CoolsDown libs ruleSet call w path record

variable {w start : TriggerWorld} {outcome : Except Fault DecisionRecord}

theorem Near.handled (near : Near prepared.decisionId w start)
    (prepares : prepare libs ruleSet call = .ok prepared)
    (other : ∀ record, outcome = .ok record → record.decision = .planOperation →
      ∀ rule, Matches libs ruleSet call prepared rule → rule.cooldownSeconds = 0) :
    Handled libs ruleSet call w outcome start where
  decisions id apart := near.2 id (apart prepared prepares).symm
  cooldowns := by
    refine .inl ⟨near.1, fun record another rule returned planned matched => ?_⟩
    cases prepares.symm.trans matched.1
    exact other record returned planned rule matched

theorem Near.raised (near : Near prepared.decisionId w start)
    (prepares : prepare libs ruleSet call = .ok prepared) (fault : Fault) :
    Handled libs ruleSet call w (.error fault) start :=
  near.handled prepares fun _ impossible => nomatch impossible

theorem safe_of_mild {good : α → Prop} {p : Program α} {post : Except Fault α → TriggerWorld → Prop}
    (mild : Mild id good p) (near : Near id w start)
    (returned : ∀ value after, good value → Near id w after → post (.ok value) after)
    (raised : ∀ fault after, Near id w after → post (.error fault) after) :
    (cooling libs ruleSet call).Safe p post start := by
  refine .of_within mild (fun command i s fits near => ⟨?_, ?_⟩) near returned raised
  · intro path record writes
    rw [writes] at fits
    exact fits.elim
  · have moved : Near id s _ := near_effect fits i
    exact ⟨moved.1.trans near.1,
      fun other apart => (moved.2 other apart).trans (near.2 other apart)⟩

theorem safe_bind {good : α → Prop} {p : Program α} {next : α → Program DecisionRecord}
    (prepares : prepare libs ruleSet call = .ok prepared) (mild : Mild prepared.decisionId good p)
    (near : Near prepared.decisionId w start)
    (rest : ∀ value after, good value → Near prepared.decisionId w after →
      (cooling libs ruleSet call).Safe (next value) (Handled libs ruleSet call w) after) :
    (cooling libs ruleSet call).Safe (p >>= next) (Handled libs ruleSet call w) start :=
  .bind (safe_of_mild mild near rest fun fault _ near => near.raised prepares fault)

theorem safe_last {p : Program DecisionRecord} {decision : Decision}
    (prepares : prepare libs ruleSet call = .ok prepared)
    (mild : Mild prepared.decisionId (·.decision = decision) p) (other : decision ≠ .planOperation)
    (near : Near prepared.decisionId w start) :
    (cooling libs ruleSet call).Safe p (Handled libs ruleSet call w) start := by
  refine safe_of_mild mild near (fun value after same near => ?_)
    fun fault _ near => near.raised prepares fault
  refine near.handled prepares fun record returned planned => ?_
  cases returned
  exact absurd (same.symm.trans planned) other

theorem safe_accept (matched : Matches libs ruleSet call prepared rule)
    (elapsed : rule.cooldownSeconds ≠ 0 → Elapsed libs prepared rule w)
    (near : Near prepared.decisionId w start) :
    (cooling libs ruleSet call).Safe (accept libs ruleSet scope outside call prepared rule)
      (Handled libs ruleSet call w) start := by
  rw [accept_eq]
  refine safe_bind matched.1 mild_decideMatched near fun record reached same near => ?_
  unfold startCooldown
  split
  · next cools =>
    have due (files : TriggerWorld) (unchanged : files.cooldowns = w.cooldowns) :
        CoolsDown libs ruleSet call files _ _ :=
      ⟨prepared, rule, matched, cools.1, by rw [Elapsed, unchanged]; exact elapsed cools.1, rfl,
        rfl⟩
    refine .bind (.request_alone fun i => ⟨fun path record writes => ?_, ?_⟩)
    · cases writes
      exact due reached near.1
    · simp only [effect, Input.reply]
      cases i.fault with
      | some fault => exact near.raised matched.1 fault
      | none =>
        have written (outcome : Except Fault DecisionRecord) : Handled libs ruleSet call w outcome
            (Action.write (.writeCooldown _ _) i reached) :=
          ⟨fun id apart => near.2 id (apart prepared matched.1).symm,
            .inr ⟨_, _, due w rfl, by rw [← near.1]; rfl⟩⟩
        cases i.lateFault with
        | some fault => exact written _
        | none => exact written _
  · next idle =>
    refine near.handled matched.1 fun value returned planned other again => ?_
    cases returned
    obtain ⟨-, rfl⟩ := matched.unique again
    by_contra cools
    exact idle ⟨cools, same.symm.trans planned⟩

theorem elapsed_of_read {i : Input} (same : start.cooldowns = w.cooldowns)
    (read : i.reply (match start.cooldowns.get
        (cooldownPath libs (cooldownKeyOf libs prepared rule)) with
      | none => .ok false
      | some record => cooldownHolds libs prepared rule record) = .ok false) :
    Elapsed libs prepared rule w := by
  intro record stored
  rw [same, stored] at read
  unfold Input.reply cooldownHolds at read
  cases parsed : parseTimestamp libs (.str record.lastAcceptedAt) "last_accepted_at" with
  | error fault => grind
  | ok last =>
    refine ⟨last, parsed, ?_⟩
    grind

theorem safe_decideUnseen (prepares : prepare libs ruleSet call = .ok prepared)
    (near : Near prepared.decisionId w start) :
    (cooling libs ruleSet call).Safe (decideUnseen libs ruleSet scope outside call prepared)
      (Handled libs ruleSet call w) start := by
  unfold decideUnseen
  cases found : matchRule libs prepared.event ruleSet.rules with
  | error fault => exact near.raised prepares fault
  | ok matched =>
    cases matched with
    | none => exact safe_last prepares mild_dismiss (by simp) near
    | some rule =>
      have matched : Matches libs ruleSet call prepared rule := ⟨prepares, found⟩
      show (cooling libs ruleSet call).Safe (cooldownActive libs scope prepared rule >>= _) _ _
      unfold cooldownActive
      split
      · next never => exact safe_accept matched (absurd never) near
      · refine .bind (.request_alone fun i => ⟨by simp, ?_⟩)
        rw [show effect ⟨scope, .readCooldown _⟩ i start = start by unfold effect; split <;> rfl]
        cases read : i.reply _ with
        | error fault => exact near.raised prepares fault
        | ok active =>
          cases active with
          | true => exact safe_last prepares mild_dismiss (by simp) near
          | false => exact safe_accept matched (fun _ => elapsed_of_read near.1 read) near

theorem safe_processEvent (w : TriggerWorld) :
    (cooling libs ruleSet call).Safe (processEvent libs ruleSet call)
      (Handled libs ruleSet call w) w := by
  unfold processEvent
  cases prepares : prepare libs ruleSet call with
  | error fault =>
    exact ⟨fun _ _ => rfl, .inl ⟨rfl, fun _ _ _ impossible => nomatch impossible⟩⟩
  | ok prepared =>
    show (cooling libs ruleSet call).Safe (perform _ .secureDirectories >>= _) _ _
    refine safe_bind prepares (mild_access trivial) ⟨rfl, fun _ _ => rfl⟩ fun _ _ _ near => ?_
    refine safe_bind prepares (mild_access trivial) near fun seen _ _ near => ?_
    cases seen with
    | true => exact safe_last prepares mild_dropDuplicate nofun near
    | false => exact safe_decideUnseen prepares near

theorem handled_handle (w : TriggerWorld) (inputs : Nat → Input) : ∃ outcome,
    Handled libs ruleSet call w outcome (handle libs ruleSet w call inputs) ∧
      ∀ record, ((processEvent libs ruleSet call).exec effect inputs w).1 = .returned record →
        outcome = .ok record :=
  (safe_processEvent w).exec_alone inputs

theorem exec_access {α β : Type} {reply : Input → TriggerWorld → Except Fault α}
    {next : α → Program β} {inputs : Nat → Input} {w : TriggerWorld} {a : α}
    (fault : (inputs 0).fault = none) (late : (inputs 0).lateFault = none)
    (replied : reply (inputs 0) w = .ok a) :
    Prog.exec effect (access scope action reply >>= next) inputs w =
      Prog.exec effect (next a) (fun n => inputs (n + 1)) (action.write (inputs 0) w) := by
  simp only [access, Prog.request, Prog.bind_eq, Prog.bind, Prog.exec, Input.reply, effect,
    fault, late, replied, Prog.ofExcept]

theorem dropped_handle {w : TriggerWorld} {inputs : Nat → Input}
    (prepares : prepare libs ruleSet call = .ok prepared)
    (marked : w.marked libs prepared.dedupeKey = true)
    (answered : ∀ n, (inputs n).fault = none ∧ (inputs n).lateFault = none) :
    ∃ record, (handle libs ruleSet w call inputs).decisions.get prepared.decisionId = some record ∧
      record.operationId = none := by
  let outside : Scope := ⟨call.item, none⟩
  let admission : Admission :=
    ⟨admissionRequest libs ruleSet prepared .dropDuplicate none, (inputs 2).agrees⟩
  let record := decisionRecord libs ruleSet call prepared
    ⟨.dropDuplicate, "dedupe_key_already_seen", none, none, none, admission⟩
  refine ⟨record, ?_, rfl⟩
  have starts : handle libs ruleSet w call inputs =
      (Prog.exec effect (dropDuplicate libs ruleSet outside call prepared)
        (fun n => inputs (n + 2)) w).2 := by
    have found : (w.seen.get (seenPath libs prepared.dedupeKey)).isSome = true := marked
    rw [handle, processEvent, prepares]
    have directories := (answered 0)
    have check := (answered 1)
    show (Prog.exec effect (perform outside .secureDirectories >>= _) inputs w).2 = _
    rw [perform, exec_access directories.1 directories.2 rfl, exec_access check.1 check.2 rfl]
    simp only [found, Action.write, if_true]
    rfl
  rw [starts, dropDuplicate, admitTriggerDecision,
    exec_access (answered 2).1 (answered 2).2 rfl, persistDecision, perform,
    exec_access (answered 3).1 (answered 3).2 rfl, perform,
    exec_access (answered 4).1 (answered 4).2 rfl]
  exact Dict.get_set_self _ _ _

end

/-- The record of a decision stays while later events spare it; a duplicate handled without a
fault spares it only by being another event. -/
theorem decision_kept (libs : Libraries) (ruleSet : TriggerRuleSet) (w : TriggerWorld)
    (id : String) (record : DecisionRecord) (stored : w.decisions.get id = some record)
    (planned : record.operationId ≠ none) :
    (∀ calls, allSpare libs ruleSet w calls = true →
      (handleAll libs ruleSet w calls).decisions.get id = some record) ∧
    ∀ call inputs, (∀ n, (inputs n).fault = none ∧ (inputs n).lateFault = none) →
      (∀ prepared, prepare libs ruleSet call = .ok prepared →
        w.marked libs prepared.dedupeKey = true) →
      ((handle libs ruleSet w call inputs).decisions.get id = some record ↔
        ∀ prepared, prepare libs ruleSet call = .ok prepared → prepared.decisionId ≠ id) := by
  constructor
  · intro calls
    induction calls generalizing w with
    | nil => exact fun _ => stored
    | cons first rest ih =>
      obtain ⟨call, inputs⟩ := first
      intro spare
      rw [allSpare, Bool.and_eq_true] at spare
      refine ih (handle libs ruleSet w call inputs) ?_ spare.2
      obtain ⟨_, handled, -⟩ := handled_handle w inputs
      rw [handled.decisions id ?_, stored]
      intro prepared prepares same
      have spared := spare.1
      rw [spares, prepares] at spared
      simp only [same, stored, Option.isNone_iff_eq_none] at spared
      exact planned spared
  · intro call inputs answered marked
    constructor
    · intro kept prepared prepares same
      obtain ⟨after, written, dropped⟩ :=
        dropped_handle prepares (marked prepared prepares) answered
      rw [same, kept] at written
      cases written
      exact planned dropped
    · intro other
      obtain ⟨_, handled, -⟩ := handled_handle w inputs
      rw [handled.decisions id other, stored]

def otherCall : EventCall :=
  { sampleCall with payload := [("id", .str "8"), ("source", .str "probe"),
    ("type", .str "alarm"), ("subject", .str "db-1"),
    ("occurred_at", .str "1970-01-01T00:00:00Z"), ("payload", .dict []),
    ("dedupe_key", .str "alarm-8")] }

def plannedWorld : TriggerWorld :=
  handle sampleLibraries sampleRuleSet emptyWorld sampleCall fun _ => answer "a"

theorem plannedWorld_operation :
    (plannedWorld.decisions.get "trigger-alarm-7").map (·.operationId) = some (some "op-a") := by
  decide +kernel

theorem otherCall_kept : ∃ record, record.operationId = some "op-a" ∧
    (handleAll sampleLibraries sampleRuleSet plannedWorld
      [(otherCall, fun _ => answer "b")]).decisions.get "trigger-alarm-7" = some record := by
  obtain ⟨record, stored, names⟩ := Option.map_eq_some_iff.mp plannedWorld_operation
  refine ⟨record, names, ?_⟩
  have planned : record.operationId ≠ none := by
    rw [names]
    nofun
  exact (decision_kept sampleLibraries sampleRuleSet plannedWorld "trigger-alarm-7" record
    stored planned).1 [(otherCall, fun _ => answer "b")] (by decide +kernel)

/-- The same event a second time: the record no longer names the operation. -/
theorem duplicate_replaced :
    (plannedWorld.decisions.get "trigger-alarm-7").map (·.operationId) = some (some "op-a") ∧
    ((handleAll sampleLibraries sampleRuleSet plannedWorld
      [(sampleCall, fun _ => answer "b")]).decisions.get "trigger-alarm-7").map
        (fun record => (record.decision, record.operationId)) =
      some (.dropDuplicate, none) := by
  decide +kernel

end RExecOp.Triggers
