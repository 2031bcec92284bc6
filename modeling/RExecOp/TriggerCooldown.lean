import RExecOp.TriggerRecords

/-! The spacing of accepted decisions: the clock may go back between calls, but no call moves
the stored time back. -/

namespace RExecOp.Triggers

section

variable (libs : Libraries) (ruleSet : TriggerRuleSet)

/-- The decision time can be read back from a record. -/
def Timed (call : EventCall) : Prop :=
  ∀ prepared, prepare libs ruleSet call = .ok prepared →
    parseTimestamp libs (.str (libs.isoFormat prepared.decisionTime)) "last_accepted_at" =
      .ok prepared.decisionTime

/-- The call returns the decision to plan for the rule. -/
structure Accepts (w : TriggerWorld) (entry : EventCall × (Nat → Input)) (prepared : Prepared)
    (rule : TriggerRule) : Prop where
  matched : Matches libs ruleSet entry.1 prepared rule
  planned : ∃ record, ((processEvent libs ruleSet entry.1).exec effect entry.2 w).1 =
    .returned record ∧ record.decision = .planOperation

def Since (path : String) (time : Int) (w : TriggerWorld) : Prop :=
  ∃ record last, w.cooldowns.get path = some record ∧ lastAcceptedAt libs record = .ok last ∧
    time ≤ last

def WritesLater (command : Command) (_ : Input) (w : TriggerWorld) : Prop :=
  ∀ path record, command.action = .writeCooldown path record →
    ∀ old, w.cooldowns.get path = some old → ∃ last time, lastAcceptedAt libs old = .ok last ∧
      lastAcceptedAt libs record = .ok time ∧ last < time

end

variable {libs : Libraries} {ruleSet : TriggerRuleSet} {w : TriggerWorld} {call : EventCall}
  {entry : EventCall × (Nat → Input)} {prepared : Prepared} {rule : TriggerRule} {path : String}
  {record : CooldownRecord} {time : Int}

theorem mem_of_matchRule {event : Entries} {rules : List TriggerRule}
    (found : matchRule libs event rules = .ok (some rule)) : rule ∈ rules := by
  induction rules with
  | nil => cases found
  | cons first rest ih =>
    rw [matchRule] at found
    split at found
    · exact .tail _ (ih found)
    · split at found
      · cases found
      · cases found
        exact .head _
      · exact .tail _ (ih found)

theorem Accepts.coolsDown (accepts : Accepts libs ruleSet w entry prepared rule)
    (cools : rule.cooldownSeconds ≠ 0) : Elapsed libs prepared rule w ∧
      (handle libs ruleSet w entry.1 entry.2).cooldowns =
        w.cooldowns.set (cooldownPath libs (cooldownKeyOf libs prepared rule))
          ⟨cooldownKeyOf libs prepared rule, libs.isoFormat prepared.decisionTime,
            prepared.decisionId, rule.ruleId⟩ := by
  obtain ⟨record, returned, planned⟩ := accepts.planned
  obtain ⟨outcome, handled, same⟩ := handled_handle w entry.2
  obtain ⟨-, idle⟩ | ⟨path, written, ⟨_, _, again, -, elapsed, rfl, rfl⟩, after⟩ :=
    handled.cooldowns
  · exact absurd (idle record prepared rule (same record returned) planned accepts.matched) cools
  · obtain ⟨rfl, rfl⟩ := accepts.matched.unique again
    exact ⟨elapsed, after⟩

theorem Accepts.since (accepts : Accepts libs ruleSet w entry prepared rule)
    (cools : rule.cooldownSeconds ≠ 0) (timed : Timed libs ruleSet entry.1) :
    Since libs (cooldownPath libs (cooldownKeyOf libs prepared rule)) prepared.decisionTime
      (handle libs ruleSet w entry.1 entry.2) := by
  obtain ⟨-, written⟩ := accepts.coolsDown cools
  have stored := Dict.get_set_self w.cooldowns
    (cooldownPath libs (cooldownKeyOf libs prepared rule))
    ⟨cooldownKeyOf libs prepared rule, libs.isoFormat prepared.decisionTime,
      prepared.decisionId, rule.ruleId⟩
  rw [← written] at stored
  exact ⟨_, _, stored, timed prepared accepts.matched.1, le_refl _⟩

section

variable (loaded : ∀ rule ∈ ruleSet.rules, 0 ≤ rule.cooldownSeconds)
include loaded

theorem CoolsDown.later (due : CoolsDown libs ruleSet call w path record)
    (timed : Timed libs ruleSet call) : ∃ new, lastAcceptedAt libs record = .ok new ∧
      ∀ old, w.cooldowns.get path = some old →
        ∃ last, lastAcceptedAt libs old = .ok last ∧ last < new := by
  obtain ⟨prepared, rule, matched, cools, elapsed, rfl, rfl⟩ := due
  refine ⟨prepared.decisionTime, timed prepared matched.1, fun old stored => ?_⟩
  obtain ⟨last, read, past⟩ := elapsed old stored
  have := loaded rule (mem_of_matchRule matched.2)
  exact ⟨last, read, by omega⟩

theorem Since.handle (since : Since libs path time w) (timed : Timed libs ruleSet entry.1) :
    Since libs path time (handle libs ruleSet w entry.1 entry.2) := by
  obtain ⟨old, last, stored, read, past⟩ := since
  obtain ⟨outcome, handled, -⟩ := handled_handle w entry.2
  obtain ⟨same, -⟩ | ⟨place, record, due, after⟩ := handled.cooldowns
  · exact ⟨old, last, by rw [same, stored], read, past⟩
  · by_cases here : path = place
    · subst here
      obtain ⟨new, readNew, later⟩ := due.later loaded timed
      obtain ⟨before, readOld, less⟩ := later old stored
      rw [read] at readOld
      cases readOld
      exact ⟨record, new, by rw [after, Dict.get_set_self], readNew, by omega⟩
    · exact ⟨old, last, by rw [after, Dict.get_set_ne _ _ here, stored], read, past⟩

theorem Since.handleAll {calls : List (EventCall × (Nat → Input))} (since : Since libs path time w)
    (timed : ∀ entry ∈ calls, Timed libs ruleSet entry.1) :
    Since libs path time (handleAll libs ruleSet w calls) := by
  induction calls generalizing w with
  | nil => exact since
  | cons entry rest ih =>
    rw [List.forall_mem_cons] at timed
    exact ih (since.handle loaded timed.1) timed.2

end

theorem handleAll_append (w : TriggerWorld) (earlier later : List (EventCall × (Nat → Input))) :
    handleAll libs ruleSet w (earlier ++ later) =
      handleAll libs ruleSet (handleAll libs ruleSet w earlier) later := by
  induction earlier generalizing w with
  | nil => rfl
  | cons entry rest ih => exact ih _

/-- Two accepted decisions of one rule under one key are at least the cooldown apart, and every
write of a record moves its time forward. -/
theorem cooldown_spacing (libs : Libraries) (ruleSet : TriggerRuleSet)
    (loaded : ∀ rule ∈ ruleSet.rules, 0 ≤ rule.cooldownSeconds) (w : TriggerWorld)
    (calls : List (EventCall × (Nat → Input)))
    (timed : ∀ entry ∈ calls, Timed libs ruleSet entry.1) :
    (∀ earlier first between second later,
      calls = earlier ++ first :: (between ++ second :: later) →
      ∀ rule, 0 < rule.cooldownSeconds → ∀ before after,
        Accepts libs ruleSet (handleAll libs ruleSet w earlier) first before rule →
        Accepts libs ruleSet (handleAll libs ruleSet w (earlier ++ first :: between)) second after
          rule →
        cooldownKeyOf libs before rule = cooldownKeyOf libs after rule →
        before.decisionTime + rule.cooldownSeconds * 1000000 ≤ after.decisionTime) ∧
    ∀ earlier entry later, calls = earlier ++ entry :: later →
      (processEvent libs ruleSet entry.1).Throughout effect (WritesLater libs) entry.2
        (handleAll libs ruleSet w earlier) := by
  constructor
  · rintro earlier ⟨call, inputs⟩ between second later rfl rule positive before after accepts again
      sameKey
    have cools : rule.cooldownSeconds ≠ 0 := by omega
    have first := accepts.since cools (timed _ (by simp))
    have since := first.handleAll loaded fun entry (among : entry ∈ between) =>
      timed entry (by simp [among])
    obtain ⟨record, last, stored, read, past⟩ := since
    obtain ⟨elapsed, -⟩ := again.coolsDown cools
    rw [handleAll_append, handleAll] at elapsed
    rw [sameKey] at stored
    obtain ⟨other, readAgain, apart⟩ := elapsed record stored
    rw [read] at readAgain
    cases readAgain
    omega
  · rintro earlier entry later rfl
    refine (safe_processEvent _).throughout (fun command i files due => ?_) entry.2
    intro path record writes old stored
    obtain ⟨new, readNew, later⟩ := (due path record writes).later loaded (timed entry (by simp))
    obtain ⟨last, readOld, less⟩ := later old stored
    exact ⟨last, new, readOld, readNew, less⟩

def twoMinutes : Libraries :=
  { sampleLibraries with
    isoFormat := fun time => if time = 0 then "00:00Z" else "00:01Z"
    fromIsoFormat := fun text => some (if text = "00:01+00:00" then 60000000 else 0, true) }

def minuteRule : TriggerRule :=
  ⟨"restart", "alarm", [], .planOperation,
    [("intent", .str "restart"), ("target", .str "db-1")], 60, "r1"⟩

def minuteRuleSet : TriggerRuleSet := { sampleRuleSet with rules := [minuteRule] }

def laterCall : EventCall := { otherCall with now := 60000000 }

def preparedFor (call : EventCall) (key : String) : Prepared :=
  ⟨call.payload, "json", "json", key, "trigger-" ++ key, call.now⟩

def twoAlarms : List (EventCall × (Nat → Input)) :=
  [(sampleCall, fun _ => answer "a"), (laterCall, fun _ => answer "b")]

theorem minute_apart : Accepts twoMinutes minuteRuleSet
      (handleAll twoMinutes minuteRuleSet emptyWorld [(sampleCall, fun _ => answer "a")])
      (laterCall, fun _ => answer "b") (preparedFor laterCall "alarm-8") minuteRule ∧
    (preparedFor sampleCall "alarm-7").decisionTime + 60 * 1000000 ≤
      (preparedFor laterCall "alarm-8").decisionTime := by
  have accepts : Accepts twoMinutes minuteRuleSet emptyWorld (sampleCall, fun _ => answer "a")
      (preparedFor sampleCall "alarm-7") minuteRule := ⟨⟨rfl, rfl⟩, _, rfl, rfl⟩
  have again : Accepts twoMinutes minuteRuleSet
      (handleAll twoMinutes minuteRuleSet emptyWorld [(sampleCall, fun _ => answer "a")])
      (laterCall, fun _ => answer "b") (preparedFor laterCall "alarm-8") minuteRule :=
    ⟨⟨rfl, rfl⟩, _, rfl, rfl⟩
  have timed : ∀ entry ∈ twoAlarms, Timed twoMinutes minuteRuleSet entry.1 := by
    intro entry among prepared prepares
    simp only [twoAlarms, List.mem_cons, List.not_mem_nil, or_false] at among
    obtain rfl | rfl := among <;> cases prepares <;> rfl
  exact ⟨again,
    (cooldown_spacing twoMinutes minuteRuleSet (by decide) emptyWorld twoAlarms timed).1 []
    (sampleCall, fun _ => answer "a") [] (laterCall, fun _ => answer "b") [] rfl minuteRule
    (by decide) _ _ accepts again rfl⟩

end RExecOp.Triggers
