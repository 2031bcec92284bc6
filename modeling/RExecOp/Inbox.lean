import RExecOp.Triggers

/-! The worker's inbox (`runtime_ops/worker.py`, `runtime_ops/watchdog.py`): one poll with the
watchdog enabled. -/

namespace RExecOp.Triggers

structure PlainTrigger where
  profile : String
  environment : String
  intent : String
  target : String
  mode : String
  autoStart : Bool
  autoReact : Option String

structure EventTrigger where
  profile : String
  hasEnvironment : Bool
  hasCatalog : Bool
  event : Entries

inductive ParsedTrigger where
  | plain (trigger : PlainTrigger)
  | event (trigger : EventTrigger)

section Parse

variable (libs : Libraries)

def environmentOf (payload : Entries) : String :=
  strip (libs.str ((Value.get payload "env").orElse
    ((Value.get payload "environment").orElse (.str ""))))

def parseTriggerEventPayload (payload : Entries) : Except Fault EventTrigger :=
  let profile := libs.field payload "profile" ""
  let environment := environmentOf libs payload
  let catalog := libs.field payload "catalog" ""
  match Value.get payload "trigger_event" with
  | .dict event =>
    if profile = "" then
      .error (.invalid "trigger event requires profile and trigger_event")
    else if environment = "" ∧ catalog = "" then
      .error (.invalid "trigger event requires env/environment or catalog")
    else .ok ⟨profile, environment ≠ "", catalog ≠ "", event⟩
  | _ => .error (.invalid "trigger event requires profile and trigger_event")

def parsePlainPayload (payload : Entries) : Except Fault PlainTrigger :=
  let profile := libs.field payload "profile" ""
  let environment := environmentOf libs payload
  let intent := libs.field payload "intent" ""
  let target := libs.field payload "target" ""
  if profile = "" ∨ environment = "" ∨ intent = "" ∨ target = "" then
    .error (.invalid "trigger payload requires profile, env/environment, intent, and target")
  else .ok
    { profile := profile
      environment := environment
      intent := intent
      target := target
      mode := libs.field payload "mode" "dry_run"
      autoStart := ((payload.lookup "auto_start").getD (.bool false)).truthy
      autoReact := match Value.get payload "auto_react" with
        | .null => none
        | value => some (strip (libs.str value)) }

def parseTriggerPayload (payload : Entries) : Except Fault ParsedTrigger :=
  if (payload.lookup "trigger_event").isSome then
    match parseTriggerEventPayload libs payload with
    | .error fault => .error fault
    | .ok trigger => .ok (.event trigger)
  else match parsePlainPayload libs payload with
    | .error fault => .error fault
    | .ok trigger => .ok (.plain trigger)

def parseItem (name : String) : InboxContent → Except Fault ParsedTrigger
  | .unparsable => .error (.exception "JSONDecodeError")
  | .json (.dict payload) => parseTriggerPayload libs payload
  | .json _ => .error (.invalid ("invalid inbox trigger: " ++ name))

end Parse

def quarantineFault : Fault := .invalid "inbox item quarantine failed"

def general : Scope := ⟨none, none⟩

def clock (scope : Scope) : Program Int := access scope (.component "clock") fun i _ => .ok i.now

def component (name : String) : Program Unit := perform general (.component name)

section Poll

variable (libs : Libraries) (loadRules : String → Except Fault TriggerRuleSet)

def triggerOperation (name : String) (trigger : PlainTrigger) : Program String := do
  let scope : Scope := ⟨some name, none⟩
  let id ← plan scope
    { viaCatalog := false
      intent := trigger.intent
      target := trigger.target
      mode := trigger.mode
      requestedBy := "trigger:inbox:" ++ name
      autoReact := trigger.autoReact
      item := some name
      dedupeKey := none }
  perform scope (.emitTriggered id)
  perform scope (.saveOperation id none)
  perform scope (if trigger.autoStart then .start id else .getOperation id)
  pure id

def triggerEvent (name : String) (trigger : EventTrigger) : Program DecisionRecord := do
  let ruleSet ← ofExcept (loadRules trigger.profile)
  let now ← clock ⟨some name, none⟩
  processEvent libs ruleSet
    { payload := trigger.event
      hasEnvironment := trigger.hasEnvironment
      hasCatalog := trigger.hasCatalog
      now := now
      source := "inbox:" ++ name
      item := some name }

def dispatchItem (name : String) : Program (Option String) := do
  let content ← access ⟨some name, none⟩ (.readItem name) fun _ w =>
    match w.inbox.get name with
    | some item => .ok item.content
    | none => .error quarantineFault
  let parsed ← ofExcept (parseItem libs name content)
  match parsed with
  | .event trigger => do
    let _ ← triggerEvent libs loadRules name trigger
    pure none
  | .plain trigger => do
    let id ← triggerOperation name trigger
    pure (if trigger.autoStart then some id else none)

def loadRetryBudget (scope : Scope) : Program (Dict String Nat) :=
  access scope .loadRetryBudget fun _ w => .ok w.retryBudget

def finishItem (name : String) : Program Unit := do
  let scope : Scope := ⟨some name, none⟩
  perform scope (.unlinkItem name)
  perform scope .ensureLayout
  let budget ← loadRetryBudget scope
  if (budget.get name).isSome then perform scope (.saveRetryBudget (budget.remove name))
  else pure ()

def moveToDeadLetter (name reason : String) : Program Unit := do
  let scope : Scope := ⟨some name, none⟩
  perform scope .ensureLayout
  access scope (.moveToDeadLetter name reason) fun _ w =>
    if (w.inbox.get name).isSome then .ok () else .error quarantineFault
  perform scope (.component "move_to_dead_letter")

def recordInboxProcessingFailure (maxAttempts : Nat) (name : String) : Program Unit := do
  let scope : Scope := ⟨some name, none⟩
  require (0 < maxAttempts) (.invalid "max_attempts must be positive")
  perform scope .ensureLayout
  let budget ← loadRetryBudget scope
  let attempts := min ((budget.get name).getD 0 + 1) maxAttempts
  perform scope (.saveRetryBudget (budget.set name attempts))
  if maxAttempts ≤ attempts then do
    moveToDeadLetter name "retry_budget_exhausted"
    perform scope (.saveRetryBudget (budget.remove name))
  else do
    access scope (.refreshItem name) fun _ w =>
      if (w.inbox.get name).isSome then .ok () else .error quarantineFault
    perform scope (.component "retry_later")

def processItem (maxAttempts : Nat) (name : String) : Program (Option String) := do
  let dispatched ← (dispatchItem libs loadRules name).attempt
  match dispatched with
  | .error _ => do
    recordInboxProcessingFailure maxAttempts name
    pure none
  | .ok started => do
    let finished ← (finishItem name).attempt
    match finished with
    | .error _ => do
      recordInboxProcessingFailure maxAttempts name
      pure started
    | .ok _ => pure started

def listInbox : Program (List String) :=
  access general .listInbox fun _ w => .ok w.inbox.sortedKeys

def processInbox (maxAttempts : Nat) : Program (List String) := do
  let names ← listInbox
  Prog.forEach names (processItem libs loadRules maxAttempts)

def moveIfStale (maxAge now : Int) (name : String) : Program (Option String) := do
  let modifiedAt ← access ⟨some name, none⟩ (.statItem name) fun _ w =>
    match w.inbox.get name with
    | some item => .ok item.modifiedAt
    | none => .error quarantineFault
  if max 0 (now - modifiedAt) ≤ maxAge then pure none
  else do
    moveToDeadLetter name "stale_inbox_item"
    pure (some name)

def moveStaleInboxItems (maxAge : Int) : Program (List String) := do
  require (0 < maxAge) (.invalid "max_age_seconds must be positive")
  perform general .ensureLayout
  let now ← clock general
  let names ← listInbox
  Prog.forEach names (moveIfStale maxAge now)

structure WorkerLimits where
  staleInbox : Int
  retryBudget : Nat

def poll (limits : WorkerLimits) : Program (List String) := do
  component "renew_execution_lease"
  component "record_heartbeat"
  let _ ← moveStaleInboxItems limits.staleInbox
  component "record_stale_active_operations"
  let started ← processInbox libs loadRules limits.retryBudget
  component "process_queue"
  component "record_queue_depth"
  pure started

end Poll

end RExecOp.Triggers
