import RExecOp.Errors
import RExecOp.Lib.Crowd
import RExecOp.Lib.Dict
import RExecOp.TargetLock
import RExecOp.Value

/-! Trigger events (`triggers/service.py`). An access made between the dedupe check of a key and
the write of its marker carries that key as its scope. -/

namespace RExecOp.Triggers

/-- What the libraries do with texts, digests, times and artifacts. -/
structure Libraries where
  /-- `str` of a value that is not a text -/
  text : Value → String
  /-- `hashlib.sha256(…).hexdigest()` -/
  sha256 : String → String
  canonicalJson : Entries → String
  /-- `datetime.fromisoformat`, with whether the time has a zone -/
  fromIsoFormat : String → Option (Int × Bool)
  isoFormat : Int → String

section Values

variable (libs : Libraries)

def Libraries.str : Value → String := TargetLock.str libs.text

def Libraries.field (entries : Entries) (key default : String) : String :=
  strip (libs.str ((Value.get entries key).orElse (.str default)))

def Libraries.digest (value : Entries) : String := libs.sha256 (libs.canonicalJson value)

def parseTimestamp (value : Value) (field : String) : Except Fault Int :=
  let stripped := strip (libs.str (value.orElse (.str "")))
  let text :=
    if stripped.toList.getLast? = some 'Z' then
      String.ofList stripped.toList.dropLast ++ "+00:00"
    else stripped
  match libs.fromIsoFormat text with
  | none => .error (.invalid ("invalid trigger timestamp: " ++ field))
  | some (_, false) =>
    .error (.invalid ("trigger timestamp must be timezone-aware: " ++ field))
  | some (instant, true) => .ok instant

def resolvePath : Value → List String → Option Value
  | value, [] => some value
  | .dict entries, part :: rest =>
    match entries.lookup part with
    | some inner => resolvePath inner rest
    | none => none
  | _, _ :: _ => none

end Values

def maxEventBytes : Nat := 256 * 1024

def maxFutureSkewSeconds : Int := 300

def maxPastSkewSeconds : Int := 86400

def allowedEventKeys : List String :=
  ["id", "source", "type", "subject", "occurred_at", "payload", "dedupe_key", "cooldown_key",
    "rule_set"]

def requiredEventKeys : List String :=
  ["id", "source", "type", "subject", "occurred_at", "payload"]

structure EventCall where
  payload : Entries
  hasEnvironment : Bool
  hasCatalog : Bool
  now : Int
  source : String
  item : Option String

inductive Decision where
  | planOperation
  | ignore
  | escalate
  | dropDuplicate
  | cooldownBlocked
  deriving DecidableEq, Repr

def Decision.value : Decision → String
  | .planOperation => "plan_operation"
  | .ignore => "ignore"
  | .escalate => "escalate"
  | .dropDuplicate => "drop_duplicate"
  | .cooldownBlocked => "cooldown_blocked"

structure TriggerRule where
  ruleId : String
  eventType : String
  conditions : List Entries
  decision : Decision
  operation : Entries
  cooldownSeconds : Int
  digest : String

structure TriggerRuleSet where
  ruleSetId : String
  version : String
  rules : List TriggerRule
  digest : String

section Event

variable (libs : Libraries) (ruleSet : TriggerRuleSet)

def eventPayload (payload : Entries) : Except Fault Entries :=
  match (payload.lookup "trigger_event").getD (.dict payload) with
  | .dict event =>
    let unknown := ((event.map Prod.fst).filter (· ∉ allowedEventKeys)).insertionSort (· ≤ ·)
    let missing := requiredEventKeys.filter fun key => (event.lookup key).isNone
    if maxEventBytes < (libs.canonicalJson event).utf8ByteSize then
      .error (.invalid "trigger event exceeds size limit")
    else if unknown ≠ [] then
      .error (.invalid ("unknown trigger event fields: " ++ ", ".intercalate unknown))
    else match missing with
      | key :: _ => .error (.invalid ("trigger event missing required field: " ++ key))
      | [] =>
        if (Value.get event "payload").isDict then .ok event
        else .error (.invalid "trigger event payload must be a mapping")
  | _ => .error (.invalid "trigger event must be a mapping")

def defaultDedupeKey (event : Entries) (payloadDigest : String) : String :=
  ":".intercalate [libs.str (Value.get event "source"), libs.str (Value.get event "id"),
    libs.str (Value.get event "type"), libs.str (Value.get event "subject"), payloadDigest]

def decisionIdOf (dedupeKey : String) : String :=
  "trigger-" ++ String.ofList ((libs.sha256 dedupeKey).toList.take 24)

structure Prepared where
  event : Entries
  eventDigest : String
  payloadDigest : String
  dedupeKey : String
  decisionId : String
  decisionTime : Int

def payloadOf (event : Entries) : Entries :=
  match Value.get event "payload" with
  | .dict payload => payload
  | _ => []

def prepare (call : EventCall) : Except Fault Prepared :=
  match eventPayload libs call.payload with
  | .error fault => .error fault
  | .ok event =>
    let requested := libs.field event "rule_set" ""
    let decisionTime := call.now - call.now % 1000000
    if requested ≠ "" ∧ requested ≠ ruleSet.ruleSetId then
      .error (.invalid "trigger event requested unknown rule set")
    else match parseTimestamp libs (Value.get event "occurred_at") "occurred_at" with
      | .error fault => .error fault
      | .ok occurredAt =>
        let payloadDigest := libs.digest (payloadOf event)
        let dedupeKey := orElse (libs.field event "dedupe_key" "")
          (defaultDedupeKey libs event payloadDigest)
        if decisionTime + maxFutureSkewSeconds * 1000000 < occurredAt then
          .error (.invalid "trigger event timestamp is too far in the future")
        else if occurredAt < decisionTime - maxPastSkewSeconds * 1000000 then
          .error (.invalid "trigger event timestamp is too old")
        else .ok ⟨event, libs.digest event, payloadDigest, dedupeKey,
          decisionIdOf libs dedupeKey, decisionTime⟩

def allowedOperators : List String := ["exists", "equals", "not_equals", "in"]

def conditionMatches (event condition : Entries) : Except Fault Bool :=
  let path := libs.field condition "path" ""
  let operator := libs.field condition "operator" ""
  let expected := Value.get condition "value"
  if path = "" ∨ operator ∉ allowedOperators then
    .error (.invalid "invalid trigger rule condition")
  else match resolvePath (.dict event) (splitDots path) with
    | none => .ok false
    | some actual =>
      if operator = "exists" then .ok true
      else if operator = "equals" then .ok (actual.eq expected)
      else if operator = "not_equals" then .ok (!actual.eq expected)
      else match expected with
        | .list items => .ok (items.any actual.eq)
        | _ => .error (.invalid "trigger condition operator 'in' requires a list")

def allMatch (event : Entries) : List Entries → Except Fault Bool
  | [] => .ok true
  | condition :: rest =>
    match conditionMatches libs event condition with
    | .error fault => .error fault
    | .ok false => .ok false
    | .ok true => allMatch event rest

/-- The first rule of the type with all conditions met: `_match_rule`. -/
def matchRule (event : Entries) : List TriggerRule → Except Fault (Option TriggerRule)
  | [] => .ok none
  | rule :: rest =>
    if rule.eventType ≠ libs.str ((Value.get event "type").orElse (.str "")) then
      matchRule event rest
    else match allMatch libs event rule.conditions with
      | .error fault => .error fault
      | .ok true => .ok (some rule)
      | .ok false => matchRule event rest

end Event

structure AdmissionRequest where
  requestId : String
  eventRef : String
  eventType : String
  decision : Decision
  ruleSetId : String
  ruleSetVersion : String
  ruleSetDigest : String
  ruleId : String
  ruleDigest : String
  operationIntent : String
  operationMode : String
  deriving DecidableEq

structure Admission where
  request : AdmissionRequest
  allowed : Bool
  deriving DecidableEq

structure EventSummary where
  id : String
  source : String
  type : String
  subject : String
  occurredAt : String
  digest : String
  payloadDigest : String
  dedupeKey : String
  cooldownKey : Option String
  deriving DecidableEq

structure RuleRef where
  id : String
  digest : String
  deriving DecidableEq

structure DecisionRecord where
  decisionId : String
  decision : Decision
  reason : String
  decidedAt : String
  source : String
  event : EventSummary
  ruleSetId : String
  ruleSetVersion : String
  ruleSetDigest : String
  operationId : Option String
  triggerPlanKey : String
  rule : Option RuleRef
  admission : Admission
  deriving DecidableEq

structure SeenRecord where
  decisionId : String
  decision : Decision
  event : EventSummary
  deriving DecidableEq

structure CooldownRecord where
  cooldownKey : String
  lastAcceptedAt : String
  decisionId : String
  ruleId : String
  deriving DecidableEq

/-- `metadata["trigger_decision"]` of a planned operation. -/
structure TriggerMetadata where
  decisionId : String
  ruleId : String
  ruleDigest : String
  eventDigest : String
  payloadDigest : String
  dedupeKey : String
  triggerPlanKey : String
  deriving DecidableEq

structure PlanArguments where
  viaCatalog : Bool
  intent : String
  target : String
  mode : String
  requestedBy : String
  autoReact : Option String
  item : Option String
  dedupeKey : Option String
  deriving DecidableEq

structure PlannedOperation where
  id : String
  arguments : PlanArguments
  trigger : Option TriggerMetadata
  deriving DecidableEq

inductive InboxContent where
  | unparsable
  | json (value : Value)

structure InboxItem where
  content : InboxContent
  modifiedAt : Int

structure TriggerWorld where
  operations : List PlannedOperation
  decisions : Dict String DecisionRecord
  seen : Dict String SeenRecord
  cooldowns : Dict String CooldownRecord
  inbox : Dict String InboxItem
  retryBudget : Dict String Nat
  deadLetters : List String

namespace TriggerWorld

variable (w : TriggerWorld)

def stored (id : String) : Bool := w.operations.any fun operation => operation.id = id

end TriggerWorld

/-- An inbox item, and the key whose marker is not yet written. -/
structure Scope where
  item : Option String
  key : Option String
  deriving DecidableEq

inductive Action where
  | secureDirectories
  | checkSeen (key path : String)
  | readCooldown (path : String)
  | askAdmission (request : AdmissionRequest)
  /-- what `plan` does before the record of the operation is stored -/
  | preparePlan (arguments : PlanArguments)
  | storeOperation (arguments : PlanArguments)
  | emitTriggered (id : String)
  | saveOperation (id : String) (trigger : Option TriggerMetadata)
  | verifyDecision (record : DecisionRecord)
  | writeDecision (record : DecisionRecord)
  | writeSeen (key path : String) (record : SeenRecord)
  | writeCooldown (path : String) (record : CooldownRecord)
  | start (id : String)
  | getOperation (id : String)
  | listInbox
  | statItem (name : String)
  | readItem (name : String)
  | unlinkItem (name : String)
  | ensureLayout
  | loadRetryBudget
  | saveRetryBudget (budget : Dict String Nat)
  | moveToDeadLetter (name reason : String)
  | refreshItem (name : String)
  /-- a record of the watchdog, or the work of a component outside the inbox -/
  | component (name : String)

structure Command where
  scope : Scope
  action : Action

/-- A fault instead of the work or after it, and the environment's decisions. -/
structure Input where
  fault : Option Fault
  lateFault : Option Fault
  fresh : String
  agrees : Bool
  now : Int

def Action.write (action : Action) (i : Input) (w : TriggerWorld) : TriggerWorld :=
  match action with
  | .storeOperation arguments =>
    if w.stored ("op-" ++ i.fresh) then w
    else { w with operations := w.operations ++ [⟨"op-" ++ i.fresh, arguments, none⟩] }
  | .saveOperation id trigger =>
    { w with operations := w.operations.map fun operation =>
        if operation.id = id then { operation with trigger := trigger } else operation }
  | .writeDecision record => { w with decisions := w.decisions.set record.decisionId record }
  | .writeSeen _ path record => { w with seen := w.seen.set path record }
  | .writeCooldown path record => { w with cooldowns := w.cooldowns.set path record }
  | .unlinkItem name => { w with inbox := w.inbox.remove name }
  | .saveRetryBudget budget => { w with retryBudget := budget }
  | .moveToDeadLetter name _ =>
    match w.inbox.get name with
    | some _ =>
      { w with
        inbox := w.inbox.remove name
        deadLetters := w.deadLetters ++ [name] }
    | none => w
  | .refreshItem name =>
    match w.inbox.get name with
    | some item => { w with inbox := w.inbox.set name { item with modifiedAt := i.now } }
    | none => w
  | _ => w

def effect (command : Command) (i : Input) (w : TriggerWorld) : TriggerWorld :=
  match i.fault with
  | some _ => w
  | none => command.action.write i w

abbrev Program := Prog Input TriggerWorld Command Fault

/-- The reply, unless the access raises instead or afterwards. -/
def Input.reply {α : Type} (i : Input) (result : Except Fault α) : Except Fault α :=
  match i.fault with
  | some fault => .error fault
  | none =>
    match result, i.lateFault with
    | .ok _, some fault => .error fault
    | result, _ => result

def access {α : Type} (scope : Scope) (action : Action)
    (reply : Input → TriggerWorld → Except Fault α) : Program α :=
  .request ⟨scope, action⟩ fun i w => i.reply (reply i w)

def perform (scope : Scope) (action : Action) : Program Unit :=
  access scope action fun _ _ => .ok ()

def ofExcept {α : Type} (result : Except Fault α) : Program α := Prog.ofExcept result

def require (condition : Prop) [Decidable condition] (fault : Fault) : Program Unit :=
  ofExcept (if condition then .ok () else .error fault)

def plan (scope : Scope) (arguments : PlanArguments) : Program String := do
  perform scope (.preparePlan arguments)
  access scope (.storeOperation arguments) fun i w =>
    if w.stored ("op-" ++ i.fresh) then .error (.conflict "operation already exists")
    else .ok ("op-" ++ i.fresh)

section Process

variable (libs : Libraries) (ruleSet : TriggerRuleSet)

def sha256Ref (value : String) : String :=
  let text := strip value
  if "sha256:".toList.isPrefixOf text.toList then text else "sha256:" ++ text

def admissionRequest (prepared : Prepared) (decision : Decision) (rule : Option TriggerRule) :
    AdmissionRequest where
  requestId := prepared.decisionId
  eventRef := sha256Ref prepared.eventDigest
  eventType := libs.str (Value.get prepared.event "type")
  decision := decision
  ruleSetId := ruleSet.ruleSetId
  ruleSetVersion := ruleSet.version
  ruleSetDigest := sha256Ref ruleSet.digest
  ruleId := (rule.map (·.ruleId)).getD ""
  ruleDigest := (rule.map (sha256Ref ·.digest)).getD ""
  operationIntent :=
    if decision = .planOperation then
      libs.str ((Value.get ((rule.map (·.operation)).getD []) "intent").orElse (.str ""))
    else ""
  operationMode :=
    if decision = .planOperation then
      libs.str ((Value.get ((rule.map (·.operation)).getD []) "mode").orElse (.str "dry_run"))
    else ""

def admitTriggerDecision (scope : Scope) (prepared : Prepared) (decision : Decision)
    (rule : Option TriggerRule) : Program Admission :=
  let request := admissionRequest libs ruleSet prepared decision rule
  access scope (.askAdmission request) fun i _ => .ok ⟨request, i.agrees⟩

def triggerPlanKey (prepared : Prepared) : String :=
  libs.digest [("kind", .str "trigger_plan"), ("dedupe_key", .str prepared.dedupeKey),
    ("decision_id", .str prepared.decisionId)]

def eventSummary (prepared : Prepared) (cooldownKey : Option String) : EventSummary where
  id := libs.str (Value.get prepared.event "id")
  source := libs.str (Value.get prepared.event "source")
  type := libs.str (Value.get prepared.event "type")
  subject := libs.str (Value.get prepared.event "subject")
  occurredAt := libs.str (Value.get prepared.event "occurred_at")
  digest := prepared.eventDigest
  payloadDigest := prepared.payloadDigest
  dedupeKey := prepared.dedupeKey
  cooldownKey := cooldownKey

structure Verdict where
  decision : Decision
  reason : String
  operationId : Option String
  rule : Option TriggerRule
  cooldownKey : Option String
  admission : Admission

def decisionRecord (call : EventCall) (prepared : Prepared) (verdict : Verdict) :
    DecisionRecord where
  decisionId := prepared.decisionId
  decision := verdict.decision
  reason := verdict.reason
  decidedAt := libs.isoFormat prepared.decisionTime
  source := call.source
  event := eventSummary libs prepared verdict.cooldownKey
  ruleSetId := ruleSet.ruleSetId
  ruleSetVersion := ruleSet.version
  ruleSetDigest := ruleSet.digest
  operationId := verdict.operationId
  triggerPlanKey := triggerPlanKey libs prepared
  rule := verdict.rule.map fun rule => ⟨rule.ruleId, rule.digest⟩
  admission := verdict.admission

def persistDecision (scope : Scope) (call : EventCall) (prepared : Prepared)
    (verdict : Verdict) : Program DecisionRecord := do
  let record := decisionRecord libs ruleSet call prepared verdict
  perform scope (.verifyDecision record)
  perform scope (.writeDecision record)
  pure record

def seenPath (dedupeKey : String) : String := libs.sha256 dedupeKey ++ ".json"

def markSeen (scope : Scope) (prepared : Prepared) (record : DecisionRecord) : Program Unit :=
  perform scope (.writeSeen prepared.dedupeKey (seenPath libs prepared.dedupeKey)
    ⟨record.decisionId, record.decision, record.event⟩)

def dropDuplicate (scope : Scope) (call : EventCall) (prepared : Prepared) :
    Program DecisionRecord := do
  let admission ← admitTriggerDecision libs ruleSet scope prepared .dropDuplicate none
  persistDecision libs ruleSet scope call prepared
    ⟨.dropDuplicate, "dedupe_key_already_seen", none, none, none, admission⟩

def dismiss (scope : Scope) (call : EventCall) (prepared : Prepared) (decision : Decision)
    (reason : String) (rule : Option TriggerRule) (cooldownKey : Option String) :
    Program DecisionRecord := do
  let admission ← admitTriggerDecision libs ruleSet scope prepared decision rule
  let record ← persistDecision libs ruleSet scope call prepared
    ⟨decision, reason, none, rule, cooldownKey, admission⟩
  markSeen libs scope prepared record
  pure record

def operationRef (operation event : Entries) (literalKey pathKey : String) :
    Except Fault String :=
  let literal := libs.field operation literalKey ""
  let path := libs.field operation pathKey ""
  let unresolved := Fault.invalid ("trigger operation path did not resolve: " ++ pathKey)
  if literal ≠ "" ∧ path ≠ "" then
    .error (.invalid ("trigger operation cannot set both " ++ literalKey ++ " and " ++ pathKey))
  else if literal ≠ "" then .ok literal
  else if path = "" then .ok ""
  else match resolvePath (.dict event) (splitDots path) with
    | some (.str text) => if strip text = "" then .error unresolved else .ok (strip text)
    | _ => .error unresolved

def planArguments (call : EventCall) (prepared : Prepared) (rule : TriggerRule) :
    Except Fault PlanArguments :=
  let operation := rule.operation
  let viaCatalog := call.hasCatalog || (Value.get operation "catalog_target").truthy ||
    (Value.get operation "catalog_target_from").truthy
  let target :=
    if viaCatalog then
      operationRef libs operation prepared.event "catalog_target" "catalog_target_from"
    else operationRef libs operation prepared.event "target" "target_from"
  match target, operation.lookup "intent" with
  | .error fault, _ => .error fault
  | .ok target, intent =>
    if viaCatalog ∧ target = "" then
      .error (.invalid "trigger catalog operation requires catalog_target")
    else if ¬ viaCatalog ∧ (¬ call.hasEnvironment ∨ target = "") then
      .error (.invalid "trigger operation requires environment and target")
    else match intent with
      | none => .error (.exception "KeyError")
      | some intent => .ok
        { viaCatalog := viaCatalog
          intent := libs.str intent
          target := target
          mode := libs.str ((Value.get operation "mode").orElse (.str "dry_run"))
          requestedBy := "trigger:" ++ call.source ++ ":" ++ prepared.decisionId
          autoReact := match Value.get operation "auto_react" with
            | .null => none
            | value => some (strip (libs.str value))
          item := call.item
          dedupeKey := some prepared.dedupeKey }

def triggerMetadata (prepared : Prepared) (rule : TriggerRule) : TriggerMetadata where
  decisionId := prepared.decisionId
  ruleId := rule.ruleId
  ruleDigest := rule.digest
  eventDigest := prepared.eventDigest
  payloadDigest := prepared.payloadDigest
  dedupeKey := prepared.dedupeKey
  triggerPlanKey := triggerPlanKey libs prepared

def planTriggered (scope : Scope) (call : EventCall) (prepared : Prepared)
    (rule : TriggerRule) : Program String := do
  let arguments ← ofExcept (planArguments libs call prepared rule)
  let id ← plan scope arguments
  perform scope (.emitTriggered id)
  perform scope (.saveOperation id (some (triggerMetadata libs prepared rule)))
  pure id

def cooldownPath (cooldownKey : String) : String := libs.sha256 cooldownKey ++ ".json"

def cooldownKeyOf (prepared : Prepared) (rule : TriggerRule) : String :=
  orElse (libs.field prepared.event "cooldown_key" "")
    (rule.ruleId ++ ":" ++ libs.str (Value.get prepared.event "subject"))

def cooldownHolds (prepared : Prepared) (rule : TriggerRule) (record : CooldownRecord) :
    Except Fault Bool :=
  match parseTimestamp libs (.str record.lastAcceptedAt) "last_accepted_at" with
  | .error fault => .error fault
  | .ok last => .ok (prepared.decisionTime < last + rule.cooldownSeconds * 1000000)

def cooldownActive (scope : Scope) (prepared : Prepared) (rule : TriggerRule) : Program Bool :=
  if rule.cooldownSeconds = 0 then pure false
  else access scope (.readCooldown (cooldownPath libs (cooldownKeyOf libs prepared rule)))
    fun _ w => match w.cooldowns.get (cooldownPath libs (cooldownKeyOf libs prepared rule)) with
      | none => .ok false
      | some record => cooldownHolds libs prepared rule record

def planMatched (scope : Scope) (call : EventCall) (prepared : Prepared) (rule : TriggerRule)
    (admission : Admission) : Program (Option String) :=
  if rule.decision = .planOperation then do
    require (admission.allowed = true) (.invalid "trigger planning admission denied")
    let id ← planTriggered libs scope call prepared rule
    pure (some id)
  else pure none

def startCooldown (scope : Scope) (prepared : Prepared) (rule : TriggerRule) : Program Unit :=
  if rule.cooldownSeconds ≠ 0 ∧ rule.decision = .planOperation then
    perform scope (.writeCooldown (cooldownPath libs (cooldownKeyOf libs prepared rule))
      ⟨cooldownKeyOf libs prepared rule, libs.isoFormat prepared.decisionTime,
        prepared.decisionId, rule.ruleId⟩)
  else pure ()

def accept (scope outside : Scope) (call : EventCall) (prepared : Prepared)
    (rule : TriggerRule) : Program DecisionRecord := do
  let admission ← admitTriggerDecision libs ruleSet scope prepared rule.decision (some rule)
  let operationId ← planMatched libs scope call prepared rule admission
  let record ← persistDecision libs ruleSet scope call prepared
    ⟨rule.decision, "matched:" ++ rule.ruleId, operationId, some rule,
      some (cooldownKeyOf libs prepared rule), admission⟩
  markSeen libs scope prepared record
  startCooldown libs outside prepared rule
  pure record

def decideUnseen (scope outside : Scope) (call : EventCall) (prepared : Prepared) :
    Program DecisionRecord := do
  let matched ← ofExcept (matchRule libs prepared.event ruleSet.rules)
  match matched with
  | none => dismiss libs ruleSet scope call prepared .ignore "no_matching_trigger_rule" none none
  | some rule => do
    let active ← cooldownActive libs scope prepared rule
    if active then
      dismiss libs ruleSet scope call prepared .cooldownBlocked "cooldown_active" (some rule)
        (some (cooldownKeyOf libs prepared rule))
    else accept libs ruleSet scope outside call prepared rule

def processEvent (call : EventCall) : Program DecisionRecord := do
  let prepared ← ofExcept (prepare libs ruleSet call)
  let outside : Scope := ⟨call.item, none⟩
  perform outside .secureDirectories
  let seen ← access outside (.checkSeen prepared.dedupeKey (seenPath libs prepared.dedupeKey))
    fun _ w => .ok (w.seen.get (seenPath libs prepared.dedupeKey)).isSome
  if seen then dropDuplicate libs ruleSet outside call prepared
  else decideUnseen libs ruleSet ⟨call.item, some prepared.dedupeKey⟩ outside call prepared

end Process

end RExecOp.Triggers
