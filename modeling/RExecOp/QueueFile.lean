import RExecOp.Lib.Assoc
import RExecOp.Lib.Json
import RExecOp.RunNowQueue

/-! The run-now queue over its file (`runtime_ops/queue.py`), on whatever JSON the file holds.
What the language raises on an unexpected type is kept. -/

namespace RExecOp.QueueFile

open Lease (Instant Credential LeaseFiles)
open RunNowQueue (Ttl Purpose blockedFault claimConflict activeClaimConflict boundedInteger
  boundedIdentity redactionMarkers transitionSchema maxTransitionAttemptCount maxTransitionEpoch
  validBoundedIdentity validPublicClaimIdentity validatedClaimExpiry invalidQueueClaimParameters
  defaultTtl)
open Attempts (attemptSchema)
open Assoc (assign)

abbrev Entries := List (String × Json)

structure Moment where
  aware : Bool
  instant : Instant

/-- The time in UTC; `none` where `astimezone` leaves the calendar. -/
structure IsoTime where
  aware : Bool
  utc : Option Instant

/-- What the language and its library do with the values at hand. -/
structure Language where
  /-- `==`; what it says of a NaN inside a list depends on object identity -/
  equal : Json → Json → Bool
  /-- `str` of a value that is not a text -/
  text : Json → String
  /-- `int` of a text; `none` is `ValueError` -/
  parseInt : String → Option Int
  /-- `none` is `ValueError` -/
  fromIso : String → Option IsoTime
  isoformat : Moment → String

structure Data where
  pending : List Json
  claims : Entries

structure Raise where
  fault : Fault
  saved : Option Data

abbrev Checked := Except Raise

def raise {α : Type} (fault : Fault) : Checked α := .error ⟨fault, none⟩

def typeError : Fault := .exception "TypeError"

def valueError : Fault := .exception "ValueError"

def overflowError : Fault := .exception "OverflowError"

def keyError : Fault := .exception "KeyError"

def attributeError : Fault := .exception "AttributeError"

def assertionError : Fault := .exception "AssertionError"

def isIn (value : Json) (names : List String) : Checked Bool :=
  match value with
  | .list _ => raise typeError
  | .dict _ => raise typeError
  | .str s => .ok (names.contains s)
  | _ => .ok false

def isText (value : Json) (text : String) : Bool :=
  match value with
  | .str s => s == text
  | _ => false

def validBoundedInteger (value : Json) (minimum maximum : Int) : Bool :=
  match value with
  | .int n => boundedInteger n minimum maximum
  | _ => false

def textOf : Json → String
  | .str s => s
  | _ => ""

def hasKeys (entries : Entries) (names : List String) : Bool :=
  names.all (fun name => (entries.lookup name).isSome) &&
    entries.all (fun entry => names.contains entry.1)

section Language

variable (language : Language)

def toInt : Json → Checked Int
  | .bool b => .ok (if b then 1 else 0)
  | .int n => .ok n
  | .float (.finite q) => .ok (q.num.tdiv q.den)
  | .float .negZero => .ok 0
  | .float (.infinite _) => raise overflowError
  | .float .nan => raise valueError
  | .str s => match language.parseInt s with
    | some n => .ok n
    | none => raise valueError
  | _ => raise typeError

def intOrZero (value : Json) : Checked Int := toInt language (Json.orElse value (.int 0))

def strOrEmpty (value : Json) : String :=
  match Json.orElse value (.str "") with
  | .str s => s
  | other => language.text other

def withoutZ (text : String) : String :=
  match text.toList.getLast? with
  | some 'Z' => String.ofList text.toList.dropLast ++ "+00:00"
  | _ => text

def parseTime (value : String) : Checked (Option Instant) :=
  let text := strip value
  if text = "" then .ok none
  else match language.fromIso (withoutZ text) with
    | none => .ok none
    | some time => match time.utc with
      | some instant => .ok (some instant)
      | none => raise overflowError

/-- `observed_at < expiry`, where `expiry` has a time zone -/
def isBefore (observedAt : Moment) (expiry : Instant) : Checked Bool :=
  if observedAt.aware then .ok (decide (observedAt.instant < expiry)) else raise typeError

def transitionFields : List String :=
  ["private_schema", "disposition", "reason", "operation_state", "attempt_count",
    "attempt_status_counts", "claim_attempt", "prior_lease_epoch", "prior_process_instance_id",
    "current_lease_epoch", "current_process_instance_id", "recorded_at"]

def transitionDispositions : List String := ["blocked", "completed", "requeued"]

def transitionReasons : List String :=
  ["active_operation_requires_startup_recovery", "approved_operation_has_attempts",
    "attempt_inventory_unavailable", "claim_completed", "expired_pre_execution_claim",
    "invalid_claim_expiry", "invalid_queue_topology", "lease_epoch_not_advanced",
    "legacy_claim_not_expired", "malformed_attempt_inventory", "max_concurrent_reached",
    "operation_state_not_recoverable", "operation_unavailable", "target_locked",
    "terminal_operation", "unfinished_attempt_requires_recovery", "unknown_operation_state"]

def operationStates : List String :=
  [.created, .planned, .blocked, .waitingForApproval, .approved, .running, .paused, .resuming,
    .retrying, .validating, .completed, .failed, .cancelled, .escalated].map OperationState.value

def transitionOperationStates : List String := operationStates ++ ["unavailable", "unknown"]

def activeStates : List String := ["running", "paused", "resuming", "retrying", "validating"]

def terminalRecoveryStates : List String := ["completed", "failed", "cancelled", "escalated"]

def attemptStatuses : List String := ["completed", "failed", "indeterminate", "pending", "started"]

def validTransitionTimestamp (value : String) : Bool :=
  value != "" && decide (value.length ≤ 64) &&
    match language.fromIso (withoutZ value) with
    | some time => time.aware
    | none => false

def validStatusCounts (attemptCount statusCounts : Json) : Bool :=
  match attemptCount, statusCounts with
  | .int total, .dict counts =>
    boundedInteger total 0 maxTransitionAttemptCount && hasKeys counts attemptStatuses &&
      counts.all (fun count => validBoundedInteger count.2 0 maxTransitionAttemptCount) &&
      (counts.map fun count => match count.2 with
        | .int n => n
        | _ => 0).sum == total
  | _, _ => false

/-- `_valid_transition_record` after the three enumerated texts. -/
def validTransitionValues (record : Entries) : Bool :=
  validStatusCounts (Json.get record "attempt_count") (Json.get record "attempt_status_counts") &&
    ["claim_attempt", "prior_lease_epoch", "current_lease_epoch"].all (fun field =>
      validBoundedInteger (Json.get record field) 1 maxTransitionEpoch) &&
    ["prior_process_instance_id", "current_process_instance_id"].all (fun field =>
      validBoundedIdentity (textOf (Json.get record field))) &&
    match Json.get record "recorded_at" with
    | .str recordedAt => validTransitionTimestamp language recordedAt
    | _ => false

def validTransitionRecord (value : Json) : Checked Bool :=
  match value with
  | .dict record =>
    if hasKeys record transitionFields && isText (Json.get record "private_schema") transitionSchema
    then isIn (Json.get record "disposition") transitionDispositions <&&>
      isIn (Json.get record "reason") transitionReasons <&&>
      isIn (Json.get record "operation_state") transitionOperationStates <&&>
      pure (validTransitionValues language record)
    else .ok false
  | _ => .ok false

def statusCounts (attempts : List Entries) : List String → Nat → List (String × Nat)
  | [], _ => []
  | status :: rest, remaining =>
    let count := min (attempts.countP fun attempt => isText (Json.get attempt "status") status)
      remaining
    (status, count) :: statusCounts attempts rest (remaining - count)

/-- `_project_process_identity`, of the text of the identity -/
def projectProcessIdentity (value priorOwnerToken currentOwnerToken : String) :
    Checked String :=
  let bounded := boundedIdentity value
  let tokens := [priorOwnerToken, currentOwnerToken]
  if !tokens.contains bounded then .ok bounded
  else match redactionMarkers.find? (fun marker => !tokens.contains marker) with
    | some marker => .ok marker
    | none => raise assertionError

def boundedEpoch (value : Json) : Int :=
  match value with
  | .int n => RunNowQueue.boundedEpoch n
  | _ => 0

structure Scan where
  lease : Credential
  observedAt : Moment

def transitionRecord (scan : Scan) (claim : Entries)
    (disposition reason operationState : String) (attempts : List Entries) : Checked Json := do
  let counts := statusCounts attempts attemptStatuses maxTransitionAttemptCount
  let ownerToken := strOrEmpty language (Json.get claim "owner_token")
  let prior ← projectProcessIdentity
    (strOrEmpty language (Json.get claim "process_instance_id")) ownerToken scan.lease.ownerToken
  let current ← projectProcessIdentity scan.lease.processInstanceId ownerToken
    scan.lease.ownerToken
  return .dict
    [("private_schema", .str transitionSchema), ("disposition", .str disposition),
      ("reason", .str reason), ("operation_state", .str operationState),
      ("attempt_count", .int (counts.map Prod.snd).sum),
      ("attempt_status_counts", .dict (counts.map fun count => (count.1, .int count.2))),
      ("claim_attempt", .int (boundedEpoch (Json.get claim "attempt"))),
      ("prior_lease_epoch", .int (boundedEpoch (Json.get claim "lease_epoch"))),
      ("prior_process_instance_id", .str prior),
      ("current_lease_epoch", .int (RunNowQueue.boundedEpoch scan.lease.leaseEpoch)),
      ("current_process_instance_id", .str current),
      ("recorded_at", .str (language.isoformat scan.observedAt))]

def noted (scan : Scan) (claim : Entries) (disposition reason operationState : String)
    (attempts : List Entries) : Checked Entries := do
  let record ← transitionRecord language scan claim disposition reason operationState attempts
  return assign "last_transition" record claim

end Language

inductive Content where
  | missing
  | undecodable
  | parsed (value : Json)

/-- `state` is `str(operation.state or "")` -/
inductive Loaded where
  | notCallable
  | raised
  | loaded (state : String) (attempts : List Entries)

structure Context where
  files : LeaseFiles
  guardNow : Instant
  now : Instant
  loader : String → Loaded

def Context.moment (ctx : Context) : Moment := ⟨true, ctx.now⟩

section Checks

variable (language : Language)

def checkTransitions : Entries → Checked Unit
  | [] => .ok ()
  | (_, claim) :: rest =>
    match claim with
    | .dict fields => match fields.lookup "last_transition" with
      | some transition => do
        let valid ← validTransitionRecord language transition
        if valid then checkTransitions rest else raise blockedFault
      | none => checkTransitions rest
    | _ => checkTransitions rest

def loadUnlocked (content : Content) : Checked Data :=
  match content with
  | .missing => .ok ⟨[], []⟩
  | .undecodable => raise blockedFault
  | .parsed (.dict data) =>
    match Json.get data "pending", Json.get data "claims" with
    | .list pending, .null => .ok ⟨pending, []⟩
    | .list pending, .dict claims => do
      checkTransitions language claims
      return ⟨pending, claims⟩
    | _, _ => raise blockedFault
  | .parsed _ => raise blockedFault

def isPending (data : Data) (id : String) : Bool := data.pending.any (isText · id)

def claimOf (data : Data) (id : String) : Json := Json.get data.claims id

def hasStatus (claim : Json) (status : String) : Bool :=
  match claim with
  | .dict fields => isText (Json.get fields "status") status
  | _ => false

def validClaimIdentity (claim : Entries) : Bool :=
  validBoundedInteger (Json.get claim "lease_epoch") 1 maxTransitionEpoch &&
    validBoundedInteger (Json.get claim "attempt") 1 maxTransitionEpoch &&
    textOf (Json.get claim "owner_token") != "" &&
    textOf (Json.get claim "process_instance_id") != ""

def claimStatuses : List String := ["claimed", "completed", "requeued"]

/-- The loop of `_validate_topology` over the claims. -/
def misplacedClaim (data : Data) : Entries → Checked (Option String)
  | [] => .ok none
  | (id, claim) :: rest =>
    match claim with
    | .dict fields =>
      if id = "" then .ok (some id)
      else do
        let known ← isIn (Json.get fields "status") claimStatuses
        if known && strOrEmpty language (Json.get fields "operation_id") == id &&
            validClaimIdentity fields && !(hasStatus claim "requeued" && !isPending data id) then
          misplacedClaim data rest
        else return some id
    | _ => .ok (some id)

def validateTopology (data : Data) : Checked (Option String) :=
  if data.pending.any (fun item => textOf item == "") then .ok (some "")
  else if !decide (data.pending.map textOf).Nodup then .ok (some "")
  else misplacedClaim language data data.claims

def requireTopology (data : Data) : Checked Unit := do
  let misplaced ← validateTopology language data
  if misplaced.isSome then raise blockedFault else return ()

def validateStrictMutationTopology (data : Data) : Checked Unit := do
  requireTopology language data
  if data.claims.any (fun entry => hasStatus entry.2 "claimed" && isPending data entry.1) then
    raise blockedFault
  else return ()

def sortedIds (data : Data) : List String :=
  (data.claims.map Prod.fst).dedup.insertionSort (· ≤ ·)

def refuseActiveClaims (data : Data) : List String → Checked Unit
  | [] => .ok ()
  | id :: rest =>
    match claimOf data id with
    | .dict fields => do
      let active ← isIn (Json.get fields "status") ["claimed", "requeued"]
      if active then raise (claimConflict id) else refuseActiveClaims data rest
    | _ => raise attributeError

def validatePublicMutation (data : Data) : Checked Unit := do
  validateStrictMutationTopology language data
  refuseActiveClaims data (sortedIds data)

def enterLeaseGuard (ctx : Context) (lease : Credential) (refused : Fault) : Checked Unit :=
  match Lease.validate ctx.files lease ctx.guardNow with
  | .ok () => .ok ()
  | .error _ => raise refused

def claimExpiry (ttl : Ttl) (now : Instant) : Checked Instant :=
  (validatedClaimExpiry ttl now).mapError fun fault => ⟨fault, none⟩

structure Facts where
  state : String
  attempts : List Entries
  loadReason : String

def fitsInventory (id : String) (seen : List String) (attempt : Entries) : Bool :=
  isText (Json.get attempt "schema") attemptSchema &&
    textOf (Json.get attempt "attempt_id") != "" &&
    !seen.contains (textOf (Json.get attempt "attempt_id")) &&
    strOrEmpty language (Json.get attempt "operation_id") == id

def malformedInventory (id : String) : List String → List Entries → Checked Bool
  | _, [] => .ok false
  | seen, attempt :: rest =>
    if fitsInventory language id seen attempt then do
      let known ← isIn (Json.get attempt "status") attemptStatuses
      if known then malformedInventory id (textOf (Json.get attempt "attempt_id") :: seen) rest
      else return true
    else .ok true

def loadRecoveryFacts (ctx : Context) (id : String) : Checked Facts :=
  match ctx.loader id with
  | .notCallable => .ok ⟨"unavailable", [], "attempt_inventory_unavailable"⟩
  | .raised => .ok ⟨"unavailable", [], "operation_unavailable"⟩
  | .loaded state attempts =>
    if operationStates.contains state then do
      let malformed ← malformedInventory language id [] attempts
      return ⟨state, attempts, if malformed then "malformed_attempt_inventory" else ""⟩
    else .ok ⟨"unknown", [], "unknown_operation_state"⟩

def anyUnfinished : List Entries → Checked Bool
  | [] => .ok false
  | attempt :: rest => do
    let unfinished ← isIn (Json.get attempt "status") ["pending", "started"]
    if unfinished then return true else anyUnfinished rest

def anyUnfinishedItem : List Entries → Checked Bool
  | [] => .ok false
  | item :: rest =>
    match item.lookup "status" with
    | some status => do
      let unfinished ← isIn status ["pending", "started"]
      if unfinished then return true else anyUnfinishedItem rest
    | none => raise keyError

def specificClaimPurpose (facts : Facts) : Checked Purpose :=
  if facts.loadReason ≠ "" then raise blockedFault
  else if facts.state = "approved" ∧ facts.attempts.isEmpty then .ok .execution
  else if terminalRecoveryStates.contains facts.state then do
    let unfinished ← anyUnfinished facts.attempts
    if unfinished then raise blockedFault else return .terminalCleanup
  else raise blockedFault

def nextAttempt (previous : Json) : Checked Int :=
  match previous with
  | .dict claim => match Json.get claim "attempt" with
    | .int attempt =>
      if boundedInteger attempt 1 (maxTransitionEpoch - 1) then .ok (attempt + 1)
      else raise blockedFault
    | _ => raise blockedFault
  | _ => .ok 1

def inherited (previous : Json) : Entries :=
  match previous with
  | .dict claim => match Json.get claim "last_transition" with
    | .dict transition => [("last_transition", .dict transition)]
    | _ => []
  | _ => []

def newClaim (id : String) (lease : Credential) (attempt : Int) (expiresAt observedAt : Instant)
    (previous : Json) : Entries :=
  [("operation_id", .str id), ("status", .str "claimed"), ("owner_token", .str lease.ownerToken),
    ("process_instance_id", .str lease.processInstanceId), ("lease_epoch", .int lease.leaseEpoch),
    ("attempt", .int attempt), ("claimed_at", .str (language.isoformat ⟨true, observedAt⟩)),
    ("expires_at", .str (language.isoformat ⟨true, expiresAt⟩))] ++ inherited previous

def claimPending (data : Data) (id : String) (lease : Credential)
    (expiresAt observedAt : Instant) : Checked (Json × Data) := do
  let attempt ← nextAttempt (claimOf data id)
  let claim := Json.dict
    (newClaim language id lease attempt expiresAt observedAt (claimOf data id))
  return (claim, ⟨data.pending.eraseP (isText · id), assign id claim data.claims⟩)

/-- `_claim_unlocked` after the topology check. -/
def claimUnlocked (data : Data) (lease : Credential) (expiresAt observedAt : Instant) :
    Checked (Option Json × Data) :=
  match data.pending with
  | [] => .ok (none, data)
  | .str id :: _ =>
    if hasStatus (claimOf data id) "claimed" then raise (activeClaimConflict id)
    else do
      let (claim, saved) ← claimPending language data id lease expiresAt observedAt
      return (some claim, saved)
  | _ :: _ => raise typeError

def setClaim (data : Data) (id : String) (claim : Entries) : Data :=
  { data with claims := assign id (.dict claim) data.claims }

def blockClaim {α : Type} (scan : Scan) (data : Data) (id : String) (claim : Entries)
    (reason operationState : String) (attempts : List Entries) : Checked α := do
  let claim ← noted language scan claim "blocked" reason operationState attempts
  .error ⟨blockedFault, some (setClaim data id claim)⟩

def requeueClaim (scan : Scan) (data : Data) (id : String) (claim : Entries)
    (reason operationState : String) (attempts : List Entries) : Checked Data := do
  let claim ← noted language scan (assign "status" (.str "requeued") claim) "requeued" reason
    operationState attempts
  let saved := setClaim data id claim
  return if isPending data id then saved
    else { saved with pending := data.pending ++ [.str id] }

def completeClaimRecord (scan : Scan) (data : Data) (id : String) (claim : Entries)
    (reason operationState : String) (attempts : List Entries) : Checked Data := do
  let completed := assign "completed_at" (.str (language.isoformat scan.observedAt))
    (assign "status" (.str "completed") claim)
  let claim ← noted language scan completed "completed" reason operationState attempts
  return setClaim data id claim

def recoverExpiredClaim (ctx : Context) (scan : Scan) (data : Data) (id : String)
    (claim : Entries) : Checked (Bool × Data) := do
  let facts ← loadRecoveryFacts language ctx id
  let block reason : Checked (Bool × Data) :=
    blockClaim language scan data id claim reason facts.state facts.attempts
  if facts.loadReason ≠ "" then block facts.loadReason
  else if facts.state = "approved" ∧ facts.attempts.isEmpty then do
    let saved ← requeueClaim language scan data id claim "expired_pre_execution_claim" facts.state
      facts.attempts
    return (true, saved)
  else if facts.state = "approved" then block "approved_operation_has_attempts"
  else if isPending data id then block "operation_state_not_recoverable"
  else if activeStates.contains facts.state then
    block "active_operation_requires_startup_recovery"
  else if terminalRecoveryStates.contains facts.state then do
    let unfinished ← anyUnfinishedItem facts.attempts
    if unfinished then block "unfinished_attempt_requires_recovery"
    else do
      let saved ← completeClaimRecord language scan data id claim "terminal_operation" facts.state
        facts.attempts
      return (true, saved)
  else block "operation_state_not_recoverable"

def recoverClaim (ctx : Context) (scan : Scan) (data : Data) (id : String) :
    Checked (Bool × Data) :=
  match claimOf data id with
  | .dict claim =>
    let block reason : Checked (Bool × Data) :=
      blockClaim language scan data id claim reason "unavailable" []
    if ["completed", "requeued"].contains (strOrEmpty language (Json.get claim "status")) then
      .ok (false, data)
    else do
      let expiry ← parseTime language (strOrEmpty language (Json.get claim "expires_at"))
      match expiry with
      | none => block "invalid_claim_expiry"
      | some expiry =>
        let early ← isBefore scan.observedAt expiry
        if early then
          if isPending data id then block "legacy_claim_not_expired" else .ok (false, data)
        else match claim.lookup "lease_epoch" with
          | none => raise keyError
          | some epoch =>
            let priorEpoch ← toInt language epoch
            if scan.lease.leaseEpoch ≤ priorEpoch then block "lease_epoch_not_advanced"
            else recoverExpiredClaim language ctx scan data id claim
  | _ => raise attributeError

def recoverClaims (ctx : Context) (scan : Scan) :
    List String → Bool × Data → Checked (Bool × Data)
  | [], done => .ok done
  | id :: rest, (changed, data) => do
    let (again, data) ← recoverClaim language ctx scan data id
    recoverClaims ctx scan rest (changed || again, data)

/-- `_persist_blocker_if_possible`, and the raise after it. -/
def persistBlocker {α : Type} (scan : Scan) (data : Data) (id : String) : Checked α :=
  match claimOf data id with
  | .dict claim =>
    if validClaimIdentity claim then
      blockClaim language scan data id claim "invalid_queue_topology" "unavailable" []
    else raise blockedFault
  | _ => raise blockedFault

def recoverExpiredUnlocked (ctx : Context) (scan : Scan) (data : Data) :
    Checked (Bool × Data) := do
  let misplaced ← validateTopology language data
  match misplaced with
  | some id => persistBlocker language scan data id
  | none => recoverClaims language ctx scan (sortedIds data) (false, data)

def expectedClaim (snapshot : Option Entries) (current : Entries) : Entries :=
  match snapshot with
  | some (entry :: rest) => entry :: rest
  | _ => current

def claimMatches (current : Entries) (id : String) (lease : Credential)
    (snapshot : Option Entries) : Bool :=
  isText (Json.get current "status") "claimed" &&
    strOrEmpty language (Json.get current "operation_id") == id &&
    ["operation_id", "owner_token", "process_instance_id", "lease_epoch", "attempt"].all
      (fun field => language.equal (Json.get current field)
        (Json.get (expectedClaim snapshot current) field)) &&
    strOrEmpty language (Json.get current "owner_token") == lease.ownerToken

def exactCurrentClaim (current : Json) (id : String) (lease : Credential)
    (snapshot : Option Entries) : Checked Bool :=
  match current with
  | .dict current =>
    if claimMatches language current id lease snapshot then do
      let epoch ← intOrZero language (Json.get current "lease_epoch")
      return epoch == lease.leaseEpoch &&
        strOrEmpty language (Json.get current "process_instance_id") == lease.processInstanceId
    else .ok false
  | _ => .ok false

def sameDeferIsComplete (data : Data) (id : String) (current : Json) (snapshot : Entries)
    (lease : Credential) (reason : String) : Checked Bool :=
  match current with
  | .dict current =>
    if isText (Json.get current "status") "requeued" then
      match Json.get current "last_transition" with
      | .dict transition => do
        let ownerToken := strOrEmpty language (Json.get snapshot "owner_token")
        let prior ← projectProcessIdentity
          (strOrEmpty language (Json.get snapshot "process_instance_id")) ownerToken
          lease.ownerToken
        let now ← projectProcessIdentity lease.processInstanceId ownerToken lease.ownerToken
        let same (entries : Entries) (field : String) (value : Json) : Bool :=
          language.equal (Json.get entries field) value
        return data.pending.countP (isText · id) == 1 &&
          strOrEmpty language (Json.get current "operation_id") == id &&
          ["owner_token", "process_instance_id", "lease_epoch", "attempt"].all
            (fun field => same current field (Json.get snapshot field)) &&
          same current "owner_token" (.str lease.ownerToken) &&
          same current "process_instance_id" (.str lease.processInstanceId) &&
          same current "lease_epoch" (.int lease.leaseEpoch) &&
          same transition "disposition" (.str "requeued") &&
          same transition "reason" (.str reason) &&
          same transition "claim_attempt" (Json.get snapshot "attempt") &&
          same transition "prior_lease_epoch" (Json.get snapshot "lease_epoch") &&
          same transition "prior_process_instance_id" (.str prior) &&
          same transition "current_lease_epoch" (.int lease.leaseEpoch) &&
          same transition "current_process_instance_id" (.str now)
      | _ => .ok false
    else .ok false
  | _ => .ok false

inductive Reply where
  | done
  | pending (ids : List Json)
  | position (index : Option Nat)
  | head (id : Option Json)
  | claim (claim : Option Json)
  | specific (claim : Option (Purpose × Json))
  | changed (changed : Bool)

/-- What a call returns and what it saves, if it saves. -/
abbrev Outcome := Checked (Reply × Option Data)

def listPending (content : Content) : Outcome := do
  let data ← loadUnlocked language content
  return (.pending data.pending, none)

def position (id : String) (content : Content) : Outcome := do
  let data ← loadUnlocked language content
  return (.position (data.pending.findIdx? (isText · id)), none)

def peek (content : Content) : Outcome := do
  let data ← loadUnlocked language content
  return (.head data.pending.head?, none)

def enqueue (id : String) (content : Content) : Outcome := do
  let data ← loadUnlocked language content
  requireTopology language data
  if hasStatus (claimOf data id) "claimed" then raise (activeClaimConflict id)
  else if isPending data id then
    return (.position (data.pending.findIdx? (isText · id)), none)
  else return (.position (some data.pending.length),
    some { data with pending := data.pending ++ [.str id] })

def isKnown (data : Data) (id : String) : Bool :=
  isPending data id || (data.claims.lookup id).isSome

def dropPending (data : Data) (id : String) : Data :=
  { data with pending := data.pending.filter (!isText · id) }

def forgetClaim (data : Data) (id : String) : Data :=
  { data with claims := data.claims.filter (·.1 ≠ id) }

def remove (id : String) (content : Content) : Outcome := do
  let data ← loadUnlocked language content
  validatePublicMutation language data
  return (.done, if isKnown data id then some (forgetClaim (dropPending data id) id) else none)

def discardPending (id : String) (content : Content) : Outcome := do
  let data ← loadUnlocked language content
  validatePublicMutation language data
  return (.done, if isPending data id then some (dropPending data id) else none)

def dequeue (content : Content) : Outcome := do
  let data ← loadUnlocked language content
  validatePublicMutation language data
  return match data.pending with
    | [] => (.head none, none)
    | id :: rest => (.head (some id), some { data with pending := rest })

def claim (isOther : Char → Bool) (ctx : Context) (lease : Credential) (ttl : Ttl)
    (content : Content) : Outcome :=
  if validPublicClaimIdentity isOther lease.ownerToken &&
      validPublicClaimIdentity isOther lease.processInstanceId &&
      boundedInteger lease.leaseEpoch 1 maxTransitionEpoch then do
    let expiresAt ← claimExpiry ttl ctx.now
    let data ← loadUnlocked language content
    requireTopology language data
    let (claim, saved) ← claimUnlocked language data lease expiresAt ctx.now
    return (.claim claim, if claim.isSome then some saved else none)
  else raise (.invalid invalidQueueClaimParameters)

def claimFromLease (ctx : Context) (lease : Credential) (ttl : Ttl) (content : Content) :
    Outcome := do
  let expiresAt ← claimExpiry ttl ctx.now
  enterLeaseGuard ctx lease blockedFault
  let data ← loadUnlocked language content
  let (recovered, data) ← recoverExpiredUnlocked language ctx ⟨lease, ctx.moment⟩ data
  let (claim, saved) ← claimUnlocked language data lease expiresAt ctx.now
  return (.claim claim, if recovered || claim.isSome then some saved else none)

def claimSpecificFromLease (ctx : Context) (id : String) (lease : Credential)
    (content : Content) : Outcome := do
  let expiresAt ← claimExpiry defaultTtl ctx.now
  enterLeaseGuard ctx lease blockedFault
  let data ← loadUnlocked language content
  validateStrictMutationTopology language data
  if hasStatus (claimOf data id) "claimed" then raise (claimConflict id)
  else if isPending data id then do
    let facts ← loadRecoveryFacts language ctx id
    let purpose ← specificClaimPurpose facts
    let (claim, saved) ← claimPending language data id lease expiresAt ctx.now
    return (.specific (some (purpose, claim)), some saved)
  else return (.specific none, none)

def completeClaim (ctx : Context) (id ownerToken : String) (leaseEpoch : Int)
    (content : Content) : Outcome := do
  let data ← loadUnlocked language content
  match claimOf data id with
  | .dict current =>
    if isText (Json.get current "status") "claimed" &&
        strOrEmpty language (Json.get current "owner_token") == ownerToken then do
      let epoch ← intOrZero language (Json.get current "lease_epoch")
      if epoch = leaseEpoch then
        return (.done, some (setClaim data id
          (assign "completed_at" (.str (language.isoformat ctx.moment))
            (assign "status" (.str "completed") current))))
      else raise (claimConflict id)
    else raise (claimConflict id)
  | _ => raise (claimConflict id)

def completeClaimFromLease (ctx : Context) (id : String) (lease : Credential)
    (snapshot : Option Entries) (content : Content) : Outcome := do
  enterLeaseGuard ctx lease (claimConflict id)
  let data ← loadUnlocked language content
  let exactly ← exactCurrentClaim language (claimOf data id) id lease snapshot
  match exactly, claimOf data id with
  | true, .dict current =>
    let scan : Scan := ⟨lease, ctx.moment⟩
    let saved ← completeClaimRecord language scan data id current "claim_completed"
      "unavailable" []
    return (.done, some saved)
  | _, _ => raise (claimConflict id)

def completeAndRemoveClaimFromLease (ctx : Context) (id : String) (lease : Credential)
    (snapshot : Entries) (content : Content) : Outcome := do
  enterLeaseGuard ctx lease (claimConflict id)
  let data ← loadUnlocked language content
  validateStrictMutationTopology language data
  if isPending data id then raise blockedFault
  else if isText (Json.get snapshot "status") "claimed" then do
    let exactly ← exactCurrentClaim language (claimOf data id) id lease (some snapshot)
    if exactly then return (.done, some (forgetClaim data id)) else raise (claimConflict id)
  else raise (claimConflict id)

def deferClaimFromLease (ctx : Context) (id : String) (snapshot : Entries) (lease : Credential)
    (reason : String) (content : Content) : Outcome :=
  if ["max_concurrent_reached", "target_locked"].contains reason then do
    enterLeaseGuard ctx lease (claimConflict id)
    let data ← loadUnlocked language content
    let complete ← sameDeferIsComplete language data id (claimOf data id) snapshot lease reason
    if complete then return (.done, none)
    else do
      let exactly ← exactCurrentClaim language (claimOf data id) id lease (some snapshot)
      match exactly, claimOf data id with
      | true, .dict current =>
        let facts ← loadRecoveryFacts language ctx id
        if facts.loadReason ≠ "" ∨ facts.state ≠ "approved" ∨ ¬ facts.attempts.isEmpty then
          raise (claimConflict id)
        else if isPending data id then raise (claimConflict id)
        else do
          let scan : Scan := ⟨lease, ctx.moment⟩
          let saved ← requeueClaim language scan data id current reason facts.state
            facts.attempts
          return (.done, some saved)
      | _, _ => raise (claimConflict id)
  else raise (.invalid "unsupported queue deferral reason")

def removeCancelledFromLease (ctx : Context) (id : String) (lease : Credential)
    (content : Content) : Outcome := do
  enterLeaseGuard ctx lease blockedFault
  let data ← loadUnlocked language content
  validateStrictMutationTopology language data
  let facts ← loadRecoveryFacts language ctx id
  if facts.loadReason ≠ "" ∨ facts.state ≠ "cancelled" then raise blockedFault
  else do
    let unfinished ← anyUnfinished facts.attempts
    if unfinished then raise blockedFault
    else return (.done, if isKnown data id then some (forgetClaim (dropPending data id) id)
      else none)

def recoverExpiredClaimsFromLease (ctx : Context) (lease : Credential)
    (observedAt : Option Moment) (content : Content) : Outcome := do
  enterLeaseGuard ctx lease blockedFault
  let data ← loadUnlocked language content
  let (changed, saved) ← recoverExpiredUnlocked language ctx
    ⟨lease, observedAt.getD ctx.moment⟩ data
  return (.changed changed, if changed then some saved else none)

end Checks

end RExecOp.QueueFile
