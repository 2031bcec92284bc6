import Mathlib.Data.Rat.Floor
import RExecOp.Lib.Dict
import RExecOp.Attempts

/-! The run-now queue (`runtime_ops/queue.py`): a call is a function from the stored queue to
its result and the stored queue after it. -/

namespace RExecOp.RunNowQueue

open Lease (Instant Credential LeaseFiles)
open Attempts (attemptSchema)

def queueClaimRecoveryBlocked : String := "queue_claim_recovery_blocked"

def invalidQueueClaimParameters : String := "invalid_queue_claim_parameters"

def blockedFault : Fault := .invalid queueClaimRecoveryBlocked

def transitionSchema : String := "rexecop.queue_claim_transition.v0.1"

def maxTransitionAttemptCount : Nat := 1000000

def maxTransitionEpoch : Int := 2 ^ 63 - 1

def maxTransitionIdentityLength : Nat := 128

inductive ClaimStatus where
  | claimed
  | completed
  | requeued
  deriving DecidableEq, Repr

inductive Disposition where
  | blocked
  | completed
  | requeued
  deriving DecidableEq, Repr

inductive Reason where
  | activeOperationRequiresStartupRecovery
  | approvedOperationHasAttempts
  | attemptInventoryUnavailable
  | claimCompleted
  | expiredPreExecutionClaim
  | invalidClaimExpiry
  | invalidQueueTopology
  | leaseEpochNotAdvanced
  | legacyClaimNotExpired
  | malformedAttemptInventory
  | maxConcurrentReached
  | operationStateNotRecoverable
  | operationUnavailable
  | targetLocked
  | terminalOperation
  | unfinishedAttemptRequiresRecovery
  | unknownOperationState
  deriving DecidableEq, Repr

inductive RecordedState where
  | state (s : OperationState)
  | unavailable
  | unknown
  deriving DecidableEq, Repr

structure StatusCounts where
  completed : Nat
  failed : Nat
  indeterminate : Nat
  pending : Nat
  started : Nat
  deriving DecidableEq, Repr

def StatusCounts.total (c : StatusCounts) : Nat :=
  c.completed + c.failed + c.indeterminate + c.pending + c.started

structure TransitionRecord where
  privateSchema : String
  disposition : Disposition
  reason : Reason
  operationState : RecordedState
  attemptCount : Nat
  attemptStatusCounts : StatusCounts
  claimAttempt : Int
  priorLeaseEpoch : Int
  priorProcessInstanceId : String
  currentLeaseEpoch : Int
  currentProcessInstanceId : String
  recordedAt : Instant
  deriving DecidableEq, Repr

structure Claim where
  operationId : String
  status : ClaimStatus
  ownerToken : String
  processInstanceId : String
  leaseEpoch : Int
  attempt : Int
  claimedAt : Instant
  expiresAt : Option Instant
  completedAt : Option Instant
  lastTransition : Option TransitionRecord
  deriving DecidableEq, Repr

structure Queue where
  pending : List String
  claims : Dict String Claim

def Queue.empty : Queue := ⟨[], ∅⟩

/-- A status text outside the five known ones is `none`. -/
structure AttemptFacts where
  schema : String
  attemptId : String
  operationId : String
  status : Option AttemptStatus
  deriving DecidableEq, Repr

inductive Loaded where
  | notCallable
  | raised
  | loaded (state : Option OperationState) (attempts : List AttemptFacts)

structure Context where
  files : LeaseFiles
  guardNow : Instant
  now : Instant
  loader : String → Loaded

/-- `ttl_seconds`: a finite number, a non-finite float, or not a number. -/
inductive Ttl where
  | seconds (q : ℚ)
  | nonFinite
  | notNumeric

def boundedInteger (value minimum maximum : Int) : Bool :=
  decide (minimum ≤ value) && decide (value ≤ maximum)

def validClaimIdentity (claim : Claim) : Bool :=
  boundedInteger claim.leaseEpoch 1 maxTransitionEpoch &&
    boundedInteger claim.attempt 1 maxTransitionEpoch &&
    claim.ownerToken != "" && claim.processInstanceId != ""

def validBoundedIdentity (identity : String) : Bool :=
  identity != "" && decide (identity.length ≤ maxTransitionIdentityLength) &&
    !identity.toList.any (fun c => c == '\r' || c == '\n')

def boundedIdentity (value : String) : String :=
  if validBoundedIdentity value then value else "invalid"

def validTransitionRecord (t : TransitionRecord) : Bool :=
  t.privateSchema == transitionSchema &&
    decide (t.attemptCount ≤ maxTransitionAttemptCount) &&
    t.attemptStatusCounts.total == t.attemptCount &&
    boundedInteger t.claimAttempt 1 maxTransitionEpoch &&
    boundedInteger t.priorLeaseEpoch 1 maxTransitionEpoch &&
    boundedInteger t.currentLeaseEpoch 1 maxTransitionEpoch &&
    validBoundedIdentity t.priorProcessInstanceId &&
    validBoundedIdentity t.currentProcessInstanceId

def validLastTransition (claim : Claim) : Bool :=
  match claim.lastTransition with
  | none => true
  | some t => validTransitionRecord t

def loadUnlocked (stored : Queue) : Except Fault Queue :=
  if stored.claims.values.all validLastTransition then .ok stored else .error blockedFault

def misplacedClaim (data : Queue) (id : String) (claim : Claim) : Bool :=
  id == "" || claim.operationId != id || !validClaimIdentity claim ||
    (claim.status == .requeued && !data.pending.contains id)

def validateTopology (data : Queue) : Option String :=
  if data.pending.contains "" then some ""
  else if !decide data.pending.Nodup then some ""
  else data.claims.sortedKeys.find? (fun id =>
    match data.claims.get id with
    | some claim => misplacedClaim data id claim
    | none => false)

def hasStatus (data : Queue) (id : String) (status : ClaimStatus) : Bool :=
  match data.claims.get id with
  | some claim => claim.status == status
  | none => false

def validateStrictMutationTopology (data : Queue) : Except Fault Unit :=
  if (validateTopology data).isSome then .error blockedFault
  else if data.claims.sortedKeys.any
      (fun id => hasStatus data id .claimed && data.pending.contains id) then
    .error blockedFault
  else .ok ()

def claimConflict (id : String) : Fault :=
  .conflict ("concurrency_conflict: queue claim ownership lost for " ++ id)

def activeClaimConflict (id : String) : Fault :=
  .conflict ("concurrency_conflict: active queue claim exists for " ++ id)

def validatePublicMutation (data : Queue) : Except Fault Unit :=
  match validateStrictMutationTopology data with
  | .error fault => .error fault
  | .ok () =>
    match data.claims.sortedKeys.find?
        (fun id => hasStatus data id .claimed || hasStatus data id .requeued) with
    | some id => .error (claimConflict id)
    | none => .ok ()

def loadForPublicMutation (stored : Queue) : Except Fault Queue :=
  match loadUnlocked stored with
  | .error fault => .error fault
  | .ok data => (validatePublicMutation data).map fun _ => data

def loadForStrictMutation (stored : Queue) : Except Fault Queue :=
  match loadUnlocked stored with
  | .error fault => .error fault
  | .ok data => (validateStrictMutationTopology data).map fun _ => data

def loadForTopology (stored : Queue) : Except Fault Queue :=
  match loadUnlocked stored with
  | .error fault => .error fault
  | .ok data => if (validateTopology data).isSome then .error blockedFault else .ok data

def enterLeaseGuard (ctx : Context) (lease : Credential) (refused : Fault) : Except Fault Unit :=
  match Lease.validate ctx.files lease ctx.guardNow with
  | .ok () => .ok ()
  | .error _ => .error refused

def countStatus (attempts : List AttemptFacts) (status : AttemptStatus) (remaining : Nat) : Nat :=
  min (attempts.countP (·.status == some status)) remaining

def statusCounts (attempts : List AttemptFacts) : StatusCounts :=
  let remaining := maxTransitionAttemptCount
  let completed := countStatus attempts .completed remaining
  let remaining := remaining - completed
  let failed := countStatus attempts .failed remaining
  let remaining := remaining - failed
  let indeterminate := countStatus attempts .indeterminate remaining
  let remaining := remaining - indeterminate
  let pending := countStatus attempts .pending remaining
  let remaining := remaining - pending
  let started := countStatus attempts .started remaining
  ⟨completed, failed, indeterminate, pending, started⟩

def boundedEpoch (value : Int) : Int :=
  if boundedInteger value 1 maxTransitionEpoch then value else 0

def redactionMarkers : List String :=
  ["redacted-process-identity", "redacted-process-identity-2", "redacted-process-identity-3"]

def projectProcessIdentity (value priorOwnerToken currentOwnerToken : String) : String :=
  let bounded := boundedIdentity value
  let tokens := [priorOwnerToken, currentOwnerToken]
  if !tokens.contains bounded then bounded
  else (redactionMarkers.find? (fun marker => !tokens.contains marker)).getD ""

def transitionRecord (claim : Claim) (lease : Credential) (observedAt : Instant)
    (disposition : Disposition) (reason : Reason) (operationState : RecordedState)
    (attempts : List AttemptFacts) : TransitionRecord where
  privateSchema := transitionSchema
  disposition := disposition
  reason := reason
  operationState := operationState
  attemptCount := (statusCounts attempts).total
  attemptStatusCounts := statusCounts attempts
  claimAttempt := boundedEpoch claim.attempt
  priorLeaseEpoch := boundedEpoch claim.leaseEpoch
  priorProcessInstanceId :=
    projectProcessIdentity claim.processInstanceId claim.ownerToken lease.ownerToken
  currentLeaseEpoch := boundedEpoch lease.leaseEpoch
  currentProcessInstanceId :=
    projectProcessIdentity lease.processInstanceId claim.ownerToken lease.ownerToken
  recordedAt := observedAt

def malformedInventory (operationId : String) : List String → List AttemptFacts → Bool
  | _, [] => false
  | seen, attempt :: rest =>
    attempt.schema != attemptSchema || attempt.attemptId == "" ||
      seen.contains attempt.attemptId || attempt.operationId != operationId ||
      attempt.status.isNone || malformedInventory operationId (attempt.attemptId :: seen) rest

structure Facts where
  state : RecordedState
  attempts : List AttemptFacts
  loadReason : Option Reason

def loadRecoveryFacts (ctx : Context) (operationId : String) : Facts :=
  match ctx.loader operationId with
  | .notCallable => ⟨.unavailable, [], some .attemptInventoryUnavailable⟩
  | .raised => ⟨.unavailable, [], some .operationUnavailable⟩
  | .loaded none _ => ⟨.unknown, [], some .unknownOperationState⟩
  | .loaded (some state) attempts =>
    if malformedInventory operationId [] attempts then
      ⟨.state state, attempts, some .malformedAttemptInventory⟩
    else ⟨.state state, attempts, none⟩

def hasUnfinished (attempts : List AttemptFacts) : Bool :=
  attempts.any fun attempt => attempt.status == some .pending || attempt.status == some .started

inductive Purpose where
  | execution
  | terminalCleanup
  deriving DecidableEq, Repr

def specificClaimPurpose (facts : Facts) : Except Fault Purpose :=
  match facts with
  | ⟨_, _, some _⟩ => .error blockedFault
  | ⟨.state .approved, [], none⟩ => .ok .execution
  | ⟨.state state, attempts, none⟩ =>
    if state.isTerminalRecovery && !hasUnfinished attempts then .ok .terminalCleanup
    else .error blockedFault
  | ⟨_, _, none⟩ => .error blockedFault

def roundHalfEven (q : ℚ) : Int :=
  let below := ⌊q⌋
  let rest := q - below
  if rest < 1 / 2 then below
  else if 1 / 2 < rest then below + 1
  else if below % 2 = 0 then below
  else below + 1

def maxInstant : Instant := 253402300799999999

def validatedClaimExpiry (ttl : Ttl) (observedAt : Instant) : Except Fault Instant :=
  match ttl with
  | .seconds q =>
    let expiresAt := observedAt + roundHalfEven (q * 1000000)
    if q ≤ 0 then .error (.invalid invalidQueueClaimParameters)
    else if maxInstant < expiresAt then .error (.invalid invalidQueueClaimParameters)
    else if expiresAt ≤ observedAt then .error (.invalid invalidQueueClaimParameters)
    else .ok expiresAt
  | .nonFinite => .error (.invalid invalidQueueClaimParameters)
  | .notNumeric => .error (.invalid invalidQueueClaimParameters)

def defaultTtl : Ttl := .seconds 120

/-- `isOther` is `unicodedata.category(character).startswith("C")`. -/
def validPublicClaimIdentity (isOther : Char → Bool) (value : String) : Bool :=
  decide (0 < value.length) && decide (value.length ≤ maxTransitionIdentityLength) &&
    !value.toList.any isOther

def nextAttempt (previous : Option Claim) : Except Fault Int :=
  match previous with
  | none => .ok 1
  | some claim =>
    if boundedInteger claim.attempt 1 (maxTransitionEpoch - 1) then .ok (claim.attempt + 1)
    else .error blockedFault

def newClaim (operationId : String) (lease : Credential) (attempt : Int)
    (expiresAt observedAt : Instant) (previous : Option Claim) : Claim where
  operationId := operationId
  status := .claimed
  ownerToken := lease.ownerToken
  processInstanceId := lease.processInstanceId
  leaseEpoch := lease.leaseEpoch
  attempt := attempt
  claimedAt := observedAt
  expiresAt := some expiresAt
  completedAt := none
  lastTransition := previous.bind (·.lastTransition)

def claimPending (data : Queue) (operationId : String) (lease : Credential)
    (expiresAt observedAt : Instant) : Except Fault (Claim × Queue) :=
  match nextAttempt (data.claims.get operationId) with
  | .error fault => .error fault
  | .ok attempt =>
    let claim := newClaim operationId lease attempt expiresAt observedAt
      (data.claims.get operationId)
    .ok (claim, ⟨data.pending.erase operationId, data.claims.set operationId claim⟩)

def claimUnlocked (data : Queue) (lease : Credential) (expiresAt observedAt : Instant) :
    Except Fault (Option Claim × Queue) :=
  match data.pending with
  | [] => .ok (none, data)
  | operationId :: _ =>
    if hasStatus data operationId .claimed then .error (activeClaimConflict operationId)
    else (claimPending data operationId lease expiresAt observedAt).map
      fun (claim, saved) => (some claim, saved)

structure Scan where
  lease : Credential
  observedAt : Instant

def noted (scan : Scan) (claim : Claim) (disposition : Disposition) (reason : Reason)
    (facts : RecordedState × List AttemptFacts) : Claim :=
  { claim with
    lastTransition := some
      (transitionRecord claim scan.lease scan.observedAt disposition reason facts.1 facts.2) }

/-- `_block_claim`: the queue it writes before it raises. -/
def blockClaim (scan : Scan) (data : Queue) (id : String) (claim : Claim) (reason : Reason)
    (facts : RecordedState × List AttemptFacts) : Queue :=
  { data with claims := data.claims.set id (noted scan claim .blocked reason facts) }

def requeueClaim (scan : Scan) (data : Queue) (id : String) (claim : Claim) (reason : Reason)
    (facts : RecordedState × List AttemptFacts) : Queue where
  pending := if data.pending.contains id then data.pending else data.pending ++ [id]
  claims := data.claims.set id
    { noted scan claim .requeued reason facts with status := .requeued }

def completeClaimRecord (scan : Scan) (data : Queue) (id : String) (claim : Claim)
    (reason : Reason) (facts : RecordedState × List AttemptFacts) : Queue :=
  { data with
    claims := data.claims.set id
      { noted scan claim .completed reason facts with
        status := .completed
        completedAt := some scan.observedAt } }

def recoverExpiredClaim (ctx : Context) (scan : Scan) (data : Queue) (id : String)
    (claim : Claim) : Except Queue (Bool × Queue) :=
  let facts := loadRecoveryFacts ctx id
  let seen := (facts.state, facts.attempts)
  match facts.loadReason with
  | some reason => .error (blockClaim scan data id claim reason seen)
  | none =>
    if facts.state = .state .approved ∧ facts.attempts = [] then
      .ok (true, requeueClaim scan data id claim .expiredPreExecutionClaim seen)
    else if facts.state = .state .approved then
      .error (blockClaim scan data id claim .approvedOperationHasAttempts seen)
    else if data.pending.contains id then
      .error (blockClaim scan data id claim .operationStateNotRecoverable seen)
    else match facts.state with
      | .state state =>
        if state.isActive then
          .error (blockClaim scan data id claim .activeOperationRequiresStartupRecovery seen)
        else if state.isTerminalRecovery then
          if hasUnfinished facts.attempts then
            .error (blockClaim scan data id claim .unfinishedAttemptRequiresRecovery seen)
          else .ok (true, completeClaimRecord scan data id claim .terminalOperation seen)
        else .error (blockClaim scan data id claim .operationStateNotRecoverable seen)
      | _ => .error (blockClaim scan data id claim .operationStateNotRecoverable seen)

/-- An error carries the queue stored before the raise. -/
def recoverClaim (ctx : Context) (scan : Scan) (data : Queue) (id : String) :
    Except Queue (Bool × Queue) :=
  match data.claims.get id with
  | none => .ok (false, data)
  | some claim =>
    if claim.status ≠ .claimed then .ok (false, data)
    else match claim.expiresAt with
      | none => .error (blockClaim scan data id claim .invalidClaimExpiry (.unavailable, []))
      | some expiry =>
        if scan.observedAt < expiry then
          if data.pending.contains id then
            .error (blockClaim scan data id claim .legacyClaimNotExpired (.unavailable, []))
          else .ok (false, data)
        else if scan.lease.leaseEpoch ≤ claim.leaseEpoch then
          .error (blockClaim scan data id claim .leaseEpochNotAdvanced (.unavailable, []))
        else recoverExpiredClaim ctx scan data id claim

def recoverClaims (ctx : Context) (scan : Scan) :
    List String → Bool × Queue → Except Queue (Bool × Queue)
  | [], done => .ok done
  | id :: rest, (changed, data) =>
    match recoverClaim ctx scan data id with
    | .error saved => .error saved
    | .ok (again, data) => recoverClaims ctx scan rest (changed || again, data)

def persistBlockerIfPossible (scan : Scan) (data : Queue) (id : String) : Queue :=
  match data.claims.get id with
  | none => data
  | some claim =>
    if validClaimIdentity claim then
      blockClaim scan data id claim .invalidQueueTopology (.unavailable, [])
    else data

def recoverExpiredUnlocked (ctx : Context) (scan : Scan) (data : Queue) :
    Except Queue (Bool × Queue) :=
  match validateTopology data with
  | some id => .error (persistBlockerIfPossible scan data id)
  | none => recoverClaims ctx scan data.claims.sortedKeys (false, data)

def enqueue (operationId : String) (stored : Queue) : Except Fault Nat × Queue :=
  match loadForTopology stored with
  | .error fault => (.error fault, stored)
  | .ok data =>
    if hasStatus data operationId .claimed then (.error (activeClaimConflict operationId), stored)
    else if data.pending.contains operationId then (.ok (data.pending.idxOf operationId), stored)
    else
      let saved := { data with pending := data.pending ++ [operationId] }
      (.ok (saved.pending.idxOf operationId), saved)

def dropPending (data : Queue) (operationId : String) : Queue :=
  { data with pending := data.pending.filter (· ≠ operationId) }

def forget (data : Queue) (operationId : String) : Queue :=
  { dropPending data operationId with claims := data.claims.remove operationId }

def isKnown (data : Queue) (operationId : String) : Bool :=
  data.pending.contains operationId || (data.claims.get operationId).isSome

def remove (operationId : String) (stored : Queue) : Except Fault Unit × Queue :=
  match loadForPublicMutation stored with
  | .error fault => (.error fault, stored)
  | .ok data =>
    if isKnown data operationId then (.ok (), forget data operationId) else (.ok (), stored)

def discardPending (operationId : String) (stored : Queue) : Except Fault Unit × Queue :=
  match loadForPublicMutation stored with
  | .error fault => (.error fault, stored)
  | .ok data =>
    if data.pending.contains operationId then (.ok (), dropPending data operationId)
    else (.ok (), stored)

def dequeue (stored : Queue) : Except Fault (Option String) × Queue :=
  match loadForPublicMutation stored with
  | .error fault => (.error fault, stored)
  | .ok data => match data.pending with
    | [] => (.ok none, stored)
    | operationId :: rest => (.ok (some operationId), { data with pending := rest })

def claim (isOther : Char → Bool) (lease : Credential) (ttl : Ttl) (now : Instant)
    (stored : Queue) : Except Fault (Option Claim) × Queue :=
  if !validPublicClaimIdentity isOther lease.ownerToken ||
      !validPublicClaimIdentity isOther lease.processInstanceId ||
      !boundedInteger lease.leaseEpoch 1 maxTransitionEpoch then
    (.error (.invalid invalidQueueClaimParameters), stored)
  else match validatedClaimExpiry ttl now with
    | .error fault => (.error fault, stored)
    | .ok expiresAt => match loadForTopology stored with
      | .error fault => (.error fault, stored)
      | .ok data => match claimUnlocked data lease expiresAt now with
        | .error fault => (.error fault, stored)
        | .ok (none, _) => (.ok none, stored)
        | .ok (some claim, saved) => (.ok (some claim), saved)

def claimFromLease (ctx : Context) (lease : Credential) (ttl : Ttl) (stored : Queue) :
    Except Fault (Option Claim) × Queue :=
  match validatedClaimExpiry ttl ctx.now with
  | .error fault => (.error fault, stored)
  | .ok expiresAt => match enterLeaseGuard ctx lease blockedFault with
    | .error fault => (.error fault, stored)
    | .ok () => match loadUnlocked stored with
      | .error fault => (.error fault, stored)
      | .ok data => match recoverExpiredUnlocked ctx ⟨lease, ctx.now⟩ data with
        | .error saved => (.error blockedFault, saved)
        | .ok (recovered, data) => match claimUnlocked data lease expiresAt ctx.now with
          | .error fault => (.error fault, stored)
          | .ok (claim, saved) =>
            if recovered || claim.isSome then (.ok claim, saved) else (.ok claim, stored)

def claimSpecificFromLease (ctx : Context) (operationId : String) (lease : Credential)
    (stored : Queue) : Except Fault (Option (Purpose × Claim)) × Queue :=
  match validatedClaimExpiry defaultTtl ctx.now with
  | .error fault => (.error fault, stored)
  | .ok expiresAt => match enterLeaseGuard ctx lease blockedFault with
    | .error fault => (.error fault, stored)
    | .ok () => match loadForStrictMutation stored with
      | .error fault => (.error fault, stored)
      | .ok data =>
        if hasStatus data operationId .claimed then (.error (claimConflict operationId), stored)
        else if !data.pending.contains operationId then (.ok none, stored)
        else match specificClaimPurpose (loadRecoveryFacts ctx operationId) with
          | .error fault => (.error fault, stored)
          | .ok purpose => match claimPending data operationId lease expiresAt ctx.now with
            | .error fault => (.error fault, stored)
            | .ok (claim, saved) => (.ok (some (purpose, claim)), saved)

def completeClaim (operationId ownerToken : String) (leaseEpoch : Int) (now : Instant)
    (stored : Queue) : Except Fault Unit × Queue :=
  match loadUnlocked stored with
  | .error fault => (.error fault, stored)
  | .ok data => match data.claims.get operationId with
    | none => (.error (claimConflict operationId), stored)
    | some current =>
      if current.status ≠ .claimed ∨ current.ownerToken ≠ ownerToken ∨
          current.leaseEpoch ≠ leaseEpoch then
        (.error (claimConflict operationId), stored)
      else
        let done := { current with status := .completed, completedAt := some now }
        (.ok (), { data with claims := data.claims.set operationId done })

def sameTuple (current expected : Claim) : Bool :=
  current.operationId == expected.operationId && current.ownerToken == expected.ownerToken &&
    current.processInstanceId == expected.processInstanceId &&
    current.leaseEpoch == expected.leaseEpoch && current.attempt == expected.attempt

def exactCurrentClaim (current : Claim) (operationId : String) (lease : Credential)
    (snapshot : Option Claim) : Bool :=
  current.status == .claimed && current.operationId == operationId &&
    sameTuple current (snapshot.getD current) &&
    current.ownerToken == lease.ownerToken && current.leaseEpoch == lease.leaseEpoch &&
    current.processInstanceId == lease.processInstanceId

def completeClaimFromLease (ctx : Context) (operationId : String) (lease : Credential)
    (snapshot : Option Claim) (stored : Queue) : Except Fault Unit × Queue :=
  match enterLeaseGuard ctx lease (claimConflict operationId) with
  | .error fault => (.error fault, stored)
  | .ok () => match loadUnlocked stored with
    | .error fault => (.error fault, stored)
    | .ok data => match data.claims.get operationId with
      | none => (.error (claimConflict operationId), stored)
      | some current =>
        if exactCurrentClaim current operationId lease snapshot then
          (.ok (), completeClaimRecord ⟨lease, ctx.now⟩ data operationId current .claimCompleted
            (.unavailable, []))
        else (.error (claimConflict operationId), stored)

def completeAndRemoveClaimFromLease (ctx : Context) (operationId : String) (lease : Credential)
    (snapshot : Claim) (stored : Queue) : Except Fault Unit × Queue :=
  match enterLeaseGuard ctx lease (claimConflict operationId) with
  | .error fault => (.error fault, stored)
  | .ok () => match loadForStrictMutation stored with
    | .error fault => (.error fault, stored)
    | .ok data =>
      if data.pending.contains operationId then (.error blockedFault, stored)
      else match data.claims.get operationId with
        | none => (.error (claimConflict operationId), stored)
        | some current =>
          if snapshot.status == .claimed &&
              exactCurrentClaim current operationId lease (some snapshot) then
            (.ok (), { data with claims := data.claims.remove operationId })
          else (.error (claimConflict operationId), stored)

def sameDeferIsComplete (data : Queue) (operationId : String) (current snapshot : Claim)
    (lease : Credential) (reason : Reason) : Bool :=
  current.status == .requeued &&
    match current.lastTransition with
    | none => false
    | some t =>
      data.pending.count operationId == 1 && current.operationId == operationId &&
        current.ownerToken == snapshot.ownerToken &&
        current.processInstanceId == snapshot.processInstanceId &&
        current.leaseEpoch == snapshot.leaseEpoch && current.attempt == snapshot.attempt &&
        current.ownerToken == lease.ownerToken &&
        current.processInstanceId == lease.processInstanceId &&
        current.leaseEpoch == lease.leaseEpoch && t.disposition == .requeued &&
        t.reason == reason && t.claimAttempt == snapshot.attempt &&
        t.priorLeaseEpoch == snapshot.leaseEpoch &&
        t.priorProcessInstanceId ==
          projectProcessIdentity snapshot.processInstanceId snapshot.ownerToken lease.ownerToken &&
        t.currentLeaseEpoch == lease.leaseEpoch &&
        t.currentProcessInstanceId ==
          projectProcessIdentity lease.processInstanceId snapshot.ownerToken lease.ownerToken

def deferClaimFromLease (ctx : Context) (operationId : String) (snapshot : Claim)
    (lease : Credential) (reason : Reason) (stored : Queue) : Except Fault Unit × Queue :=
  if reason ≠ .maxConcurrentReached ∧ reason ≠ .targetLocked then
    (.error (.invalid "unsupported queue deferral reason"), stored)
  else match enterLeaseGuard ctx lease (claimConflict operationId) with
    | .error fault => (.error fault, stored)
    | .ok () => match loadUnlocked stored with
      | .error fault => (.error fault, stored)
      | .ok data => match data.claims.get operationId with
        | none => (.error (claimConflict operationId), stored)
        | some current =>
          let facts := loadRecoveryFacts ctx operationId
          if sameDeferIsComplete data operationId current snapshot lease reason then
            (.ok (), stored)
          else if !exactCurrentClaim current operationId lease (some snapshot) then
            (.error (claimConflict operationId), stored)
          else if facts.loadReason.isSome ∨ facts.state ≠ .state .approved ∨
              facts.attempts ≠ [] then
            (.error (claimConflict operationId), stored)
          else if data.pending.contains operationId then
            (.error (claimConflict operationId), stored)
          else (.ok (), requeueClaim ⟨lease, ctx.now⟩ data operationId current reason
            (facts.state, facts.attempts))

def removeCancelledFromLease (ctx : Context) (operationId : String) (lease : Credential)
    (stored : Queue) : Except Fault Unit × Queue :=
  match enterLeaseGuard ctx lease blockedFault with
  | .error fault => (.error fault, stored)
  | .ok () => match loadForStrictMutation stored with
    | .error fault => (.error fault, stored)
    | .ok data =>
      let facts := loadRecoveryFacts ctx operationId
      if facts.loadReason.isSome ∨ facts.state ≠ .state .cancelled ∨
          hasUnfinished facts.attempts then
        (.error blockedFault, stored)
      else if isKnown data operationId then (.ok (), forget data operationId)
      else (.ok (), stored)

def recoverExpiredClaimsFromLease (ctx : Context) (lease : Credential) (observedAt : Instant)
    (stored : Queue) : Except Fault Bool × Queue :=
  match enterLeaseGuard ctx lease blockedFault with
  | .error fault => (.error fault, stored)
  | .ok () => match loadUnlocked stored with
    | .error fault => (.error fault, stored)
    | .ok data => match recoverExpiredUnlocked ctx ⟨lease, observedAt⟩ data with
      | .error saved => (.error blockedFault, saved)
      | .ok (true, saved) => (.ok true, saved)
      | .ok (false, _) => (.ok false, stored)

end RExecOp.RunNowQueue
