import RExecOp.QueueDeferral
import RExecOp.QueueTransitions

/-! The queue over its file against the queue of typed records: a file that holds a typed queue
answers every call as that queue does, and holds what the call leaves. -/

namespace RExecOp

namespace RunNowQueue

def ClaimStatus.value : ClaimStatus → String
  | .claimed => "claimed"
  | .completed => "completed"
  | .requeued => "requeued"

def Disposition.value : Disposition → String
  | .blocked => "blocked"
  | .completed => "completed"
  | .requeued => "requeued"

def Reason.value : Reason → String
  | .activeOperationRequiresStartupRecovery => "active_operation_requires_startup_recovery"
  | .approvedOperationHasAttempts => "approved_operation_has_attempts"
  | .attemptInventoryUnavailable => "attempt_inventory_unavailable"
  | .claimCompleted => "claim_completed"
  | .expiredPreExecutionClaim => "expired_pre_execution_claim"
  | .invalidClaimExpiry => "invalid_claim_expiry"
  | .invalidQueueTopology => "invalid_queue_topology"
  | .leaseEpochNotAdvanced => "lease_epoch_not_advanced"
  | .legacyClaimNotExpired => "legacy_claim_not_expired"
  | .malformedAttemptInventory => "malformed_attempt_inventory"
  | .maxConcurrentReached => "max_concurrent_reached"
  | .operationStateNotRecoverable => "operation_state_not_recoverable"
  | .operationUnavailable => "operation_unavailable"
  | .targetLocked => "target_locked"
  | .terminalOperation => "terminal_operation"
  | .unfinishedAttemptRequiresRecovery => "unfinished_attempt_requires_recovery"
  | .unknownOperationState => "unknown_operation_state"

def RecordedState.value : RecordedState → String
  | .state s => s.value
  | .unavailable => "unavailable"
  | .unknown => "unknown"

theorem ClaimStatus.value_beq (a b : ClaimStatus) : (a.value == b.value) = (a == b) := by
  cases a <;> cases b <;> rfl

theorem Disposition.value_beq (a b : Disposition) : (a.value == b.value) = (a == b) := by
  cases a <;> cases b <;> rfl

theorem Reason.value_beq (a b : Reason) : (a.value == b.value) = (a == b) := by
  cases a <;> cases b <;> rfl

theorem Reason.value_ne (a : Reason) : a.value ≠ "" := by cases a <;> decide

theorem RecordedState.value_eq_iff (a : RecordedState) (s : OperationState) :
    a.value = s.value ↔ a = .state s := by
  cases a with
  | state other => cases other <;> cases s <;> decide
  | unavailable => cases s <;> decide
  | unknown => cases s <;> decide

end RunNowQueue

namespace QueueFile

open Lease (Instant Credential)
open Assoc (assign lookup_assign keys_assign lookup_filter_ne lookup_of_mem)
open RunNowQueue (Queue Claim ClaimStatus Disposition Reason RecordedState StatusCounts
  TransitionRecord AttemptFacts Topology Intact Ttl Purpose ValidLease blockedFault claimConflict
  validatedClaimExpiry hasUnfinished)

def statusText : Option AttemptStatus → String
  | some .pending => "pending"
  | some .started => "started"
  | some .completed => "completed"
  | some .failed => "failed"
  | some .indeterminate => "indeterminate"
  | none => ""

theorem statusText_beq (found : Option AttemptStatus) (status : AttemptStatus) :
    (statusText found == statusText (some status)) = (found == some status) := by
  cases found with
  | none => cases status <;> rfl
  | some found => cases found <;> cases status <;> rfl

def encodeCounts (c : StatusCounts) : List (String × Nat) :=
  [("completed", c.completed), ("failed", c.failed), ("indeterminate", c.indeterminate),
    ("pending", c.pending), ("started", c.started)]

def encodeAttempt (a : AttemptFacts) : Entries :=
  [("schema", .str a.schema), ("attempt_id", .str a.attemptId),
    ("operation_id", .str a.operationId), ("status", .str (statusText a.status))]

def encodeLoaded : RunNowQueue.Loaded → Loaded
  | .notCallable => .notCallable
  | .raised => .raised
  | .loaded state attempts =>
    .loaded (state.elim "" OperationState.value) (attempts.map encodeAttempt)

def encodeContext (ctx : RunNowQueue.Context) : Context :=
  ⟨ctx.files, ctx.guardNow, ctx.now, fun id => encodeLoaded (ctx.loader id)⟩

theorem encodeContext_now (ctx : RunNowQueue.Context) : (encodeContext ctx).now = ctx.now := rfl

def encodeFacts (facts : RunNowQueue.Facts) : Facts :=
  ⟨facts.state.value, facts.attempts.map encodeAttempt, facts.loadReason.elim "" (·.value)⟩

section Records

variable (language : Language)

def timeText (t : Instant) : Json := .str (language.isoformat ⟨true, t⟩)

def encodeRecord (t : TransitionRecord) : Entries :=
  [("private_schema", .str t.privateSchema), ("disposition", .str t.disposition.value),
    ("reason", .str t.reason.value), ("operation_state", .str t.operationState.value),
    ("attempt_count", .int t.attemptCount),
    ("attempt_status_counts",
      .dict ((encodeCounts t.attemptStatusCounts).map fun count => (count.1, .int count.2))),
    ("claim_attempt", .int t.claimAttempt), ("prior_lease_epoch", .int t.priorLeaseEpoch),
    ("prior_process_instance_id", .str t.priorProcessInstanceId),
    ("current_lease_epoch", .int t.currentLeaseEpoch),
    ("current_process_instance_id", .str t.currentProcessInstanceId),
    ("recorded_at", timeText language t.recordedAt)]

structure Identifies (fields : Entries) (c : Claim) : Prop where
  operationId : Json.get fields "operation_id" = .str c.operationId
  status : Json.get fields "status" = .str c.status.value
  ownerToken : Json.get fields "owner_token" = .str c.ownerToken
  processInstanceId : Json.get fields "process_instance_id" = .str c.processInstanceId
  leaseEpoch : Json.get fields "lease_epoch" = .int c.leaseEpoch
  attempt : Json.get fields "attempt" = .int c.attempt

/-- The record holds the claim, as far as the code reads it. -/
structure Holds (fields : Entries) (c : Claim) : Prop extends Identifies fields c where
  claimedAt : Json.get fields "claimed_at" = timeText language c.claimedAt
  expiresAt : parseTime language (strOrEmpty language (Json.get fields "expires_at")) =
    .ok c.expiresAt
  completedAt : fields.lookup "completed_at" = c.completedAt.map (timeText language)
  lastTransition : fields.lookup "last_transition" =
    c.lastTransition.map fun t => .dict (encodeRecord language t)

def HoldsClaim (value : Json) (c : Claim) : Prop :=
  ∃ fields, value = .dict fields ∧ Holds language fields c

/-- The data of the file hold the queue. -/
structure Matches (data : Data) (q : Queue) : Prop where
  pending : data.pending = q.pending.map Json.str
  keys : (data.claims.map Prod.fst).Nodup
  claims : ∀ id, data.claims.lookup id = none ∧ q.claims.get id = none ∨
    ∃ fields c, data.claims.lookup id = some (.dict fields) ∧ q.claims.get id = some c ∧
      Holds language fields c

end Records

@[simp] theorem strOrEmpty_str (language : Language) (s : String) :
    strOrEmpty language (.str s) = s := by
  by_cases blank : s = ""
  · subst blank
    rfl
  · simp [strOrEmpty, Json.orElse, Json.truthy, blank]

@[simp] theorem intOrZero_int (language : Language) (n : Int) :
    intOrZero language (.int n) = .ok n := by
  by_cases zero : n = 0
  · subst zero
    rfl
  · simp [intOrZero, Json.orElse, Json.truthy, zero, toInt]

section Holds

variable {language : Language} {fields : Entries} {c : Claim}

theorem Holds.assign_status (holds : Holds language fields c) (s : ClaimStatus) :
    Holds language (assign "status" (.str s.value) fields)
      { c with status := s } := by
  obtain ⟨⟨_, _, _, _, _, _⟩, _, _, _, _⟩ := holds
  refine ⟨⟨?_, ?_, ?_, ?_, ?_, ?_⟩, ?_, ?_, ?_, ?_⟩ <;> simp_all [Json.get, lookup_assign]

theorem Holds.assign_completedAt (holds : Holds language fields c) (at_ : Instant) :
    Holds language (assign "completed_at" (timeText language at_) fields)
      { c with completedAt := some at_ } := by
  obtain ⟨⟨_, _, _, _, _, _⟩, _, _, _, _⟩ := holds
  refine ⟨⟨?_, ?_, ?_, ?_, ?_, ?_⟩, ?_, ?_, ?_, ?_⟩ <;> simp_all [Json.get, lookup_assign]

theorem Holds.assign_lastTransition (holds : Holds language fields c) (t : TransitionRecord) :
    Holds language (assign "last_transition" (.dict (encodeRecord language t)) fields)
      { c with lastTransition := some t } := by
  obtain ⟨⟨_, _, _, _, _, _⟩, _, _, _, _⟩ := holds
  refine ⟨⟨?_, ?_, ?_, ?_, ?_, ?_⟩, ?_, ?_, ?_, ?_⟩ <;> simp_all [Json.get, lookup_assign]

theorem statusCounts_encode (attempts : List AttemptFacts) :
    statusCounts (attempts.map encodeAttempt) attemptStatuses
        RunNowQueue.maxTransitionAttemptCount =
      encodeCounts (RunNowQueue.statusCounts attempts) := by
  have counted (status : AttemptStatus) : (attempts.map encodeAttempt).countP
      (fun attempt => isText (Json.get attempt "status") (statusText (some status))) =
        attempts.countP (·.status == some status) := by
    rw [List.countP_map]
    exact List.countP_congr fun a _ => Bool.eq_iff_iff.mp (statusText_beq a.status status)
  have spelled : attemptStatuses = [.completed, .failed, .indeterminate, .pending, .started].map
      fun status => statusText (some status) := rfl
  simp only [spelled, List.map_cons, List.map_nil, statusCounts, counted]
  rfl

theorem encodeCounts_sum (c : StatusCounts) : ((encodeCounts c).map Prod.snd).sum = c.total := by
  simp only [encodeCounts, List.map_cons, List.map_nil, List.sum_cons, List.sum_nil,
    StatusCounts.total]
  omega

theorem transitionRecord_encode (identifies : Identifies fields c) (lease : Credential)
    (observedAt : Instant) (disposition : Disposition) (reason : Reason) (state : RecordedState)
    (attempts : List AttemptFacts) :
    transitionRecord language ⟨lease, ⟨true, observedAt⟩⟩ fields disposition.value reason.value
        state.value (attempts.map encodeAttempt) =
      .ok (.dict (encodeRecord language (RunNowQueue.transitionRecord c lease observedAt
        disposition reason state attempts))) := by
  simp only [transitionRecord, statusCounts_encode, encodeCounts_sum, projectProcessIdentity_eq,
    identifies.ownerToken, identifies.processInstanceId, identifies.attempt,
    identifies.leaseEpoch, strOrEmpty_str]
  rfl

theorem Holds.noted (holds : Holds language fields c) (lease : Credential) (observedAt : Instant)
    (disposition : Disposition) (reason : Reason) (facts : RecordedState × List AttemptFacts) :
    ∃ record, noted language ⟨lease, ⟨true, observedAt⟩⟩ fields disposition.value reason.value
        facts.1.value (facts.2.map encodeAttempt) = .ok record ∧
      Holds language record (RunNowQueue.noted ⟨lease, observedAt⟩ c disposition reason facts) := by
  refine ⟨_, ?_, holds.assign_lastTransition _⟩
  rw [QueueFile.noted, transitionRecord_encode holds.toIdentifies]
  rfl

end Holds

section Matches

variable {language : Language} {data : Data} {q : Queue} {c : Claim} {fields : Entries}

theorem Matches.empty : Matches language ⟨[], []⟩ .empty :=
  ⟨rfl, List.nodup_nil, fun _ => .inl ⟨rfl, Dict.get_empty _⟩⟩

theorem Matches.setPending (matched : Matches language data q) (pending : List String) :
    Matches language { data with pending := pending.map Json.str } { q with pending } :=
  ⟨rfl, matched.keys, matched.claims⟩

theorem Matches.set (matched : Matches language data q) (id : String)
    (holds : Holds language fields c) :
    Matches language (setClaim data id fields) { q with claims := q.claims.set id c } where
  pending := matched.pending
  keys := by
    rw [setClaim, keys_assign]
    split
    · exact matched.keys
    · next absent => exact List.nodup_append.mpr ⟨matched.keys, List.nodup_singleton _,
        fun _ inside _ here same => absent (List.mem_singleton.mp here ▸ same ▸ inside)⟩
  claims other := by
    by_cases same : other = id
    · subst same
      rw [setClaim, lookup_assign, if_pos rfl, Dict.get_set_self]
      exact .inr ⟨fields, c, rfl, rfl, holds⟩
    · rw [setClaim, lookup_assign, if_neg same, Dict.get_set_ne _ _ same]
      exact matched.claims other

theorem Matches.remove (matched : Matches language data q) (id : String) :
    Matches language (forgetClaim data id) { q with claims := q.claims.remove id } where
  pending := matched.pending
  keys := matched.keys.sublist (List.filter_sublist.map _)
  claims other := by
    rw [forgetClaim, lookup_filter_ne, Dict.get_remove]
    split
    · exact .inl ⟨rfl, rfl⟩
    · exact matched.claims other

theorem Matches.found (matched : Matches language data q) {id : String}
    (found : q.claims.get id = some c) :
    ∃ fields, claimOf data id = .dict fields ∧ Holds language fields c := by
  rcases matched.claims id with ⟨-, none⟩ | ⟨fields, d, here, there, holds⟩
  · cases none.symm.trans found
  · cases there.symm.trans found
    exact ⟨fields, by rw [claimOf, Json.get, here, Option.getD_some], holds⟩

theorem Matches.absent (matched : Matches language data q) {id : String}
    (absent : q.claims.get id = none) : claimOf data id = .null := by
  rcases matched.claims id with ⟨gone, -⟩ | ⟨_, _, _, there, _⟩
  · rw [claimOf, Json.get, gone, Option.getD_none]
  · cases there.symm.trans absent

theorem Matches.isPending (matched : Matches language data q) (id : String) :
    isPending data id = q.pending.contains id := by
  rw [QueueFile.isPending, matched.pending, List.any_map, List.contains_eq_any_beq]
  exact congrArg q.pending.any (funext fun s => Bool.beq_comm)

theorem Matches.hasStatus (matched : Matches language data q) (id : String) (s : ClaimStatus) :
    hasStatus (claimOf data id) s.value = RunNowQueue.hasStatus q id s := by
  unfold RunNowQueue.hasStatus
  cases found : q.claims.get id with
  | none =>
    rw [matched.absent found]
    rfl
  | some c =>
    obtain ⟨fields, here, holds⟩ := matched.found found
    rw [here, QueueFile.hasStatus, holds.status]
    exact ClaimStatus.value_beq _ _

end Matches

section Facts

variable (language : Language)

theorem fitsInventory_encode (id : String) (seen : List String) (a : AttemptFacts) :
    fitsInventory language id seen (encodeAttempt a) =
      !(a.schema != Attempts.attemptSchema || a.attemptId == "" || seen.contains a.attemptId ||
        a.operationId != id) := by
  have fields : fitsInventory language id seen (encodeAttempt a) =
      (a.schema == Attempts.attemptSchema && a.attemptId != "" && !seen.contains a.attemptId &&
        strOrEmpty language (.str a.operationId) == id) := rfl
  rw [fields, strOrEmpty_str]
  simp only [Bool.not_or, bne, Bool.not_not]

theorem malformedInventory_encode (id : String) (seen : List String)
    (attempts : List AttemptFacts) :
    malformedInventory language id seen (attempts.map encodeAttempt) =
      .ok (RunNowQueue.malformedInventory id seen attempts) := by
  induction attempts generalizing seen with
  | nil => rfl
  | cons a rest ih =>
    have known : isIn (Json.get (encodeAttempt a) "status") attemptStatuses =
        .ok !a.status.isNone := by
      obtain ⟨_, _, _, status⟩ := a
      rcases status with _ | _ | _ | _ | _ | _ <;> rfl
    have named : textOf (Json.get (encodeAttempt a) "attempt_id") = a.attemptId := rfl
    rw [List.map_cons, malformedInventory, RunNowQueue.malformedInventory, fitsInventory_encode,
      known, named, ih]
    generalize (a.schema != Attempts.attemptSchema || a.attemptId == "" ||
      seen.contains a.attemptId || a.operationId != id) = unfit
    cases unfit <;> cases a.status.isNone <;> rfl

theorem loadRecoveryFacts_encode (ctx : RunNowQueue.Context) (id : String) :
    loadRecoveryFacts language (encodeContext ctx) id =
      .ok (encodeFacts (RunNowQueue.loadRecoveryFacts ctx id)) := by
  unfold loadRecoveryFacts RunNowQueue.loadRecoveryFacts
  simp only [encodeContext]
  cases ctx.loader id with
  | notCallable => rfl
  | raised => rfl
  | loaded state attempts =>
    cases state with
    | none => rfl
    | some state =>
      have known : operationStates.contains state.value = true := by cases state <;> decide
      simp only [encodeLoaded, Option.elim, known, if_true, malformedInventory_encode]
      cases RunNowQueue.malformedInventory id [] attempts <;> rfl

theorem isIn_unfinished (a : AttemptFacts) :
    isIn (Json.get (encodeAttempt a) "status") ["pending", "started"] =
      .ok (a.status == some .pending || a.status == some .started) := by
  obtain ⟨_, _, _, status⟩ := a
  rcases status with _ | _ | _ | _ | _ | _ <;> rfl

theorem anyUnfinished_encode (attempts : List AttemptFacts) :
    anyUnfinished (attempts.map encodeAttempt) = .ok (hasUnfinished attempts) := by
  induction attempts with
  | nil => rfl
  | cons a rest ih =>
    have unfinished : hasUnfinished (a :: rest) =
        ((a.status == some .pending || a.status == some .started) ||
          hasUnfinished rest) := rfl
    rw [List.map_cons, anyUnfinished, isIn_unfinished, ih, unfinished]
    cases a.status == some .pending || a.status == some .started <;> rfl

theorem anyUnfinishedItem_encode (attempts : List AttemptFacts) :
    anyUnfinishedItem (attempts.map encodeAttempt) =
      anyUnfinished (attempts.map encodeAttempt) := by
  have same (a : AttemptFacts) (rest : List Entries) : anyUnfinishedItem (encodeAttempt a :: rest) =
      isIn (Json.get (encodeAttempt a) "status") ["pending", "started"] >>= fun unfinished =>
        if unfinished then pure true else anyUnfinishedItem rest := rfl
  induction attempts with
  | nil => rfl
  | cons a rest ih => rw [List.map_cons, same, ih, anyUnfinished]

theorem loadReason_encode (facts : RunNowQueue.Facts) :
    ((encodeFacts facts).loadReason ≠ "") = (facts.loadReason.isSome = true) := by
  obtain ⟨_, _, reason⟩ := facts
  cases reason with
  | none => exact propext ⟨fun differ => absurd rfl differ, fun some => by cases some⟩
  | some reason => exact propext ⟨fun _ => rfl, fun _ => reason.value_ne⟩

theorem state_encode (facts : RunNowQueue.Facts) (s : OperationState) :
    ((encodeFacts facts).state = s.value) = (facts.state = .state s) :=
  propext (facts.state.value_eq_iff s)

def lift {α : Type} (x : Except Fault α) : Checked α := x.mapError fun fault => ⟨fault, none⟩

theorem enterLeaseGuard_encode (ctx : RunNowQueue.Context) (lease : Credential)
    (refused : Fault) : enterLeaseGuard (encodeContext ctx) lease refused =
      lift (RunNowQueue.enterLeaseGuard ctx lease refused) := by
  unfold enterLeaseGuard RunNowQueue.enterLeaseGuard
  simp only [encodeContext]
  cases Lease.validate ctx.files lease ctx.guardNow <;> rfl

theorem specificClaimPurpose_encode (facts : RunNowQueue.Facts) :
    specificClaimPurpose (encodeFacts facts) = lift (RunNowQueue.specificClaimPurpose facts) := by
  obtain ⟨state, attempts, reason⟩ := facts
  cases reason with
  | some reason => exact if_pos reason.value_ne
  | none =>
    have purpose : specificClaimPurpose (encodeFacts ⟨state, attempts, none⟩) =
        if state.value = OperationState.approved.value ∧ (attempts.map encodeAttempt).isEmpty then
          .ok .execution
        else if terminalRecoveryStates.contains state.value then
          anyUnfinished (attempts.map encodeAttempt) >>= fun unfinished =>
            if unfinished then raise blockedFault else pure .terminalCleanup
        else raise blockedFault := rfl
    rw [purpose, anyUnfinished_encode]
    cases state with
    | unavailable => rfl
    | unknown => rfl
    | state s =>
      cases attempts with
      | nil => cases s <;> rfl
      | cons a rest =>
        have typed : RunNowQueue.specificClaimPurpose ⟨.state s, a :: rest, none⟩ =
            if s.isTerminalRecovery && !hasUnfinished (a :: rest) then
              .ok .terminalCleanup
            else .error blockedFault := by cases s <;> rfl
        rw [typed]
        generalize hasUnfinished (a :: rest) = unfinished
        cases s <;> cases unfinished <;> rfl

end Facts

section Checks

variable {language : Language} {data : Data} {q : Queue} {c : Claim} {fields : Entries}
  {id : String}

theorem Matches.stored (matched : Matches language data q) {entry : String × Json}
    (inside : entry ∈ data.claims) :
    ∃ fields c, entry.2 = .dict fields ∧ q.claims.get entry.1 = some c ∧
      Holds language fields c := by
  have looked := lookup_of_mem matched.keys inside
  rcases matched.claims entry.1 with ⟨gone, -⟩ | ⟨fields, c, here, there, holds⟩
  · cases gone.symm.trans looked
  · exact ⟨fields, c, (Option.some.inj (here.symm.trans looked)).symm, there, holds⟩

theorem validClaimIdentity_encode (identifies : Identifies fields c) :
    validClaimIdentity fields = RunNowQueue.validClaimIdentity c := by
  simp only [validClaimIdentity, identifies.leaseEpoch, identifies.attempt,
    identifies.ownerToken, identifies.processInstanceId]
  rfl

theorem misplacedClaim_eq_none (matched : Matches language data q) (topology : Topology q)
    {entries : Entries} (inside : entries ⊆ data.claims) :
    misplacedClaim language data entries = .ok none := by
  induction entries with
  | nil => rfl
  | cons entry rest ih =>
    obtain ⟨id, value⟩ := entry
    obtain ⟨fields, c, rfl, found, holds⟩ := matched.stored (inside List.mem_cons_self)
    have placed := topology.placed id c found
    have known : isIn (Json.get fields "status") claimStatuses = .ok true := by
      rw [holds.status]
      cases c.status <;> rfl
    have own : (strOrEmpty language (Json.get fields "operation_id") == id) = true := by
      rw [holds.operationId, strOrEmpty_str, placed.key]
      exact beq_self_eq_true id
    have valid : validClaimIdentity fields = true :=
      (validClaimIdentity_encode holds.toIdentifies).trans
        (RunNowQueue.validClaimIdentity_iff.mpr placed.valid)
    have requeued : (hasStatus (.dict fields) "requeued" && !isPending data id) = false := by
      rw [hasStatus, holds.status, matched.isPending]
      cases status : c.status with
      | requeued => simpa [isText, ClaimStatus.value] using placed.requeued status
      | _ => rfl
    rw [misplacedClaim, if_neg placed.named, known, ← ih (List.subset_of_cons_subset inside)]
    simp only [bind, Except.bind, own, valid, requeued, Bool.and_true, Bool.not_false, if_true]

theorem validateTopology_encode (matched : Matches language data q) (topology : Topology q) :
    validateTopology language data = .ok none := by
  have named : data.pending.any (fun item => textOf item == "") = false := by
    rw [matched.pending, List.any_map, List.any_eq_false]
    intro id inside blank
    exact topology.named (beq_iff_eq.mp blank ▸ inside)
  have nodup : decide (data.pending.map textOf).Nodup = true := by
    rw [matched.pending, List.map_map, decide_eq_true_iff]
    exact (List.map_id q.pending).symm ▸ topology.nodup
  simp only [validateTopology, named, nodup, Bool.false_eq_true, if_false, Bool.not_true]
  exact misplacedClaim_eq_none matched topology (List.Subset.refl _)

theorem requireTopology_encode (matched : Matches language data q) (topology : Topology q) :
    requireTopology language data = .ok () := by
  rw [requireTopology, validateTopology_encode matched topology]
  rfl

theorem validateStrict_encode (matched : Matches language data q) (topology : Topology q) :
    validateStrictMutationTopology language data = .ok () := by
  have apart : data.claims.any
      (fun entry => hasStatus entry.2 "claimed" && isPending data entry.1) = false := by
    rw [List.any_eq_false]
    intro entry inside both
    obtain ⟨fields, c, same, found, holds⟩ := matched.stored inside
    obtain ⟨claimed, waiting⟩ := Bool.and_eq_true_iff.mp both
    rw [matched.isPending, List.contains_iff_mem] at waiting
    rw [same, hasStatus, holds.status] at claimed
    refine (topology.placed entry.1 c found).claimed ?_ waiting
    cases status : c.status with
    | claimed => rfl
    | _ =>
      rw [status] at claimed
      cases claimed
  rw [validateStrictMutationTopology, requireTopology_encode matched topology]
  simp only [bind, Except.bind, apart]
  rfl

theorem sortedIds_encode (matched : Matches language data q) :
    sortedIds data = q.claims.sortedKeys := by
  rw [sortedIds, matched.keys.dedup]
  refine (Dict.sortedKeys_eq ?_ fun id => ?_).symm
  · have sorted := List.pairwise_insertionSort (· ≤ ·) (data.claims.map Prod.fst)
    have distinct := (List.perm_insertionSort (· ≤ ·) (data.claims.map Prod.fst)).nodup_iff.mpr
      matched.keys
    exact (sorted.and distinct).imp fun both => lt_of_le_of_ne both.1 both.2
  · rw [List.mem_insertionSort]
    constructor
    · intro inside
      obtain ⟨entry, member, rfl⟩ := List.mem_map.mp inside
      obtain ⟨_, c, _, found, _⟩ := matched.stored member
      exact ⟨c, found⟩
    · rintro ⟨c, found⟩
      obtain ⟨fields, here, _⟩ := matched.found found
      exact List.mem_map.mpr ⟨(id, .dict fields), mem_of_claimOf here, rfl⟩

theorem refuseActiveClaims_encode (matched : Matches language data q) {ids : List String}
    (known : ∀ id ∈ ids, ∃ c, q.claims.get id = some c) :
    refuseActiveClaims data ids = (ids.find? fun id => RunNowQueue.hasStatus q id .claimed ||
        RunNowQueue.hasStatus q id .requeued).elim (.ok ())
          fun id => raise (claimConflict id) := by
  induction ids with
  | nil => rfl
  | cons id rest ih =>
    obtain ⟨c, found⟩ := known id List.mem_cons_self
    obtain ⟨fields, here, holds⟩ := matched.found found
    have active : isIn (Json.get fields "status") ["claimed", "requeued"] =
        .ok (RunNowQueue.hasStatus q id .claimed || RunNowQueue.hasStatus q id .requeued) := by
      rw [holds.status, RunNowQueue.hasStatus, RunNowQueue.hasStatus, found]
      dsimp only
      cases c.status <;> rfl
    rw [refuseActiveClaims, here, List.find?_cons]
    dsimp only
    rw [active]
    cases RunNowQueue.hasStatus q id .claimed || RunNowQueue.hasStatus q id .requeued with
    | true => rfl
    | false => exact ih fun other inside => known other (List.mem_cons_of_mem _ inside)

theorem typed_strict (topology : Topology q) :
    RunNowQueue.validateStrictMutationTopology q = .ok () := by
  have apart : q.claims.sortedKeys.any
      (fun id => RunNowQueue.hasStatus q id .claimed && q.pending.contains id) = false := by
    rw [List.any_eq_false]
    intro id _ both
    obtain ⟨claimed, waiting⟩ := Bool.and_eq_true_iff.mp both
    obtain ⟨c, found, status⟩ := RunNowQueue.hasStatus_iff.mp claimed
    exact (topology.placed id c found).claimed status (List.contains_iff_mem.mp waiting)
  rw [RunNowQueue.validateStrictMutationTopology, RunNowQueue.validateTopology_eq_none topology,
    apart]
  rfl

theorem validatePublicMutation_encode (matched : Matches language data q)
    (topology : Topology q) :
    validatePublicMutation language data = lift (RunNowQueue.validatePublicMutation q) := by
  rw [validatePublicMutation, validateStrict_encode matched topology,
    RunNowQueue.validatePublicMutation, typed_strict topology]
  refine (refuseActiveClaims_encode matched fun id inside => ?_).trans ?_
  · rw [sortedIds_encode matched] at inside
    exact (Dict.mem_sortedKeys_iff _ _).mp inside
  · rw [sortedIds_encode matched]
    dsimp only
    cases q.claims.sortedKeys.find? fun id =>
      RunNowQueue.hasStatus q id .claimed || RunNowQueue.hasStatus q id .requeued <;> rfl

end Checks

section Scan

variable {language : Language} {data : Data} {q : Queue} {c : Claim} {fields : Entries}

inductive Scans (language : Language) :
    Checked (Bool × Data) → Except Queue (Bool × Queue) → Prop
  | goes {data : Data} {q : Queue} (changed : Bool) (matched : Matches language data q) :
      Scans language (.ok (changed, data)) (.ok (changed, q))
  | blocks {data : Data} {q : Queue} (matched : Matches language data q) :
      Scans language (.error ⟨blockedFault, some data⟩) (.error q)

variable (matched : Matches language data q) (holds : Holds language fields c)
  (id : String) (lease : Credential) (observedAt : Instant) (reason : Reason)
  (facts : RecordedState × List AttemptFacts)

include matched holds

theorem scans_blockClaim :
    Scans language (blockClaim language ⟨lease, ⟨true, observedAt⟩⟩ data id fields reason.value
        facts.1.value (facts.2.map encodeAttempt))
      (.error (RunNowQueue.blockClaim ⟨lease, observedAt⟩ q id c reason facts)) := by
  obtain ⟨record, noted, held⟩ := holds.noted lease observedAt .blocked reason facts
  rw [blockClaim, show "blocked" = Disposition.blocked.value from rfl, noted]
  exact .blocks (matched.set id held)

theorem requeueClaim_encode :
    ∃ saved, requeueClaim language ⟨lease, ⟨true, observedAt⟩⟩ data id fields reason.value
        facts.1.value (facts.2.map encodeAttempt) = .ok saved ∧
      Matches language saved
        (RunNowQueue.requeueClaim ⟨lease, observedAt⟩ q id c reason facts) := by
  obtain ⟨record, noted, held⟩ :=
    (holds.assign_status .requeued).noted lease observedAt .requeued reason facts
  have stored := matched.set id held
  refine ⟨if isPending data id then setClaim data id record
    else { setClaim data id record with pending := data.pending ++ [.str id] }, ?_, ?_⟩
  · rw [requeueClaim]
    exact congrArg (· >>= _) noted
  · rw [matched.isPending, RunNowQueue.requeueClaim]
    split
    · exact stored
    · rw [matched.pending, ← List.map_singleton, ← List.map_append]
      exact stored.setPending _

theorem completeClaimRecord_encode :
    ∃ saved, completeClaimRecord language ⟨lease, ⟨true, observedAt⟩⟩ data id fields reason.value
        facts.1.value (facts.2.map encodeAttempt) = .ok saved ∧
      Matches language saved
        (RunNowQueue.completeClaimRecord ⟨lease, observedAt⟩ q id c reason facts) := by
  obtain ⟨record, noted, held⟩ := ((holds.assign_status .completed).assign_completedAt
    observedAt).noted lease observedAt .completed reason facts
  refine ⟨_, ?_, matched.set id held⟩
  rw [completeClaimRecord]
  exact congrArg (· >>= _) noted

theorem scans_recoverExpiredClaim (ctx : RunNowQueue.Context) :
    Scans language (recoverExpiredClaim language (encodeContext ctx)
        ⟨lease, ⟨true, observedAt⟩⟩ data id fields)
      (RunNowQueue.recoverExpiredClaim ctx ⟨lease, observedAt⟩ q id c) := by
  unfold recoverExpiredClaim RunNowQueue.recoverExpiredClaim
  rw [loadRecoveryFacts_encode]
  obtain ⟨state, attempts, loadReason⟩ := RunNowQueue.loadRecoveryFacts ctx id
  have blocks (reason : Reason) :=
    scans_blockClaim matched holds id lease observedAt reason (state, attempts)
  cases loadReason with
  | some reason =>
    simp only [bind, Except.bind, encodeFacts, Option.elim, ne_eq, reason.value_ne,
      not_false_eq_true, if_true]
    exact blocks reason
  | none =>
    have approved : (state.value = "approved") = (state = .state .approved) :=
      propext (state.value_eq_iff .approved)
    simp only [bind, Except.bind, encodeFacts, Option.elim, ne_eq, not_true_eq_false, if_false,
      approved, matched.isPending, anyUnfinishedItem_encode, anyUnfinished_encode,
      List.isEmpty_map, List.isEmpty_iff]
    split
    · obtain ⟨saved, wrote, kept⟩ :=
        requeueClaim_encode matched holds id lease observedAt .expiredPreExecutionClaim
          (state, attempts)
      rw [show "expired_pre_execution_claim" = Reason.expiredPreExecutionClaim.value from rfl,
        wrote]
      exact .goes true kept
    · split
      · exact blocks .approvedOperationHasAttempts
      · split
        · exact blocks .operationStateNotRecoverable
        · cases state with
          | unavailable => exact blocks .operationStateNotRecoverable
          | unknown => exact blocks .operationStateNotRecoverable
          | state s =>
            have active : activeStates.contains (RecordedState.state s).value = s.isActive := by
              cases s <;> rfl
            have terminal : terminalRecoveryStates.contains (RecordedState.state s).value =
                s.isTerminalRecovery := by cases s <;> rfl
            simp only [active, terminal]
            split
            · exact blocks .activeOperationRequiresStartupRecovery
            · split
              · split
                · exact blocks .unfinishedAttemptRequiresRecovery
                · obtain ⟨saved, wrote, kept⟩ :=
                    completeClaimRecord_encode matched holds id lease observedAt
                      .terminalOperation (.state s, attempts)
                  rw [show "terminal_operation" = Reason.terminalOperation.value from rfl, wrote]
                  exact .goes true kept
              · exact blocks .operationStateNotRecoverable

omit holds

theorem scans_recoverClaim (known : ∃ c, q.claims.get id = some c) (ctx : RunNowQueue.Context) :
    Scans language (recoverClaim language (encodeContext ctx) ⟨lease, ⟨true, observedAt⟩⟩ data id)
      (RunNowQueue.recoverClaim ctx ⟨lease, observedAt⟩ q id) := by
  obtain ⟨c, found⟩ := known
  obtain ⟨fields, here, holds⟩ := matched.found found
  have blocks (reason : Reason) :=
    scans_blockClaim matched holds id lease observedAt reason (.unavailable, [])
  have settled : ["completed", "requeued"].contains c.status.value =
      decide (c.status ≠ .claimed) := by
    cases c.status <;> rfl
  have epoch : fields.lookup "lease_epoch" = some (.int c.leaseEpoch) := by
    have got := holds.leaseEpoch
    rw [Json.get] at got
    cases stored : fields.lookup "lease_epoch" <;> simp_all
  simp only [recoverClaim, RunNowQueue.recoverClaim, here, found, holds.status, strOrEmpty_str,
    settled, decide_eq_true_eq, holds.expiresAt, epoch, toInt, bind, Except.bind, isBefore,
    if_true, matched.isPending]
  split
  · exact .goes false matched
  · cases c.expiresAt with
    | none => exact blocks .invalidClaimExpiry
    | some expiry =>
      dsimp only
      split
      · split
        · exact blocks .legacyClaimNotExpired
        · exact .goes false matched
      · split
        · exact blocks .leaseEpochNotAdvanced
        · exact scans_recoverExpiredClaim matched holds id lease observedAt ctx

omit matched in
theorem known_touched {after : Queue} (touched : Relation.ReflTransGen RunNowQueue.Touch q after)
    (known : ∃ c, q.claims.get id = some c) : ∃ c, after.claims.get id = some c := by
  have set {q : Queue} (other : String) (c' : Claim) (known : ∃ c, q.claims.get id = some c) :
      ∃ c, (q.claims.set other c').get id = some c := by
    rw [Dict.get_set]
    split
    · exact ⟨c', rfl⟩
    · exact known
  induction touched with
  | refl => exact known
  | tail _ touch ih =>
    cases touch with
    | note other c c' => exact set other c' ih
    | requeue other c c' => exact set other c' ih

theorem scans_recoverClaims (topology : Topology q) (valid : ValidLease lease)
    (ctx : RunNowQueue.Context) {ids : List String}
    (known : ∀ id ∈ ids, ∃ c, q.claims.get id = some c) (changed : Bool) :
    Scans language
      (recoverClaims language (encodeContext ctx) ⟨lease, ⟨true, observedAt⟩⟩ ids (changed, data))
      (RunNowQueue.recoverClaims ctx ⟨lease, observedAt⟩ ids (changed, q)) := by
  induction ids generalizing changed data q with
  | nil => exact .goes changed matched
  | cons id rest ih =>
    have first := scans_recoverClaim matched id lease observedAt (known id List.mem_cons_self) ctx
    have turned := @RunNowQueue.turned_recoverClaim ctx ⟨lease, observedAt⟩ valid.epoch q topology
      id
    rw [recoverClaims, RunNowQueue.recoverClaims]
    generalize recoverClaim language (encodeContext ctx) ⟨lease, ⟨true, observedAt⟩⟩ data id = x,
      RunNowQueue.recoverClaim ctx ⟨lease, observedAt⟩ q id = y at first turned
    cases first with
    | blocks matched => exact .blocks matched
    | goes again matched =>
      have touched := RunNowQueue.touches turned
      exact ih matched (RunNowQueue.topology_scanned topology touched)
        (fun other inside => known_touched other touched
          (known other (List.mem_cons_of_mem _ inside))) _

theorem scans_recoverExpiredUnlocked (topology : Topology q)
    (valid : ValidLease lease) (ctx : RunNowQueue.Context) :
    Scans language (recoverExpiredUnlocked language (encodeContext ctx)
        ⟨lease, ⟨true, observedAt⟩⟩ data)
      (RunNowQueue.recoverExpiredUnlocked ctx ⟨lease, observedAt⟩ q) := by
  rw [recoverExpiredUnlocked, RunNowQueue.recoverExpiredUnlocked,
    validateTopology_encode matched topology, RunNowQueue.validateTopology_eq_none topology]
  refine (?_ : Scans language (recoverClaims _ _ _ (sortedIds data) _) _)
  rw [sortedIds_encode matched]
  exact scans_recoverClaims matched lease observedAt topology valid ctx
    (fun id inside => (Dict.mem_sortedKeys_iff _ _).mp inside) false

end Scan

/-- What the language does with the texts and numbers of a typed queue. -/
structure Language.Plain (language : Language) : Prop where
  str : ∀ a b, language.equal (.str a) (.str b) = (a == b)
  int : ∀ a b, language.equal (.int a) (.int b) = (a == b)

section Claims

variable {language : Language} {data : Data} {q : Queue} {c s : Claim} {fields snapshot : Entries}
  (plain : language.Plain)

include plain

theorem exactCurrentClaim_encode (current : Identifies fields c) (id : String)
    (lease : Credential) {given : Option Entries} {expected : Option Claim}
    (same : Option.Rel Identifies given expected) :
    exactCurrentClaim language (.dict fields) id lease given =
      .ok (RunNowQueue.exactCurrentClaim c id lease expected) := by
  have chosen : Identifies (expectedClaim given fields) (expected.getD c) := by
    cases same with
    | none => exact current
    | @some entries s identifies =>
      cases entries with
      | nil => cases identifies.status
      | cons entry rest => exact identifies
  have compared : claimMatches language fields id lease given =
      (c.status == .claimed && c.operationId == id &&
        RunNowQueue.sameTuple c (expected.getD c) && c.ownerToken == lease.ownerToken) := by
    simp only [claimMatches, current.status, current.operationId, current.ownerToken,
      current.processInstanceId, current.leaseEpoch, current.attempt, chosen.operationId,
      chosen.ownerToken, chosen.processInstanceId, chosen.leaseEpoch, chosen.attempt, plain.str,
      plain.int, strOrEmpty_str, List.all_cons, List.all_nil, Bool.and_true, isText,
      RunNowQueue.sameTuple, Bool.and_assoc]
    rw [show "claimed" = ClaimStatus.claimed.value from rfl, ClaimStatus.value_beq]
  simp only [exactCurrentClaim, compared, current.leaseEpoch, intOrZero_int,
    current.processInstanceId, strOrEmpty_str, bind, Except.bind, pure, Except.pure,
    RunNowQueue.exactCurrentClaim]
  split
  · next fits => rw [fits, Bool.true_and]
  · next unfit => rw [Bool.not_eq_true _ |>.mp unfit, Bool.false_and, Bool.false_and]

theorem sameDeferIsComplete_encode (matched : Matches language data q)
    (current : Holds language fields c) (given : Identifies snapshot s) (id : String)
    (lease : Credential) (reason : Reason) :
    sameDeferIsComplete language data id (.dict fields) snapshot lease reason.value =
      .ok (RunNowQueue.sameDeferIsComplete q id c s lease reason) := by
  have counted : data.pending.countP (isText · id) = q.pending.count id := by
    rw [matched.pending, List.countP_map]
    rfl
  have requeued : isText (.str c.status.value) "requeued" = (c.status == .requeued) :=
    ClaimStatus.value_beq c.status .requeued
  simp only [sameDeferIsComplete, RunNowQueue.sameDeferIsComplete, current.status, requeued]
  cases again : c.status == .requeued with
  | false => rfl
  | true =>
    have recorded := congrArg (·.getD .null) current.lastTransition
    rw [← Json.get] at recorded
    rw [recorded]
    cases c.lastTransition with
    | none => rfl
    | some t =>
      simp only [Option.map_some, Option.getD_some, if_true, projectProcessIdentity_eq,
        given.ownerToken, given.processInstanceId, given.leaseEpoch, given.attempt,
        current.operationId, current.ownerToken, current.processInstanceId, current.leaseEpoch,
        current.attempt, strOrEmpty_str, plain.str, plain.int, counted, List.all_cons,
        List.all_nil, Bool.and_true, Bool.and_assoc, Bool.true_and]
      simp only [encodeRecord, Json.get, List.lookup_cons, String.reduceBEq, Option.getD_some,
        plain.str, plain.int]
      rw [show "requeued" = Disposition.requeued.value from rfl, Disposition.value_beq,
        Reason.value_beq]
      rfl

end Claims

def Language.Reads (language : Language) (t : Instant) : Prop :=
  parseTime language (language.isoformat ⟨true, t⟩) = .ok (some t)

inductive Agree (language : Language) {α β : Type} (R : α → β → Prop) :
    Checked (α × Data) → Except Fault (β × Queue) → Prop
  | ok {a : α} {b : β} {data : Data} {q : Queue} (related : R a b)
      (matched : Matches language data q) : Agree language R (.ok (a, data)) (.ok (b, q))
  | raised (fault : Fault) : Agree language R (raise fault) (.error fault)

section Claim

variable {language : Language} {data : Data} {q : Queue} (matched : Matches language data q)
  (id : String) (lease : Credential)

include matched

theorem nextAttempt_encode :
    nextAttempt (claimOf data id) = lift (RunNowQueue.nextAttempt (q.claims.get id)) := by
  cases found : q.claims.get id with
  | none =>
    rw [matched.absent found]
    rfl
  | some c =>
    obtain ⟨fields, here, holds⟩ := matched.found found
    simp only [nextAttempt, here, holds.attempt, RunNowQueue.nextAttempt]
    split <;> rfl

theorem inherited_encode :
    inherited (claimOf data id) = ((q.claims.get id).bind (·.lastTransition)).elim []
      fun t => [("last_transition", .dict (encodeRecord language t))] := by
  cases found : q.claims.get id with
  | none =>
    rw [matched.absent found]
    rfl
  | some c =>
    obtain ⟨fields, here, holds⟩ := matched.found found
    simp only [inherited, here, Json.get, holds.lastTransition, Option.bind_some]
    cases c.lastTransition <;> rfl

variable {expiresAt : Instant} (reads : language.Reads expiresAt) (observedAt : Instant)

include reads

theorem holds_newClaim (attempt : Int) :
    Holds language (newClaim language id lease attempt expiresAt observedAt (claimOf data id))
      (RunNowQueue.newClaim id lease attempt expiresAt observedAt (q.claims.get id)) := by
  rw [newClaim, inherited_encode matched id]
  refine ⟨⟨rfl, rfl, rfl, rfl, rfl, rfl⟩, rfl, ?_, ?_, ?_⟩
  · exact (congrArg (parseTime language) (strOrEmpty_str language _)).trans reads
  · rw [List.lookup_append]
    cases (q.claims.get id).bind (·.lastTransition) <;> rfl
  · rw [List.lookup_append, RunNowQueue.newClaim]
    cases (q.claims.get id).bind (·.lastTransition) <;> rfl

theorem claimPending_encode :
    Agree language (HoldsClaim language)
      (claimPending language data id lease expiresAt observedAt)
      (RunNowQueue.claimPending q id lease expiresAt observedAt) := by
  rw [claimPending, RunNowQueue.claimPending, nextAttempt_encode matched]
  cases RunNowQueue.nextAttempt (q.claims.get id) with
  | error fault => exact .raised fault
  | ok attempt =>
    have held := holds_newClaim matched id lease reads observedAt attempt
    have erased : data.pending.eraseP (isText · id) = (q.pending.erase id).map Json.str := by
      rw [matched.pending, List.eraseP_map, List.erase_eq_eraseP']
      rfl
    have stored := (matched.set id held).setPending (q.pending.erase id)
    rw [← erased] at stored
    exact .ok ⟨_, rfl, held⟩ stored

theorem claimUnlocked_encode :
    Agree language (Option.Rel (HoldsClaim language))
      (claimUnlocked language data lease expiresAt observedAt)
      (RunNowQueue.claimUnlocked q lease expiresAt observedAt) := by
  unfold claimUnlocked RunNowQueue.claimUnlocked
  rw [matched.pending]
  cases pending : q.pending with
  | nil => exact .ok .none matched
  | cons id rest =>
    simp only [List.map_cons]
    rw [show "claimed" = ClaimStatus.claimed.value from rfl, matched.hasStatus]
    split
    · exact .raised _
    · have claimed := claimPending_encode matched id lease reads observedAt
      generalize claimPending language data id lease expiresAt observedAt = x,
        RunNowQueue.claimPending q id lease expiresAt observedAt = y at claimed
      cases claimed with
      | ok holds stored => exact .ok (.some holds) stored
      | raised fault => exact .raised fault

end Claim

/-- A call saves what the typed call leaves of the queue. -/
inductive Saves (language : Language) (q : Queue) : Option Data → Queue → Prop
  | nothing : Saves language q none q
  | wrote {data : Data} {after : Queue} (matched : Matches language data after) :
      Saves language q (some data) after

/-- The two calls return replies that show the same, or raise the same exception. -/
inductive Tracks (language : Language) {α : Type} (Shows : Reply → α → Prop) (q : Queue) :
    Outcome → Except Fault α × Queue → Prop
  | ends {reply : Reply} {a : α} {saved : Option Data} {after : Queue} (shows_ : Shows reply a)
      (saves : Saves language q saved after) :
      Tracks language Shows q (.ok (reply, saved)) (.ok a, after)
  | raises (fault : Fault) {saved : Option Data} {after : Queue}
      (saves : Saves language q saved after) :
      Tracks language Shows q (.error ⟨fault, saved⟩) (.error fault, after)

def Returns : Reply → Unit → Prop := fun reply _ => reply = .done

def ReturnsClaim (language : Language) (reply : Reply) (c : Option Claim) : Prop :=
  ∃ value, reply = .claim value ∧ Option.Rel (HoldsClaim language) value c

section Calls

variable {language : Language} {content : Content} {data : Data} {q : Queue}
  (loaded : loadUnlocked language content = .ok data) (matched : Matches language data q)
  (topology : Topology q) (intact : Intact q) (ctx : RunNowQueue.Context) (id : String)

theorem typed_topology (topology : Topology q) (intact : Intact q) :
    RunNowQueue.loadForTopology q = .ok q ∧ RunNowQueue.loadForStrictMutation q = .ok q ∧
      RunNowQueue.loadForPublicMutation q =
        (RunNowQueue.validatePublicMutation q).map fun _ => q := by
  simp only [RunNowQueue.loadForTopology, RunNowQueue.loadForStrictMutation,
    RunNowQueue.loadForPublicMutation, intact.loads,
    RunNowQueue.validateTopology_eq_none topology, typed_strict topology]
  exact ⟨rfl, rfl, trivial⟩

theorem Matches.isClaimed (matched : Matches language data q) (id : String) :
    QueueFile.hasStatus (claimOf data id) "claimed" = RunNowQueue.hasStatus q id .claimed :=
  matched.hasStatus id .claimed

theorem Matches.filterPending (matched : Matches language data q) (id : String) :
    data.pending.filter (!isText · id) = (q.pending.filter (· ≠ id)).map Json.str := by
  rw [matched.pending, List.filter_map]
  exact congrArg (List.map Json.str) (List.filter_congr fun s _ => by simp [isText, beq_eq_decide])

theorem Matches.isKnown (matched : Matches language data q) (id : String) :
    QueueFile.isKnown data id = RunNowQueue.isKnown q id := by
  rw [QueueFile.isKnown, RunNowQueue.isKnown, matched.isPending]
  rcases matched.claims id with ⟨gone, none⟩ | ⟨_, _, here, there, _⟩
  · rw [gone, none]
    rfl
  · rw [here, there]
    rfl

theorem Matches.drop (matched : Matches language data q) (id : String) :
    Matches language (dropPending data id) (RunNowQueue.dropPending q id) := by
  rw [dropPending, matched.filterPending]
  exact matched.setPending _

include loaded matched topology intact

theorem tracks_enqueue :
    Tracks language (fun reply n => reply = .position (some n)) q (enqueue language id content)
      (RunNowQueue.enqueue id q) := by
  simp only [enqueue, RunNowQueue.enqueue, loaded, requireTopology_encode matched topology,
    (typed_topology topology intact).1, matched.isClaimed, matched.isPending, bind, Except.bind]
  split
  · exact .raises _ .nothing
  · split
    · next waiting =>
      refine .ends ?_ .nothing
      rw [matched.pending, List.findIdx?_map, List.findIdx?_eq_guard_findIdx_lt]
      exact congrArg Reply.position (Option.guard_eq_some_iff.mpr ⟨rfl, decide_eq_true
        (List.idxOf_lt_length_of_mem (List.contains_iff_mem.mp waiting))⟩)
    · next absent =>
      refine .ends ?_ (.wrote ?_)
      · rw [matched.pending, List.length_map]
        rw [List.idxOf_append_of_notMem fun inside => absent (List.contains_iff_mem.mpr inside)]
        simp
      · rw [matched.pending, ← List.map_singleton, ← List.map_append]
        exact matched.setPending _

theorem tracks_remove :
    Tracks language Returns q (remove language id content)
      (RunNowQueue.remove id q) := by
  simp only [remove, RunNowQueue.remove, loaded, validatePublicMutation_encode matched topology,
    (typed_topology topology intact).2.2, matched.isKnown, bind, Except.bind]
  cases RunNowQueue.validatePublicMutation q with
  | error fault => exact .raises fault .nothing
  | ok _ =>
    simp only [lift, Except.mapError, Except.map]
    split
    · exact .ends rfl (.wrote ((matched.drop id).remove id))
    · exact .ends rfl .nothing

theorem tracks_discardPending :
    Tracks language Returns q (discardPending language id content)
      (RunNowQueue.discardPending id q) := by
  simp only [discardPending, RunNowQueue.discardPending, loaded,
    validatePublicMutation_encode matched topology, (typed_topology topology intact).2.2,
    matched.isPending, bind, Except.bind]
  cases RunNowQueue.validatePublicMutation q with
  | error fault => exact .raises fault .nothing
  | ok _ =>
    simp only [lift, Except.mapError, Except.map]
    split
    · exact .ends rfl (.wrote (matched.drop id))
    · exact .ends rfl .nothing

theorem tracks_dequeue :
    Tracks language (fun reply id => reply = .head (id.map Json.str)) q (dequeue language content)
      (RunNowQueue.dequeue q) := by
  simp only [dequeue, RunNowQueue.dequeue, loaded, validatePublicMutation_encode matched topology,
    (typed_topology topology intact).2.2, bind, Except.bind, matched.pending]
  cases RunNowQueue.validatePublicMutation q with
  | error fault => exact .raises fault .nothing
  | ok _ =>
    simp only [lift, Except.mapError, Except.map]
    cases q.pending with
    | nil => exact .ends rfl .nothing
    | cons first rest => exact .ends rfl (.wrote (matched.setPending rest))

theorem tracks_claim (isOther : Char → Bool) (lease : Credential) (ttl : Ttl)
    (reads : ∀ e, validatedClaimExpiry ttl ctx.now = .ok e → language.Reads e) :
    Tracks language (ReturnsClaim language) q
      (claim language isOther (encodeContext ctx) lease ttl content)
      (RunNowQueue.claim isOther lease ttl ctx.now q) := by
  unfold claim RunNowQueue.claim
  simp only [claimExpiry, encodeContext, loaded, requireTopology_encode matched topology,
    (typed_topology topology intact).1, bind, Except.bind, ← Bool.not_and]
  cases RunNowQueue.validPublicClaimIdentity isOther lease.ownerToken &&
    RunNowQueue.validPublicClaimIdentity isOther lease.processInstanceId &&
    RunNowQueue.boundedInteger lease.leaseEpoch 1 RunNowQueue.maxTransitionEpoch with
  | false => exact .raises _ .nothing
  | true =>
    cases expires : validatedClaimExpiry ttl ctx.now with
    | error fault => exact .raises fault .nothing
    | ok expiresAt =>
      have claimed := claimUnlocked_encode matched lease (reads _ expires) ctx.now
      simp only [Bool.not_true, Bool.false_eq_true, if_false, if_true, Except.mapError]
      generalize claimUnlocked language data lease expiresAt ctx.now = x,
        RunNowQueue.claimUnlocked q lease expiresAt ctx.now = y at claimed
      cases claimed with
      | raised fault => exact .raises fault .nothing
      | ok related stored =>
        cases related with
        | none => exact .ends ⟨none, rfl, .none⟩ .nothing
        | some holds => exact .ends ⟨_, rfl, .some holds⟩ (.wrote stored)

theorem tracks_claimFromLease {lease : Credential} (valid : ValidLease lease) (ttl : Ttl)
    (reads : ∀ e, validatedClaimExpiry ttl ctx.now = .ok e → language.Reads e) :
    Tracks language (ReturnsClaim language) q
      (claimFromLease language (encodeContext ctx) lease ttl content)
      (RunNowQueue.claimFromLease ctx lease ttl q) := by
  unfold claimFromLease RunNowQueue.claimFromLease
  rw [enterLeaseGuard_encode, loaded, intact.loads]
  have scanned := scans_recoverExpiredUnlocked matched lease ctx.now topology valid ctx
  simp only [claimExpiry, encodeContext, Context.moment, bind, Except.bind] at scanned ⊢
  cases expires : validatedClaimExpiry ttl ctx.now with
  | error fault => exact .raises fault .nothing
  | ok expiresAt =>
    cases RunNowQueue.enterLeaseGuard ctx lease blockedFault with
    | error fault => exact .raises fault .nothing
    | ok _ =>
      simp only [lift, Except.mapError]
      generalize recoverExpiredUnlocked language _ _ data = x,
        RunNowQueue.recoverExpiredUnlocked ctx _ q = y at scanned
      cases scanned with
      | blocks stored => exact .raises _ (.wrote stored)
      | @goes data' after changed scanned =>
        have claimed := claimUnlocked_encode scanned lease (reads _ expires) ctx.now
        dsimp only
        generalize claimUnlocked language data' lease expiresAt ctx.now = x,
          RunNowQueue.claimUnlocked after lease expiresAt ctx.now = y at claimed
        cases claimed with
        | raised fault => exact .raises fault .nothing
        | ok related stored =>
          cases related with
          | none =>
            cases changed with
            | false => exact .ends ⟨none, rfl, .none⟩ .nothing
            | true => exact .ends ⟨none, rfl, .none⟩ (.wrote stored)
          | some holds =>
            simp only [Option.isSome_some, Bool.or_true, if_true]
            exact .ends ⟨_, rfl, .some holds⟩ (.wrote stored)

theorem tracks_claimSpecificFromLease (lease : Credential)
    (reads : ∀ e, validatedClaimExpiry RunNowQueue.defaultTtl ctx.now = .ok e →
      language.Reads e) :
    Tracks language (fun reply selected => ∃ value, reply = .specific value ∧
        Option.Rel (fun x y => x.1 = y.1 ∧ HoldsClaim language x.2 y.2) value selected) q
      (claimSpecificFromLease language (encodeContext ctx) id lease content)
      (RunNowQueue.claimSpecificFromLease ctx id lease q) := by
  unfold claimSpecificFromLease RunNowQueue.claimSpecificFromLease
  rw [enterLeaseGuard_encode, loaded, loadRecoveryFacts_encode]
  simp only [claimExpiry, encodeContext_now, (typed_topology topology intact).2.1,
    matched.isClaimed, validateStrict_encode matched topology, specificClaimPurpose_encode,
    matched.isPending, bind, Except.bind]
  cases expires : validatedClaimExpiry RunNowQueue.defaultTtl ctx.now with
  | error fault => exact .raises fault .nothing
  | ok expiresAt =>
    cases RunNowQueue.enterLeaseGuard ctx lease blockedFault with
    | error fault => exact .raises fault .nothing
    | ok _ =>
      simp only [lift, Except.mapError]
      split
      · exact .raises _ .nothing
      · cases q.pending.contains id with
        | false => exact .ends ⟨none, rfl, .none⟩ .nothing
        | true =>
          cases RunNowQueue.specificClaimPurpose (RunNowQueue.loadRecoveryFacts ctx id) with
          | error fault => exact .raises fault .nothing
          | ok purpose =>
            have claimed := claimPending_encode matched id lease (reads _ expires) ctx.now
            simp only [Bool.not_true, Bool.false_eq_true, if_false, if_true]
            generalize claimPending language data id lease expiresAt ctx.now = x,
              RunNowQueue.claimPending q id lease expiresAt ctx.now = y at claimed
            cases claimed with
            | raised fault => exact .raises fault .nothing
            | ok holds stored => exact .ends ⟨_, rfl, .some ⟨rfl, holds⟩⟩ (.wrote stored)

omit topology in
theorem tracks_completeClaim (ownerToken : String) (leaseEpoch : Int) :
    Tracks language Returns q
      (completeClaim language (encodeContext ctx) id ownerToken leaseEpoch content)
      (RunNowQueue.completeClaim id ownerToken leaseEpoch ctx.now q) := by
  simp only [completeClaim, RunNowQueue.completeClaim, loaded, intact.loads, bind, Except.bind]
  cases found : q.claims.get id with
  | none =>
    rw [matched.absent found]
    exact .raises _ .nothing
  | some c =>
    obtain ⟨fields, here, holds⟩ := matched.found found
    have claimed : isText (.str c.status.value) "claimed" = (c.status == .claimed) :=
      ClaimStatus.value_beq c.status .claimed
    simp only [here, holds.status, claimed, holds.ownerToken, holds.leaseEpoch, strOrEmpty_str,
      intOrZero_int, Bool.and_eq_true, beq_iff_eq]
    by_cases owned : c.status = .claimed ∧ c.ownerToken = ownerToken
    · rw [if_pos owned]
      by_cases epoch : c.leaseEpoch = leaseEpoch
      · rw [if_pos epoch, if_neg (by tauto)]
        exact .ends rfl
          (.wrote (matched.set id ((holds.assign_status .completed).assign_completedAt ctx.now)))
      · rw [if_neg epoch, if_pos (.inr (.inr epoch))]
        exact .raises _ .nothing
    · rw [if_neg owned, if_pos (by tauto)]
      exact .raises _ .nothing

omit topology in
theorem tracks_completeClaimFromLease (plain : language.Plain) (lease : Credential)
    {given : Option Entries} {snapshot : Option Claim}
    (same : Option.Rel Identifies given snapshot) :
    Tracks language Returns q
      (completeClaimFromLease language (encodeContext ctx) id lease given content)
      (RunNowQueue.completeClaimFromLease ctx id lease snapshot q) := by
  unfold completeClaimFromLease RunNowQueue.completeClaimFromLease
  rw [enterLeaseGuard_encode, loaded, intact.loads]
  cases RunNowQueue.enterLeaseGuard ctx lease (claimConflict id) with
  | error fault => exact .raises fault .nothing
  | ok _ =>
    simp only [lift, Except.mapError, bind, Except.bind]
    cases found : q.claims.get id with
    | none =>
      rw [matched.absent found]
      exact .raises _ .nothing
    | some c =>
      obtain ⟨fields, here, holds⟩ := matched.found found
      rw [here, exactCurrentClaim_encode plain holds.toIdentifies id lease same]
      dsimp only
      cases RunNowQueue.exactCurrentClaim c id lease snapshot with
      | false => exact .raises _ .nothing
      | true =>
        obtain ⟨saved, wrote, stored⟩ := completeClaimRecord_encode matched holds id lease ctx.now
          .claimCompleted (.unavailable, [])
        have done : completeClaimRecord language ⟨lease, (encodeContext ctx).moment⟩ data id fields
            "claim_completed" "unavailable" [] = .ok saved := wrote
        dsimp only
        rw [done]
        exact .ends rfl (.wrote stored)

theorem tracks_completeAndRemoveClaimFromLease (plain : language.Plain) (lease : Credential)
    {given : Entries} {snapshot : Claim} (same : Identifies given snapshot) :
    Tracks language Returns q
      (completeAndRemoveClaimFromLease language (encodeContext ctx) id lease given content)
      (RunNowQueue.completeAndRemoveClaimFromLease ctx id lease snapshot q) := by
  unfold completeAndRemoveClaimFromLease RunNowQueue.completeAndRemoveClaimFromLease
  rw [enterLeaseGuard_encode, loaded, (typed_topology topology intact).2.1]
  cases RunNowQueue.enterLeaseGuard ctx lease (claimConflict id) with
  | error fault => exact .raises fault .nothing
  | ok _ =>
    have claimed : isText (.str snapshot.status.value) "claimed" = (snapshot.status == .claimed) :=
      ClaimStatus.value_beq snapshot.status .claimed
    simp only [lift, Except.mapError, bind, Except.bind, validateStrict_encode matched topology,
      matched.isPending, same.status, claimed]
    split
    · exact .raises _ .nothing
    · cases found : q.claims.get id with
      | none =>
        rw [matched.absent found]
        cases snapshot.status == .claimed <;> exact .raises _ .nothing
      | some c =>
        obtain ⟨fields, here, holds⟩ := matched.found found
        rw [here, exactCurrentClaim_encode plain holds.toIdentifies id lease (.some same)]
        dsimp only
        cases snapshot.status == .claimed with
        | false => exact .raises _ .nothing
        | true =>
          cases RunNowQueue.exactCurrentClaim c id lease (some snapshot) with
          | false => exact .raises _ .nothing
          | true => exact .ends rfl (.wrote (matched.remove id))

omit topology in
theorem tracks_deferClaimFromLease (plain : language.Plain) (lease : Credential)
    {given : Entries} {snapshot : Claim} (same : Identifies given snapshot) (reason : Reason) :
    Tracks language Returns q
      (deferClaimFromLease language (encodeContext ctx) id given lease reason.value content)
      (RunNowQueue.deferClaimFromLease ctx id snapshot lease reason q) := by
  unfold deferClaimFromLease RunNowQueue.deferClaimFromLease
  have allowed : ["max_concurrent_reached", "target_locked"].contains reason.value =
      decide ¬(reason ≠ .maxConcurrentReached ∧ reason ≠ .targetLocked) := by
    cases reason <;> rfl
  rw [enterLeaseGuard_encode, loaded, intact.loads, loadRecoveryFacts_encode, allowed]
  generalize RunNowQueue.loadRecoveryFacts ctx id = facts
  by_cases refused : reason ≠ .maxConcurrentReached ∧ reason ≠ .targetLocked
  · rw [if_pos refused, if_neg (by simpa using refused)]
    exact .raises _ .nothing
  rw [if_neg refused, if_pos (decide_eq_true refused)]
  cases RunNowQueue.enterLeaseGuard ctx lease (claimConflict id) with
  | error fault => exact .raises fault .nothing
  | ok _ =>
    simp only [lift, Except.mapError, bind, Except.bind]
    cases found : q.claims.get id with
    | none =>
      rw [matched.absent found]
      exact .raises _ .nothing
    | some c =>
      obtain ⟨fields, here, holds⟩ := matched.found found
      rw [here, sameDeferIsComplete_encode plain matched holds same,
        exactCurrentClaim_encode plain holds.toIdentifies id lease (.some same)]
      dsimp only
      cases RunNowQueue.sameDeferIsComplete q id c snapshot lease reason with
      | true => exact .ends rfl .nothing
      | false =>
        cases RunNowQueue.exactCurrentClaim c id lease (some snapshot) with
        | false => exact .raises _ .nothing
        | true =>
          have state := state_encode facts .approved
          have attempts : (encodeFacts facts).attempts.isEmpty = facts.attempts.isEmpty :=
            List.isEmpty_map
          simp only [OperationState.value] at state
          simp only [Bool.false_eq_true, if_false, Bool.not_true, matched.isPending,
            loadReason_encode, state, ne_eq, attempts, List.isEmpty_iff]
          split
          · exact .raises _ .nothing
          · split
            · exact .raises _ .nothing
            · obtain ⟨saved, wrote, stored⟩ := requeueClaim_encode matched holds id lease ctx.now
                reason (facts.state, facts.attempts)
              have done : requeueClaim language ⟨lease, (encodeContext ctx).moment⟩ data id fields
                reason.value (encodeFacts facts).state (encodeFacts facts).attempts = .ok saved :=
                wrote
              rw [done]
              exact .ends rfl (.wrote stored)

theorem tracks_removeCancelledFromLease (lease : Credential) :
    Tracks language Returns q
      (removeCancelledFromLease language (encodeContext ctx) id lease content)
      (RunNowQueue.removeCancelledFromLease ctx id lease q) := by
  unfold removeCancelledFromLease RunNowQueue.removeCancelledFromLease
  rw [enterLeaseGuard_encode, loaded, (typed_topology topology intact).2.1,
    loadRecoveryFacts_encode]
  cases RunNowQueue.enterLeaseGuard ctx lease blockedFault with
  | error fault => exact .raises fault .nothing
  | ok _ =>
    generalize RunNowQueue.loadRecoveryFacts ctx id = facts
    have state := state_encode facts .cancelled
    have unfinished : anyUnfinished (encodeFacts facts).attempts =
        .ok (hasUnfinished facts.attempts) := anyUnfinished_encode facts.attempts
    simp only [OperationState.value] at state
    simp only [lift, Except.mapError, bind, Except.bind, validateStrict_encode matched topology,
      loadReason_encode, state, ne_eq, matched.isKnown, unfinished, ← or_assoc]
    by_cases refused : facts.loadReason.isSome = true ∨ ¬facts.state = .state .cancelled
    · simp only [refused, true_or, if_true]
      exact .raises _ .nothing
    · simp only [refused, false_or, if_false]
      split
      · exact .raises _ .nothing
      · split
        · exact .ends rfl (.wrote ((matched.drop id).remove id))
        · exact .ends rfl .nothing

theorem tracks_recoverExpiredClaimsFromLease {lease : Credential}
    (valid : ValidLease lease) (observedAt : Instant) :
    Tracks language (fun reply changed => reply = .changed changed) q
      (recoverExpiredClaimsFromLease language (encodeContext ctx) lease
        (some ⟨true, observedAt⟩) content)
      (RunNowQueue.recoverExpiredClaimsFromLease ctx lease observedAt q) := by
  unfold recoverExpiredClaimsFromLease RunNowQueue.recoverExpiredClaimsFromLease
  rw [enterLeaseGuard_encode, loaded, intact.loads]
  have scanned := scans_recoverExpiredUnlocked matched lease observedAt topology valid ctx
  cases RunNowQueue.enterLeaseGuard ctx lease blockedFault with
  | error fault => exact .raises fault .nothing
  | ok _ =>
    simp only [lift, Except.mapError, bind, Except.bind, Option.getD_some]
    generalize recoverExpiredUnlocked language _ _ data = x,
      RunNowQueue.recoverExpiredUnlocked ctx _ q = y at scanned
    cases scanned with
    | blocks stored => exact .raises _ (.wrote stored)
    | goes changed stored =>
      cases changed with
      | false => exact .ends rfl .nothing
      | true => exact .ends rfl (.wrote stored)

end Calls

/-- The fields of a snapshot that the code compares. -/
def snapshot (c : Claim) : Entries :=
  [("operation_id", .str c.operationId), ("status", .str c.status.value),
    ("owner_token", .str c.ownerToken), ("process_instance_id", .str c.processInstanceId),
    ("lease_epoch", .int c.leaseEpoch), ("attempt", .int c.attempt)]

theorem identifies_snapshot (c : Claim) : Identifies (snapshot c) c :=
  ⟨rfl, rfl, rfl, rfl, rfl, rfl⟩

def encodeCall : RunNowQueue.Call → Call
  | .enqueue id _ => .enqueue id
  | .remove id => .remove id
  | .discardPending id => .discardPending id
  | .dequeue => .dequeue
  | .claim lease ttl => .claim lease ttl
  | .claimFromLease lease ttl => .claimFromLease lease.1 ttl
  | .claimSpecificFromLease id lease => .claimSpecificFromLease id lease.1
  | .completeClaim id ownerToken leaseEpoch => .completeClaim id ownerToken leaseEpoch
  | .completeClaimFromLease id lease given =>
    .completeClaimFromLease id lease.1 (given.map snapshot)
  | .completeAndRemoveClaimFromLease id lease given =>
    .completeAndRemoveClaimFromLease id lease.1 (snapshot given)
  | .deferClaimFromLease id given lease reason =>
    .deferClaimFromLease id (snapshot given) lease.1 reason.value
  | .removeCancelledFromLease id lease => .removeCancelledFromLease id lease.1
  | .recoverExpiredClaimsFromLease lease observedAt =>
    .recoverExpiredClaimsFromLease lease.1 (some ⟨true, observedAt⟩)

def ttlOf : RunNowQueue.Call → Option Ttl
  | .claim _ ttl => some ttl
  | .claimFromLease _ ttl => some ttl
  | .claimSpecificFromLease _ _ => some RunNowQueue.defaultTtl
  | _ => none

/-- The expiry that the call would write is read back. -/
def Timed (language : Language) (call : RunNowQueue.Call) (ctx : RunNowQueue.Context) : Prop :=
  ∀ ttl expiry, ttlOf call = some ttl →
    validatedClaimExpiry ttl ctx.now = .ok expiry → language.Reads expiry

/-- The typed reply has no position, flag or purpose. -/
inductive Shown (language : Language) : Reply → RunNowQueue.Reply → Prop
  | done : Shown language .done .done
  | position (index : Option Nat) : Shown language (.position index) .done
  | changed (changed : Bool) : Shown language (.changed changed) .done
  | head (id : Option String) : Shown language (.head (id.map Json.str)) (.popped id)
  | claim {value : Option Json} {c : Option Claim}
      (held : Option.Rel (HoldsClaim language) value c) :
      Shown language (.claim value) (.claimed c)
  | specific {value : Option (Purpose × Json)} {c : Option Claim}
      (held : Option.Rel (HoldsClaim language) (value.map (·.2)) c) :
      Shown language (.specific value) (.claimed c)

section Run

variable {language : Language} {q : Queue} {outcome : Outcome}

theorem Tracks.answer {α : Type} {Shows : Reply → α → Prop} {result : Except Fault α × Queue}
    (tracks : Tracks language Shows q outcome result) (f : α → RunNowQueue.Reply)
    (shown : ∀ reply a, Shows reply a → Shown language reply (f a)) :
    Tracks language (Shown language) q outcome (RunNowQueue.answer f result) := by
  cases tracks with
  | ends shows_ saves => exact .ends (shown _ _ shows_) saves
  | raises fault saves => exact .raises fault saves

theorem Tracks.after {α : Type} {Shows : Reply → α → Prop} {result : Except Fault α × Queue}
    (tracks : Tracks language Shows q outcome result) :
    Saves language q (savedBy outcome) result.2 := by
  cases tracks with
  | ends _ saves => exact saves
  | raises _ saves => exact saves

variable (dated : language.Dated) (plain : language.Plain) (isOther : Char → Bool)

include plain in
theorem tracks_run {content : Content} {data : Data}
    (loaded : loadUnlocked language content = .ok data) (matched : Matches language data q)
    (topology : Topology q) (intact : Intact q) {call : RunNowQueue.Call}
    {ctx : RunNowQueue.Context} (timed : Timed language call ctx) :
    Tracks language (Shown language) q
      ((encodeCall call).run language isOther (encodeContext ctx) content)
      (call.run isOther ctx q) := by
  have silent (reply : Reply) (u : Unit) (same : Returns reply u) : Shown language reply .done := by
    rw [same]
    exact .done
  have claims (reply : Reply) (c : Option Claim) (holds : ReturnsClaim language reply c) :
      Shown language reply (.claimed c) := by
    obtain ⟨value, rfl, held⟩ := holds
    exact .claim held
  cases call with
  | enqueue id named =>
    exact (tracks_enqueue loaded matched topology intact id).answer _
      fun reply n same => same ▸ .position _
  | remove id => exact (tracks_remove loaded matched topology intact id).answer _ silent
  | discardPending id =>
    exact (tracks_discardPending loaded matched topology intact id).answer _ silent
  | dequeue =>
    exact (tracks_dequeue loaded matched topology intact).answer _
      fun reply id same => same ▸ .head id
  | claim lease ttl =>
    exact (tracks_claim loaded matched topology intact ctx isOther lease ttl
      fun e => timed ttl e rfl).answer _ claims
  | claimFromLease lease ttl =>
    exact (tracks_claimFromLease loaded matched topology intact ctx lease.2 ttl
      fun e => timed ttl e rfl).answer _ claims
  | claimSpecificFromLease id lease =>
    refine (tracks_claimSpecificFromLease loaded matched topology intact ctx id lease.1
      fun e => timed _ e rfl).answer _ fun reply selected shown => ?_
    obtain ⟨value, rfl, held⟩ := shown
    refine .specific ?_
    cases held with
    | none => exact .none
    | some both => exact .some both.2
  | completeClaim id ownerToken leaseEpoch =>
    exact (tracks_completeClaim loaded matched intact ctx id ownerToken leaseEpoch).answer _ silent
  | completeClaimFromLease id lease given =>
    refine (tracks_completeClaimFromLease loaded matched intact ctx id plain lease.1 ?_).answer _
      silent
    cases given with
    | none => exact .none
    | some c => exact .some (identifies_snapshot c)
  | completeAndRemoveClaimFromLease id lease given =>
    exact (tracks_completeAndRemoveClaimFromLease loaded matched topology intact ctx id plain
      lease.1 (identifies_snapshot given)).answer _ silent
  | deferClaimFromLease id given lease reason =>
    exact (tracks_deferClaimFromLease loaded matched intact ctx id plain lease.1
      (identifies_snapshot given) reason).answer _ silent
  | removeCancelledFromLease id lease =>
    exact (tracks_removeCancelledFromLease loaded matched topology intact ctx id lease.1).answer _
      silent
  | recoverExpiredClaimsFromLease lease observedAt =>
    exact (tracks_recoverExpiredClaimsFromLease loaded matched topology intact ctx lease.2
      observedAt).answer _ fun reply changed same => same ▸ .changed changed

theorem fitting_encodeCall (call : RunNowQueue.Call) : (encodeCall call).Fitting := by
  constructor
  · intro lease same
    cases call <;> cases same <;> exact Subtype.property _
  · intro lease time same
    cases call <;> cases same
    rfl

/-- The file loads to data that holds the queue, and the queue is in order. -/
structure Follows (language : Language) (content : Content) (q : Queue) : Prop where
  held : ∃ data, loadUnlocked language content = .ok data ∧ Sound language data ∧
    Matches language data q
  topology : Topology q
  intact : Intact q

theorem follows_missing : Follows language .missing .empty where
  held := ⟨⟨[], []⟩, rfl, fun _ inside => absurd inside List.not_mem_nil, .empty⟩
  topology := RunNowQueue.topology_empty
  intact := RunNowQueue.intact_empty

include dated plain

theorem follows_after {content : Content} {call : RunNowQueue.Call} {ctx : RunNowQueue.Context}
    (timed : Timed language call ctx) (follows : Follows language content q) :
    Follows language
      (after content ((encodeCall call).run language isOther (encodeContext ctx) content))
      (call.run isOther ctx q).2 := by
  obtain ⟨⟨data, loaded, sound, matched⟩, topology, intact⟩ := follows
  have saves := (tracks_run plain isOther loaded matched topology intact timed).after
  have accounts := accounts_run dated isOther (encodeContext ctx) loaded sound
    (fitting_encodeCall call)
  obtain ⟨⟨_, effect, _⟩, keeps⟩ := RunNowQueue.call_makes isOther ctx call topology
  refine ⟨?_, RunNowQueue.topology_effect topology effect, keeps intact⟩
  rw [after]
  generalize saved : savedBy _ = left, (call.run isOther ctx q).2 = final at saves
  cases saves with
  | nothing => exact ⟨data, loaded, sound, matched⟩
  | wrote stored =>
    have next := KeepsAll.sound (accounts.saved saved) sound
    exact ⟨_, load_stored next, next, stored⟩

theorem follows_runCalls (calls : List (RunNowQueue.Call × RunNowQueue.Context))
    (timed : ∀ next ∈ calls, Timed language next.1 next.2) {content : Content}
    (follows : Follows language content q) :
    Follows language (runCalls language isOther content
        (calls.map fun next => (encodeCall next.1, encodeContext next.2)))
      (RunNowQueue.runCalls isOther calls q) := by
  induction calls generalizing content q with
  | nil => exact follows
  | cons next rest ih =>
    exact ih (fun other inside => timed other (List.mem_cons_of_mem _ inside))
      (follows_after dated plain isOther (timed next List.mem_cons_self) follows)

/-- After the same calls from a missing file, the file holds the typed queue, and the next call
answers, raises and saves as it does there. -/
theorem file_follows_queue (calls : List (RunNowQueue.Call × RunNowQueue.Context))
    (timed : ∀ next ∈ calls, Timed language next.1 next.2) (call : RunNowQueue.Call)
    (ctx : RunNowQueue.Context) (next : Timed language call ctx) :
    let content := runCalls language isOther .missing
      (calls.map fun next => (encodeCall next.1, encodeContext next.2))
    let q := RunNowQueue.runCalls isOther calls .empty
    (∃ data, loadUnlocked language content = .ok data ∧ Matches language data q) ∧
      Tracks language (Shown language) q
        ((encodeCall call).run language isOther (encodeContext ctx) content)
        (call.run isOther ctx q) := by
  intro content q
  obtain ⟨⟨data, loaded, _, matched⟩, topology, intact⟩ :=
    follows_runCalls dated plain isOther calls timed follows_missing
  exact ⟨⟨data, loaded, matched⟩, tracks_run plain isOther loaded matched topology intact next⟩

end Run

theorem sampleLanguage_plain : sampleLanguage.Plain where
  str _ _ := rfl
  int a b := by simp [sampleLanguage, Json.eq, Json.magnitude]

def heldCalls : List (RunNowQueue.Call × RunNowQueue.Context) :=
  [(.enqueue "op" RunNowQueue.op_ne_blank, RunNowQueue.approvedContext),
    (.claimFromLease RunNowQueue.drainLease (.seconds 30), RunNowQueue.approvedContext)]

theorem heldCalls_timed : ∀ next ∈ heldCalls, Timed sampleLanguage next.1 next.2 := by
  intro next inside ttl expiry lives expires
  rcases List.mem_cons.mp inside with rfl | inside
  · cases lives
  · cases List.mem_singleton.mp inside
    cases lives
    have soon : validatedClaimExpiry (.seconds 30) 0 = .ok 30000000 := by
      decide +kernel
    cases soon.symm.trans expires
    rfl

theorem heldCalls_deferred :
    let content := runCalls sampleLanguage (fun _ => false) .missing
      (heldCalls.map fun next => (encodeCall next.1, encodeContext next.2))
    let q := RunNowQueue.runCalls (fun _ => false) heldCalls .empty
    let outcome := (encodeCall RunNowQueue.sampleDeferral).run sampleLanguage (fun _ => false)
      (encodeContext RunNowQueue.approvedContext) content
    (savedBy outcome).isSome = true ∧ Tracks sampleLanguage (Shown sampleLanguage) q outcome
      (RunNowQueue.sampleDeferral.run (fun _ => false) RunNowQueue.approvedContext q) := by
  intro content q outcome
  refine ⟨by decide +kernel, ?_⟩
  exact (file_follows_queue sampleLanguage_dated sampleLanguage_plain (fun _ => false) heldCalls
    heldCalls_timed RunNowQueue.sampleDeferral RunNowQueue.approvedContext
    fun ttl expiry lives => by cases lives).2

end QueueFile

end RExecOp
