import RExecOp.QueueFence
import RExecOp.QueueRecovery

/-! Repeated deferrals. No call about other operations touches a requeued record; a later claim
counts the attempt up, which the deferral then no longer matches. -/

namespace RExecOp.RunNowQueue

open Lease (Instant Credential LeaseFiles)

variable {q : Queue} {c : Claim} {id : String} {lease : Credential} {ctx : Context}

theorem Intact.loads (intact : Intact q) : loadUnlocked q = .ok q :=
  loadUnlocked_of_valid fun id c found => (intact id c found).2

theorem intact_empty : Intact .empty := by
  intro id c found
  simp [Queue.empty] at found

def Deferred (id : String) (snapshot : Claim) (lease : Credential) (reason : Reason) (q : Queue)
    (c : Claim) : Prop :=
  q.claims.get id = some c ∧ sameDeferIsComplete q id c snapshot lease reason = true

section Deferred

variable {id : String} {snapshot c : Claim} {lease : Credential} {reason : Reason} {q : Queue}

theorem Deferred.requeued (deferred : Deferred id snapshot lease reason q c) :
    c.status = .requeued := by
  have same := deferred.2
  simp only [sameDeferIsComplete, Bool.and_eq_true, beq_iff_eq] at same
  exact same.1

theorem Deferred.attempt (deferred : Deferred id snapshot lease reason q c) :
    c.attempt = snapshot.attempt := by
  obtain ⟨-, same⟩ := deferred
  unfold sameDeferIsComplete at same
  rw [Bool.and_eq_true] at same
  obtain ⟨-, same⟩ := same
  split at same
  · cases same
  · simp only [Bool.and_eq_true, beq_iff_eq] at same
    tauto

theorem Deferred.of_same {q' : Queue} (deferred : Deferred id snapshot lease reason q c)
    (record : q'.claims.get id = some c) (count : q'.pending.count id = q.pending.count id) :
    Deferred id snapshot lease reason q' c := by
  refine ⟨record, ?_⟩
  have same := deferred.2
  unfold sameDeferIsComplete at same ⊢
  rw [count]
  exact same

theorem count_eq_one (topology : Topology q) (member : id ∈ q.pending) : q.pending.count id = 1 :=
  List.count_eq_one_of_mem topology.nodup member

theorem Deferred.count (deferred : Deferred id snapshot lease reason q c) (topology : Topology q) :
    q.pending.count id = 1 :=
  count_eq_one topology ((topology.placed id c deferred.1).requeued deferred.requeued)

theorem boundedEpoch_self {value : Int} (bounds : 1 ≤ value ∧ value ≤ maxTransitionEpoch) :
    boundedEpoch value = value := by
  rw [boundedEpoch, if_pos (boundedInteger_iff.mpr bounds)]

theorem deferred_requeueClaim (topology : Topology q) (valid : ValidLease lease) {current : Claim}
    (stored : q.claims.get id = some current)
    (now : exactCurrentClaim current id lease (some snapshot) = true)
    (absent : q.pending.contains id = false) (observedAt : Instant)
    (facts : RecordedState × List AttemptFacts) :
    ∃ c, Deferred id snapshot lease reason
      (requeueClaim ⟨lease, observedAt⟩ q id current reason facts) c := by
  have placed := topology.placed id current stored
  have missing : id ∉ q.pending := by simpa using absent
  simp only [exactCurrentClaim, sameTuple, Option.getD_some, Bool.and_eq_true, beq_iff_eq] at now
  obtain ⟨⟨⟨⟨⟨-, named⟩, ⟨⟨⟨-, token⟩, process⟩, epoch⟩, attempt⟩, leaseToken⟩, leaseEpoch⟩,
    leaseProcess⟩ := now
  refine ⟨{ noted ⟨lease, observedAt⟩ current .requeued reason facts with status := .requeued },
    by simp [requeueClaim], ?_⟩
  have once : (q.pending ++ [id]).count id = 1 := by
    simp [List.count_eq_zero.mpr missing]
  simp only [sameDeferIsComplete, requeueClaim, absent, noted, transitionRecord, once,
    boundedEpoch_self placed.valid.attempt, boundedEpoch_self valid.epoch, ← token, ← process,
    ← epoch, ← attempt, named, leaseToken,
    leaseProcess, leaseEpoch, Bool.false_eq_true, if_false, beq_self_eq_true, Bool.and_self]

theorem deferred_of_ok (topology : Topology q) (valid : ValidLease lease) {after : Queue}
    (done : deferClaimFromLease ctx id snapshot lease reason q = (.ok (), after)) :
    ∃ c, Deferred id snapshot lease reason after c := by
  unfold deferClaimFromLease at done
  split at done
  · cases done
  · split at done
    · cases done
    · split at done
      · cases done
      · rename_i data loaded
        rw [loadUnlocked_ok loaded] at done
        split at done
        · cases done
        · rename_i current stored
          dsimp only at done
          split at done
          · rename_i complete
            cases done
            exact ⟨current, stored, complete⟩
          split at done
          · cases done
          rename_i now
          split at done
          · cases done
          split at done
          · cases done
          rename_i absent
          cases done
          exact deferred_requeueClaim topology valid stored (by simpa using now)
            (eq_false_of_ne_true absent) _ _

theorem Deferred.again (deferred : Deferred id snapshot lease reason q c) (intact : Intact q)
    (supported : reason = .maxConcurrentReached ∨ reason = .targetLocked)
    (guarded : enterLeaseGuard ctx lease (claimConflict id) = .ok ()) :
    deferClaimFromLease ctx id snapshot lease reason q = (.ok (), q) := by
  have known : ¬(reason ≠ .maxConcurrentReached ∧ reason ≠ .targetLocked) := by tauto
  simp only [deferClaimFromLease, if_neg known, guarded, intact.loads, deferred.1, deferred.2,
    if_true]

theorem defer_conflict (intact : Intact q)
    (supported : reason = .maxConcurrentReached ∨ reason = .targetLocked)
    (stored : q.claims.get id = some c) (other : c.attempt ≠ snapshot.attempt) (ctx : Context) :
    deferClaimFromLease ctx id snapshot lease reason q = (.error (claimConflict id), q) := by
  have known : ¬(reason ≠ .maxConcurrentReached ∧ reason ≠ .targetLocked) := by tauto
  have incomplete : sameDeferIsComplete q id c snapshot lease reason = false := by
    by_contra complete
    exact other (Deferred.attempt ⟨stored, eq_true_of_ne_false complete⟩)
  have inexact : exactCurrentClaim c id lease (some snapshot) = false := by
    by_contra now
    have same := exactCurrentClaim_tuple (eq_true_of_ne_false now)
    simp only [Claim.tuple, Prod.mk.injEq] at same
    exact other same.2.2.2.2
  unfold deferClaimFromLease
  rw [if_neg known]
  cases guard : enterLeaseGuard ctx lease (claimConflict id) with
  | error fault =>
    unfold enterLeaseGuard at guard
    split at guard
    · cases guard
    · cases guard
      rfl
  | ok =>
    simp only [intact.loads, stored, incomplete, inexact, Bool.false_eq_true, if_false,
      Bool.not_false, if_true]

theorem supported_of_ok {after : Queue}
    (done : deferClaimFromLease ctx id snapshot lease reason q = (.ok (), after)) :
    reason = .maxConcurrentReached ∨ reason = .targetLocked := by
  unfold deferClaimFromLease at done
  split at done
  · cases done
  · tauto

end Deferred

def Call.names : Call → Option String
  | .enqueue id _ => some id
  | .remove id => some id
  | .discardPending id => some id
  | .claimSpecificFromLease id _ => some id
  | .completeClaim id _ _ => some id
  | .completeClaimFromLease id _ _ => some id
  | .completeAndRemoveClaimFromLease id _ _ => some id
  | .deferClaimFromLease id _ _ _ => some id
  | .removeCancelledFromLease id _ => some id
  | _ => none

structure Waits (id : String) (c : Claim) (q : Queue) : Prop where
  stored : q.claims.get id = some c
  requeued : c.status = .requeued
  pending : id ∈ q.pending

section Waits

variable {id : String} {c : Claim} {q q' : Queue}

theorem Waits.touch (waits : Waits id c q) (touch : Touch q q') : Waits id c q' := by
  have other {j : String} {d : Claim} (stored : q.claims.get j = some d)
      (claimed : d.status = .claimed) : id ≠ j := by
    rintro rfl
    rw [waits.stored] at stored
    cases stored
    rw [waits.requeued] at claimed
    cases claimed
  cases touch with
  | note j d d' stored claimed same kept =>
    exact ⟨by rw [Dict.get_set_ne _ _ (other stored claimed), waits.stored], waits.requeued,
      waits.pending⟩
  | requeue j d d' stored claimed same again =>
    exact ⟨by rw [Dict.get_set_ne _ _ (other stored claimed), waits.stored], waits.requeued,
      List.mem_append_left _ waits.pending⟩

theorem Waits.scanned (waits : Waits id c q) (scanned : Relation.ReflTransGen Touch q q') :
    Waits id c q' := by
  induction scanned with
  | refl => exact waits
  | tail _ touch ih => exact ih.touch touch

theorem Waits.claim (waits : Waits id c q) {d : Claim} (other : d.operationId ≠ id) :
    Waits id c ⟨q.pending.erase d.operationId, q.claims.set d.operationId d⟩ :=
  ⟨by rw [Dict.get_set_ne _ _ other.symm, waits.stored], waits.requeued,
    (List.mem_erase_of_ne other.symm).mpr waits.pending⟩

def Call.aside (id : String) (call : Call) : Prop :=
  (∃ snapshot lease reason, call = .deferClaimFromLease id snapshot lease reason) ∨
    call.names ≠ some id

theorem Waits.step (waits : Waits id c q) {call : Call} {r : Except Fault Reply × Queue}
    (does : Does q call r) (aside : call.aside id)
    (unclaimed : ∀ d, claimOf r.1 = some d → d.operationId ≠ id) : Waits id c r.2 := by
  obtain ⟨reply, after⟩ := r
  obtain ⟨change, effect, admitted⟩ := does
  cases effect with
  | keep => exact waits
  | append j named absent =>
    exact ⟨waits.stored, waits.requeued, List.mem_append_left _ waits.pending⟩
  | drop j rest sub only settled =>
    have other : id ≠ j := by
      rintro rfl
      have completed := settled c waits.stored
      rw [waits.requeued] at completed
      cases completed
    exact ⟨waits.stored, waits.requeued, only id waits.pending other⟩
  | forget j rest sub only =>
    have other : id ≠ j := by
      rintro rfl
      rcases aside with ⟨snapshot, lease, reason, rfl⟩ | others
      · rcases admitted.1 with same | ⟨_, same⟩ | ⟨_, _, same⟩ <;> cases same
      · rcases admitted.1 with rfl | ⟨_, rfl⟩ | ⟨_, _, rfl⟩ <;> exact others rfl
    exact ⟨by rw [Dict.get_remove_ne _ other, waits.stored], waits.requeued,
      only id waits.pending other⟩
  | settle j d d' stored claimed same kept =>
    exact waits.touch (.note j d d' stored claimed same kept)
  | requeue j d d' stored claimed same again =>
    exact waits.touch (.requeue j d d' stored claimed same again)
  | scan scanned => exact waits.scanned scanned
  | claim d fresh =>
    rw [show reply = .ok (.claimed (some d)) from admitted] at unclaimed
    exact waits.claim (unclaimed d rfl)
  | scanClaim d scanned fresh =>
    rw [show reply = .ok (.claimed (some d)) from admitted.2] at unclaimed
    exact (waits.scanned scanned).claim (unclaimed d rfl)

end Waits

/-- Repetitions of the deferral, or calls about other operations. -/
def Asides (isOther : Char → Bool) (id : String) (deferral : Call) :
    Queue → List (Call × Context) → Prop
  | _, [] => True
  | q, next :: rest =>
    (next.1 = deferral ∨ next.1.names ≠ some id) ∧
      (∀ c, claimOf (next.1.run isOther next.2 q).1 = some c → c.operationId ≠ id) ∧
      Asides isOther id deferral (next.1.run isOther next.2 q).2 rest

/-- None of the calls deletes the record of the operation. -/
def Undeleted (isOther : Char → Bool) (id : String) : Queue → List (Call × Context) → Prop
  | _, [] => True
  | q, next :: rest =>
    ((next.1.run isOther next.2 q).2.claims.get id).isSome = true ∧
      Undeleted isOther id (next.1.run isOther next.2 q).2 rest

theorem waits_runCalls (isOther : Char → Bool) {deferral : Call}
    (defers : ∃ snapshot lease reason, deferral = .deferClaimFromLease id snapshot lease reason)
    (calls : List (Call × Context)) (topology : Topology q) (waits : Waits id c q)
    (asides : Asides isOther id deferral q calls) : Waits id c (runCalls isOther calls q) := by
  induction calls generalizing q with
  | nil => exact waits
  | cons next rest ih =>
    obtain ⟨kind, unclaimed, later⟩ := asides
    have does := call_does isOther next.2 next.1 topology
    have aside : next.1.aside id := by
      rcases kind with same | other
      · rw [same]
        exact .inl defers
      · exact .inr other
    obtain ⟨change, effect, -⟩ := does
    exact ih (topology_effect topology effect)
      (waits.step (call_does isOther next.2 next.1 topology) aside unclaimed) later

theorem attempt_le_runCalls (isOther : Char → Bool) (calls : List (Call × Context))
    (topology : Topology q) (stored : q.claims.get id = some c)
    (kept : Undeleted isOther id q calls) :
    ∃ d, (runCalls isOther calls q).claims.get id = some d ∧ c.attempt ≤ d.attempt := by
  induction calls generalizing q c with
  | nil => exact ⟨c, stored, Int.le_refl _⟩
  | cons next rest ih =>
    obtain ⟨present, later⟩ := kept
    have does := call_does isOther next.2 next.1 topology
    obtain ⟨d, found⟩ := Option.isSome_iff_exists.mp present
    have up : c.attempt ≤ d.attempt := by
      have before : tuples q id = some c.tuple := by simp [tuples, stored]
      have after : tuples (next.1.run isOther next.2 q).2 id = some d.tuple := by
        simp [tuples, found]
      have rewrites := rewrites_of_does does
      generalize claimOf (next.1.run isOther next.2 q).1 = issued at rewrites
      cases rewrites with
      | same kept =>
        rw [kept, before] at after
        simp only [Claim.tuple, Option.some.injEq, Prod.mk.injEq] at after
        omega
      | deleted j gone others =>
        by_cases here : id = j
        · rw [here, gone] at after
          cases after
        · rw [others id here, before] at after
          simp only [Claim.tuple, Option.some.injEq, Prod.mk.injEq] at after
          omega
      | created e created others above =>
        by_cases here : id = e.operationId
        · have less := above c.tuple (here ▸ before)
          rw [here, created] at after
          simp only [Claim.tuple, Option.some.injEq, Prod.mk.injEq] at after less
          omega
        · rw [others id here, before] at after
          simp only [Claim.tuple, Option.some.injEq, Prod.mk.injEq] at after
          omega
    obtain ⟨change, effect, -⟩ := does
    obtain ⟨e, last, above⟩ := ih (topology_effect topology effect) found later
    exact ⟨e, last, up.trans above⟩

theorem attempt_lt_claim (isOther : Char → Bool) (topology : Topology q) (next : Call × Context)
    {c d : Claim} (stored : q.claims.get id = some c)
    (taken : claimOf (next.1.run isOther next.2 q).1 = some d) (named : d.operationId = id) :
    ∃ e, (next.1.run isOther next.2 q).2.claims.get id = some e ∧ c.attempt < e.attempt := by
  have rewrites := rewrites_of_does (call_does isOther next.2 next.1 topology)
  rw [taken] at rewrites
  cases rewrites with
  | created _ created others above =>
    subst named
    have less := above c.tuple (by simp [tuples, stored])
    rw [tuples] at created
    cases found : (next.1.run isOther next.2 q).2.claims.get d.operationId with
    | none => simp [found] at created
    | some e =>
      simp only [found, Option.map_some, Claim.tuple, Option.some.injEq, Prod.mk.injEq] at created
      simp only [Claim.tuple] at less
      exact ⟨e, rfl, by omega⟩

/-- Over repetitions and calls about other operations the record stays, the operation is pending
once and the same deferral changes nothing; after a later claim it raises a conflict. -/
theorem deferral_idempotent (isOther : Char → Bool) (calls : List (Call × Context)) (id : String)
    (snapshot : Claim) (lease : GrantedLease) (reason : Reason) (ctx : Context) (after : Queue)
    (deferred : deferClaimFromLease ctx id snapshot lease.1 reason (runCalls isOther calls .empty) =
      (.ok (), after)) (more : List (Call × Context))
    (asides : Asides isOther id (.deferClaimFromLease id snapshot lease reason) after more) :
    let reached := runCalls isOther more after
    (reached.claims.get id = after.claims.get id ∧ reached.pending.count id = 1) ∧
      (∀ ctx, enterLeaseGuard ctx lease.1 (claimConflict id) = .ok () →
        deferClaimFromLease ctx id snapshot lease.1 reason reached = (.ok (), reached)) ∧
      ∀ (next : Call × Context) (c : Claim),
        claimOf (next.1.run isOther next.2 reached).1 = some c → c.operationId = id →
        ∀ later, Undeleted isOther id (next.1.run isOther next.2 reached).2 later → ∀ ctx,
          let final := runCalls isOther later (next.1.run isOther next.2 reached).2
          deferClaimFromLease ctx id snapshot lease.1 reason final =
            (.error (claimConflict id), final) := by
  intro reached
  have start := topology_runCalls isOther calls topology_empty
  have fine := intact_runCalls isOther calls topology_empty intact_empty
  have supported := supported_of_ok deferred
  obtain ⟨c, made⟩ := deferred_of_ok start lease.2 deferred
  have step := call_makes isOther ctx (.deferClaimFromLease id snapshot lease reason) start
  obtain ⟨⟨change, effect, -⟩, keeps⟩ := step
  have result : ((Call.deferClaimFromLease id snapshot lease reason).run isOther ctx
      (runCalls isOther calls .empty)).2 = after := by
    simp only [Call.run, answer, deferred]
  rw [result] at effect keeps
  have topology := topology_effect start effect
  have waits : Waits id c after :=
    ⟨made.1, made.requeued, (topology.placed id c made.1).requeued made.requeued⟩
  have still := waits_runCalls isOther ⟨snapshot, lease, reason, rfl⟩ more topology waits asides
  have reachedTopology := topology_runCalls isOther more topology
  have reachedIntact := intact_runCalls isOther more topology (keeps fine)
  have once := count_eq_one reachedTopology still.pending
  refine ⟨⟨by rw [still.stored, made.1], once⟩, fun ctx guarded => ?_, ?_⟩
  · have again : Deferred id snapshot lease.1 reason reached c :=
      made.of_same still.stored (by rw [once, made.count topology])
    exact again.again reachedIntact supported guarded
  · intro next d taken named later kept ctx final
    obtain ⟨e, stored, above⟩ :=
      attempt_lt_claim isOther reachedTopology next still.stored taken named
    obtain ⟨⟨change, effect, -⟩, keeps⟩ := call_makes isOther next.2 next.1 reachedTopology
    have claimedTopology := topology_effect reachedTopology effect
    obtain ⟨last, found, up⟩ := attempt_le_runCalls isOther later claimedTopology stored kept
    have intact := intact_runCalls isOther later claimedTopology (keeps reachedIntact)
    refine defer_conflict intact supported found ?_ ctx
    rw [← made.attempt]
    omega

def approvedContext : Context :=
  { failedContext 0 with loader := fun _ => .loaded (some .approved) [] }

def claimedOnce : List (Call × Context) :=
  [(.enqueue "op" op_ne_blank, approvedContext),
    (.claimSpecificFromLease "op" drainLease, approvedContext)]

def sampleDeferral : Call := .deferClaimFromLease "op" firstSnapshot drainLease .targetLocked

def deferredOnce : Except Fault Unit × Queue :=
  deferClaimFromLease approvedContext "op" firstSnapshot drainLease.1 .targetLocked
    (runCalls (fun _ => false) claimedOnce .empty)

def deferredAgain : List (Call × Context) :=
  [(sampleDeferral, approvedContext), (.enqueue "other" (by decide), approvedContext)]

def claimedAgain : Except Fault Reply × Queue :=
  (Call.claimSpecificFromLease "op" drainLease).run (fun _ => false) approvedContext
    (runCalls (fun _ => false) deferredAgain deferredOnce.2)

theorem deferredAgain_asides :
    Asides (fun _ => false) "op" sampleDeferral deferredOnce.2 deferredAgain := by
  refine ⟨.inl rfl, fun c taken => ?_, .inr (by decide), fun c taken => ?_, trivial⟩
  · have none : claimOf (sampleDeferral.run (fun _ => false) approvedContext deferredOnce.2).1 =
        none := by decide +kernel
    exact absurd (none.symm.trans taken) (by simp)
  · have none : claimOf ((Call.enqueue "other" (by decide)).run (fun _ => false) approvedContext
        (sampleDeferral.run (fun _ => false) approvedContext deferredOnce.2).2).1 = none := by
      decide +kernel
    exact absurd (none.symm.trans taken) (by simp)

theorem claimedAgain_defers_no_more :
    (runCalls (fun _ => false) deferredAgain deferredOnce.2).pending.count "op" = 1 ∧
      deferClaimFromLease approvedContext "op" firstSnapshot drainLease.1 .targetLocked
        claimedAgain.2 = (.error (claimConflict "op"), claimedAgain.2) := by
  have accepted : deferredOnce.1 = .ok () := by decide +kernel
  have repeats := deferral_idempotent (fun _ => false) claimedOnce "op" firstSnapshot drainLease
    .targetLocked approvedContext deferredOnce.2 (Prod.ext accepted rfl) deferredAgain
    deferredAgain_asides
  have taken : (claimOf claimedAgain.1).map (·.operationId) = some "op" := by decide +kernel
  obtain ⟨c, issued, named⟩ := Option.map_eq_some_iff.mp taken
  exact ⟨repeats.1.2, repeats.2.2 (.claimSpecificFromLease "op" drainLease, approvedContext) c
    issued named [] trivial approvedContext⟩

/-- The record is deleted and the operation claimed afresh. -/
def claimedAfresh : List (Call × Context) :=
  [(.completeAndRemoveClaimFromLease "op" drainLease { firstSnapshot with attempt := 2 },
      approvedContext),
    (.enqueue "op" op_ne_blank, approvedContext),
    (.claimSpecificFromLease "op" drainLease, approvedContext)]

theorem claimedAfresh_defers_again :
    let final := runCalls (fun _ => false) claimedAfresh claimedAgain.2
    let again := deferClaimFromLease approvedContext "op" firstSnapshot drainLease.1 .targetLocked
      final
    deferredOnce.1 = .ok () ∧ (claimOf claimedAgain.1).map (·.operationId) = some "op" ∧
      again.1 = .ok () ∧ final.pending.count "op" = 0 ∧ again.2.pending.count "op" = 1 := by
  decide +kernel

end RExecOp.RunNowQueue
