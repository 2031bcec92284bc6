import Mathlib.Data.Finset.Card
import RExecOp.Calls
import RExecOp.QueueBlind
import RExecOp.QueueFence
import RExecOp.QueueRecovery

/-! Draining the queue ends: a round takes one operation out of what waits, and neither the
start of an operation nor the scan puts another one in. -/

namespace RExecOp

open Lease (LeaseRecord Credential Instant)
open RunNowQueue Coordinator
open Coordinator (Selection)

variable {id : String} {lease : Credential} {c : Claim} {α : Type} {inputs : Nat → Input}
  {w after : World}

namespace QueueDrain

def isOutdated (epoch : Int) (c : Claim) : Bool :=
  c.status == .claimed && decide (c.leaseEpoch < epoch)

/-- The operations whose claims are held under older leases. -/
def outdated (epoch : Int) (q : Queue) : List String :=
  q.claims.keys.filter fun id => (q.claims.get id).any (isOutdated epoch)

def waiting (epoch : Int) (q : Queue) : Finset String :=
  (q.pending ++ outdated epoch q).toFinset

section Waiting

variable {epoch : Int} {q : Queue} {pending : List String} {id j : String} {c : Claim}

theorem isOutdated_iff :
    isOutdated epoch c = true ↔ c.status = .claimed ∧ c.leaseEpoch < epoch := by
  simp [isOutdated]

theorem mem_outdated : j ∈ outdated epoch q ↔
    ∃ c, q.claims.get j = some c ∧ isOutdated epoch c = true := by
  rw [outdated, List.mem_filter, Dict.mem_keys_iff, Option.any_eq_true]
  constructor
  · exact fun both => both.2
  · exact fun ⟨c, found, old⟩ => ⟨⟨c, found⟩, c, found, old⟩

theorem mem_waiting : j ∈ waiting epoch q ↔ j ∈ q.pending ∨ j ∈ outdated epoch q := by
  rw [waiting, List.mem_toFinset, List.mem_append]

theorem card_waiting_le :
    (waiting epoch q).card ≤ q.pending.length + (outdated epoch q).length := by
  have bound := List.toFinset_card_le (q.pending ++ outdated epoch q)
  rwa [List.length_append] at bound

theorem outdated_set (current : isOutdated epoch c = false)
    (member : j ∈ outdated epoch ⟨pending, q.claims.set id c⟩) :
    j ∈ outdated epoch q ∧ j ≠ id := by
  obtain ⟨found, stored, old⟩ := mem_outdated.mp member
  rw [Dict.get_set] at stored
  split at stored
  · cases stored
    rw [current] at old
    cases old
  · next other => exact ⟨mem_outdated.mpr ⟨found, stored, old⟩, other⟩

theorem outdated_remove (member : j ∈ outdated epoch ⟨pending, q.claims.remove id⟩) :
    j ∈ outdated epoch q := by
  obtain ⟨found, stored, old⟩ := mem_outdated.mp member
  rw [Dict.get_remove] at stored
  split at stored
  · cases stored
  · exact mem_outdated.mpr ⟨found, stored, old⟩

end Waiting

/-- `_drain_queue` for a number of rounds, with the start as a parameter. -/
def drainWithin (start : String → Selection → Program Bool) (lease : LeaseRecord) :
    Nat → Program (Option (List String))
  | 0 => pure none
  | rounds + 1 => do
    match ← QueueAccess.claimFromLease lease.credential with
    | none => pure (some [])
    | some claim => do
      let selection ← selectionFromExistingClaim claim.operationId lease claim
      let candidate ← loadOperation claim.operationId
      Controller.preflightClaimed lease candidate selection.2
      let _ ← start claim.operationId selection
      let position ← QueueAccess.position claim.operationId
      if position.isSome then pure (some [])
      else do
        match ← drainWithin start lease rounds with
        | none => pure none
        | some others =>
          pure (some (if selection.1 = .execution then claim.operationId :: others else others))

theorem drainQueue_eq (fuel : Nat) (lease : LeaseRecord) (rounds : Nat) :
    Controller.drainQueue fuel lease rounds =
      (drainWithin (fun id selection => Controller.startOperation fuel lease id (some selection))
        lease rounds >>= fun
          | none => .halt
          | some started => pure started) := by
  induction rounds with
  | zero => rfl
  | succ rounds ih =>
    simp only [Controller.drainQueue, drainWithin, Prog.bind_eq, Prog.bind_assoc]
    refine congrArg _ (funext fun found => ?_)
    cases found with
    | none => rfl
    | some claim =>
      simp only [Prog.bind_assoc]
      refine congrArg _ (funext fun selection => ?_)
      refine congrArg _ (funext fun candidate => ?_)
      refine congrArg _ (funext fun _ => ?_)
      refine congrArg _ (funext fun _ => ?_)
      refine congrArg _ (funext fun position => ?_)
      split
      · rfl
      · rw [ih, Prog.bind_eq, Prog.bind_assoc, Prog.bind_assoc]
        refine congrArg _ (funext fun others => ?_)
        cases others <;> rfl

/-- No operation but `id` becomes pending, and no claim is left to an older lease. -/
structure Adds (epoch : Int) (id : String) (q q' : Queue) : Prop where
  pending : ∀ j ∈ q'.pending, j = id ∨ j ∈ q.pending
  outdated : ∀ j ∈ outdated epoch q', j ∈ outdated epoch q

namespace Adds

variable {epoch : Int} {id : String} {q q' : Queue}

theorem refl : Adds epoch id q q := ⟨fun _ member => .inr member, fun _ member => member⟩

theorem trans {q'' : Queue} (first : Adds epoch id q q') (second : Adds epoch id q' q'') :
    Adds epoch id q q'' where
  pending j member := by
    rcases second.pending j member with same | earlier
    · exact .inl same
    · exact first.pending j earlier
  outdated j member := first.outdated j (second.outdated j member)

theorem of_eq (same : q' = q) : Adds epoch id q q' := same ▸ refl

theorem waiting_subset (adds : Adds epoch id q q') (gone : id ∉ q'.pending) :
    waiting epoch q' ⊆ waiting epoch q := by
  intro j member
  rw [mem_waiting] at member ⊢
  rcases member with pending | old
  · rcases adds.pending j pending with rfl | before
    · exact absurd pending gone
    · exact .inl before
  · exact .inr (adds.outdated j old)

end Adds

section Round

variable {ctx : Context} {scan : Scan} {q q' : Queue}

theorem waiting_settles {c c' : Claim} (settles : Settles scan q id c c' q') :
    waiting scan.lease.leaseEpoch q' ⊆ waiting scan.lease.leaseEpoch q := by
  have held : id ∈ outdated scan.lease.leaseEpoch q :=
    mem_outdated.mpr ⟨c, settles.stored, isOutdated_iff.mpr ⟨settles.claimed, settles.older⟩⟩
  have released : isOutdated scan.lease.leaseEpoch c' = false := by
    simp [isOutdated, settles.settled]
  intro j member
  rw [mem_waiting] at member ⊢
  rcases member with pending | old
  · rcases settles.pending with same | ⟨-, added⟩
    · rw [same] at pending
      exact .inl pending
    · rw [added, List.mem_append, List.mem_singleton] at pending
      rcases pending with before | rfl
      · exact .inl before
      · exact .inr held
  · have written : q' = ⟨q'.pending, q.claims.set id c'⟩ := by rw [← settles.claims]
    rw [written] at old
    exact .inr (outdated_set released old).1

theorem waiting_recoverClaims {ids : List String} {changed again : Bool}
    (done : recoverClaims ctx scan ids (changed, q) = .ok (again, q')) :
    waiting scan.lease.leaseEpoch q' ⊆ waiting scan.lease.leaseEpoch q := by
  induction ids generalizing changed q with
  | nil =>
    cases done
    exact Finset.Subset.refl _
  | cons id rest ih =>
    simp only [recoverClaims] at done
    split at done
    · cases done
    · next data first =>
      refine (ih done).trans ?_
      rcases recoverClaim_ok first with ⟨-, rfl, -⟩ | ⟨-, c, c', settles⟩
      · exact Finset.Subset.refl _
      · exact waiting_settles settles

theorem waiting_recoverExpiredUnlocked {again : Bool}
    (done : recoverExpiredUnlocked ctx scan q = .ok (again, q')) :
    waiting scan.lease.leaseEpoch q' ⊆ waiting scan.lease.leaseEpoch q := by
  unfold recoverExpiredUnlocked at done
  split at done
  · cases done
  · exact waiting_recoverClaims done

theorem claimUnlocked_some {expiresAt observedAt : Instant}
    (taken : claimUnlocked q lease expiresAt observedAt = .ok (some c, q')) :
    c.operationId ∈ q.pending ∧ c.leaseEpoch = lease.leaseEpoch ∧
      q' = ⟨q.pending.erase c.operationId, q.claims.set c.operationId c⟩ := by
  revert taken
  fun_cases claimUnlocked q lease expiresAt observedAt with
  | case3 id rest head =>
    unfold claimPending
    split
    · exact nofun
    · rintro ⟨⟩
      rw [head]
      exact ⟨List.mem_cons_self, rfl, rfl⟩
  | _ => exact nofun

theorem waiting_claimUnlocked {expiresAt observedAt : Instant} (nodup : q.pending.Nodup)
    (taken : claimUnlocked q lease expiresAt observedAt = .ok (some c, q')) :
    waiting lease.leaseEpoch q' ⊆ (waiting lease.leaseEpoch q).erase c.operationId ∧
      c.operationId ∈ waiting lease.leaseEpoch q := by
  obtain ⟨member, own, rfl⟩ := claimUnlocked_some taken
  have current : isOutdated lease.leaseEpoch c = false := by simp [isOutdated, own]
  refine ⟨fun j waits => ?_, mem_waiting.mpr (.inl member)⟩
  rw [Finset.mem_erase, mem_waiting]
  rcases mem_waiting.mp waits with pending | old
  · have both := nodup.mem_erase_iff.mp pending
    exact ⟨both.1, .inl both.2⟩
  · have both := outdated_set current old
    exact ⟨both.2, .inr both.1⟩

theorem claimFromLease_some {ttl : Ttl}
    (taken : claimFromLease ctx lease ttl q = (.ok (some c), q')) :
    (waiting lease.leaseEpoch q').card < (waiting lease.leaseEpoch q).card := by
  revert taken
  fun_cases claimFromLease ctx lease ttl q with
  | case6 _ _ _ data loaded recovered data' ran found saved claimed =>
    rintro ⟨⟩
    obtain ⟨-, -, calm, -⟩ := recoverExpiredUnlocked_ok ran
    rw [loadUnlocked_ok loaded] at ran
    have scanned := waiting_recoverExpiredUnlocked ran
    obtain ⟨taken, member⟩ := waiting_claimUnlocked calm.accepted.nodup claimed
    calc (waiting lease.leaseEpoch q').card
        ≤ ((waiting lease.leaseEpoch data').erase c.operationId).card := Finset.card_le_card taken
      _ < (waiting lease.leaseEpoch data').card := Finset.card_erase_lt_of_mem member
      _ ≤ (waiting lease.leaseEpoch q).card := Finset.card_le_card scanned
  | case7 _ _ _ _ _ _ _ _ _ _ _ idle =>
    rintro ⟨⟩
    simp at idle
  | _ => rintro ⟨⟩

end Round

section Between

variable {epoch : Int} {id : String} {ctx : Context} {q : Queue}

theorem adds_completeClaimFromLease (operationId : String) (lease : Credential)
    (snapshot : Option Claim) :
    Adds epoch id q (completeClaimFromLease ctx operationId lease snapshot q).2 := by
  fun_cases completeClaimFromLease ctx operationId lease snapshot q with
  | case4 _ data loaded =>
    obtain rfl := loadUnlocked_ok loaded
    exact ⟨fun _ member => .inr member, fun _ member => (outdated_set rfl member).1⟩
  | _ => exact .refl

theorem adds_completeAndRemoveClaimFromLease (operationId : String) (lease : Credential)
    (snapshot : Claim) :
    Adds epoch id q (completeAndRemoveClaimFromLease ctx operationId lease snapshot q).2 := by
  fun_cases completeAndRemoveClaimFromLease ctx operationId lease snapshot q with
  | case5 _ data loaded =>
    obtain rfl := loadForStrictMutation_ok loaded
    exact ⟨fun _ member => .inr member, fun _ member => outdated_remove member⟩
  | _ => exact .refl

theorem adds_requeueClaim {scan : Scan} {reason : Reason}
    {facts : RecordedState × List AttemptFacts} :
    Adds epoch id q (requeueClaim scan q id c reason facts) where
  pending j member := by
    rw [requeueClaim] at member
    dsimp only at member
    split at member
    · exact .inr member
    · rw [List.mem_append, List.mem_singleton] at member
      exact member.symm
  outdated _ member := (outdated_set rfl member).1

theorem adds_deferClaimFromLease (operationId : String) {snapshot : Claim} (lease : Credential)
    (reason : Reason) (own : snapshot.operationId = id) :
    Adds epoch id q (deferClaimFromLease ctx operationId snapshot lease reason q).2 := by
  fun_cases deferClaimFromLease ctx operationId snapshot lease reason q with
  | case9 _ _ data loaded current stored _ _ now =>
    obtain rfl := loadUnlocked_ok loaded
    have exact_ : exactCurrentClaim current operationId lease (some snapshot) = true := by
      simpa using now
    have same : operationId = id := by
      have tuples := congrArg Prod.fst (exactCurrentClaim_tuple exact_)
      simp only [exactCurrentClaim, Bool.and_eq_true, beq_iff_eq] at exact_
      exact exact_.1.1.1.1.2.symm.trans (tuples.trans own)
    rw [same]
    exact adds_requeueClaim
  | _ => exact .refl

end Between

def Mild (id : String) : Command → Prop
  | .queue (.completeClaimFromLease _ _ _) => True
  | .queue (.completeAndRemoveClaimFromLease _ _ _) => True
  | .queue (.deferClaimFromLease _ snapshot _ _) => snapshot.operationId = id
  | .queue _ => False
  | _ => True

theorem mild_of_outside {command : Command} (outside : command.isQueue = false) :
    Mild id command := by
  cases command with
  | queue call => cases outside
  | _ => exact trivial

theorem queue_effect_call (call : QueueCall) (i : Input) (w : World) :
    (effect (.queue call) i w).queue = w.queue ∨
      (effect (.queue call) i w).queue = w.queueAfter i call := by
  unfold effect
  split
  · next same => cases same
  · exact .inl rfl
  · exact .inr rfl

theorem adds_effect {epoch : Int} {command : Command} (mild : Mild id command) (i : Input)
    (w : World) : Adds epoch id w.queue (effect command i w).queue := by
  by_cases outside : command.isQueue = false
  · exact .of_eq (queue_effect outside i w)
  · cases command with
    | queue call =>
      rcases queue_effect_call call i w with same | same
      · exact .of_eq same
      · rw [same]
        cases call with
        | completeClaimFromLease operationId lease snapshot =>
          exact adds_completeClaimFromLease operationId lease (some snapshot)
        | completeAndRemoveClaimFromLease operationId lease snapshot =>
          exact adds_completeAndRemoveClaimFromLease operationId lease snapshot
        | deferClaimFromLease operationId snapshot lease reason =>
          exact adds_deferClaimFromLease operationId lease reason mild
        | _ => exact mild.elim
    | _ => exact absurd rfl outside

theorem adds_exec {epoch : Int} {p : Program α} (mild : p.Only (Mild id))
    {outcome : Prog.Outcome Fault α} (ran : p.exec effect inputs w = (outcome, after)) :
    Adds epoch id w.queue after.queue := by
  have adds := mild.exec (fun s t => Adds epoch id s.queue t.queue) (fun _ => .refl)
    (fun _ _ _ first second => first.trans second) (fun legal i w => adds_effect legal i w) inputs w
  rwa [ran] at adds

theorem mild_preflightRollbackAuthority (op : Operation) :
    (preflightRollbackAuthority op).Only (Mild id) :=
  (QueueBlind.preflightRollbackAuthority op).queueBlind.only.mono mild_of_outside

attribute [local simp] Mild loadOperation saveOperation saveAt

theorem mild_preflightClaimed (id : String) (lease : LeaseRecord) (candidate : Operation)
    (claim : Claim) : (Controller.preflightClaimed lease candidate claim).Only (Mild id) := by
  unfold Controller.preflightClaimed
  split
  · refine (mild_preflightRollbackAuthority candidate).attempt.bind fun outcome => ?_
    cases outcome <;> simp [QueueAccess.completeAndRemoveClaimFromLease]
  · exact trivial

theorem loopless_preflightRollbackAuthority (op : Operation) :
    (preflightRollbackAuthority op).Loopless := by
  have verifies : ∀ plan, (verifyCatalogBinding op plan).Loopless := by
    intro plan
    unfold verifyCatalogBinding
    split
    · exact trivial
    · split
      · exact trivial
      · exact .request
  have binding : ∀ plan, (requireRollbackCatalogBinding op plan).Loopless := by
    intro plan
    unfold requireRollbackCatalogBinding
    split
    · exact verifies plan
    · exact trivial
  have authority : (requireRollbackParentAuthority op).Loopless := by
    unfold requireRollbackParentAuthority
    split
    · exact trivial
    · split
      · exact trivial
      · refine Prog.Loopless.request.bind fun parent => ?_
        split
        · exact trivial
        · exact Prog.Loopless.request.bind fun _ => .request
  refine Prog.Loopless.request.bind fun plan => ?_
  exact (binding plan).bind fun _ => authority.bind fun _ => trivial

theorem loopless_preflightClaimed (lease : LeaseRecord) (candidate : Operation) (claim : Claim) :
    (Controller.preflightClaimed lease candidate claim).Loopless := by
  unfold Controller.preflightClaimed
  split
  · refine (loopless_preflightRollbackAuthority candidate).attempt.bind fun outcome => ?_
    split
    · exact trivial
    · split
      · exact Prog.Loopless.request.bind fun _ => Prog.Loopless.request.bind fun _ => trivial
      · exact trivial
  · exact trivial

theorem existingSelection_operationId {lease : LeaseRecord} {snapshot : Claim} {i : Input}
    {selection : Selection}
    (found : existingSelection id lease snapshot i w = .ok selection) :
    selection.2.operationId = id := by
  revert found
  fun_cases existingSelection id lease snapshot i w with
  | case4 _ data loaded current stored now =>
    simp only [exactCurrentClaim, Bool.and_eq_true, beq_iff_eq] at now
    cases specificClaimPurpose (loadRecoveryFacts (w.queueContext i) id) with
    | error fault => rintro ⟨⟩
    | ok value =>
      rintro ⟨⟩
      exact now.1.1.1.1.2
  | _ => rintro ⟨⟩

theorem not_mem_of_position (found : (loadUnlocked w.queue).map (fun data =>
      if data.pending.contains id then some (data.pending.idxOf id) else none) = .ok none) :
    id ∉ w.queue.pending := by
  cases loaded : loadUnlocked w.queue with
  | error fault => simp [loaded, Except.map] at found
  | ok data =>
    simp only [loaded, Except.map, Except.ok.injEq, ite_eq_right_iff, reduceCtorEq,
      imp_false, List.contains_iff_mem] at found
    rwa [loadUnlocked_ok loaded] at found

section Loop

variable {start : String → Selection → Program Bool} {lease : LeaseRecord}

variable (start lease) in
/-- Starting a claimed operation brings back at most itself. -/
def EnqueuesNothing : Prop :=
  ∀ id (selection : Selection) inputs w, selection.2.operationId = id →
    Adds lease.credential.leaseEpoch id w.queue
      ((start id selection).exec effect inputs w).2.queue

variable (start) in
/-- Starting an operation that was claimed terminates. -/
def Terminates : Prop :=
  ∀ id (selection : Selection) inputs w, selection.2.operationId = id →
    ((start id selection).exec effect inputs w).1 ≠ .halted

/-- The loop has ended before its rounds were used up. -/
def Settled (start : String → Selection → Program Bool)
    (run : Prog.Outcome Fault (Option (List String)) × World) : Prop :=
  run.1 ≠ .returned none ∧ (Terminates start → run.1 ≠ .halted)

theorem settled_raised (fault : Fault) (w : World) : Settled start (.raised fault, w) :=
  ⟨nofun, fun _ => nofun⟩

theorem settled_returned (started : List String) (w : World) :
    Settled start (.returned (some started), w) :=
  ⟨nofun, fun _ => nofun⟩

theorem settled_bind {p : Program α} {next : α → Program (Option (List String))}
    (loopless : p.Loopless)
    (rest : ∀ value after rest, p.exec effect inputs w = (.returned value, after) →
      Settled start ((next value).exec effect rest after)) :
    Settled start ((p >>= next).exec effect inputs w) :=
  Prog.exec_bind_induct rest (fun _ _ _ => settled_raised _ _)
    fun _ ran => absurd (congrArg Prod.fst ran) (loopless.exec inputs w)

theorem card_claimed {claim : Claim}
    (took : (QueueAccess.claimFromLease lease.credential).exec effect inputs w =
      (.returned (some claim), after)) :
    (waiting lease.credential.leaseEpoch after.queue).card <
      (waiting lease.credential.leaseEpoch w.queue).card := by
  obtain ⟨unfaulted, replied, rfl⟩ := exec_access took
  have stored : (effect (.queue (.claimFromLease lease.credential)) (inputs 0) w).queue =
      (claimFromLease (w.queueContext (inputs 0)) lease.credential defaultTtl w.queue).2 := by
    simp only [effect, unfaulted]
    rfl
  rw [stored]
  exact claimFromLease_some (Prod.ext replied rfl)

theorem settled_drainWithin (quiet : EnqueuesNothing start lease) (rounds : Nat)
    (inputs : Nat → Input) (w : World)
    (enough : (waiting lease.credential.leaseEpoch w.queue).card < rounds) :
    Settled start ((drainWithin start lease rounds).exec effect inputs w) := by
  induction rounds generalizing inputs w with
  | zero => exact absurd enough (Nat.not_lt_zero _)
  | succ rounds ih =>
    rw [drainWithin]
    refine settled_bind .request fun found claimed rest took => ?_
    cases found with
    | none => exact settled_returned _ _
    | some claim =>
      have fewer := card_claimed took
      refine settled_bind .request fun selection selecting rest selected => ?_
      have own := existingSelection_operationId (exec_access selected).2.1
      have reading : Adds lease.credential.leaseEpoch claim.operationId claimed.queue
          selecting.queue := adds_exec (Prog.Only.request (mild_of_outside rfl)) selected
      refine settled_bind .request fun candidate loading rest loaded => ?_
      obtain ⟨-, rfl⟩ := exec_read loaded
      refine settled_bind (loopless_preflightClaimed lease candidate selection.2)
        fun _ checked next preflighted => ?_
      have checking := reading.trans (adds_exec (mild_preflightClaimed _ _ _ _) preflighted)
      refine Prog.exec_bind_induct ?_ (fun _ _ _ => settled_raised _ _) ?_
      · intro _ started rest ran
        have starting := quiet claim.operationId selection next checked own
        simp only [ran] at starting
        refine settled_bind .request fun position last rest looked => ?_
        obtain ⟨looked, rfl⟩ := exec_read looked
        cases position with
        | some place => exact settled_returned _ _
        | none =>
          -- the operation has not come back: the next round finds fewer operations
          have kept := (checking.trans starting).waiting_subset (not_mem_of_position looked)
          have bound := Finset.card_le_card kept
          have later := ih rest last (by omega)
          refine Prog.exec_bind_induct ?_ (fun _ _ _ => settled_raised _ _) ?_
          · intro others final rest drained
            rw [drained] at later
            cases others with
            | none => exact absurd rfl later.1
            | some others => exact settled_returned _ _
          · intro final drained
            rw [drained] at later
            exact ⟨nofun, later.2⟩
      · intro started ran
        refine ⟨nofun, fun terminates => ?_⟩
        have halted := terminates claim.operationId selection next checked own
        rw [ran] at halted
        exact absurd rfl halted

/-- The drain ends within as many rounds as operations are pending or claimed by older leases,
and one. -/
theorem drain_ends_within (terminates : Terminates start) (quiet : EnqueuesNothing start lease)
    (inputs : Nat → Input) (w : World) :
    let rounds := w.queue.pending.length + (outdated lease.leaseEpoch w.queue).length + 1
    ∃ after, (∃ started, (drainWithin start lease rounds).exec effect inputs w =
        (.returned (some started), after)) ∨
      ∃ fault, (drainWithin start lease rounds).exec effect inputs w = (.raised fault, after) := by
  intro rounds
  have enough : (waiting lease.credential.leaseEpoch w.queue).card < rounds :=
    Nat.lt_succ_of_le card_waiting_le
  have settled := settled_drainWithin quiet rounds inputs w enough
  generalize (drainWithin start lease rounds).exec effect inputs w = run at settled
  obtain ⟨outcome, after⟩ := run
  refine ⟨after, ?_⟩
  cases outcome with
  | returned result =>
    cases result with
    | none => exact absurd rfl settled.1
    | some started => exact .inl ⟨started, rfl⟩
  | raised fault => exact .inr ⟨fault, rfl⟩
  | halted => exact absurd rfl (settled.2 terminates)

end Loop

section Start

variable {id : String} {lease : LeaseRecord} {selection : Selection}

theorem selectionClaim_some {required : Purpose} {claim : Option Claim}
    (chosen : selectionClaim (some selection) required = .ok claim) :
    claim = some selection.2 := by
  unfold selectionClaim at chosen
  dsimp only at chosen
  split at chosen
  · cases chosen
    rfl
  · cases chosen

theorem mild_completeClaim (operationId : String) (claim : Option Claim) :
    (Controller.completeClaim operationId lease claim).Only (Mild id) := by
  cases claim <;> simp [Controller.completeClaim, QueueAccess.completeClaimFromLease]

theorem mild_deferOrEnqueue (own : selection.2.operationId = id) (op : Operation)
    (reason : Reason) :
    (deferOrEnqueue op lease (some selection.2) reason).Only (Mild id) := by
  simp only [deferOrEnqueue, QueueAccess.deferClaimFromLease, Prog.bind_eq,
    Prog.Only.bind_iff, only_access_iff]
  refine ⟨own, fun _ _ => Prog.Only.bind (by simp [QueueAccess.position]) fun position => ?_⟩
  cases position <;> simp

theorem mild_admitForController (own : selection.2.operationId = id) (op : Operation) :
    (admitForController op lease (some selection)).Only (Mild id) := by
  have assesses : (assessForExecution op).Only (Mild id) := by
    simp [assessForExecution]
  refine Prog.Only.ofExcept_bind fun claim chosen => assesses.bind fun reason => ?_
  rw [selectionClaim_some chosen]
  cases reason <;> simp [mild_deferOrEnqueue own, acquirePrecheckedTarget,
    persistPrecheckedAdmission]

theorem mild_startOperation (fuel : Nat) (own : selection.2.operationId = id) :
    (Controller.startOperation fuel lease id (some selection)).Only (Mild id) := by
  have receipts (ended : String) : (Controller.ensureReceipt ended).Only (Mild id) :=
    (QueueBlind.ensureReceipt ended).only.mono mild_of_outside
  have starts : (Orchestrator.start fuel lease id).Only (Mild id) :=
    (QueueBlind.start fuel lease id).only.mono mild_of_outside
  simp [Controller.startOperation, Controller.cleanUpTerminal, Controller.admitApproved,
    claimTerminalForController, selected, releaseTargetOnly,
    checkMaintenanceWindow, verifyCatalogBinding, requireMutationExecutionEnabled, ask, check,
    mild_preflightRollbackAuthority, receipts, mild_completeClaim, mild_admitForController own]
  rintro op - - plan - _ - _ - (claim | _) - <;>
    simp [Controller.releaseRuntimeIfTerminal, releaseTargetOnly, mild_completeClaim, *]

end Start

theorem enqueuesNothing_startOperation (fuel : Nat) (lease : LeaseRecord) :
    EnqueuesNothing
      (fun id selection => Controller.startOperation fuel lease id (some selection)) lease :=
  fun _ _ _ _ own => adds_exec (mild_startOperation fuel own) rfl

/-- The controller's drain never needs more rounds, however its starts end. -/
theorem drainQueue_rounds (fuel : Nat) (lease : LeaseRecord) (inputs : Nat → Input) (w : World)
    (more : Nat) :
    ((drainWithin (fun id selection => Controller.startOperation fuel lease id (some selection))
      lease (w.queue.pending.length + (outdated lease.leaseEpoch w.queue).length + 1 + more)).exec
        effect inputs w).1 ≠ .returned none :=
  (settled_drainWithin (enqueuesNothing_startOperation fuel lease) _ inputs w
    (Nat.lt_of_lt_of_le (Nat.lt_succ_of_le card_waiting_le) (Nat.le_add_right _ more))).1

def secondWorker : LeaseRecord :=
  ⟨Lease.workerLeaseSchema, "worker", "process", 2, "second", 0, 0, some 240000000, 0⟩

def approvedOperation (suffix : String) : Operation :=
  { (PlanRequest.applying suffix ["act"] ⟨0, [], []⟩).operation with
    state := .approved
    revision := 1 }

def twoWaiting : World :=
  { World.empty with
    operations := (Dict.set ∅ "op-a" (approvedOperation "a")).set "op-b" (approvedOperation "b")
    queue := ⟨["op-a"], Dict.set ∅ "op-b"
      (newClaim "op-b" ⟨"first", 1, "process"⟩ 1 120000000 0 none)⟩
    lease := ⟨some 2, some secondWorker⟩ }

def completing (id : String) (selection : Selection) : Program Bool := do
  QueueAccess.completeClaimFromLease id secondWorker.credential selection.2
  pure true

theorem twoWaiting_ends_within :
    Terminates completing ∧ EnqueuesNothing completing secondWorker ∧
    ∃ after, (∃ started,
        (drainWithin completing secondWorker 3).exec effect
          (fun n => .agreeing 120000000 (toString n)) twoWaiting =
            (.returned (some started), after)) ∨
      ∃ fault, (drainWithin completing secondWorker 3).exec effect
        (fun n => .agreeing 120000000 (toString n)) twoWaiting = (.raised fault, after) := by
  have terminates : Terminates completing := by
    intro id selection inputs w _
    have loopless : (completing id selection).Loopless :=
      Prog.Loopless.request.bind fun _ => trivial
    exact loopless.exec inputs w
  have quiet : EnqueuesNothing completing secondWorker := by
    intro id selection inputs w _
    have mild : (completing id selection).Only (Mild id) :=
      (Prog.Only.request trivial).bind fun _ => trivial
    exact adds_exec mild rfl
  exact ⟨terminates, quiet, drain_ends_within terminates quiet _ twoWaiting⟩

end QueueDrain

end RExecOp
