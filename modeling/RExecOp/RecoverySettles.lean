import RExecOp.Calls
import RExecOp.RecoveryRun

/-! Startup recovery as a whole: from every store a run of the runtime leaves
behind, a returned recovery settles it, and a second one finds nothing to do. -/

namespace RExecOp.Recovery

open Solo
open RunNowQueue (Loads enterLeaseGuard maxTransitionEpoch recoverExpiredClaimsFromLease
  recoverExpiredClaimsFromLease_ok recoverExpiredClaimsFromLease_calm)

open Attempts (Attempt)
open Lease (Instant LeaseRecord Credential)
open Coordinator (usesTargetLock)

variable {op now : Operation} {w after w₁ w₂ : World} {observedAt : Instant}
  {given : Option LeaseRecord}

def underLease (given : Option LeaseRecord) (observedAt : Instant) (repairReceipts : Bool)
    (lease : LeaseRecord) : Program Report := do
  let released ← releaseStaleLocks
  let interrupted ← interruptActiveOperations observedAt
  let indeterminate ← recoverStartedAttempts
  let recovered ← recoverQueue given lease observedAt
  let repairs ← (if repairReceipts then repairTerminalReceipts else pure ([], []))
  let projections ← reconcilePendingProjections
  releaseOwned given lease
  pure ⟨released, interrupted, indeterminate, recovered, repairs.1, repairs.2, projections.1,
    projections.2⟩

theorem runStartupRecovery_eq (given : Option LeaseRecord) (observedAt : Instant)
    (repairReceipts : Bool) :
    runStartupRecovery given observedAt repairReceipts =
      ownedLease given >>= underLease given observedAt repairReceipts := rfl

structure Prepared (w after : World) : Prop where
  frame : ∃ operations locks attempts,
    after = { w with operations := operations, locks := locks, attempts := attempts }
  operations : ∀ {id op}, w.operations.get id = some op →
    ∃ now, after.operations.get id = some now ∧ Interrupted op now
  absent : ∀ {id}, w.operations.get id = none → after.operations.get id = none
  marked : ∀ id attemptId, Marked (w.attempt id attemptId) (after.attempt id attemptId)
  finished : ∀ {id attemptId record}, after.attempt id attemptId = some record →
    record.status ≠ .started
  locks : ∀ {file record}, after.locks.get file = some record →
    w.locks.get file = some record ∧ after.isLockStale record = false

theorem Interrupted.idle (interrupted : Interrupted op now) : now.state.isActive = false := by
  cases active : op.state.isActive with
  | true => rw [(interrupted.1 active).1]; rfl
  | false => rw [interrupted.2 active]; exact active

theorem Interrupted.id (interrupted : Interrupted op now) : now.id = op.id := by
  cases active : op.state.isActive with
  | true => exact (interrupted.1 active).2.binding.id
  | false => rw [interrupted.2 active]

theorem Interrupted.executed (interrupted : Interrupted op now) (ran : op.state.isExecuted = true) :
    now.state.isExecuted = true := by
  cases active : op.state.isActive with
  | true => rw [(interrupted.1 active).1]; rfl
  | false => rw [interrupted.2 active]; exact ran

theorem Interrupted.revision (interrupted : Interrupted op now) : op.revision ≤ now.revision := by
  cases active : op.state.isActive with
  | true => exact (interrupted.1 active).2.revision
  | false => rw [interrupted.2 active]

theorem Prepared.stored (prepared : Prepared w after) {id : String}
    (found : after.operations.get id = some now) :
    ∃ op, w.operations.get id = some op ∧ Interrupted op now := by
  cases before : w.operations.get id with
  | none =>
    rw [prepared.absent before] at found
    cases found
  | some op =>
    obtain ⟨other, here, interrupted⟩ := prepared.operations before
    have same : other = now := Option.some.inj (here.symm.trans found)
    exact ⟨op, rfl, same ▸ interrupted⟩

theorem Marked.some {before : Option Attempt} {record : Attempt}
    (marked : Marked before (some record)) :
    ∃ old, before = some old ∧ record.operationId = old.operationId ∧
      record.attemptId = old.attemptId := by
  rcases marked with same | ⟨old, finished, here, -, lost⟩
  · exact ⟨record, same.symm, rfl, rfl⟩
  · cases lost
    exact ⟨old, here, rfl, rfl⟩

theorem consistent_prepared (consistent : Consistent w) (prepared : Prepared w after) :
    Consistent after where
  keyed found := by
    obtain ⟨op, here, interrupted⟩ := prepared.stored found
    exact interrupted.id.trans (consistent.keyed here)
  named found := by
    obtain ⟨op, here, -⟩ := prepared.stored found
    exact consistent.named here
  revised found := by
    obtain ⟨op, here, interrupted⟩ := prepared.stored found
    exact lt_of_lt_of_le (consistent.revised here) interrupted.revision
  planned found := by
    obtain ⟨op, here, -⟩ := prepared.stored found
    obtain ⟨operations, locks, attempts, rfl⟩ := prepared.frame
    exact consistent.planned here
  attempted {id attemptId record} found := by
    obtain ⟨old, before, -, -⟩ := Marked.some (found ▸ prepared.marked id attemptId)
    obtain ⟨op, here, ran⟩ := consistent.attempted before
    obtain ⟨now, stored, interrupted⟩ := prepared.operations here
    exact ⟨now, stored, interrupted.executed ran⟩
  journaled {id attemptId record} found := by
    obtain ⟨old, before, operationId, key⟩ := Marked.some (found ▸ prepared.marked id attemptId)
    obtain ⟨named, numbered⟩ := consistent.journaled before
    exact ⟨operationId.trans named, key.trans numbered⟩

theorem isLockStale_eq_false {record : LockRecord} :
    w.isLockStale record = false ↔ record.operationId ≠ "" ∧
      ∃ op, w.operations.get record.operationId = some op ∧ op.state.holdsLock = true := by
  unfold World.isLockStale
  rw [Bool.or_eq_false_iff, beq_eq_false_iff_ne]
  cases found : w.operations.get record.operationId with
  | none => simp
  | some op => simp

theorem prepared_of_phases {w w₁ w₂ w₃ : World} (consistent : Consistent w) (locked : Locked w)
    (releasing : Releasing w [] w₁) (interrupting : Interrupting w₁ [] w₂)
    (marking : Marking w₂ [] w₃) : Prepared w w₃ := by
  obtain ⟨locks₁, rfl⟩ := releasing.frame
  obtain ⟨operations₂, locks₂, rfl⟩ := interrupting.frame
  obtain ⟨attempts₃, rfl⟩ := marking.frame
  refine ⟨⟨_, _, _, rfl⟩, fun found => interrupting.behind found (by simp), interrupting.absent,
    marking.marked, fun found started => ?_, fun {file record} found => ?_⟩
  · exact absurd (marking.started found started) (by simp)
  · obtain ⟨before, cleared⟩ := interrupting.locks found
    have live := releasing.fresh before (by simp)
    obtain ⟨op, stored, environment, target, uses⟩ := locked.holder (releasing.kept before)
    obtain ⟨named, other, here, holds⟩ := isLockStale_eq_false.mp live
    have same : other = op := Option.some.inj (here.symm.trans stored)
    subst same
    -- an active holder has lost its lock with its state, so the holder is approved
    have idle : other.state.isActive = false := by
      by_contra active
      refine cleared stored (by simp) (by simpa using active) uses ⟨?_, ?_⟩
      · rw [environment, target]
        exact locked.file (releasing.kept before)
      · exact (consistent.keyed stored).symm
    obtain ⟨now, kept, interrupted⟩ := interrupting.behind stored (by simp)
    rw [interrupted.2 idle] at kept
    exact ⟨releasing.kept before, isLockStale_eq_false.mpr ⟨named, other, kept, holds⟩⟩

theorem Locked.of_locks (locked : Locked w)
    (locks : ∀ {file record}, after.locks.get file = some record → w.locks.get file = some record)
    (operations : ∀ {id op}, w.operations.get id = some op →
      ∃ now, after.operations.get id = some now ∧ SameBinding op.core now.core) :
    Locked after where
  file found := locked.file (locks found)
  holder found := by
    obtain ⟨op, stored, environment, target, uses⟩ := locked.holder (locks found)
    obtain ⟨now, here, same⟩ := operations stored
    refine ⟨now, here, Eq.trans same.environment environment, Eq.trans same.target target, ?_⟩
    rw [usesTargetLock_congr same]
    exact uses

theorem Interrupted.binding (interrupted : Interrupted op now) : SameBinding op.core now.core := by
  cases active : op.state.isActive with
  | true => exact (interrupted.1 active).2.binding
  | false => rw [interrupted.2 active]; exact .refl _

theorem Noted.binding (noted : Noted op now) : SameBinding op.core now.core := by
  obtain ⟨_, _, _, rfl, -⟩ := noted
  exact ⟨rfl, rfl, rfl, rfl, rfl⟩

theorem Noted.state (noted : Noted op now) : now.state = op.state := by
  obtain ⟨_, _, _, rfl, -⟩ := noted
  rfl

theorem Noted.history (noted : Noted op now) : now.history = op.history := by
  obtain ⟨_, _, _, rfl, -⟩ := noted
  rfl

/-- A store in which startup recovery finds nothing to do. -/
structure Settled (observedAt : Instant) (repairReceipts : Bool) (w : World) : Prop where
  locked : Locked w
  live : ∀ {file record}, w.locks.get file = some record → w.isLockStale record = false
  idle : ∀ {id op}, w.operations.get id = some op → op.state.isActive = false
  finished : ∀ {id attemptId record}, w.attempt id attemptId = some record →
    record.status ≠ .started
  calm : RunNowQueue.Calm observedAt w.queue
  receipted : repairReceipts = true → ∀ {id op}, w.operations.get id = some op → Receipted w op
  projected : ∀ {id op}, w.operations.get id = some op → Projected w op

/-- An active operation has failed, any other keeps its state and history. -/
def Resolved (op now : Operation) : Prop :=
  (op.state.isActive = true → now.state = .failed ∧ ∃ moves, now.history = op.history ++ moves ∧
    ∀ move ∈ moves, move.toState ∈ move.fromState.allowedTransitions) ∧
  (op.state.isActive = false → now.state = op.state ∧ now.history = op.history)

theorem resolved_of_noted {op mid now : Operation} (interrupted : Interrupted op mid)
    (noted : Noted mid now) : Resolved op now := by
  refine ⟨fun active => ?_, fun idle => ?_⟩
  · obtain ⟨failed, moves⟩ := interrupted.1 active
    obtain ⟨added, grown, allowed⟩ := moves.history
    exact ⟨noted.state.trans failed, added, noted.history.trans grown, allowed⟩
  · have same := interrupted.2 idle
    subst same
    exact ⟨noted.state, noted.history⟩

structure Recovered (observedAt : Instant) (repairReceipts : Bool) (w after : World) : Prop where
  settled : Settled observedAt repairReceipts after
  resolved : ∀ {id op}, w.operations.get id = some op →
    ∃ now, after.operations.get id = some now ∧ Resolved op now
  absent : ∀ {id}, w.operations.get id = none → after.operations.get id = none
  dispatched : after.dispatched = w.dispatched

structure Receipting (repairReceipts : Bool) (w after : World) : Prop where
  frame : ∃ operations receipts,
    after = { w with operations := operations, receipts := receipts }
  operations : ∀ {id op}, w.operations.get id = some op →
    ∃ now, after.operations.get id = some now ∧ Noted op now
  absent : ∀ {id}, w.operations.get id = none → after.operations.get id = none
  receipted : repairReceipts = true →
    ∀ {id op}, after.operations.get id = some op → Receipted after op
  projected : ∀ {id op}, after.operations.get id = some op → Projected after op

theorem Noting.stored {done : World → Operation → Prop} (walk : Noting done w [] after)
    {id : String} (found : after.operations.get id = some now) :
    ∃ op, w.operations.get id = some op ∧ Noted op now ∧ done after now := by
  cases before : w.operations.get id with
  | none =>
    rw [walk.absent before] at found
    cases found
  | some op =>
    obtain ⟨other, here, noted, settled⟩ := walk.behind before (by simp)
    have same : other = now := Option.some.inj (here.symm.trans found)
    exact ⟨op, rfl, same ▸ noted, same ▸ settled⟩

theorem Noting.filed {strict : Prop} {done : World → Operation → Prop} {w after : World}
    (filed : Filed strict w) (walk : Noting done w [] after) : Filed strict after where
  keyed found := by
    obtain ⟨op, here, noted, -⟩ := walk.stored found
    exact Eq.trans noted.binding.id (filed.keyed here)
  planned asked id op found := by
    obtain ⟨op, here, -, -⟩ := walk.stored found
    obtain ⟨operations, receipts, rfl⟩ := walk.frame
    exact filed.planned asked here

section Whole

variable {strict : Prop} {timely : Instant → Prop} {w : World} {repairReceipts : Bool}

theorem gives_repairs (filed : Filed strict w) :
    (solo strict timely).Gives
      (if repairReceipts then repairTerminalReceipts else pure ([], []))
      (fun _ after => Filed strict after ∧ Noting (fun _ _ => True) w [] after ∧
        (repairReceipts = true → ∀ {id op}, after.operations.get id = some op →
          Receipted after op)) w := by
  have weaker : ∀ {after : World}, Noting Receipted w [] after →
      Noting (fun _ _ => True) w [] after := fun walk =>
    ⟨⟨walk.distinct, walk.listed, walk.ahead, fun found outside => by
      obtain ⟨now, here, noted, -⟩ := walk.behind found outside
      exact ⟨now, here, noted, trivial⟩, walk.absent⟩, walk.frame, walk.receipts⟩
  split
  · refine (gives_repairTerminalReceipts filed).mono fun _ after walk => ?_
    refine ⟨walk.filed filed, weaker walk, fun _ id op found => ?_⟩
    obtain ⟨_, _, _, satisfied⟩ := walk.stored found
    exact satisfied
  · rename_i skipped
    refine Gives.pure ⟨filed, ?_, fun asked => absurd asked skipped⟩
    exact ⟨⟨by simp, by simp, by simp, fun found _ => ⟨_, found, .refl _, trivial⟩, id⟩,
      ⟨_, _, rfl⟩, List.Subset.refl _⟩

theorem receipting_of_phases (repairs : Noting (fun _ _ => True) w [] w₁)
    (receipted : repairReceipts = true → ∀ {id op}, w₁.operations.get id = some op →
      Receipted w₁ op)
    (projects : Noting Projected w₁ [] w₂) : Receipting repairReceipts w w₂ := by
  refine ⟨?_, fun found => ?_, fun missing => projects.absent (repairs.absent missing),
    fun asked id now found => ?_, fun found => ?_⟩
  · obtain ⟨operations, receipts, rfl⟩ := repairs.frame
    obtain ⟨operations', receipts', rfl⟩ := projects.frame
    exact ⟨_, _, rfl⟩
  · obtain ⟨now, here, noted, -⟩ := repairs.behind found (by simp)
    obtain ⟨last, there, further, -⟩ := projects.behind here (by simp)
    exact ⟨last, there, noted.trans further⟩
  · obtain ⟨op, here, noted, -⟩ := projects.stored found
    exact needsReceipt_noted noted projects.receipts (receipted asked here)
  · obtain ⟨op, here, noted, settled⟩ := projects.stored found
    exact settled

theorem recovered_of_phases {w₁ w₂ w₃ : World} (locked : Locked w) (prepared : Prepared w w₁)
    (queued : ∃ queue, w₂ = { w₁ with queue := queue })
    (calm : RunNowQueue.Calm observedAt w₂.queue) (receipting : Receipting repairReceipts w₂ w₃) :
    Recovered observedAt repairReceipts w w₃ := by
  have operations : ∀ {id op}, w.operations.get id = some op →
      ∃ mid now, w₂.operations.get id = some mid ∧ w₃.operations.get id = some now ∧
        Interrupted op mid ∧ Noted mid now := by
    intro id op found
    obtain ⟨queue, rfl⟩ := queued
    obtain ⟨mid, here, interrupted⟩ := prepared.operations found
    obtain ⟨now, there, noted⟩ := receipting.operations here
    exact ⟨mid, now, here, there, interrupted, noted⟩
  have absent : ∀ {id}, w.operations.get id = none → w₃.operations.get id = none := by
    intro id missing
    obtain ⟨queue, rfl⟩ := queued
    exact receipting.absent (prepared.absent missing)
  have locks : w₃.locks = w₁.locks := by
    obtain ⟨queue, rfl⟩ := queued
    obtain ⟨operations, receipts, rfl⟩ := receipting.frame
    rfl
  have attempts : w₃.attempts = w₁.attempts := by
    obtain ⟨queue, rfl⟩ := queued
    obtain ⟨operations, receipts, rfl⟩ := receipting.frame
    rfl
  have queue : w₃.queue = w₂.queue := by
    obtain ⟨operations, receipts, rfl⟩ := receipting.frame
    rfl
  refine ⟨⟨?_, ?_, ?_, ?_, queue ▸ calm, receipting.receipted, receipting.projected⟩,
    fun found => ?_, absent, ?_⟩
  · refine locked.of_locks (fun found => (prepared.locks (locks ▸ found)).1) fun found => ?_
    obtain ⟨mid, now, -, there, interrupted, noted⟩ := operations found
    exact ⟨now, there, interrupted.binding.trans noted.binding⟩
  · intro file record found
    rw [locks] at found
    obtain ⟨named, mid, here, holds⟩ := isLockStale_eq_false.mp (prepared.locks found).2
    obtain ⟨queue', rfl⟩ := queued
    obtain ⟨now, there, noted⟩ := receipting.operations here
    exact isLockStale_eq_false.mpr ⟨named, now, there, by rw [noted.state]; exact holds⟩
  · intro id now found
    cases before : w.operations.get id with
    | none =>
      rw [absent before] at found
      cases found
    | some op =>
      obtain ⟨mid, last, -, there, interrupted, noted⟩ := operations before
      have same : last = now := Option.some.inj (there.symm.trans found)
      rw [← same, noted.state]
      exact interrupted.idle
  · intro id attemptId record found
    rw [attempt_congr attempts] at found
    exact prepared.finished found
  · obtain ⟨mid, now, -, there, interrupted, noted⟩ := operations found
    exact ⟨now, there, resolved_of_noted interrupted noted⟩
  · obtain ⟨queue', rfl⟩ := queued
    obtain ⟨operations', receipts', rfl⟩ := receipting.frame
    obtain ⟨operations'', locks'', attempts'', rfl⟩ := prepared.frame
    rfl

theorem epoch_of_scan {lease : LeaseRecord} {again : Bool}
    (scans : ScansQueue lease observedAt w after again) :
    lease.credential.leaseEpoch ≤ Lease.previousEpoch w.lease := by
  obtain ⟨i, queue, -, done⟩ := scans
  unfold recoverExpiredClaimsFromLease at done
  split at done
  · cases done
  · rename_i entered
    unfold enterLeaseGuard at entered
    split at entered
    · rename_i valid
      obtain ⟨record, stored, same⟩ := Lease.validate_ok valid
      have stored : w.lease.lease = some record := stored
      have epoch : lease.credential.leaseEpoch = record.leaseEpoch := by rw [← same]; rfl
      rw [epoch, Lease.previousEpoch, stored]
      exact le_max_right _ _
    · cases entered

theorem gives_underLease {lease : LeaseRecord} (consistent : Consistent w) (locked : Locked w)
    (scans : strict → ∀ after, Prepared w after → ∀ i : Input, timely i.guardNow →
      ∃ again, (recoverExpiredClaimsFromLease
      (after.queueContext i) lease.credential observedAt after.queue).1 = .ok again)
    (owned : strict → given = none → w.lease.lease = some lease) :
    (solo strict timely).Gives (underLease given observedAt repairReceipts lease)
      (fun _ after => Recovered observedAt repairReceipts w after ∧
        (Lease.previousEpoch w.lease ≤ maxTransitionEpoch →
          Loads after.queue)) w := by
  refine Gives.bind (gives_releaseStaleLocks locked) fun _ w₁ releasing => ?_
  have filed : Filed strict w₁ := by
    obtain ⟨locks, rfl⟩ := releasing.frame
    exact ⟨consistent.keyed, fun _ => consistent.planned⟩
  refine Gives.bind (gives_interruptActiveOperations filed) fun _ w₂ interrupting => ?_
  have journaled : ∀ {id attemptId record}, w₂.attempt id attemptId = some record →
      record.operationId = id ∧ record.attemptId = attemptId := by
    obtain ⟨locks, rfl⟩ := releasing.frame
    obtain ⟨operations', locks', rfl⟩ := interrupting.frame
    exact consistent.journaled
  refine Gives.bind (gives_recoverStartedAttempts journaled) fun _ w₃ marking => ?_
  have prepared := prepared_of_phases consistent locked releasing interrupting marking
  have leased : w₃.lease = w.lease := by
    obtain ⟨operations', locks', attempts', rfl⟩ := prepared.frame
    rfl
  refine Gives.bind
    (gives_recoverQueue fun i asked entered => scans asked w₃ prepared i entered)
    fun again w₄ scanned => ?_
  have bound := epoch_of_scan scanned
  obtain ⟨i, queue, rfl, done⟩ := scanned
  obtain ⟨calm, loads⟩ := recoverExpiredClaimsFromLease_ok done
  have filed : Filed strict { w₃ with queue := queue } := by
    have kept := consistent_prepared consistent prepared
    exact ⟨kept.keyed, fun _ => kept.planned⟩
  refine Gives.bind (gives_repairs filed) ?_
  rintro repairs w₅ ⟨filed, repaired, receipted⟩
  refine Gives.bind (gives_reconcilePendingProjections filed) fun projections w₆ projects => ?_
  have receipting : Receipting repairReceipts { w₃ with queue := queue } w₆ :=
    receipting_of_phases repaired receipted projects
  have kept : w₆.lease = w.lease ∧ w₆.queue = queue := by
    obtain ⟨operations', receipts', rfl⟩ := receipting.frame
    exact ⟨leased, rfl⟩
  refine Gives.bind (gives_releaseOwned fun asked own => ?_) ?_
  · rw [kept.1]
    exact owned asked own
  rintro _ w₇ ⟨files, rfl⟩
  refine Gives.pure ⟨?_, fun small => ?_⟩
  · have recovered := recovered_of_phases locked prepared ⟨queue, rfl⟩ calm receipting
    exact ⟨⟨recovered.settled.locked.of_locks id fun found => ⟨_, found, .refl _⟩,
      recovered.settled.live, recovered.settled.idle, recovered.settled.finished,
      recovered.settled.calm, recovered.settled.receipted, recovered.settled.projected⟩,
      recovered.resolved, recovered.absent, recovered.dispatched⟩
  · have queues : ({ w₆ with lease := files } : World).queue = queue := kept.2
    rw [queues]
    rw [leased] at bound
    exact loads (bound.trans small)

structure Report.Quiet (report : Report) : Prop where
  releasedLocks : report.releasedLocks = []
  interrupted : report.interrupted = []
  indeterminateAttempts : report.indeterminateAttempts = []
  receiptRepairs : report.receiptRepairs = []
  receiptBlockers : report.receiptBlockers = []
  projected : report.projected = []

theorem gives_underLease_settled {given : Option LeaseRecord} {lease : LeaseRecord}
    {observedAt : Instant} (settled : Settled observedAt repairReceipts w)
    (loads : strict → Loads w.queue)
    (valid : strict → ∀ t, timely t → Lease.validate w.lease lease.credential t = .ok ())
    (owned : strict → given = none → w.lease.lease = some lease) :
    (solo strict timely).Gives (underLease given observedAt repairReceipts lease)
      (fun report after => report.Quiet ∧ ∃ files, after = { w with lease := files }) w := by
  refine Gives.bind (gives_releaseStaleLocks_none settled.locked settled.live) ?_
  rintro released after ⟨rfl, rfl⟩
  refine Gives.bind (gives_interruptActiveOperations_none settled.idle) ?_
  rintro interrupted w ⟨rfl, rfl⟩
  refine Gives.bind (gives_recoverStartedAttempts_none settled.finished) ?_
  rintro indeterminate after ⟨rfl, rfl⟩
  have scans : ∀ i : Input, strict → timely i.guardNow →
      ∃ again, (recoverExpiredClaimsFromLease (after.queueContext i) lease.credential
        observedAt after.queue).1 = .ok again := by
    intro i asked entered
    refine ⟨false, (recoverExpiredClaimsFromLease_calm _ _ settled.calm).2
      (loads asked) ?_⟩
    have passed := valid asked i.guardNow entered
    unfold enterLeaseGuard World.queueContext
    simp only [passed]
  refine Gives.bind (gives_recoverQueue scans) ?_
  rintro again w₄ ⟨i, queue, rfl, done⟩
  have same : queue = after.queue := by
    have kept := (recoverExpiredClaimsFromLease_calm (after.queueContext i)
      lease.credential settled.calm).1
    rw [done] at kept
    exact kept
  subst same
  have repairs : (solo strict timely).Gives
      (if repairReceipts then repairTerminalReceipts else pure ([], []))
      (fun results last => results = ([], []) ∧ last = after) after := by
    split
    · rename_i asked
      exact gives_repairTerminalReceipts_none (settled.receipted asked)
    · exact Gives.pure ⟨rfl, rfl⟩
  refine Gives.bind repairs ?_
  rintro results last ⟨rfl, rfl⟩
  refine Gives.bind (gives_reconcilePendingProjections_none settled.projected) ?_
  rintro projections last ⟨quiet, rfl⟩
  refine Gives.bind (gives_releaseOwned owned) ?_
  rintro _ final ⟨files, rfl⟩
  exact Gives.pure ⟨⟨rfl, rfl, rfl, rfl, rfl, quiet⟩, files, rfl⟩

/-- The run gets a lease, and keeps it until the queue has been scanned. -/
def Leased (given : Option LeaseRecord) (inputs : Nat → Input) (w : World) : Prop :=
  match given with
  | some lease => ∀ n, Lease.validate w.lease lease.credential (inputs n).guardNow = .ok ()
  | none => (∃ record, w.acquireLease "runtime-recovery" (inputs 0) = .ok record) ∧
    ∀ n, (inputs n).guardNow < (inputs 0).now + World.leaseTtl

theorem acquireLease_ok {workerId : String} {i : Input} {record : LeaseRecord}
    (granted : w.acquireLease workerId i = .ok record) :
    record.leaseEpoch = Lease.previousEpoch w.lease + 1 ∧
      record.expiresAt = some (i.now + World.leaseTtl) ∧
      record.schema = Lease.workerLeaseSchema := by
  have same := Lease.acquire_ok granted
  subst same
  exact ⟨rfl, rfl, rfl⟩

theorem validate_record {epoch : Option Int} {record : LeaseRecord} {expiry t : Instant}
    (schema : record.schema = Lease.workerLeaseSchema) (expires : record.expiresAt = some expiry)
    (early : t < expiry) :
    Lease.validate ⟨epoch, some record⟩ record.credential t = .ok () := by
  have owned : Lease.requireOwner ⟨epoch, some record⟩ record.credential = .ok record := by
    simp [Lease.requireOwner, LeaseRecord.credential]
  have fresh : Lease.isStale record t = false := by
    simp [Lease.isStale, schema, expires, early]
  rw [Lease.validate, owned]
  simp [fresh]

structure Leases (given : Option LeaseRecord) (inputs : Nat → Input) (w : World)
    (lease : LeaseRecord) (later : Nat → Input) (files : Lease.LeaseFiles) : Prop where
  inputs : ∀ n, ∃ m, later n = inputs m
  valid : ∀ n, Lease.validate files lease.credential (later n).guardNow = .ok ()
  owned : given = none → files.lease = some lease
  newer : given = none → lease.leaseEpoch = Lease.previousEpoch w.lease + 1

theorem exec_ownedLease {inputs : Nat → Input} {α : Type} (faultless : ∀ n, (inputs n).fault = none)
    (leased : Leased given inputs w) (rest : LeaseRecord → Program α) :
    ∃ lease later files, Leases given inputs w lease later files ∧
      (ownedLease given >>= rest).exec effect inputs w =
        (rest lease).exec effect later { w with lease := files } := by
  cases given with
  | some lease =>
    exact ⟨lease, inputs, w.lease,
      ⟨fun n => ⟨n, rfl⟩, leased, fun impossible => (by simp at impossible),
        fun impossible => (by simp at impossible)⟩, rfl⟩
  | none =>
    obtain ⟨⟨record, granted⟩, early⟩ := leased
    obtain ⟨epoch, expires, schema⟩ := acquireLease_ok granted
    refine ⟨record, fun n => inputs (n + 2), ⟨some record.leaseEpoch, some record⟩,
      ⟨fun n => ⟨n + 2, rfl⟩, fun n => validate_record schema expires (early _), fun _ => rfl,
        fun _ => epoch⟩, ?_⟩
    have first := faultless 0
    have second := faultless 1
    simp only [ownedLease, acquireExecutionLease, access, Prog.request, Prog.bind_eq, Prog.bind,
      Prog.exec, first, second, granted, Prog.ofExcept, effect, World.perform, Nat.zero_add]

section Lax

variable {observedAt : Instant} {given : Option LeaseRecord}

theorem gives_ownedLease :
    (solo False timely).Gives (ownedLease given) (fun _ after => ∃ files,
      after = { w with lease := files } ∧
        Lease.previousEpoch files ≤ Lease.previousEpoch w.lease + 1) w := by
  cases given with
  | some lease => exact Gives.pure ⟨w.lease, rfl, by omega⟩
  | none =>
    have writes : (solo False timely).Gives
        (access (.writeLeaseEpoch "runtime-recovery") fun i w =>
          w.acquireLease "runtime-recovery" i)
        (fun record after => record.leaseEpoch = Lease.previousEpoch w.lease + 1 ∧
          after = { w with lease := { w.lease with epoch := some record.leaseEpoch } }) w := by
      refine gives_access (fun _ impossible => impossible.elim) fun i record granted => ?_
      rw [World.perform, granted]
      exact ⟨(acquireLease_ok granted).1, rfl⟩
    refine Gives.bind writes ?_
    rintro record after ⟨epoch, rfl⟩
    refine gives_access (fun _ impossible => impossible.elim) fun i _ _ => ?_
    refine ⟨_, rfl, ?_⟩
    simp only [Lease.previousEpoch, Option.getD_some, Option.map_some, max_self] at epoch ⊢
    omega

theorem gives_runStartupRecovery (consistent : Consistent w) (locked : Locked w) :
    (solo False timely).Gives (runStartupRecovery given observedAt repairReceipts)
      (fun _ after => Recovered observedAt repairReceipts w after ∧
        (Lease.previousEpoch w.lease < maxTransitionEpoch →
          Loads after.queue)) w := by
  rw [runStartupRecovery_eq]
  refine Gives.bind gives_ownedLease ?_
  rintro lease after ⟨files, rfl, bound⟩
  have kept : Consistent { w with lease := files } :=
    consistent_of_same consistent rfl (fun _ plan here => ⟨plan, here⟩) rfl
  have still : Locked { w with lease := files } :=
    locked.of_locks id fun found => ⟨_, found, .refl _⟩
  refine (gives_underLease kept still (fun impossible => impossible.elim)
    fun impossible => impossible.elim).mono ?_
  rintro report last ⟨recovered, loads⟩
  refine ⟨⟨recovered.settled, recovered.resolved, recovered.absent, recovered.dispatched⟩,
    fun small => loads ?_⟩
  have files_bound : Lease.previousEpoch files ≤ Lease.previousEpoch w.lease + 1 := bound
  change Lease.previousEpoch files ≤ _
  omega

theorem Settled.of_lease (settled : Settled observedAt repairReceipts w)
    (files : Lease.LeaseFiles) : Settled observedAt repairReceipts { w with lease := files } :=
  ⟨settled.locked.of_locks id fun found => ⟨_, found, .refl _⟩, settled.live, settled.idle,
    settled.finished, settled.calm, settled.receipted, settled.projected⟩

theorem gives_runStartupRecovery_settled (settled : Settled observedAt repairReceipts w) :
    (solo False timely).Gives (runStartupRecovery given observedAt repairReceipts)
      (fun report after => report.Quiet ∧ ∃ files, after = { w with lease := files }) w := by
  rw [runStartupRecovery_eq]
  refine Gives.bind gives_ownedLease ?_
  rintro lease after ⟨files, rfl, -⟩
  refine (gives_underLease_settled (settled.of_lease files) (fun impossible => impossible.elim)
    (fun impossible => impossible.elim) fun impossible => impossible.elim).mono ?_
  rintro report last ⟨quiet, files', rfl⟩
  exact ⟨quiet, files', rfl⟩

end Lax

theorem exec_runStartupRecovery_settled {inputs : Nat → Input}
    (settled : Settled observedAt repairReceipts w) (loads : Loads w.queue)
    (faultless : ∀ n, (inputs n).fault = none) (leased : Leased given inputs w) :
    ∃ report after, (runStartupRecovery given observedAt repairReceipts).exec effect inputs w =
      (.returned report, after) := by
  rw [runStartupRecovery_eq]
  obtain ⟨lease, later, files, leases, ran⟩ := exec_ownedLease faultless leased
    (underLease given observedAt repairReceipts)
  rw [ran]
  have gives := @gives_underLease_settled True
    (fun t => Lease.validate files lease.credential t = .ok ()) { w with lease := files }
    repairReceipts given lease observedAt (settled.of_lease files) (fun _ => loads)
    (fun _ _ valid => valid) fun _ own => leases.owned own
  refine (gives.exec fun command n store _ => ⟨?_, leases.valid n⟩).2 trivial
  obtain ⟨m, same⟩ := leases.inputs n
  rw [same]
  exact faultless m

end Whole

def anyRun : Terms where
  allowsInput _ _ _ := True
  allowsPause _ _ _ := True
  allowsCrash _ _ := True
  rest w := Consistent w ∧ Locked w
  promise _ _ _ := True

theorem locked_put {op base : Operation} (locked : Locked w)
    (found : w.operations.get op.id = some base) (same : SameBinding base.core op.core) :
    Locked (w.put op) := by
  refine locked.of_locks id fun {id other} here => ?_
  by_cases own : id = op.id
  · subst own
    have equal : base = other := Option.some.inj (found.symm.trans here)
    exact ⟨op, Dict.get_set_self _ _ _, equal ▸ same⟩
  · exact ⟨other, (Dict.get_set_ne _ _ own).trans here, .refl _⟩

theorem locked_acquireLock {environment target id : String} (locked : Locked w)
    (legal : ∃ op, w.operations.get id = some op ∧ op.environment = environment ∧
      op.target = target ∧ usesTargetLock op = true) :
    Locked (w.acquireLock environment target id).2 := by
  have taken : Locked { w with
      locks := w.locks.set (World.lockFilename environment target) ⟨id, environment, target⟩ } := by
    refine ⟨fun {file record} found => ?_, fun {file record} found => ?_⟩
    · rw [Dict.get_set] at found
      split at found
      · rename_i same
        cases found
        exact same
      · exact locked.file found
    · rw [Dict.get_set] at found
      split at found
      · cases found
        exact legal
      · exact locked.holder found
  unfold World.acquireLock
  dsimp only
  split
  · split
    · exact taken
    · exact locked
  · exact taken

theorem locked_change {G : Grounds} {i : Input} {command : Command} (locked : Locked w)
    (change : Change G i w command after) : Locked after := by
  cases change with
  | saved found level legal => exact locked_put locked found legal.evolves.follows.binding
  | @created site op absent fresh =>
    refine locked.of_locks id fun {id other} here => ?_
    have own : id ≠ op.id := fun same => by
      rw [same, absent] at here
      cases here
    exact ⟨other, (Dict.get_set_ne _ _ own).trans here, .refl _⟩
  | locked legal => exact locked_acquireLock locked legal
  | unlocked legal =>
    refine locked.of_locks (fun found => (releaseLock_get found).1) fun found => ?_
    rw [releaseLock_operations]
    exact ⟨_, found, .refl _⟩
  | _ => exact locked.of_locks id fun found => ⟨_, found, .refl _⟩

theorem locked_pause (consistent : Consistent w) (locked : Locked w) (id : String) :
    Locked (w.pause id) := by
  rcases pause_cases w consistent id with same | ⟨op, found, -, evolves, named, saved⟩
  · rw [same]
    exact locked
  · rw [saved]
    have stored : w.operations.get op.pausing.stored.id = some op := by
      rw [← found, ← named]
      rfl
    exact locked_put locked stored evolves.follows.binding

def lockRegime : Regime anyRun where
  inv w := Consistent w ∧ Locked w
  consistent inv := inv.1
  crash inv _ := inv
  pause inv _ := ⟨consistent_pause inv.1 _, locked_pause inv.1 inv.2 _⟩
  grounds := ⟨fun _ => True, False, True⟩
  legal {command i w} inv _ legal outside := by
    have change := @change_effect _ i w command legal outside
    exact ⟨consistent_change inv.1 change, locked_change inv.2 change⟩
  issues _ _ _ := trivial
  still := False.elim

theorem lockRegime_journal {record : Attempt} (inv : lockRegime.inv w)
    (found : w.operations.get record.operationId = some op)
    (executed : op.state.isExecuted = true) : lockRegime.inv (w.putAttempt record) :=
  ⟨consistent_putAttempt inv.1 found executed,
    inv.2.of_locks id fun here => ⟨_, here, .refl _⟩⟩

theorem lockRegime_plain : lockRegime.Plain where
  promised := trivial
  journal inv found executed _ := lockRegime_journal inv found executed
  dispatch {w i command} inv dispatches := by
    cases command with
    | dispatch =>
      exact ⟨consistent_of_same inv.1 rfl (fun _ plan here => ⟨plan, here⟩) rfl,
        inv.2.of_locks id fun found => ⟨_, found, .refl _⟩⟩
    | _ => simp [Command.isDispatch] at dispatches
  progress {w latest cursor run} inv found :=
    ⟨consistent_rewrite inv.1 found fun ran => ran,
      locked_put inv.2 found ⟨rfl, rfl, rfl, rfl, rfl⟩⟩

theorem lockRegime_runsSteps : lockRegime.RunsSteps :=
  (lockRegime_plain.journaling fun inv operationId stepId effectful _ _ =>
    lockRegime_plain.leads_start lockRegime_journal inv operationId stepId effectful).runsSteps
      fun inv => inv

theorem meets_anyRun (events : List SystemEvent) (m : System) :
    anyRun.Meets (fun _ => True) m events := by
  induction events generalizing m with
  | nil => trivial
  | cons event rest ih =>
    refine ⟨?_, ih _⟩
    cases event with
    | call c => exact fun _ => trivial
    | input i =>
      simp only [Setting.Allows]
      split <;> trivial
    | intrude x => trivial
    | crash => trivial

theorem sound_anyRun (events : List SystemEvent) :
    anyRun.setting.Sound (System.start.run events) := by
  have empty : anyRun.rest World.empty :=
    ⟨consistent_empty, ⟨fun found => by simp [World.empty] at found,
      fun found => by simp [World.empty] at found⟩⟩
  exact Regime.sound_run lockRegime_runsSteps trivial (fun _ _ _ => lockRegime_plain.marksLost)
    (fun rest => rest) empty (meets_anyRun events _)

theorem reached (events : List SystemEvent) :
    Consistent (System.start.run events).store ∧ Locked (System.start.run events).store :=
  Terms.rest_of_sound (fun _ _ => trivial) (sound_anyRun events)

/-- What startup recovery leaves behind, and what a second one then does. -/
theorem recovery_settles (events : List SystemEvent) (given : Option LeaseRecord)
    (observedAt : Instant) (repairReceipts : Bool) (inputs : Nat → Input) {report : Report}
    {after : World}
    (returned : (runStartupRecovery given observedAt repairReceipts).exec effect inputs
      (System.start.run events).store = (.returned report, after)) :
    (∀ {id op}, after.operations.get id = some op → op.state.isActive = false) ∧
    (∀ {id attemptId record}, after.attempt id attemptId = some record →
      record.status ≠ .started) ∧
    (∀ {id op}, (System.start.run events).store.operations.get id = some op →
      ∃ now, after.operations.get id = some now ∧ Resolved op now) ∧
    (∀ {id}, (System.start.run events).store.operations.get id = none →
      after.operations.get id = none) ∧
    after.dispatched = (System.start.run events).store.dispatched ∧
    ∀ (again : Option LeaseRecord) (later : Nat → Input),
      (∀ second last, (runStartupRecovery again observedAt repairReceipts).exec effect later after =
        (.returned second, last) → second.Quiet ∧ ∃ files, last = { after with lease := files }) ∧
      (Lease.previousEpoch (System.start.run events).store.lease < maxTransitionEpoch →
        (∀ n, (later n).fault = none) → Leased again later after →
        ∃ second last, (runStartupRecovery again observedAt repairReceipts).exec effect later
          after = (.returned second, last)) := by
  obtain ⟨consistent, locked⟩ := reached events
  have free : ∀ command n store, (solo False fun _ => True).allows command (inputs n) store :=
    fun _ _ _ impossible => impossible.elim
  obtain ⟨recovered, loads⟩ :=
    ((gives_runStartupRecovery consistent locked).exec free).1 _ _ returned
  refine ⟨recovered.settled.idle, recovered.settled.finished, recovered.resolved,
    recovered.absent, recovered.dispatched, fun again later => ⟨fun second last ran => ?_,
    fun small faultless leased => ?_⟩⟩
  · have free : ∀ command n store, (solo False fun _ => True).allows command (later n) store :=
      fun _ _ _ impossible => impossible.elim
    exact ((gives_runStartupRecovery_settled recovered.settled).exec free).1 _ _ ran
  · exact exec_runStartupRecovery_settled recovered.settled (loads small) faultless leased

def lostEvents : List SystemEvent :=
  (Call.plan (.applying "1" ["first"] ⟨0, [], []⟩)).events 13 (.agreeing 1 "a") ++
    (Call.start 5 "op-1").events 32 (.agreeing 2 "b") ++ [.crash]

theorem lostOperation_settled :
    ((System.start.run lostEvents).store.operations.get "op-1").map (·.state) = some .running ∧
    ∃ report after, (runStartupRecovery none 500000000 true).exec effect
        (fun _ => .agreeing 500000000 "c") (System.start.run lostEvents).store =
          (.returned report, after) ∧
      (∀ {id op}, after.operations.get id = some op → op.state.isActive = false) ∧
      ∃ second last, (runStartupRecovery none 500000000 true).exec effect
        (fun _ => .agreeing 500000001 "d") after = (.returned second, last) ∧ second.Quiet := by
  refine ⟨by decide +kernel, ?_⟩
  obtain ⟨report, after, returned⟩ := Prog.exists_of_returns
    (show ((runStartupRecovery none 500000000 true).exec effect
      (fun _ => .agreeing 500000000 "c") (System.start.run lostEvents).store).1.returns = true by
        decide +kernel)
  obtain ⟨idle, -, -, -, -, again⟩ := recovery_settles lostEvents none 500000000 true _ returned
  obtain ⟨quiet, returns⟩ := again none fun _ => .agreeing 500000001 "d"
  refine ⟨report, after, returned, idle, ?_⟩
  have granted : (after.acquireLease "runtime-recovery" (.agreeing 500000001 "d")).isOk = true := by
    rw [show after = ((runStartupRecovery none 500000000 true).exec effect
      (fun _ => .agreeing 500000000 "c") (System.start.run lostEvents).store).2 by rw [returned]]
    decide +kernel
  have free : ∃ record, after.acquireLease "runtime-recovery" (.agreeing 500000001 "d") =
      .ok record := by
    cases reply : after.acquireLease "runtime-recovery" (.agreeing 500000001 "d") with
    | ok record => exact ⟨record, rfl⟩
    | error fault => simp [reply, Except.isOk, Except.toBool] at granted
  have early : (500000001 : Instant) < 500000001 + World.leaseTtl := by decide +kernel
  obtain ⟨second, last, ran⟩ := returns (by decide +kernel) (fun _ => rfl) ⟨free, fun _ => early⟩
  exact ⟨second, last, ran, (quiet second last ran).1⟩

end RExecOp.Recovery
