import RExecOp.Accesses
import RExecOp.RecoverySettles

/-! Two workers on one runtime root, each under an execution lease of its own; nothing checks
the lease again when an operation is saved. -/

namespace RExecOp.Supersession

open Attempts (Attempt)
open Lease (LeaseRecord LeaseFiles)
open Stage Regime Setting

variable {i : Input} {command : Command} {w : World} {p : Program Unit} {granted given : Option Int}
  {next : Input → World → Program Unit}

structure Owned (lease : LeaseRecord) (w : World) : Prop where
  consistent : Consistent w
  files : w.lease = ⟨some lease.leaseEpoch, some lease⟩

def terms (lease : LeaseRecord) : Terms where
  allowsInput _ _ _ := True
  allowsPause _ _ _ := True
  allowsCrash _ _ := True
  rest := Owned lease
  promise _ _ _ := True

theorem acquireLock_lease (w : World) (environment target id : String) :
    (w.acquireLock environment target id).2.lease = w.lease := by
  unfold World.acquireLock
  dsimp only
  split
  · split <;> rfl
  · rfl

theorem releaseLock_lease (w : World) (environment target id : String) :
    (w.releaseLock environment target id).lease = w.lease := by
  unfold World.releaseLock
  split
  · split <;> rfl
  · rfl

theorem pause_lease (w : World) (id : String) : (w.pause id).lease = w.lease := by
  obtain ⟨_, same⟩ := pause_frame w id
  rw [same]

theorem lease_change {G : Grounds} (closed : ¬G.leases) {w after : World}
    (change : Change G i w command after) : after.lease = w.lease := by
  cases change with
  | epoch leases => exact absurd leases closed
  | leased leases => exact absurd leases closed
  | released leases => exact absurd leases closed
  | locked legal => exact acquireLock_lease w _ _ _
  | unlocked legal => exact releaseLock_lease w _ _ _
  | _ => rfl

theorem owned_pause {lease : LeaseRecord} (owned : Owned lease w) (id : String) :
    Owned lease (w.pause id) :=
  ⟨consistent_pause owned.consistent id, (pause_lease w id).trans owned.files⟩

def regime (lease : LeaseRecord) : Regime (terms lease) where
  inv := Owned lease
  consistent owned := owned.consistent
  crash owned _ := owned
  pause owned _ := owned_pause owned _
  grounds := ⟨fun _ => True, False, False⟩
  legal {command i w} owned _ legal outside := by
    have change := @change_effect _ i w command legal outside
    exact ⟨consistent_change owned.consistent change,
      (lease_change (fun leases => leases) change).trans owned.files⟩
  issues _ _ _ := trivial
  still := False.elim

variable {lease : LeaseRecord}

theorem regime_journal {record : Attempt} {op : Operation} (owned : Owned lease w)
    (found : w.operations.get record.operationId = some op)
    (executed : op.state.isExecuted = true) : Owned lease (w.putAttempt record) :=
  ⟨consistent_putAttempt owned.consistent found executed, owned.files⟩

theorem plain : (regime lease).Plain where
  promised := trivial
  journal owned found executed _ := regime_journal owned found executed
  dispatch {w i command} owned dispatches := by
    cases command with
    | dispatch =>
      exact ⟨consistent_of_same owned.consistent rfl (fun _ plan here => ⟨plan, here⟩) rfl,
        owned.files⟩
    | _ => simp [Command.isDispatch] at dispatches
  progress owned found :=
    ⟨consistent_rewrite owned.consistent found fun ran => ran, owned.files⟩

theorem runsSteps : (regime lease).RunsSteps :=
  (plain.journaling fun owned operationId stepId effectful _ _ =>
    plain.leads_start regime_journal owned operationId stepId effectful).runsSteps
      fun owned => owned

/-- The program works under the lease until it gives it back, at its last access. -/
def Fenced {α : Type} (lease : LeaseRecord) (p : Program α) (w : World) : Prop :=
  (terms lease).setting.Safe p (fun _ after => Consistent after) w

def Guarded {α : Type} (lease : LeaseRecord) (p : Program α) (w : World) : Prop :=
  (terms lease).setting.Safe p (fun outcome after => match outcome with
    | .ok _ => Owned lease after
    | .error _ => Consistent after) w

section

variable {α β : Type} {w : World}

theorem guarded_of_keeps {p : Program α} (kept : (regime lease).Keeps p w) :
    Guarded lease p w := by
  refine Safe.mono kept ?_
  rintro (fault | value) after ⟨owned, -, -⟩
  · exact (regime lease).consistent owned
  · exact owned

theorem Guarded.bind {p : Program α} {next : α → Program β} (guarded : Guarded lease p w)
    (rest : ∀ value after, Owned lease after → Guarded lease (next value) after) :
    Guarded lease (p >>= next) w := by
  apply Safe.bind
  refine Safe.mono guarded ?_
  rintro (fault | value) after held
  · exact held
  · exact rest value after held

theorem Guarded.fenced {p : Program α} {next : α → Program β} (guarded : Guarded lease p w)
    (rest : ∀ value after, Owned lease after → Fenced lease (next value) after) :
    Fenced lease (p >>= next) w := by
  apply Safe.bind
  refine Safe.mono guarded ?_
  rintro (fault | value) after held
  · exact held
  · exact rest value after held

theorem consistent_releaseLease {credential : Lease.Credential} (consistent : Consistent w) :
    Consistent (effect (.releaseLease credential) i w) := by
  have legal : Legal ⟨fun _ => True, False, True⟩ w (.releaseLease credential) := trivial
  exact consistent_change consistent (change_effect legal rfl)

theorem safe_release {next : Unit → Program α} {post : Except Fault α → World → Prop}
    (owned : Owned lease w) (fails : ∀ fault after, Consistent after → post (.error fault) after)
    (ends : ∀ after, Consistent after → (terms lease).setting.Safe (next ()) post after) :
    (terms lease).setting.Safe (releaseExecutionLease lease >>= next) post w := by
  apply Safe.bind
  intro found drifted
  have held := (Upkeep.drift (U := (regime lease).upkeep) owned drifted).1
  refine ⟨fun _ => held, fun i _ => ⟨trivial, Safe.ofExcept ?_⟩⟩
  have after : Consistent (effect (.releaseLease lease.credential) i found) :=
    consistent_releaseLease held.consistent
  split
  · exact ends _ after
  · exact fails _ _ after

def Opens (lease : LeaseRecord) (p : Program Unit) : Prop :=
  ∃ workerId body, p = acquireExecutionLease workerId >>= body ∧
    ∀ w, Owned lease w → Fenced lease (body lease) w

theorem opens_of_leased (leased : (regime lease).Leased p) : Opens lease p := by
  obtain ⟨workerId, body, rfl, kept⟩ := leased
  refine ⟨workerId, _, rfl, fun w owned => ?_⟩
  have ran := guarded_of_keeps (keeps_of_kept (kept_attempt (kept lease w owned)))
  refine ran.fenced fun outcome after owned => ?_
  exact safe_release owned (fun _ _ consistent => consistent)
    fun _ consistent => Safe.ofExcept consistent

theorem guarded_recoverQueue {observedAt : Lease.Instant} (owned : Owned lease w) :
    Guarded lease (Recovery.recoverQueue none lease observedAt) w := by
  have scans : (regime lease).Keeps
      (QueueAccess.recoverExpiredClaimsFromLease lease.credential observedAt) w :=
    kept_queueCall owned fun _ _ _ => trivial
  refine (guarded_of_keeps (keeps_of_kept (kept_attempt scans))).bind fun outcome after owned => ?_
  cases outcome with
  | ok recovered => exact guarded_of_keeps (kept_pure owned trivial)
  | error fault =>
    dsimp only
    split
    · exact safe_release owned (fun _ _ consistent => consistent) fun _ consistent => consistent
    · exact guarded_of_keeps (kept_raise owned)

theorem opens_recover (observedAt : Lease.Instant) (repairReceipts : Bool) :
    Opens lease (Call.recover observedAt repairReceipts).body := by
  refine ⟨"runtime-recovery", _, Prog.bind_assoc _ _ _, fun w owned => ?_⟩
  apply Safe.bind
  refine @Safe.mono _ _ _ _ _ _ _ _ (fun _ after => Consistent after) _ _ ?_ ?_
  · refine (guarded_of_keeps (kept_releaseStaleLocks owned)).fenced fun _ w₁ owned => ?_
    refine (guarded_of_keeps (kept_interruptActiveOperations owned)).fenced fun _ w₂ owned => ?_
    have marked : (regime lease).Keeps Recovery.recoverStartedAttempts w₂ := by
      refine kept_bind (kept_read owned fun _ _ _ _ _ => trivial) fun files w₃ owned _ _ => ?_
      exact Upkeep.Kept.forEach owned fun file _ after owned _ => plain.marksLost owned
    refine (guarded_of_keeps marked).fenced fun _ w₃ owned => ?_
    refine (guarded_recoverQueue owned).fenced fun _ w₄ owned => ?_
    have repaired : (regime lease).Keeps
        (if repairReceipts then Recovery.repairTerminalReceipts else pure ([], [])) w₄ := by
      split
      · exact kept_repairTerminalReceipts owned
      · exact kept_pure owned trivial
    refine (guarded_of_keeps repaired).fenced fun _ w₅ owned => ?_
    refine (guarded_of_keeps (kept_reconcilePendingProjections owned)).fenced fun _ w₆ owned => ?_
    exact safe_release owned (fun _ _ consistent => consistent) fun _ consistent => consistent
  · rintro (fault | report) after consistent
    · exact consistent
    · exact consistent

end

def takesLease : Call → Bool
  | .start _ _ | .processQueue _ | .advance _ _ _ | .resume _ _ | .retry _ _ | .cancel _ _
  | .recover _ _ => true
  | _ => false

theorem opens_body {call : Call} (takes : takesLease call = true) : Opens lease call.body := by
  cases call with
  | start fuel id => exact opens_of_leased (leased_start runsSteps)
  | processQueue fuel => exact opens_of_leased (leased_processQueue runsSteps)
  | advance fuel id maxSteps => exact opens_of_leased (leased_advance runsSteps)
  | resume fuel id => exact opens_of_leased (leased_resume runsSteps)
  | retry fuel id => exact opens_of_leased (leased_retry runsSteps)
  | cancel fuel id => exact opens_of_leased (leased_cancel runsSteps)
  | recover observedAt repairReceipts => exact opens_recover observedAt repairReceipts
  | plan request => cases takes
  | approve id => cases takes
  | escalate id => cases takes
  | exportReceipt id => cases takes
  | rollback fuel id => cases takes

inductive Worker where
  | first
  | second
  deriving DecidableEq, Repr

variable {worker : Worker}

def Worker.other : Worker → Worker
  | .first => .second
  | .second => .first

theorem Worker.eq_or_other (worker holder : Worker) : worker = holder ∨ worker = holder.other := by
  cases worker <;> cases holder <;> decide

theorem Worker.other_ne (worker : Worker) : worker.other ≠ worker := by
  cases worker <;> decide

theorem Worker.other_other (worker : Worker) : worker.other.other = worker := by
  cases worker <;> rfl

/-- One store, the two calls in progress and the epochs of their leases. -/
structure Pair where
  store : World
  running : Worker → Option (Program Unit)
  granted : Worker → Option Int

variable {m : Pair}

namespace Pair

def start (w : World) : Pair := ⟨w, fun _ => none, fun _ => none⟩

/-- The worker is between the two writes of `acquire`. -/
def isAcquiring (m : Pair) (worker : Worker) : Bool :=
  match m.running worker with
  | some (.access (.writeLease _) _) => true
  | _ => false

def locksLease (m : Pair) (worker : Worker) : Bool :=
  match m.running worker with
  | some (.access (.writeLeaseEpoch _) _) | some (.access (.writeLease _) _)
  | some (.access (.releaseLease _) _) => true
  | _ => false

def grantedAfter (m : Pair) (worker : Worker) : SystemEvent → Option Int
  | .call _ => if (m.running worker).isNone then none else m.granted worker
  | .input i => match m.running worker, i.fault with
    | some (.access (.writeLease record) _), none => some record.leaseEpoch
    | _, _ => m.granted worker
  | _ => m.granted worker

def waits (m : Pair) (worker : Worker) : SystemEvent → Bool
  | .input _ => m.locksLease worker && m.isAcquiring worker.other
  | _ => false

def act (m : Pair) (worker : Worker) (event : SystemEvent) : Pair :=
  let next := System.run [event] ⟨m.store, m.running worker⟩
  { store := next.store
    running := fun each => if each = worker then next.running else m.running each
    granted := fun each => if each = worker then m.grantedAfter worker event else m.granted each }

def step (m : Pair) (e : Worker × SystemEvent) : Pair :=
  if m.waits e.1 e.2 then m else m.act e.1 e.2

def run (events : List (Worker × SystemEvent)) (m : Pair) : Pair := events.foldl step m

def isLeased : Worker × SystemEvent → Bool
  | (_, .call call) => takesLease call
  | _ => true

def saving (m : Pair) (worker : Worker) : Option Operation :=
  match m.running worker with
  | some (.access (.saveOperation _ op) _) => some op
  | _ => none

def isWorking (m : Pair) (worker : Worker) : Bool :=
  (m.granted worker).isSome && (Machine.awaiting (m.running worker)).isSome

/-- Whoever asks for the lease while the other one works finds it unexpired. -/
def isTimely (m : Pair) (worker : Worker) : SystemEvent → Bool
  | .input i => match m.running worker with
    | some (.access (.writeLeaseEpoch _) _) => !m.isWorking worker.other ||
      m.store.lease.lease.all fun record => !Lease.isStale record i.now
    | _ => true
  | _ => true

def areTimely (m : Pair) : List (Worker × SystemEvent) → Bool
  | [] => true
  | e :: rest => m.isTimely e.1 e.2 && areTimely (m.step e) rest

end Pair

def Outside : Option (Program Unit) → Prop
  | some (.access command next) => ∀ lease, Opens lease (.access command next)
  | _ => True

inductive Inside (w : World) : Option (Program Unit) → Option Int → Prop
  where
  | writing {lease : LeaseRecord} {body : LeaseRecord → Program Unit} {granted : Option Int}
      (epoch : w.lease.epoch = some lease.leaseEpoch)
      (fenced : ∀ w, Owned lease w → Fenced lease (body lease) w) :
      Inside w (some (access (.writeLease lease) (fun _ _ => .ok lease) >>= body)) granted
  | working {lease : LeaseRecord} {command : Command}
      {next : Input → World → Program Unit} (fenced : Fenced lease (.access command next) w) :
      Inside w (some (.access command next)) (some lease.leaseEpoch)

inductive Placed (w : World) (own other : Option (Program Unit)) (granted given : Option Int) :
    Prop where
  | outside (own : Outside own) (other : Outside other)
  | follows (own : Outside own) (other : Inside w other given)
  | leads (own : Inside w own granted) (other : Outside other)

structure Sound (m : Pair) : Prop where
  consistent : Consistent m.store
  placed : ∀ worker, Placed m.store (m.running worker) (m.running worker.other)
    (m.granted worker) (m.granted worker.other)

theorem Placed.swap {own other : Option (Program Unit)}
    (placed : Placed w own other granted given) : Placed w other own given granted := by
  cases placed with
  | outside own other => exact .outside other own
  | follows own other => exact .leads other own
  | leads own other => exact .follows other own

theorem sound_start (consistent : Consistent w) : Sound (Pair.start w) :=
  ⟨consistent, fun _ => .outside trivial trivial⟩

theorem sound_act {event : SystemEvent}
    (consistent : Consistent (System.run [event] ⟨m.store, m.running worker⟩).store)
    (placed : Placed (System.run [event] ⟨m.store, m.running worker⟩).store
      (System.run [event] ⟨m.store, m.running worker⟩).running (m.running worker.other)
      (m.grantedAfter worker event) (m.granted worker.other)) :
    Sound (m.act worker event) := by
  have own : Placed (m.act worker event).store ((m.act worker event).running worker)
      ((m.act worker event).running worker.other) ((m.act worker event).granted worker)
      ((m.act worker event).granted worker.other) := by
    simp only [Pair.act, if_true, if_neg worker.other_ne]
    exact placed
  refine ⟨consistent, fun each => ?_⟩
  rcases each.eq_or_other worker with rfl | rfl
  · exact own
  · rw [worker.other_other]
    exact own.swap

theorem outside_input (outside : Outside (some (.access command next))) (i : Input) (w : World) :
    (∃ fault, next i w = .raise fault ∧ effect command i w = w) ∨
      ∃ workerId record body, command = .writeLeaseEpoch workerId ∧
        w.acquireLease workerId i = .ok record ∧
        effect command i w = { w with lease := { w.lease with epoch := some record.leaseEpoch } } ∧
        next i w = access (.writeLease record) (fun _ _ => .ok record) >>= body ∧
        ∀ w, Owned record w → Fenced record (body record) w := by
  -- the shape of the call is the same whichever lease is granted
  have shape : ∀ lease, ∃ workerId body, command = .writeLeaseEpoch workerId ∧
      (∀ fault, i.fault = some fault → next i w = .raise fault) ∧
      (i.fault = none → next i w = ((Prog.ofExcept (w.acquireLease workerId i)).bind fun record =>
        access (.writeLease record) fun _ _ => .ok record).bind body) ∧
      ∀ w, Owned lease w → Fenced lease (body lease) w := by
    intro lease
    obtain ⟨workerId, body, same, fenced⟩ := outside lease
    cases same
    refine ⟨workerId, body, rfl, fun fault failed => ?_, fun sound => ?_, fenced⟩
    · simp only [failed]
      rfl
    · simp only [sound]
  obtain ⟨workerId, body, rfl, raises, goes, -⟩ := shape ⟨"", "", "", 0, "", 0, 0, none, 0⟩
  cases failed : i.fault with
  | some fault => exact .inl ⟨fault, raises fault failed, effect_faulted failed w (by simp)⟩
  | none =>
    replace goes := goes failed
    cases granted : w.acquireLease workerId i with
    | error fault =>
      rw [granted] at goes
      refine .inl ⟨fault, goes, ?_⟩
      rw [effect_faultless failed]
      simp only [World.perform, granted]
    | ok record =>
      obtain ⟨_, body, same, -, goes, fenced⟩ := shape record
      cases same
      replace goes := goes failed
      rw [granted] at goes
      refine .inr ⟨workerId, record, body, rfl, granted, ?_, goes, fenced⟩
      rw [effect_faultless failed]
      simp only [World.perform, granted]

theorem placed_settle {other : Option (Program Unit)} (fenced : Fenced lease p w)
    (epoch : Owned lease w → granted = some lease.leaseEpoch) (outside : Outside other) :
    Consistent w ∧ Placed w (Machine.settle p) other granted given := by
  cases p with
  | ret value => exact ⟨fenced, .outside trivial outside⟩
  | raise fault => exact ⟨fenced, .outside trivial outside⟩
  | halt => exact ⟨Owned.consistent fenced, .outside trivial outside⟩
  | access command next =>
    have owned : Owned lease w := (fenced w .refl).1 trivial
    rw [epoch owned]
    exact ⟨owned.consistent, .leads (.working fenced) outside⟩

theorem acquireLease_refused {workerId : String} {record : LeaseRecord}
    (held : w.lease.lease = some record) (valid : Lease.isStale record i.now = false) :
    ∀ granted, w.acquireLease workerId i ≠ .ok granted := by
  intro granted accepted
  simp only [World.acquireLease, Lease.acquire, held, valid] at accepted
  split at accepted <;> simp at accepted

theorem inside_pause {running : Option (Program Unit)} (inside : Inside w running granted)
    (id : String) : Inside (w.pause id) running granted := by
  cases inside with
  | writing epoch fenced =>
    refine .writing ?_ fenced
    rw [pause_lease]
    exact epoch
  | working fenced => exact .working (Safe.drift fenced (.single ⟨id, trivial, rfl⟩))

theorem placed_pause {own other : Option (Program Unit)} (placed : Placed w own other granted given)
    (id : String) : Placed (w.pause id) own other granted given := by
  cases placed with
  | outside own other => exact .outside own other
  | follows own other => exact .follows own (inside_pause other id)
  | leads own other => exact .leads (inside_pause own id) other

theorem Placed.replace {own next other : Option (Program Unit)} {granted after given : Option Int}
    (placed : Placed w own other granted given) (outside : Outside next) :
    Placed w next other after given := by
  cases placed with
  | outside own other => exact .outside outside other
  | follows own other => exact .follows outside other
  | leads own other => exact .outside outside other

theorem isWorking_of_inside (inside : Inside m.store (m.running worker) (m.granted worker))
    (writes : m.isAcquiring worker = false) :
    m.isWorking worker = true ∧ ∃ lease, Owned lease m.store := by
  generalize running : m.running worker = now, granted : m.granted worker = epoch at inside
  cases inside with
  | writing epoch fenced =>
    rw [Pair.isAcquiring, running] at writes
    cases writes
  | working fenced =>
    refine ⟨?_, _, (fenced m.store .refl).1 trivial⟩
    rw [Pair.isWorking, running, granted]
    rfl

theorem grantedAfter_owned (running : m.running worker = some (.access command next))
    (granted : m.granted worker = some lease.leaseEpoch)
    (owned : Owned lease (effect command i m.store)) :
    m.grantedAfter worker (.input i) = some lease.leaseEpoch := by
  simp only [Pair.grantedAfter, running]
  split
  · rename_i record _ same faultless
    cases same
    have files := owned.files
    rw [effect_faultless faultless] at files
    have written : some record = some lease := congrArg LeaseFiles.lease files
    rw [Option.some.inj written]
  · exact granted

theorem sound_access (sound : Sound m) (running : m.running worker = some (.access command next))
    (free : m.waits worker (.input i) = false) (timely : m.isTimely worker (.input i) = true) :
    Consistent (effect command i m.store) ∧
      Placed (effect command i m.store) (Machine.settle (next i m.store)) (m.running worker.other)
        (m.grantedAfter worker (.input i)) (m.granted worker.other) := by
  have placed := sound.placed worker
  rw [running] at placed
  cases placed with
  | outside own other =>
    rcases outside_input own i m.store with ⟨fault, raises, same⟩ |
      ⟨workerId, record, body, rfl, granted, writes, goes, fenced⟩
    · rw [raises, same]
      exact ⟨sound.consistent, .outside trivial other⟩
    · rw [goes, writes]
      exact ⟨consistent_of_same sound.consistent rfl (fun _ plan here => ⟨plan, here⟩) rfl,
        .leads (.writing rfl fenced) other⟩
  | follows own other =>
    rcases outside_input own i m.store with ⟨fault, raises, same⟩ |
      ⟨workerId, record, body, rfl, granted, -⟩
    · rw [raises, same]
      exact ⟨sound.consistent, .follows trivial other⟩
    · -- the other worker is inside: its file lock or its unexpired lease is in the way
      have unlocked : m.isAcquiring worker.other = false := by
        simpa [Pair.waits, Pair.locksLease, running] using free
      obtain ⟨working, lease, owned⟩ := isWorking_of_inside other unlocked
      have held : m.store.lease.lease = some lease := by rw [owned.files]
      have valid : Lease.isStale lease i.now = false := by
        simpa [Pair.isTimely, running, working, held] using timely
      exact absurd granted (acquireLease_refused held valid record)
  | leads own other =>
    generalize epoch : m.granted worker = given at own
    generalize now : (Prog.access command next : Program Unit) = p at own
    cases own with
    | working fenced =>
      cases now
      refine placed_settle ((fenced m.store .refl).2 i trivial).2 ?_ other
      exact grantedAfter_owned running epoch
    | @writing lease body _ counted fenced =>
      cases now
      cases failed : i.fault with
      | some fault =>
        beta_reduce
        rw [effect_faulted failed _ (by nofun), failed]
        exact ⟨sound.consistent, .outside trivial other⟩
      | none =>
        have written : effect (.writeLease lease) i m.store =
            { m.store with lease := ⟨some lease.leaseEpoch, some lease⟩ } := by
          unfold effect
          rw [failed, ← counted]
          rfl
        have owned : Owned lease (effect (.writeLease lease) i m.store) := by
          rw [written]
          exact ⟨consistent_of_same sound.consistent rfl (fun _ plan here => ⟨plan, here⟩) rfl, rfl⟩
        have granted : m.grantedAfter worker (.input i) = some lease.leaseEpoch := by
          simp only [Pair.grantedAfter, running, failed]
        beta_reduce
        rw [failed, granted]
        exact placed_settle (fenced _ owned) (fun _ => rfl) other

theorem sound_input (sound : Sound m) (free : m.waits worker (.input i) = false)
    (timely : m.isTimely worker (.input i) = true) : Sound (m.act worker (.input i)) := by
  have idle : System.run [.input i] ⟨m.store, m.running worker⟩ = ⟨m.store, m.running worker⟩ →
      m.grantedAfter worker (.input i) = m.granted worker → Sound (m.act worker (.input i)) := by
    intro same kept
    refine sound_act ?_ ?_
    · rw [same]
      exact sound.consistent
    · rw [same, kept]
      exact sound.placed worker
  cases running : m.running worker with
  | none => exact idle (by rw [running]; rfl) (by simp only [Pair.grantedAfter, running])
  | some p =>
    cases p with
    | access command next =>
      obtain ⟨consistent, placed⟩ := sound_access sound running free timely
      refine sound_act ?_ ?_
      · rw [running]
        exact consistent
      · rw [running]
        exact placed
    | ret value => exact idle (by rw [running]; rfl) (by simp only [Pair.grantedAfter, running])
    | raise fault => exact idle (by rw [running]; rfl) (by simp only [Pair.grantedAfter, running])
    | halt => exact idle (by rw [running]; rfl) (by simp only [Pair.grantedAfter, running])

theorem outside_settle (opens : ∀ lease, Opens lease p) : Outside (Machine.settle p) := by
  cases p with
  | access command next => exact opens
  | ret value => trivial
  | raise fault => trivial
  | halt => trivial

theorem sound_step (sound : Sound m) {event : SystemEvent}
    (leased : Pair.isLeased (worker, event) = true) (timely : m.isTimely worker event = true) :
    Sound (m.step (worker, event)) := by
  unfold Pair.step
  split
  · exact sound
  · rename_i free
    have placed := sound.placed worker
    cases event with
    | intrude id =>
      exact sound_act (consistent_pause sound.consistent id) (placed_pause placed id)
    | crash => exact sound_act sound.consistent (placed.replace trivial)
    | call call =>
      cases running : m.running worker with
      | none =>
        refine sound_act ?_ ?_
        · rw [running]
          exact sound.consistent
        · rw [running]
          exact placed.replace (outside_settle fun lease => opens_body leased)
      | some p =>
        refine sound_act ?_ ?_
        · rw [running]
          exact sound.consistent
        · rw [Pair.grantedAfter, running]
          rw [running] at placed
          exact placed
    | input i => exact sound_input sound (Bool.eq_false_iff.mpr free) timely

theorem sound_run (sound : Sound m) {events : List (Worker × SystemEvent)}
    (leased : ∀ e ∈ events, Pair.isLeased e = true) (timely : m.areTimely events = true) :
    Sound (m.run events) := by
  induction events generalizing m with
  | nil => exact sound
  | cons e rest ih =>
    rw [Pair.areTimely, Bool.and_eq_true] at timely
    have stepped : Sound (m.step e) :=
      sound_step sound (leased e List.mem_cons_self) timely.1
    exact ih stepped (fun later member => leased later (List.mem_cons_of_mem _ member)) timely.2

/-- The workers begin on a store that some history has left. -/
def Pair.after (history : List SystemEvent) : Pair := .start (System.start.run history).store

/-- Whenever a worker saves an operation, nobody has been granted a later lease. -/
theorem saves_under_newest_lease (history : List SystemEvent)
    (events : List (Worker × SystemEvent))
    (leased : ∀ e ∈ events, Pair.isLeased e = true)
    (timely : (Pair.after history).areTimely events = true) {worker : Worker} {op : Operation}
    (saves : ((Pair.after history).run events).saving worker = some op) :
    ∃ epoch, ((Pair.after history).run events).granted worker = some epoch ∧
      ((Pair.after history).run events).store.lease.epoch = some epoch := by
  have sound := sound_run (sound_start (Recovery.reached history).1) leased timely
  change Sound ((Pair.after history).run events) at sound
  generalize (Pair.after history).run events = m at sound saves ⊢
  unfold Pair.saving at saves
  split at saves
  · rename_i site saved next running
    have placed := sound.placed worker
    rw [running] at placed
    have inside : Inside m.store (some (.access (.saveOperation site saved) next))
        (m.granted worker) := by
      have excluded : ¬Outside (some (.access (.saveOperation site saved) next)) := by
        intro outside
        obtain ⟨_, _, same, -⟩ := outside ⟨"", "", "", 0, "", 0, 0, none, 0⟩
        cases same
      cases placed with
      | outside own => exact absurd own excluded
      | follows own => exact absurd own excluded
      | leads own => exact own
    generalize now : (Prog.access (.saveOperation site saved) next : Program Unit) = p,
      epoch : m.granted worker = granted at inside
    cases inside with
    | writing counted fenced => cases now
    | working fenced =>
      have owned := (fenced m.store .refl).1 trivial
      exact ⟨_, rfl, by rw [owned.files]⟩
  · cases saves

section Superseded

variable {id : String} {op : Operation}

def revision (id : String) (w : World) : Nat :=
  (w.operations.get id).elim 0 (·.revision)

theorem revision_put (id : String) (w : World) (op : Operation) :
    revision id (w.put op.stored) = if id = op.id then op.revision + 1 else revision id w := by
  rw [revision, World.put, Dict.get_set]
  exact apply_ite (fun found : Option Operation => found.elim 0 (·.revision)) _ _ _

theorem revision_saveOperation (id : String) (w : World) (op : Operation) :
    revision id w ≤ revision id (w.saveOperation op).2 := by
  rcases saveOperation_cases w op with ⟨base, found, level, same⟩ | ⟨absent, _, same⟩ | ⟨_, same⟩
  · rw [same, revision_put]
    split
    · next own =>
      rw [own, revision, found]
      exact level.le.trans (Nat.le_succ _)
    · exact le_rfl
  · rw [same, revision_put]
    split
    · next own =>
      rw [own, revision, absent]
      exact Nat.zero_le _
    · exact le_rfl
  · rw [same]

theorem revision_lt_of_commits (committed : Accesses.commits op i w = true) (site : Site) :
    revision op.id w < revision op.id (effect (.saveOperation site op) i w) := by
  rw [Accesses.effect_saveOperation, if_pos committed, revision_put, if_pos rfl, Nat.lt_succ_iff]
  have ended : (w.saveOperation op).1.isOk = true := (Bool.and_eq_true_iff.mp committed).2
  rcases saveOperation_cases w op with ⟨base, found, level, -⟩ | ⟨absent, -, -⟩ | ⟨fault, same⟩
  · rw [revision, found]
    exact level.le
  · rw [revision, absent]
    exact Nat.zero_le _
  · rw [same] at ended
    cases ended

theorem saveOperation_behind (behind : op.revision < revision op.id w) :
    w.saveOperation op = (.error (World.staleRevision op (revision op.id w)), w) := by
  unfold revision at behind ⊢
  unfold World.saveOperation
  cases found : w.operations.get op.id with
  | none =>
    rw [found] at behind
    exact absurd behind (Nat.not_lt_zero _)
  | some current =>
    rw [found] at behind
    exact if_pos (Nat.ne_of_gt behind)

theorem revision_effect (id : String) (command : Command) (i : Input) (w : World) :
    revision id w ≤ revision id (effect command i w) := by
  by_cases saves : ∃ site op, command = .saveOperation site op
  · obtain ⟨site, op, rfl⟩ := saves
    cases fault : i.fault with
    | some raised => rw [effect_faulted fault w (by simp)]
    | none =>
      rw [effect_faultless fault]
      exact revision_saveOperation id w op
  · rw [revision, revision, operations_effect fun site op same => saves ⟨site, op, same⟩]

theorem revision_pause (id paused : String) (w : World) :
    revision id w ≤ revision id (w.pause paused) := by
  unfold World.pause
  split
  · split
    · exact revision_saveOperation id w _
    · exact le_rfl
  · exact le_rfl

namespace Pair

theorem store_call (m : Pair) (worker : Worker) (call : Call) :
    (m.act worker (.call call)).store = m.store := by
  dsimp only [act]
  cases m.running worker <;> rfl

theorem store_input (m : Pair) (running : m.running worker = some (.access command next)) :
    (m.act worker (.input i)).store = effect command i m.store := by
  dsimp only [act]
  rw [running]
  rfl

theorem running_step_other (m : Pair) {e : Worker × SystemEvent} (away : e.1 = worker.other) :
    (m.step e).running worker = m.running worker := by
  unfold step
  split
  · rfl
  · exact if_neg fun same => worker.other_ne (away.symm.trans same.symm)

theorem running_run_other (m : Pair) {events : List (Worker × SystemEvent)}
    (away : ∀ e ∈ events, e.1 = worker.other) :
    (m.run events).running worker = m.running worker := by
  induction events generalizing m with
  | nil => rfl
  | cons e rest ih =>
    exact (ih (m.step e) fun later inside => away later (List.mem_cons_of_mem _ inside)).trans
      (running_step_other m (away e List.mem_cons_self))

theorem step_saving (m : Pair) (saves : m.saving worker = some op) (i : Input) :
    ∃ site, (m.step (worker, .input i)).store = effect (.saveOperation site op) i m.store := by
  unfold saving at saves
  split at saves
  · next site saved next running =>
    cases saves
    have free : m.waits worker (.input i) = false := by
      rw [waits, locksLease, running]
      rfl
    refine ⟨site, ?_⟩
    rw [step, if_neg (Bool.eq_false_iff.mp free)]
    exact store_input m running
  · cases saves

theorem revision_step (id : String) (m : Pair) (e : Worker × SystemEvent) :
    revision id m.store ≤ revision id (m.step e).store := by
  unfold step
  split
  · exact le_rfl
  · obtain ⟨worker, event⟩ := e
    cases event with
    | intrude paused => exact revision_pause id paused m.store
    | crash => exact le_rfl
    | call call => exact (congrArg (revision id) (store_call m worker call)).ge
    | input i =>
      rcases running : m.running worker with _ | _ | _ | _ | ⟨command, next⟩
      case some.access =>
        rw [store_input m running]
        exact revision_effect id command i m.store
      all_goals
        dsimp only [act]
        rw [running]
        exact le_rfl

theorem revision_run (id : String) (m : Pair) (events : List (Worker × SystemEvent)) :
    revision id m.store ≤ revision id (m.run events).store := by
  induction events generalizing m with
  | nil => exact le_rfl
  | cons e rest ih => exact (revision_step id m e).trans (ih (m.step e))

end Pair

theorem superseded_save_refused {before after : List (Worker × SystemEvent)} {record : Operation}
    (saves : m.saving worker = some op) (current : op.revision ≤ revision op.id m.store)
    (before_away : ∀ e ∈ before, e.1 = worker.other) (after_away : ∀ e ∈ after, e.1 = worker.other)
    (writes : (m.run before).saving worker.other = some record) (same : record.id = op.id)
    (committed : Accesses.commits record i (m.run before).store = true) (late : Input) :
    let last := m.run (before ++ (worker.other, .input i) :: after)
    last.saving worker = some op ∧
      last.store.saveOperation op =
        (.error (World.staleRevision op (revision op.id last.store)), last.store) ∧
      (last.step (worker, .input late)).store = last.store := by
  intro last
  have split : last = (((m.run before).step (worker.other, .input i)).run after) := by
    rw [show last = m.run (before ++ (worker.other, .input i) :: after) from rfl, Pair.run,
      List.foldl_append, List.foldl_cons]
    rfl
  have waiting : last.saving worker = some op := by
    rw [Pair.saving, Pair.running_run_other m fun e inside => ?_]
    · exact saves
    · rcases List.mem_append.mp inside with inside | inside
      · exact before_away e inside
      · rcases List.mem_cons.mp inside with rfl | inside
        · rfl
        · exact after_away e inside
  have behind : op.revision < revision op.id last.store := by
    obtain ⟨site, stored⟩ := Pair.step_saving (m.run before) writes i
    calc op.revision
      _ ≤ revision op.id m.store := current
      _ ≤ revision op.id (m.run before).store := Pair.revision_run op.id m before
      _ < revision op.id ((m.run before).step (worker.other, .input i)).store := by
        rw [stored, ← same]
        exact revision_lt_of_commits committed site
      _ ≤ revision op.id last.store := by
        rw [split]
        exact Pair.revision_run op.id _ after
  have refused := saveOperation_behind behind
  refine ⟨waiting, refused, ?_⟩
  obtain ⟨site, stored⟩ := Pair.step_saving last waiting late
  rw [stored, Accesses.effect_saveOperation, if_neg ?_]
  rw [Accesses.commits, refused, Except.isOk, Except.toBool, Bool.and_false]
  exact Bool.false_ne_true

end Superseded

def plannedEvents : List SystemEvent :=
  (Call.plan (PlanRequest.applying "1" ["first", "second"] ⟨0, [], []⟩)).events 13 (.agreeing 1 "a")

def Worker.does (worker : Worker) (events : List SystemEvent) : List (Worker × SystemEvent) :=
  events.map fun event => (worker, event)

def promptEvents : List (Worker × SystemEvent) :=
  Worker.does .first ((Call.start 5 "op-1").events 20 (.agreeing 2 "b")) ++
    Worker.does .second ((Call.recover 3 false).events 3 (.agreeing 3 "c")) ++
    Worker.does .first (List.replicate 21 (.input (.agreeing 4 "b")))

/-- The lease expires; recovery ends the operation, and the first worker goes on. -/
def lateEvents : List (Worker × SystemEvent) :=
  Worker.does .first ((Call.start 5 "op-1").events 39 (.agreeing 2 "b")) ++
    Worker.does .second ((Call.recover 500000000 false).events 30 (.agreeing 500000000 "c")) ++
    Worker.does .first (List.replicate 2 (.input (.agreeing 500000001 "b")))

def progress (m : Pair) (id : String) : Option (OperationState × String × Nat) :=
  (m.store.operations.get id).map fun op => (op.state, op.currentStepId, op.revision)

theorem promptRun_saves_under_newest_lease :
    (((Pair.after plannedEvents).run promptEvents).saving .first).map (·.id) = some "op-1" ∧
      ∃ epoch, ((Pair.after plannedEvents).run promptEvents).granted .first = some epoch ∧
        ((Pair.after plannedEvents).run promptEvents).store.lease.epoch = some epoch := by
  have saves : (((Pair.after plannedEvents).run promptEvents).saving .first).map (·.id) =
      some "op-1" := by decide +kernel
  obtain ⟨op, saving, -⟩ := Option.map_eq_some_iff.mp saves
  exact ⟨saves, saves_under_newest_lease plannedEvents promptEvents (by decide +kernel)
    (by decide +kernel) saving⟩

theorem superseded_worker_saves :
    ((Pair.after plannedEvents).run lateEvents).granted .first = some 1 ∧
      ((Pair.after plannedEvents).run lateEvents).store.lease.epoch = some 2 ∧
      (((Pair.after plannedEvents).run lateEvents).saving .first).map (·.id) = some "op-1" ∧
      progress ((Pair.after plannedEvents).run lateEvents) "op-1" = some (.failed, "", 6) ∧
      progress (((Pair.after plannedEvents).run lateEvents).step
        (.first, .input (.agreeing 500000001 "b"))) "op-1" = some (.failed, "first", 7) := by
  decide +kernel

end RExecOp.Supersession
