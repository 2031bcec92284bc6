import RExecOp.Lib.Alone
import RExecOp.Discipline
import RExecOp.QueueRecovery

/-! One run of startup recovery, alone on the store: what each phase leaves behind, and that a
strict run returns. -/

namespace RExecOp.Recovery

open Solo

open Attempts (Attempt)
open Lease (Instant LeaseRecord Credential)
open Coordinator (usesTargetLock)

variable {command : Command} {op now : Operation} {w start after : World} {file reason : String}
  {record : LockRecord} {rest : List String} {target : OperationState} {observedAt : Instant}
  {α : Type}

def solo (strict : Prop) (timely : Instant → Prop) : Solo Input World Command where
  effect := effect
  allows _ i _ := strict → i.fault = none ∧ timely i.guardNow
  strict := strict

section Rules

variable {strict : Prop} {timely : Instant → Prop} {α : Type} {w : World}

theorem gives_access {reply : Input → World → Except Fault α} {post : α → World → Prop}
    (returns : ∀ i : Input, strict → timely i.guardNow → ∃ a, reply i w = .ok a)
    (holds : ∀ i a, reply i w = .ok a → post a (w.perform i command)) :
    (solo strict timely).Gives (access command reply) post w := by
  refine Gives.request fun i allowed => ?_
  cases failed : i.fault with
  | some fault =>
    refine ⟨fun asked => ?_, by simp⟩
    have faultless := (allowed asked).1
    rw [failed] at faultless
    cases faultless
  | none =>
    refine ⟨fun asked => returns i asked (allowed asked).2, fun a same => ?_⟩
    exact (congrArg (post a) (effect_faultless failed w)).mpr (holds i a same)

theorem gives_read {look : World → Except Fault α} {post : α → World → Prop}
    (returns : strict → ∃ a, look w = .ok a) (holds : ∀ a, look w = .ok a → post a w) :
    (solo strict timely).Gives (read look) post w := by
  exact gives_access (fun _ asked _ => returns asked) fun _ a same => holds a same

theorem gives_loaded {id : String} (found : w.operations.get id = some op) :
    (solo strict timely).Gives (loadOperation id) (fun a after => after = w ∧ a = op) w := by
  have loaded : w.loadOperation id = .ok op := by rw [World.loadOperation, found]
  refine gives_read (fun _ => ⟨op, loaded⟩) fun a same => ?_
  exact ⟨rfl, (Except.ok.inj (loaded.symm.trans same)).symm⟩

variable {β : Type} {post : β → World → Prop}

theorem gives_look {look : World → α} {next : α → Program β}
    (rest : (solo strict timely).Gives (next (look w)) post w) :
    (solo strict timely).Gives (read (fun w => .ok (look w)) >>= next) post w := by
  have looked : (solo strict timely).Gives (read fun w => .ok (look w))
      (fun a after => after = w ∧ a = look w) w := by
    refine gives_read (fun _ => ⟨_, rfl⟩) fun a same => ?_
    exact ⟨rfl, (Except.ok.inj same).symm⟩
  refine Gives.bind looked ?_
  rintro a after ⟨rfl, rfl⟩
  exact rest

theorem gives_emit {site : Site} {next : Unit → Program β}
    (rest : (solo strict timely).Gives (next ()) post w) :
    (solo strict timely).Gives (emit site >>= next) post w := by
  have emitted : (solo strict timely).Gives (emit site) (fun _ after => after = w) w :=
    gives_access (fun _ _ _ => ⟨(), rfl⟩) fun _ _ _ => rfl
  refine Gives.bind emitted ?_
  rintro _ after rfl
  exact rest

theorem gives_loadOperation {id : String} {next : Operation → Program β}
    (found : w.operations.get id = some op) (rest : (solo strict timely).Gives (next op) post w) :
    (solo strict timely).Gives (loadOperation id >>= next) post w := by
  refine Gives.bind (gives_loaded found) ?_
  rintro a after ⟨rfl, rfl⟩
  exact rest

theorem gives_saveOperation {op base : Operation} {next : Operation → Program β}
    (found : w.operations.get op.id = some base) (level : base.revision = op.revision)
    (rest : (solo strict timely).Gives (next op.stored) post (w.put op.stored)) :
    (solo strict timely).Gives (saveOperation op >>= next) post w := by
  have saved := saveOperation_ok found level
  have saves : (solo strict timely).Gives (saveOperation op)
      (fun a after => after = w.put op.stored ∧ a = op.stored) w := by
    refine gives_access (fun _ _ _ => ⟨op.stored, congrArg Prod.fst saved⟩) fun i a same => ?_
    rw [saved] at same
    exact ⟨congrArg Prod.snd saved, (Except.ok.inj same).symm⟩
  refine Gives.bind saves ?_
  rintro a after ⟨rfl, rfl⟩
  exact rest

end Rules

/-- Operations stand under their own id and, where a run has to return, have a plan. -/
structure Filed (strict : Prop) (w : World) : Prop where
  keyed : ∀ {id op}, w.operations.get id = some op → op.id = id
  planned : strict → ∀ {id op}, w.operations.get id = some op → ∃ plan, w.plans.get id = some plan

structure Locked (w : World) : Prop where
  file : ∀ {file record}, w.locks.get file = some record →
    file = World.lockFilename record.environment record.target
  holder : ∀ {file record}, w.locks.get file = some record →
    ∃ op, w.operations.get record.operationId = some op ∧ op.environment = record.environment ∧
      op.target = record.target ∧ usesTargetLock op = true

theorem Locked.readLock (locked : Locked w) (found : w.locks.get file = some record) :
    w.readLock record.environment record.target = some record := by
  rw [World.readLock, ← locked.file found]
  exact found

theorem releaseLock_get {environment target id file : String}
    (found : (w.releaseLock environment target id).locks.get file = some record) :
    w.locks.get file = some record ∧
      ¬(file = World.lockFilename environment target ∧ record.operationId = id) := by
  revert found
  fun_cases World.releaseLock w environment target id with
  | case1 existing here own =>
    rw [Dict.get_remove]
    split
    · rintro ⟨⟩
    · rename_i other
      exact fun found => ⟨found, fun own => other own.1⟩
  | case2 existing here kept =>
    refine fun found => ⟨found, fun own => kept ?_⟩
    rw [World.readLock, ← own.1, found] at here
    cases here
    simp [own.2]
  | case3 missing =>
    refine fun found => ⟨found, fun own => ?_⟩
    rw [World.readLock, ← own.1, found] at missing
    cases missing

section Phases

variable {strict : Prop} {timely : Instant → Prop} {w : World}

/-- The locks are being walked; `rest` are the files to come. -/
structure Releasing (start : World) (rest : List String) (w : World) : Prop where
  frame : ∃ locks, w = { start with locks := locks }
  kept : ∀ {file record}, w.locks.get file = some record → start.locks.get file = some record
  fresh : ∀ {file record}, w.locks.get file = some record → file ∉ rest →
    start.isLockStale record = false

theorem staleRecord_eq (locked : Locked start) (walk : Releasing start rest w)
    (found : w.locks.get file = some record) :
    staleRecord w record = if start.isLockStale record then some record else none := by
  have stale : w.isLockStale record = start.isLockStale record := by
    obtain ⟨locks, rfl⟩ := walk.frame
    rfl
  have here : w.readLock record.environment record.target = some record := by
    rw [World.readLock, ← locked.file (walk.kept found)]
    exact found
  rw [staleRecord, here, Option.filter_some, stale]

theorem Releasing.skip (walk : Releasing start (file :: rest) w)
    (own : ∀ record, w.locks.get file = some record → start.isLockStale record = false) :
    Releasing start rest w := by
  refine ⟨walk.frame, walk.kept, fun {other record} found outside => ?_⟩
  by_cases same : other = file
  · exact own record (same ▸ found)
  · exact walk.fresh found (by simp [same, outside])

theorem gives_releaseStaleLock (locked : Locked start) (walk : Releasing start (file :: rest) w) :
    (solo strict timely).Gives (releaseStaleLock file)
      (fun _ after => Releasing start rest after) w := by
  refine gives_look ?_
  cases found : w.locks.get file with
  | none =>
    refine Gives.pure (walk.skip fun record here => ?_)
    rw [found] at here
    cases here
  | some payload =>
    refine gives_look ?_
    rw [staleRecord_eq locked walk found]
    by_cases stale : start.isLockStale payload = true
    · rw [if_pos stale]
      have gone : (solo strict timely).Gives
          (access (.releaseLock payload.environment payload.target payload.operationId)
            fun _ _ => .ok ())
          (fun _ after => Releasing start rest after) w := by
        refine gives_access (fun _ _ _ => ⟨(), rfl⟩) fun i _ _ => ?_
        rw [World.perform]
        refine ⟨?_, fun here => walk.kept (releaseLock_get here).1, ?_⟩
        · obtain ⟨locks, rfl⟩ := walk.frame
          exact ⟨_, releaseLock_operations _ _ _ _⟩
        · intro other record here outside
          obtain ⟨before, different⟩ := releaseLock_get here
          refine walk.fresh before fun member => ?_
          rcases List.mem_cons.mp member with rfl | member
          · rw [found] at before
            cases before
            exact different ⟨locked.file (walk.kept found), rfl⟩
          · exact outside member
      exact Gives.bind gone fun _ after walk => Gives.pure walk
    · rw [if_neg stale]
      refine Gives.pure (walk.skip fun record here => ?_)
      rw [found] at here
      cases here
      simpa using stale

theorem gives_releaseStaleLocks (locked : Locked w) :
    (solo strict timely).Gives releaseStaleLocks (fun _ after => Releasing w [] after) w := by
  refine gives_look ?_
  refine Gives.forEach (fun rest _ after => Releasing w rest after)
    (fun _ _ _ _ walk => gives_releaseStaleLock locked walk) ?_
  refine ⟨⟨w.locks, rfl⟩, fun found => found, fun {file record} found outside => ?_⟩
  exact absurd ((Dict.mem_sortedKeys_iff _ _).mpr ⟨record, found⟩) outside

theorem gives_releaseStaleLocks_none (locked : Locked w)
    (live : ∀ {file record}, w.locks.get file = some record → w.isLockStale record = false) :
    (solo strict timely).Gives releaseStaleLocks (fun files after => files = [] ∧ after = w)
      w := by
  refine gives_look (Gives.forEach_none fun file _ => ?_)
  refine gives_look ?_
  cases found : w.locks.get file with
  | none => exact Gives.pure ⟨rfl, rfl⟩
  | some payload =>
    refine gives_look ?_
    have fresh : staleRecord w payload = none := by
      rw [staleRecord, locked.readLock found, Option.filter_some, live found]
      rfl
    rw [fresh]
    exact Gives.pure ⟨rfl, rfl⟩

end Phases

structure Moves (op now : Operation) : Prop where
  binding : SameBinding op.core now.core
  revision : op.revision ≤ now.revision
  history : ∃ moves, now.history = op.history ++ moves ∧
    ∀ move ∈ moves, move.toState ∈ move.fromState.allowedTransitions

theorem Moves.refl (op : Operation) : Moves op op := ⟨.refl _, le_rfl, [], by simp, by simp⟩

theorem Moves.trans {a b c : Operation} (first : Moves a b) (second : Moves b c) : Moves a c := by
  obtain ⟨left, grown, allowed⟩ := first.history
  obtain ⟨right, further, permitted⟩ := second.history
  refine ⟨first.binding.trans second.binding, first.revision.trans second.revision,
    left ++ right, ?_, fun move member => ?_⟩
  · rw [further, grown, List.append_assoc]
  · rcases List.mem_append.mp member with member | member
    · exact allowed move member
    · exact permitted move member

theorem moves_moved (reason : String) (allowed : target ∈ op.state.allowedTransitions) :
    Moves op (op.moved target reason).stored := by
  refine ⟨⟨rfl, rfl, rfl, rfl, rfl⟩, Nat.le_succ _, [⟨op.state, target, reason⟩], rfl,
    fun move member => ?_⟩
  rw [List.mem_singleton.mp member]
  exact allowed

structure Rewrites (w : World) (op now : Operation) (after : World) : Prop where
  frame : ∃ operations, after = { w with operations := operations }
  others : ∀ {id}, id ≠ op.id → after.operations.get id = w.operations.get id
  stored : after.operations.get op.id = some now
  moves : Moves op now

theorem Rewrites.id (rewrites : Rewrites w op now after) : now.id = op.id :=
  rewrites.moves.binding.id

theorem Rewrites.here (rewrites : Rewrites w op now after) :
    after.operations.get now.id = some now := by
  rw [rewrites.id]
  exact rewrites.stored

theorem Rewrites.refl (found : w.operations.get op.id = some op) : Rewrites w op op w :=
  ⟨⟨w.operations, rfl⟩, fun _ => rfl, found, .refl op⟩

theorem Rewrites.put {op now next : Operation} (rewrites : Rewrites w op now after)
    (moves : Moves now next) : Rewrites w op next (after.put next) := by
  have same : next.id = op.id := Eq.trans moves.binding.id rewrites.id
  refine ⟨?_, fun {id} other => ?_, ?_, rewrites.moves.trans moves⟩
  · obtain ⟨operations, rfl⟩ := rewrites.frame
    exact ⟨_, rfl⟩
  · rw [← rewrites.others other]
    exact Dict.get_set_ne _ _ (same ▸ other)
  · rw [← same]
    exact Dict.get_set_self _ _ _

section Phases

variable {strict : Prop} {timely : Instant → Prop} {w start : World}

theorem gives_transitionOperation (rewrites : Rewrites start op now w)
    (allowed : target ∈ now.state.allowedTransitions) :
    (solo strict timely).Gives (transitionOperation now target reason)
      (fun _ after => Rewrites start op (now.moved target reason).stored after) w := by
  have valid : OperationState.validateTransition now.state target = .ok () := if_pos allowed
  rw [transitionOperation, valid]
  refine gives_emit (gives_saveOperation rewrites.here rfl (Gives.pure ?_))
  exact rewrites.put (moves_moved reason allowed)

theorem gives_transitionFrom {state target : OperationState} (rewrites : Rewrites start op now w)
    (allowed : target ∈ state.allowedTransitions) :
    (solo strict timely).Gives (transitionFrom now state target reason)
      (fun next after => Rewrites start op next after ∧
        next.state = if now.state = state then target else now.state) w := by
  unfold transitionFrom
  split
  · rename_i here
    refine Gives.bind (gives_transitionOperation rewrites (here ▸ allowed)) ?_
    intro _ after moved
    have stored : after.operations.get now.id = some (now.moved target reason).stored :=
      moved.here
    refine (gives_loaded stored).mono ?_
    rintro next last ⟨rfl, rfl⟩
    exact ⟨moved, rfl⟩
  · exact Gives.pure ⟨rewrites, rfl⟩

theorem gives_failInterrupted (found : w.operations.get op.id = some op)
    (active : op.state.isActive = true) : (solo strict timely).Gives (failInterrupted op)
      (fun _ after => ∃ now, Rewrites w op now after ∧ now.state = .failed) w := by
  have fails : ∀ {now : Operation} {after : World}, Rewrites w op now after →
      (now.state = .running ∨ now.state = .validating) →
      (solo strict timely).Gives (transitionOperation now .failed "interrupted_by_restart")
        (fun _ after => ∃ now, Rewrites w op now after ∧ now.state = .failed) after := by
    intro now after rewrites running
    have allowed : OperationState.failed ∈ now.state.allowedTransitions := by
      rcases running with running | running <;> rw [running] <;> decide
    refine (gives_transitionOperation rewrites allowed).mono fun _ _ rewrites => ?_
    exact ⟨_, rewrites, rfl⟩
  unfold failInterrupted
  split
  · exact fails (.refl found) (by assumption)
  · rename_i idle
    have waiting : op.state = .paused ∨ op.state = .resuming ∨ op.state = .retrying := by
      cases state : op.state <;> simp_all [OperationState.isActive]
    rw [if_pos waiting]
    refine Gives.bind (gives_transitionFrom (.refl found) (by decide)) ?_
    rintro op₁ w₁ ⟨rewrites₁, state₁⟩
    refine Gives.bind (gives_transitionFrom rewrites₁ (by decide)) ?_
    rintro op₂ w₂ ⟨rewrites₂, state₂⟩
    refine Gives.bind (gives_transitionFrom rewrites₂ (by decide)) ?_
    rintro op₃ w₃ ⟨rewrites₃, state₃⟩
    have running : op₃.state = .running := by
      rcases waiting with state | state | state <;> simp_all
    rw [if_pos running]
    exact fails rewrites₃ (.inl running)

theorem gives_releaseTargetOnly (op : Operation) :
    (solo strict timely).Gives (Coordinator.releaseTargetOnly op) (fun _ after =>
      (∃ locks, after = { w with locks := locks }) ∧
        ∀ {file record}, after.locks.get file = some record →
          w.locks.get file = some record ∧ (usesTargetLock op = true →
            ¬(file = World.lockFilename op.environment op.target ∧
              record.operationId = op.id))) w := by
  unfold Coordinator.releaseTargetOnly
  split
  · refine gives_access (fun _ _ _ => ⟨(), rfl⟩) fun i _ _ => ?_
    refine ⟨⟨_, releaseLock_operations _ _ _ _⟩, fun {file record} found => ?_⟩
    obtain ⟨before, different⟩ := releaseLock_get found
    exact ⟨before, fun _ => different⟩
  · rename_i unused
    exact Gives.pure ⟨⟨_, rfl⟩, fun found => ⟨found, fun uses => absurd uses unused⟩⟩

structure Interrupts (w : World) (op : Operation) (after : World) : Prop where
  frame : ∃ operations locks, after = { w with operations := operations, locks := locks }
  others : ∀ {id}, id ≠ op.id → after.operations.get id = w.operations.get id
  failed : ∃ now, after.operations.get op.id = some now ∧ now.state = .failed ∧ Moves op now
  locks : ∀ {file record}, after.locks.get file = some record →
    w.locks.get file = some record ∧ (usesTargetLock op = true →
      ¬(file = World.lockFilename op.environment op.target ∧ record.operationId = op.id))

theorem gives_markInterrupted (found : w.operations.get op.id = some op)
    (active : op.state.isActive = true) : (solo strict timely).Gives (markInterrupted observedAt op)
      (fun _ after => Interrupts w op after) w := by
  refine Gives.bind (gives_failInterrupted found active) ?_
  rintro _ w₁ ⟨now, rewrites, failed⟩
  refine gives_loadOperation rewrites.stored ?_
  refine Gives.bind (gives_releaseTargetOnly now) ?_
  rintro _ w₂ ⟨⟨locks, rfl⟩, released⟩
  have here : w₁.operations.get now.id = some now := rewrites.here
  refine gives_loadOperation here ?_
  refine gives_saveOperation here rfl (Gives.pure ?_)
  obtain ⟨operations, rfl⟩ := rewrites.frame
  have moves : Moves now { now with interruptedAt := some observedAt }.stored :=
    ⟨⟨rfl, rfl, rfl, rfl, rfl⟩, Nat.le_succ _, [], by simp [Operation.stored], by simp⟩
  refine ⟨⟨_, _, rfl⟩, fun {id} other => ?_, ?_, fun {file record} found => ?_⟩
  · rw [← rewrites.others other]
    exact Dict.get_set_ne _ _ (fun same => other (same.trans rewrites.id))
  · refine ⟨{ now with interruptedAt := some observedAt }.stored, ?_, failed,
      rewrites.moves.trans moves⟩
    rw [← rewrites.id]
    exact Dict.get_set_self _ _ _
  · obtain ⟨before, different⟩ := released found
    refine ⟨before, fun uses own => ?_⟩
    have same := rewrites.moves.binding
    rw [← usesTargetLock_congr same] at uses
    have environment : now.environment = op.environment := same.environment
    have target : now.target = op.target := same.target
    rw [← environment, ← target, ← rewrites.id] at own
    exact different uses own

def Interrupted (op now : Operation) : Prop :=
  (op.state.isActive = true → now.state = .failed ∧ Moves op now) ∧
    (op.state.isActive = false → now = op)

/-- `rest` are the operations to come, `done` tells what became of the others. -/
structure Walking (done : Operation → Operation → Prop) (start : World) (rest : List Operation)
    (w : World) : Prop where
  distinct : (rest.map (·.id)).Nodup
  listed : ∀ op ∈ rest, start.operations.get op.id = some op
  ahead : ∀ op ∈ rest, w.operations.get op.id = some op
  behind : ∀ {id op}, start.operations.get id = some op → op ∉ rest →
    ∃ now, w.operations.get id = some now ∧ done op now
  absent : ∀ {id}, start.operations.get id = none → w.operations.get id = none

section Walking

variable {done done' : Operation → Operation → Prop} {op now : Operation} {rest : List Operation}
  {after : World} (filed : Filed strict start) (walk : Walking done start (op :: rest) w)

include filed walk

theorem Walking.step (grows : ∀ {op now}, done op now → done' op now)
    (others : ∀ {id}, id ≠ op.id → after.operations.get id = w.operations.get id)
    (stored : after.operations.get op.id = some now) (settled : done' op now) :
    Walking done' start rest after := by
  have listed := walk.listed op List.mem_cons_self
  have apart : ∀ {id other}, start.operations.get id = some other → other ≠ op → id ≠ op.id := by
    rintro id other found different rfl
    exact different (Option.some.inj (found.symm.trans listed))
  obtain ⟨alone, distinct⟩ := List.nodup_cons.mp walk.distinct
  refine ⟨distinct, fun other member => walk.listed other (List.mem_cons_of_mem _ member),
    fun other member => ?_, fun {id other} found outside => ?_, fun {id} missing => ?_⟩
  · have inside := List.mem_cons_of_mem op member
    have different : other ≠ op := by
      rintro rfl
      exact alone (List.mem_map_of_mem member)
    rw [others (apart (walk.listed other inside) different)]
    exact walk.ahead other inside
  · by_cases same : other = op
    · subst same
      exact ⟨now, filed.keyed found ▸ stored, settled⟩
    · obtain ⟨kept, here, before⟩ := walk.behind found (by simp [same, outside])
      exact ⟨kept, (others (apart found same)).trans here, grows before⟩
  · have other : id ≠ op.id := by
      rintro rfl
      simp [listed] at missing
    exact (others other).trans (walk.absent missing)

theorem Walking.skip (settled : done op op) : Walking done start rest w :=
  walk.step filed (fun before => before) (fun _ => rfl) (walk.ahead op List.mem_cons_self) settled

end Walking

structure Interrupting (start : World) (rest : List Operation) (w : World) : Prop
    extends Walking Interrupted start rest w where
  frame : ∃ operations locks, w = { start with operations := operations, locks := locks }
  locks : ∀ {file record}, w.locks.get file = some record →
    start.locks.get file = some record ∧
      ∀ {id op}, start.operations.get id = some op → op ∉ rest → op.state.isActive = true →
        usesTargetLock op = true →
          ¬(file = World.lockFilename op.environment op.target ∧ record.operationId = op.id)

theorem Interrupting.skip {rest : List Operation} (filed : Filed strict start)
    (walk : Interrupting start (op :: rest) w) (idle : op.state.isActive = false) :
    Interrupting start rest w where
  toWalking := walk.toWalking.skip filed ⟨by simp [idle], fun _ => rfl⟩
  frame := walk.frame
  locks {file record} found := by
    obtain ⟨before, cleared⟩ := walk.locks found
    refine ⟨before, fun {id other} stored outside active => cleared stored ?_ active⟩
    simp only [List.mem_cons, not_or]
    refine ⟨fun same => ?_, outside⟩
    rw [same, idle] at active
    cases active

theorem Interrupting.step {op : Operation} {rest : List Operation} {after : World}
    (filed : Filed strict start) (walk : Interrupting start (op :: rest) w)
    (active : op.state.isActive = true) (interrupts : Interrupts w op after) :
    Interrupting start rest after := by
  obtain ⟨now, stored, failed, moves⟩ := interrupts.failed
  refine ⟨walk.toWalking.step filed (fun before => before) interrupts.others stored
    ⟨fun _ => ⟨failed, moves⟩, by simp [active]⟩, ?_, fun {file record} found => ?_⟩
  · obtain ⟨operations, locks, rfl⟩ := walk.frame
    obtain ⟨operations', locks', rfl⟩ := interrupts.frame
    exact ⟨_, _, rfl⟩
  · obtain ⟨here, gone⟩ := interrupts.locks found
    obtain ⟨before, cleared⟩ := walk.locks here
    refine ⟨before, fun {id other} stored outside active uses => ?_⟩
    by_cases same : other = op
    · subst same
      exact gone uses
    · exact cleared stored (by simp [same, outside]) active uses

theorem mem_listOperations : op ∈ w.listOperations ↔ ∃ id, w.operations.get id = some op :=
  Dict.mem_filterMap_fileOrder _ _ _

theorem stored_of_mem (filed : Filed strict w) :
    ∀ op ∈ w.listOperations, w.operations.get op.id = some op := by
  intro op member
  obtain ⟨id, found⟩ := mem_listOperations.mp member
  rw [filed.keyed found]
  exact found

theorem listOperations_nodup (filed : Filed strict w) :
    (w.listOperations.map (·.id)).Nodup := by
  have names : ∀ ids : List String, (∀ id ∈ ids, ∃ op, w.operations.get id = some op) →
      (ids.filterMap w.operations.get).map (·.id) = ids := by
    intro ids known
    induction ids with
    | nil => rfl
    | cons id rest ih =>
      obtain ⟨op, found⟩ := known id List.mem_cons_self
      rw [List.filterMap_cons_some found, List.map_cons, filed.keyed found,
        ih fun other member => known other (List.mem_cons_of_mem _ member)]
  rw [World.listOperations, names]
  · exact Dict.fileOrder_nodup _ _
  · intro id member
    exact (Dict.mem_fileOrder _ _ _).mp member

theorem Walking.begin {done : Operation → Operation → Prop} {listed : List Operation}
    (filed : Filed strict w) (among : listed.Sublist w.listOperations)
    (others : ∀ op ∈ w.listOperations, op ∉ listed → done op op) : Walking done w listed w := by
  have stored : ∀ op ∈ listed, w.operations.get op.id = some op :=
    fun op member => stored_of_mem filed op (among.subset member)
  refine ⟨(listOperations_nodup filed).sublist (among.map _), stored, stored, ?_, id⟩
  intro id op found outside
  exact ⟨op, found, others op (mem_listOperations.mpr ⟨id, found⟩) outside⟩

theorem gives_interruptOperation {sure : Prop} {rest : List Operation} (filed : Filed sure start)
    (walk : Interrupting start (op :: rest) w) :
    (solo strict timely).Gives (interruptOperation observedAt op)
      (fun _ after => Interrupting start rest after) w := by
  unfold interruptOperation
  split
  · rename_i active
    have here := walk.ahead op List.mem_cons_self
    refine Gives.bind (gives_markInterrupted here active) fun _ after interrupts => ?_
    obtain ⟨now, stored, -, -⟩ := interrupts.failed
    refine gives_loadOperation stored (Gives.pure ?_)
    exact walk.step filed active interrupts
  · rename_i idle
    exact Gives.pure (walk.skip filed (by simpa using idle))

theorem gives_interruptActiveOperations {sure : Prop} (filed : Filed sure w) :
    (solo strict timely).Gives (interruptActiveOperations observedAt)
      (fun _ after => Interrupting w [] after) w := by
  refine gives_look ?_
  refine Gives.forEach (fun rest _ after => Interrupting w rest after)
    (fun _ _ _ _ walk => gives_interruptOperation filed walk) ?_
  refine ⟨.begin filed (List.Sublist.refl _) fun _ member outside => absurd member outside,
    ⟨_, _, rfl⟩, fun found => ⟨found, ?_⟩⟩
  intro id op found outside
  exact absurd (mem_listOperations.mpr ⟨id, found⟩) outside

theorem gives_interruptActiveOperations_none
    (idle : ∀ {id op}, w.operations.get id = some op → op.state.isActive = false) :
    (solo strict timely).Gives (interruptActiveOperations observedAt)
      (fun ids after => ids = [] ∧ after = w) w := by
  refine gives_look (Gives.forEach_none fun op member => ?_)
  obtain ⟨id, found⟩ := mem_listOperations.mp member
  rw [interruptOperation, idle found]
  exact Gives.pure ⟨rfl, rfl⟩

theorem mem_allAttempts {record : Attempt} :
    record ∈ w.allAttempts ↔ ∃ id attemptId, w.attempt id attemptId = some record := by
  simp only [World.allAttempts, List.mem_flatMap, mem_listExecutionAttempts,
    Dict.mem_sortedKeys_iff]
  constructor
  · rintro ⟨id, -, attemptId, found⟩
    exact ⟨id, attemptId, found⟩
  · rintro ⟨id, attemptId, found⟩
    refine ⟨id, ?_, attemptId, found⟩
    cases listed : w.attempts.get id with
    | some records => exact ⟨records, rfl⟩
    | none => simp [World.attempt, World.attemptsOf, listed] at found

def Marked (before now : Option Attempt) : Prop :=
  now = before ∨ ∃ record finished, before = some record ∧ record.status = .started ∧
    now = some (World.lost record finished)

/-- The journal is being walked; `rest` are the files to come. -/
structure Marking (start : World) (rest : List (String × String)) (w : World) : Prop where
  frame : ∃ attempts, w = { start with attempts := attempts }
  journaled : ∀ {id attemptId record}, w.attempt id attemptId = some record →
    record.operationId = id ∧ record.attemptId = attemptId
  marked : ∀ id attemptId, Marked (start.attempt id attemptId) (w.attempt id attemptId)
  started : ∀ {id attemptId record}, w.attempt id attemptId = some record →
    record.status = .started → (id, attemptId) ∈ rest

theorem Marking.skip {file : String × String} {rest : List (String × String)}
    (walk : Marking start (file :: rest) w)
    (settled : ∀ record, w.attempt file.1 file.2 = some record → record.status ≠ .started) :
    Marking start rest w := by
  refine ⟨walk.frame, walk.journaled, walk.marked, fun {id attemptId record} found started => ?_⟩
  rcases List.mem_cons.mp (walk.started found started) with rfl | member
  · exact absurd started (settled record found)
  · exact member

theorem Marking.step {file : String × String} {rest : List (String × String)} {record : Attempt}
    (walk : Marking start (file :: rest) w) (found : w.attempt file.1 file.2 = some record)
    (started : record.status = .started) (finished : Instant) :
    Marking start rest (w.putAttempt (World.lost record finished)) := by
  obtain ⟨operationId, attemptId⟩ := walk.journaled found
  have get : ∀ id key, (w.putAttempt (World.lost record finished)).attempt id key =
      if id = file.1 ∧ key = file.2 then some (World.lost record finished)
      else w.attempt id key := by
    intro id key
    rw [attempt_putAttempt, ← operationId, ← attemptId]
    rfl
  refine ⟨?_, fun {id key other} here => ?_, fun id key => ?_, fun {id key other} here again => ?_⟩
  · obtain ⟨attempts, rfl⟩ := walk.frame
    exact ⟨_, rfl⟩
  · rw [get] at here
    split at here
    · rename_i own
      cases here
      exact ⟨operationId.trans own.1.symm, attemptId.trans own.2.symm⟩
    · exact walk.journaled here
  · rw [get]
    split
    · rename_i own
      obtain ⟨rfl, rfl⟩ := own
      rcases walk.marked file.1 file.2 with same | ⟨earlier, instant, -, -, lost⟩
      · exact .inr ⟨record, finished, same.symm.trans found, started, rfl⟩
      · rw [found] at lost
        cases lost
        cases started
    · exact walk.marked id key
  · rw [get] at here
    split at here
    · cases here
      cases again
    · rename_i other_file
      rcases List.mem_cons.mp (walk.started here again) with same | member
      · exact absurd ⟨congrArg Prod.fst same, congrArg Prod.snd same⟩ other_file
      · exact member

theorem gives_markIndeterminate {file : String × String} {rest : List (String × String)}
    (walk : Marking start (file :: rest) w) :
    (solo strict timely).Gives (access (.markIndeterminate file.1 file.2) fun i w =>
      .ok (w.markLost file.1 file.2 i).1) (fun _ after => Marking start rest after) w := by
  refine gives_access (fun _ _ _ => ⟨_, rfl⟩) fun i _ _ => ?_
  rw [World.perform, World.markLost]
  split
  · rename_i record found
    split
    · rename_i started
      exact walk.step found started i.now
    · rename_i settled
      refine walk.skip fun other here => ?_
      rw [found] at here
      cases here
      exact settled
  · rename_i missing
    refine walk.skip fun other here => ?_
    rw [missing] at here
    cases here

theorem gives_recoverStartedAttempts
    (journaled : ∀ {id attemptId record}, w.attempt id attemptId = some record →
      record.operationId = id ∧ record.attemptId = attemptId) :
    (solo strict timely).Gives recoverStartedAttempts (fun _ after => Marking w [] after) w := by
  refine gives_look ?_
  refine Gives.forEach (fun rest _ after => Marking w rest after)
    (fun _ _ _ _ walk => gives_markIndeterminate walk) ?_
  refine ⟨⟨_, rfl⟩, journaled, fun _ _ => .inl rfl, fun {id key record} found _ => ?_⟩
  obtain ⟨rfl, rfl⟩ := journaled found
  exact List.mem_map.mpr ⟨record, mem_allAttempts.mpr ⟨_, _, found⟩, rfl⟩

theorem gives_recoverStartedAttempts_none
    (settled : ∀ {id key record}, w.attempt id key = some record → record.status ≠ .started) :
    (solo strict timely).Gives recoverStartedAttempts (fun ids after => ids = [] ∧ after = w)
      w := by
  have quiet : ∀ (file : String × String) i, w.markLost file.1 file.2 i = (none, w) := by
    intro file i
    unfold World.markLost
    split
    · rename_i record found
      rw [if_neg (settled found)]
    · rfl
  refine gives_look (Gives.forEach_none fun file _ => ?_)
  refine gives_access (fun _ _ _ => ⟨_, rfl⟩) fun i found same => ?_
  rw [quiet] at same
  refine ⟨(Except.ok.inj same).symm, ?_⟩
  rw [World.perform, quiet]

theorem gives_releaseOwned {given : Option LeaseRecord} {lease : LeaseRecord}
    (owned : strict → given = none → w.lease.lease = some lease) :
    (solo strict timely).Gives (releaseOwned given lease)
      (fun _ after => ∃ files, after = { w with lease := files }) w := by
  unfold releaseOwned
  split
  · rename_i own
    refine gives_access (fun i asked _ => ⟨(), ?_⟩) fun i _ _ => ?_
    · have stored := owned asked (Option.isNone_iff_eq_none.mp own)
      have held : Lease.requireOwner w.lease lease.credential = .ok lease := by
        simp [Lease.requireOwner, stored, LeaseRecord.credential]
      rw [held]
      rfl
    · rw [World.perform]
      split
      · exact ⟨_, rfl⟩
      · exact ⟨w.lease, rfl⟩
  · exact Gives.pure ⟨w.lease, rfl⟩

def ScansQueue (lease : LeaseRecord) (observedAt : Instant) (w after : World) (again : Bool) :
    Prop :=
  ∃ i queue, after = { w with queue := queue } ∧
    RunNowQueue.recoverExpiredClaimsFromLease (w.queueContext i) lease.credential observedAt
      w.queue = (.ok again, queue)

theorem gives_recoverQueue {given : Option LeaseRecord} {lease : LeaseRecord}
    (returns : ∀ i : Input, strict → timely i.guardNow →
      ∃ again, (RunNowQueue.recoverExpiredClaimsFromLease
        (w.queueContext i) lease.credential observedAt w.queue).1 = .ok again) :
    (solo strict timely).Gives (recoverQueue given lease observedAt)
      (fun again after => ScansQueue lease observedAt w after again) w := by
  have scans : (solo strict timely).Gives
      (QueueAccess.recoverExpiredClaimsFromLease lease.credential observedAt)
      (fun again after => ScansQueue lease observedAt w after again) w := by
    refine gives_access returns fun i again replied => ?_
    exact ⟨i, _, rfl, Prod.ext replied rfl⟩
  refine Ends.attempt_bind scans fun outcome after sure reached => ?_
  cases outcome with
  | ok again => exact Gives.pure (reached again rfl)
  | error fault =>
    have lax : ¬strict := fun asked => by
      obtain ⟨a, impossible⟩ := sure asked
      cases impossible
    dsimp only
    split
    · refine Gives.bind (gives_releaseOwned fun asked => absurd asked lax) fun _ _ _ => ?_
      exact Gives.raise lax
    · exact Gives.raise lax

theorem ends_access {reply : Input → World → Except Fault α} {post : Except Fault α → World → Prop}
    (returns : ∀ i : Input, strict → timely i.guardNow → ∃ a, reply i w = .ok a)
    (faulted : ∀ fault, post (.error fault) w) (holds : ∀ i, post (reply i w) (w.perform i command))
    (plain : command.isStep = false) : (solo strict timely).Ends (access command reply) post w := by
  refine Ends.request fun i allowed => ?_
  cases failed : i.fault with
  | some fault =>
    have kept : effect command i w = w := effect_faulted failed w fun _ _ _ same => by
      simp [same, Command.isStep] at plain
    refine ⟨fun asked => ?_, ?_⟩
    · have faultless := (allowed asked).1
      rw [failed] at faultless
      cases faultless
    · exact (congrArg (post (.error fault)) kept).mpr (faulted fault)
  | none =>
    refine ⟨fun asked => returns i asked (allowed asked).2, ?_⟩
    exact (congrArg (post (reply i w)) (effect_faultless failed w)).mpr (holds i)

theorem ends_still {reply : Input → World → Except Fault α} (quiet : ∀ i, w.perform i command = w)
    (plain : command.isStep = false)
    (returns : ∀ i : Input, strict → timely i.guardNow → ∃ a, reply i w = .ok a) :
    (solo strict timely).Ends (access command reply) (fun _ after => after = w) w :=
  ends_access returns (fun _ => rfl) quiet plain

theorem ends_read {look : World → Except Fault α} (returns : strict → ∃ a, look w = .ok a) :
    (solo strict timely).Ends (read look)
      (fun outcome after => after = w ∧ ∀ a, outcome = .ok a → look w = .ok a) w :=
  ends_access (fun _ asked _ => returns asked)
    (fun _ => ⟨rfl, fun _ impossible => by cases impossible⟩)
    (fun _ => ⟨rfl, fun _ same => same⟩) rfl

/-- When an export of `op` ends, the record is saved last. -/
def Exports (w : World) (op : Operation) (outcome : Except Fault Unit) (after : World) : Prop :=
  ∃ receipts, w.receipts.keys ⊆ receipts.keys ∧ match outcome with
    | .ok _ => op.id ∈ receipts.keys ∧
      after = ({ w with receipts := receipts } : World).put op.projectedMarker.stored
    | .error _ => after = { w with receipts := receipts }

def Wrote (w written : World) : Except Fault α → World → Prop
  | .ok _, last => last = written
  | .error _, last => last = w

theorem ends_exportReceipt (found : w.operations.get op.id = some op)
    (planned : strict → ∃ plan, w.plans.get op.id = some plan) :
    (solo strict timely).Ends (exportReceipt op.id) (Exports w op) w := by
  have stop : ∀ fault after, after = w → Exports w op (.error fault) after := by
    rintro fault after rfl
    exact ⟨after.receipts, List.Subset.refl _, rfl⟩
  have loaded : w.loadOperation op.id = .ok op := by rw [World.loadOperation, found]
  refine Ends.bind (ends_read fun _ => ⟨op, loaded⟩)
    (fun fault after reached => stop fault after reached.1) ?_
  rintro here after ⟨rfl, same⟩
  have same : here = op := Except.ok.inj ((same here rfl).symm.trans loaded)
  subst same
  have plans : strict → ∃ plan, after.loadPlan here.id = .ok plan := fun asked => by
    obtain ⟨plan, stored⟩ := planned asked
    exact ⟨plan, by rw [World.loadPlan, stored]⟩
  refine Ends.bind (ends_read plans) (fun fault last reached => stop fault last reached.1) ?_
  rintro plan last ⟨rfl, -⟩
  refine Ends.bind (ends_still (fun _ => rfl) rfl fun _ _ _ => ⟨(), rfl⟩) stop ?_
  rintro _ after rfl
  -- from here on the receipt may be stored
  have halfway : ∀ fault last, last = { after with receipts := after.receipts.set here.id here } →
      Exports after here (.error fault) last := by
    rintro fault last rfl
    exact ⟨_, Dict.keys_subset_set _ _ _, rfl⟩
  have receipted : (solo strict timely).Ends
      (access (.saveReceipt here) fun _ _ => .ok ())
      (Wrote after { after with receipts := after.receipts.set here.id here }) after :=
    ends_access (fun _ _ _ => ⟨(), rfl⟩) (fun _ => rfl) (fun _ => rfl) rfl
  refine Ends.bind receipted stop ?_
  rintro _ last rfl
  refine Ends.bind (ends_still (fun _ => rfl) rfl fun _ _ _ => ⟨(), rfl⟩) halfway ?_
  rintro _ last rfl
  refine Ends.bind (ends_still (fun _ => rfl) rfl fun _ _ _ => ⟨(), rfl⟩) halfway ?_
  rintro _ last rfl
  have saved := @saveOperation_ok { after with receipts := after.receipts.set here.id here } here
    here.projectedMarker found rfl
  have saves : (solo strict timely).Ends (saveOperation here.projectedMarker)
      (Wrote { after with receipts := after.receipts.set here.id here }
        (({ after with receipts := after.receipts.set here.id here } : World).put
          here.projectedMarker.stored))
      { after with receipts := after.receipts.set here.id here } := by
    refine ends_access (fun _ _ _ => ⟨_, congrArg Prod.fst saved⟩) (fun _ => rfl)
      (fun i => ?_) rfl
    rw [saved]
    exact congrArg Prod.snd saved
  refine Ends.bind saves halfway ?_
  rintro _ last rfl
  refine ⟨fun _ => ⟨(), rfl⟩, _, Dict.keys_subset_set _ _ _, ?_, rfl⟩
  exact Dict.mem_keys_set _ _ _

def Noted (op now : Operation) : Prop :=
  ∃ revision projection blocker,
    now = { op with revision := revision, projection := projection, recoveryBlocker := blocker } ∧
      (op.recoveryBlocker.isSome = true → blocker.isSome = true)

theorem Noted.refl (op : Operation) : Noted op op := ⟨_, _, _, rfl, id⟩

theorem Noted.trans {a b c : Operation} (first : Noted a b) (second : Noted b c) : Noted a c := by
  obtain ⟨revision, projection, blocker, rfl, kept⟩ := first
  obtain ⟨revision', projection', blocker', rfl, kept'⟩ := second
  exact ⟨revision', projection', blocker', rfl, fun here => kept' (kept here)⟩

theorem needsReceipt_noted (noted : Noted op now) (receipts : w.receipts.keys ⊆ after.receipts.keys)
    (satisfied : w.needsReceipt op = false) : after.needsReceipt now = false := by
  obtain ⟨revision, projection, blocker, rfl, kept⟩ := noted
  simp only [World.needsReceipt, Bool.and_eq_false_iff, Dict.isNone_get_eq_false_iff]
    at satisfied ⊢
  rcases satisfied with (open_ | known) | blocked
  · exact .inl (.inl open_)
  · exact .inl (.inr (receipts known))
  · refine .inr ?_
    have some_blocker : op.recoveryBlocker.isSome = true := by
      cases here : op.recoveryBlocker <;> simp_all
    have := kept some_blocker
    cases blocker <;> simp_all

structure Notes (w : World) (op now : Operation) (after : World) : Prop where
  frame : ∃ operations receipts,
    after = { w with operations := operations, receipts := receipts }
  receipts : w.receipts.keys ⊆ after.receipts.keys
  others : ∀ {id}, id ≠ op.id → after.operations.get id = w.operations.get id
  stored : after.operations.get op.id = some now
  noted : Noted op now

theorem notes_put {receipts : Dict String Operation} (grown : w.receipts.keys ⊆ receipts.keys)
    (noted : Noted op now) :
    Notes w op now (({ w with receipts := receipts } : World).put now) := by
  have same : now.id = op.id := by
    obtain ⟨_, _, _, rfl, -⟩ := noted
    rfl
  refine ⟨⟨_, _, rfl⟩, grown, fun {id} other => ?_, ?_, noted⟩
  · exact Dict.get_set_ne _ _ (same ▸ other)
  · rw [← same]
    exact Dict.get_set_self _ _ _

theorem noted_projectedMarker (op : Operation) : Noted op op.projectedMarker.stored :=
  ⟨_, _, _, rfl, id⟩

theorem gives_exportReceipt (found : w.operations.get op.id = some op)
    (planned : strict → ∃ plan, w.plans.get op.id = some plan) :
    (solo strict timely).Gives (exportReceipt op.id) (fun _ after =>
      Notes w op op.projectedMarker.stored after ∧ op.id ∈ after.receipts.keys) w := by
  refine (ends_exportReceipt found planned).mono ?_
  rintro outcome after ⟨receipts, grown, reached⟩ a rfl
  obtain ⟨listed, rfl⟩ := reached
  exact ⟨notes_put grown (noted_projectedMarker op), listed⟩

def Satisfies (w : World) (op : Operation) (after : World) : Prop :=
  ∃ now, Notes w op now after ∧ after.needsReceipt now = false

theorem gives_recordReceiptBlocker {receipts : Dict String Operation}
    (found : w.operations.get op.id = some op) (grown : w.receipts.keys ⊆ receipts.keys) :
    (solo strict timely).Gives (recordReceiptBlocker op reason) (fun status after =>
      status = .recoveryBlocker ∧ Satisfies w op after) { w with receipts := receipts } := by
  have level : op.revision = { op with recoveryBlocker := some reason }.revision := rfl
  refine gives_saveOperation found level (Gives.pure ⟨rfl, ?_⟩)
  refine ⟨_, notes_put grown ⟨_, _, some reason, rfl, fun _ => rfl⟩, ?_⟩
  simp [World.needsReceipt, Operation.stored]

theorem gives_orBlocker {body : Program ReceiptStatus} {post : ReceiptStatus → World → Prop}
    {start : World} (found : start.operations.get op.id = some op)
    (runs : (solo strict timely).Ends body (fun outcome after =>
      match outcome with | .ok status => post status after | .error _ => ∃ receipts,
      start.receipts.keys ⊆ receipts.keys ∧ after = { start with receipts := receipts }) w)
    (blocked : ∀ after, Satisfies start op after → post .recoveryBlocker after) :
    (solo strict timely).Gives (orBlocker op reason body) post w := by
  refine Ends.attempt_bind runs fun outcome after sure reached => ?_
  cases outcome with
  | ok status => exact Gives.pure reached
  | error fault =>
    have lax : ¬strict := fun asked => by
      obtain ⟨a, impossible⟩ := sure asked
      cases impossible
    obtain ⟨receipts, grown, rfl⟩ := reached
    dsimp only
    split
    · refine (gives_recordReceiptBlocker found grown).mono ?_
      rintro status last ⟨rfl, satisfies⟩
      exact blocked last satisfies
    · exact Gives.raise lax

theorem gives_ensureTerminalReceipt (found : w.operations.get op.id = some op)
    (planned : strict → ∃ plan, w.plans.get op.id = some plan) :
    (solo strict timely).Gives (ensureTerminalReceipt op.id)
      (fun _ after => Satisfies w op after) w := by
  refine gives_loadOperation found (gives_look ?_)
  by_cases needed : w.needsReceipt op = true
  · rw [needed]
    have plans : (solo strict timely).Gives
        (orBlocker op "plan_missing" do
          let _ ← loadPlan op.id
          pure .alreadySatisfied)
        (fun status after => (status = .recoveryBlocker ∧ Satisfies w op after) ∨
          (status = .alreadySatisfied ∧ after = w)) w := by
      refine gives_orBlocker found ?_ fun after satisfies => .inl ⟨rfl, satisfies⟩
      have loads : strict → ∃ plan, w.loadPlan op.id = .ok plan := fun asked => by
        obtain ⟨plan, stored⟩ := planned asked
        exact ⟨plan, by rw [World.loadPlan, stored]⟩
      refine Ends.bind (ends_read loads) ?_ ?_
      · rintro fault after ⟨rfl, -⟩
        exact ⟨_, List.Subset.refl _, rfl⟩
      · rintro plan after ⟨rfl, -⟩
        exact ⟨fun _ => ⟨_, rfl⟩, .inr ⟨rfl, rfl⟩⟩
    refine Gives.bind plans ?_
    rintro status after (⟨rfl, satisfies⟩ | ⟨rfl, rfl⟩)
    · exact Gives.pure satisfies
    · refine gives_orBlocker found ?_ fun last satisfies => satisfies
      refine Ends.bind (ends_exportReceipt found planned) ?_ ?_
      · rintro fault last ⟨receipts, grown, reached⟩
        exact ⟨receipts, grown, reached⟩
      · rintro _ last ⟨receipts, grown, listed, rfl⟩
        refine ⟨fun _ => ⟨_, rfl⟩, _, notes_put grown (noted_projectedMarker op), ?_⟩
        simp only [World.needsReceipt, World.put, Operation.stored, Operation.projectedMarker,
          Dict.isNone_get_eq_false_iff.mpr listed, Bool.and_false, Bool.false_and]
  · rw [Bool.not_eq_true] at needed
    rw [needed]
    refine Gives.pure ⟨op, ⟨⟨_, _, rfl⟩, List.Subset.refl _, fun _ => rfl, found, .refl op⟩, ?_⟩
    exact needed

/-- `done` is what holds of the operations behind. -/
structure Noting (done : World → Operation → Prop) (start : World) (rest : List Operation)
    (w : World) : Prop extends
    Walking (fun op now => Noted op now ∧ done w now) start rest w where
  frame : ∃ operations receipts, w = { start with operations := operations, receipts := receipts }
  receipts : start.receipts.keys ⊆ w.receipts.keys

section Noting

variable {done : World → Operation → Prop} {op : Operation} {rest : List Operation}

theorem Noting.skip (filed : Filed strict start) (walk : Noting done start (op :: rest) w)
    (settled : done w op) : Noting done start rest w :=
  ⟨walk.toWalking.skip filed ⟨.refl op, settled⟩, walk.frame, walk.receipts⟩

theorem Noting.step {now : Operation} {after : World} (filed : Filed strict start)
    (grows : ∀ {w after : World} {op}, w.receipts.keys ⊆ after.receipts.keys → done w op →
      done after op)
    (walk : Noting done start (op :: rest) w) (notes : Notes w op now after)
    (settled : done after now) : Noting done start rest after := by
  refine ⟨walk.toWalking.step filed (fun before => ⟨before.1, grows notes.receipts before.2⟩)
    notes.others notes.stored ⟨notes.noted, settled⟩, ?_,
    fun _ member => notes.receipts (walk.receipts member)⟩
  obtain ⟨operations, receipts, rfl⟩ := walk.frame
  obtain ⟨operations', receipts', rfl⟩ := notes.frame
  exact ⟨_, _, rfl⟩

theorem Noting.planned (filed : Filed strict start) (walk : Noting done start (op :: rest) w)
    (asked : strict) : ∃ plan, w.plans.get op.id = some plan := by
  obtain ⟨operations, receipts, rfl⟩ := walk.frame
  exact filed.planned asked (walk.listed op List.mem_cons_self)

end Noting

def Receipted (w : World) (op : Operation) : Prop := w.needsReceipt op = false

theorem Receipted.grows (receipts : w.receipts.keys ⊆ after.receipts.keys)
    (satisfied : Receipted w op) :
    Receipted after op :=
  needsReceipt_noted (.refl op) receipts satisfied

theorem gives_repairReceipt {rest : List Operation} (filed : Filed strict start)
    (walk : Noting Receipted start (op :: rest) w) : (solo strict timely).Gives (repairReceipt op)
      (fun _ after => Noting Receipted start rest after) w := by
  refine gives_look ?_
  split
  · have here := walk.ahead op List.mem_cons_self
    refine Gives.bind (gives_ensureTerminalReceipt here (walk.planned filed)) ?_
    rintro status after ⟨now, notes, satisfied⟩
    exact Gives.pure (walk.step filed Receipted.grows notes satisfied)
  · rename_i unneeded
    refine Gives.pure (walk.skip filed ?_)
    simpa [Receipted] using unneeded

theorem Noting.begin_listed (filed : Filed strict w) : Noting Receipted w w.listOperations w :=
  ⟨.begin filed (List.Sublist.refl _) fun _ member outside => absurd member outside,
    ⟨_, _, rfl⟩, List.Subset.refl _⟩

theorem gives_repairTerminalReceipts (filed : Filed strict w) :
    (solo strict timely).Gives repairTerminalReceipts
      (fun _ after => Noting Receipted w [] after) w := by
  refine gives_look ?_
  have each : (solo strict timely).Gives (Prog.forEach w.listOperations repairReceipt)
      (fun _ after => Noting Receipted w [] after) w :=
    Gives.forEach (fun rest _ after => Noting Receipted w rest after)
      (fun _ _ _ _ walk => gives_repairReceipt filed walk) (.begin_listed filed)
  exact Gives.bind each fun _ _ walk => Gives.pure walk

theorem gives_repairTerminalReceipts_none
    (satisfied : ∀ {id op}, w.operations.get id = some op → Receipted w op) :
    (solo strict timely).Gives repairTerminalReceipts
      (fun results after => results = ([], []) ∧ after = w) w := by
  refine gives_look ?_
  have each : (solo strict timely).Gives (Prog.forEach w.listOperations repairReceipt)
      (fun results after => results = [] ∧ after = w) w := by
    refine Gives.forEach_none fun op member => gives_look ?_
    obtain ⟨id, found⟩ := mem_listOperations.mp member
    have unneeded : w.needsReceipt op = false := satisfied found
    rw [unneeded]
    exact Gives.pure ⟨rfl, rfl⟩
  refine Gives.bind each ?_
  rintro results after ⟨rfl, rfl⟩
  exact Gives.pure ⟨rfl, rfl⟩

def Projected (_ : World) (op : Operation) : Prop :=
  op.state.isTerminalReceipt = true → World.isProjectionPending op = false

theorem projected_projectedMarker (op : Operation) :
    Projected w op.projectedMarker.stored := by
  intro _
  unfold World.isProjectionPending Operation.projectedMarker Operation.stored
  cases op.projection <;> rfl

theorem mem_pending : op ∈ w.listPendingProjectionOperations ↔
      op ∈ w.listOperations ∧ World.isProjectionPending op = true := by
  rw [World.listPendingProjectionOperations, List.mem_filter]

def project (op : Operation) : Program (Option String) := do
  if op.state.isTerminalReceipt then
    exportReceipt op.id
    pure (some op.id)
  else pure none

theorem gives_project {rest : List Operation} (filed : Filed strict start)
    (walk : Noting Projected start (op :: rest) w) : (solo strict timely).Gives (project op)
      (fun _ after => Noting Projected start rest after) w := by
  have here := walk.ahead op List.mem_cons_self
  unfold project
  split
  · refine Gives.bind (gives_exportReceipt here (walk.planned filed)) ?_
    rintro _ last ⟨notes, -⟩
    exact Gives.pure (walk.step filed (fun _ settled => settled) notes
      (projected_projectedMarker op))
  · rename_i open_
    exact Gives.pure (walk.skip filed fun ended => absurd ended open_)

theorem Noting.begin_pending (filed : Filed strict w) :
    Noting Projected w w.listPendingProjectionOperations w := by
  refine ⟨.begin filed List.filter_sublist fun op listed outside => ⟨.refl op, fun _ => ?_⟩,
    ⟨_, _, rfl⟩, List.Subset.refl _⟩
  simpa [mem_pending, listed] using outside

theorem gives_reconcilePendingProjections (filed : Filed strict w) :
    (solo strict timely).Gives reconcilePendingProjections
      (fun _ after => Noting Projected w [] after) w := by
  refine gives_look ?_
  have each : (solo strict timely).Gives (Prog.forEach w.listPendingProjectionOperations project)
      (fun _ after => Noting Projected w [] after) w :=
    Gives.forEach (fun rest _ after => Noting Projected w rest after)
      (fun _ _ _ _ walk => gives_project filed walk) (.begin_pending filed)
  exact Gives.bind each fun _ _ walk => Gives.pure walk

theorem gives_reconcilePendingProjections_none
    (projected : ∀ {id op}, w.operations.get id = some op → Projected w op) :
    (solo strict timely).Gives reconcilePendingProjections
      (fun results after => results.1 = [] ∧ after = w) w := by
  refine gives_look ?_
  have each : (solo strict timely).Gives (Prog.forEach w.listPendingProjectionOperations project)
      (fun ids after => ids = [] ∧ after = w) w := by
    refine Gives.forEach_none fun op member => ?_
    obtain ⟨listed, pending⟩ := mem_pending.mp member
    obtain ⟨id, found⟩ := mem_listOperations.mp listed
    unfold project
    split
    · rename_i ended
      rw [projected found ended] at pending
      cases pending
    · exact Gives.pure ⟨rfl, rfl⟩
  refine Gives.bind each ?_
  rintro ids after ⟨rfl, rfl⟩
  exact Gives.pure ⟨rfl, rfl⟩

end Phases

end RExecOp.Recovery
