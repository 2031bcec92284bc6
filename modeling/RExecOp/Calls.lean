import RExecOp.Steps

/-! Admission, the controller's calls and startup recovery keep a regime. -/

namespace RExecOp

open Controller Coordinator
open Lease (LeaseRecord Credential)
open RunNowQueue (Claim Reason)

variable {id reason : String} {op : Operation} {w : World} {lease : LeaseRecord}
  {claim : Option Claim} {selection : Option Selection} {fuel : Nat}
  {target : OperationState} {observedAt : Lease.Instant} {given : Option LeaseRecord} {T : Terms}

namespace Regime

open Stage Terms

variable {T : Terms} {R : Regime T} {α : Type} {w : World}

theorem kept_queueCall {call : QueueCall} {reply : Input → World → Except Fault α}
    (inv : R.inv w)
    (legal : ∀ found, R.inv found → Later w found → Legal R.grounds found (.queue call)) :
    R.Keeps (access (.queue call) reply) w :=
  kept_legal inv rfl legal

def resting (R : Regime T) (id : String) : Stage T :=
  R.stage (fun w => R.grounds.undisturbed → w.Inactive id) fun paused consistent inactive grounds =>
    inactive_pause consistent (inactive grounds) paused

theorem kept_queueCallResting {call : QueueCall} {reply : Input → World → Except Fault α}
    (inv : (R.resting id).inv w) (legal : ∀ found, Legal R.grounds found (.queue call)) :
    R.Kept (access (.queue call) reply)
      (fun _ after => R.grounds.undisturbed → after.Inactive id) w :=
  kept_accessFrom (V := R.resting id) And.left inv rfl (fun _ found _ _ _ => legal found)
    fun _ _ _ kept _ _ _ => kept.2

def owning (R : Regime T) (op : Operation) : Stage T :=
  R.stage (fun w => usesTargetLock op = true → w.HoldsLock op) fun paused _ holds uses =>
    holdsLock_congr (pause_locks _ paused) (holds uses)

theorem kept_position (inv : R.inv w) : R.Keeps (QueueAccess.position id) w :=
  kept_read inv fun _ _ _ _ _ => trivial

end Regime

namespace Stage

variable {T : Terms} {R : Stage T} {w : World}

theorem kept_checkMaintenanceWindow (inv : R.inv w) :
    R.Keeps (checkMaintenanceWindow op) w := by
  unfold checkMaintenanceWindow
  split
  · exact kept_ask inv
  · exact kept_pure inv trivial

theorem kept_assessForExecution (inv : R.inv w) :
    R.Keeps (assessForExecution op) w := by
  unfold assessForExecution
  split
  · exact kept_pure inv trivial
  · have held : R.Keeps (if op.runtimePolicy.targetLockEnabled then
        read fun w => .ok (targetHeldByOther op w) else pure false) w := by
      split
      · exact kept_read inv fun _ _ _ _ _ => trivial
      · exact kept_pure inv trivial
    refine kept_bind held fun held w₁ inv _ _ => ?_
    split
    · exact kept_pure inv trivial
    · refine kept_bind (kept_read inv fun _ _ _ _ _ => trivial) fun active w₂ inv _ _ => ?_
      split
      · exact kept_pure inv trivial
      · exact kept_pure inv trivial

end Stage

theorem acquireLock_holds (acquired : (w.acquireLock op.environment op.target op.id).1 = true) :
    (w.acquireLock op.environment op.target op.id).2.HoldsLock op := by
  let record : LockRecord := ⟨op.id, op.environment, op.target⟩
  have taken : ({ w with
      locks := w.locks.set (World.lockFilename op.environment op.target) record }).HoldsLock op :=
    ⟨record, Dict.get_set_self _ _ _, rfl⟩
  unfold World.acquireLock at acquired ⊢
  dsimp only at acquired ⊢
  split
  · rename_i existing here
    rw [here] at acquired
    dsimp only at acquired
    split
    · exact taken
    · rename_i alive
      rw [if_neg alive] at acquired
      exact ⟨existing, here, by simpa using acquired⟩
  · exact taken

theorem secured_of_holds (known : Known w op)
    (holds : usesTargetLock op = true → w.HoldsLock op) (s : OperationState) :
    w.Secured op.id s := by
  intro now found _ uses
  obtain ⟨stored, here, follows⟩ := known
  have same : stored = now := Option.some.inj (here.symm.trans found)
  subst same
  rw [usesTargetLock_congr follows.binding] at uses
  exact holdsLock_binding follows.binding (holds uses)

namespace Regime

open Stage Terms

variable {T : Terms} {R : Regime T} {α : Type} {w : World}

theorem kept_acquirePrecheckedTarget (inv : R.inv w) (known : Known w op) :
    R.Kept (acquirePrecheckedTarget op) (fun acquired after => acquired = true →
      usesTargetLock op = true → after.HoldsLock op) w := by
  unfold acquirePrecheckedTarget
  split
  · rename_i uses
    refine kept_access inv rfl (fun i found _ later _ => ?_) fun i found acquired _ _ _ replied =>
      ?_
    · obtain ⟨now, here, follows⟩ := known.later later
      refine ⟨now, here, follows.binding.environment, follows.binding.target, ?_⟩
      rw [usesTargetLock_congr follows.binding]
      exact uses
    · rintro rfl -
      exact acquireLock_holds (Except.ok.inj replied)
  · rename_i free
    exact kept_pure inv fun _ uses => absurd uses free

theorem kept_releaseTargetOnly (inv : (R.resting op.id).inv w) :
    R.Keeps (releaseTargetOnly op) w := by
  unfold releaseTargetOnly
  split
  · exact kept_accessFrom (V := R.resting op.id) And.left inv rfl
      (fun _ _ kept _ _ => kept.2) fun _ _ _ _ _ _ _ => trivial
  · exact kept_pure inv.1 trivial

theorem kept_persistPrecheckedAdmission (inv : (R.owning op).inv w) (known : Known w op) :
    R.Kept (persistPrecheckedAdmission op) (fun _ after =>
      usesTargetLock op = true → after.HoldsLock op) w := by
  have plain : PlainSave op { op with queueNote := none } := .of_core rfl
  have saves := @kept_saveFrom T R w .plain (R.owning op) op { op with queueNote := none } And.left
    inv known fun found _ => plain.legal found
  refine kept_bind saves fun _ after inv _ done => ?_
  obtain ⟨found, kept, rfl⟩ := done.2
  exact kept_pure inv fun uses => kept.2 uses

theorem kept_markQueued {reason : Reason} (inv : R.inv w) (known : Known w op) :
    R.Keeps (markQueued op reason) w := by
  have enqueues : R.Keeps (QueueAccess.enqueue op.id) w := by
    refine kept_queueCall inv fun found _ later => ?_
    obtain ⟨now, here, -⟩ := known.later later
    exact ⟨now, here⟩
  refine kept_bind enqueues fun position w₁ inv later₁ _ => ?_
  exact kept_bind (kept_saveNote inv (known.later later₁) rfl) fun _ _ inv _ _ =>
    kept_pure inv trivial

theorem kept_deferOrEnqueue {reason : Reason} (inv : R.inv w) (known : Known w op) :
    R.Keeps (deferOrEnqueue op lease claim reason) w := by
  cases claim with
  | none => exact kept_markQueued inv known
  | some snapshot =>
    refine kept_bind (kept_queueCall inv fun _ _ _ => trivial) fun _ w₁ inv later₁ _ => ?_
    refine kept_bind (kept_position inv) fun position w₂ inv later₂ _ => ?_
    cases position with
    | none => exact kept_raise inv
    | some position =>
      exact kept_bind (kept_saveNote inv (known.later (later₁.trans later₂)) rfl)
        fun _ _ inv _ _ => kept_pure inv trivial

theorem kept_admitAssessed (inv : R.inv w) (known : Known w op) :
    R.Kept (admitAssessed op) (fun admitted after => admitted = true →
      usesTargetLock op = true → after.HoldsLock op) w := by
  unfold admitAssessed
  split
  · rename_i reads
    refine kept_pure inv fun _ uses => ?_
    rw [usesTargetLock, Bool.and_eq_true] at uses
    simp [uses.1] at reads
  · refine kept_bind (kept_acquirePrecheckedTarget inv known) fun acquired w₁ inv later₁ holds => ?_
    have known := known.later later₁
    split
    · rename_i got
      exact kept_bind (kept_persistPrecheckedAdmission ⟨inv, holds got⟩ known)
        fun _ _ inv _ holds => kept_pure inv fun _ => holds
    · exact kept_bind (kept_markQueued inv known) fun _ _ inv _ _ =>
        kept_pure inv fun impossible => by cases impossible

theorem kept_admitForExecution (inv : R.inv w) (known : Known w op) :
    R.Kept (admitForExecution op) (fun admitted after => admitted = true →
      usesTargetLock op = true → after.HoldsLock op) w := by
  refine kept_bind (kept_read inv fun _ _ _ _ _ => trivial) fun waiting w₁ inv later₁ _ => ?_
  split
  · exact kept_pure inv fun impossible => by cases impossible
  · refine kept_bind (kept_assessForExecution inv) fun reason w₂ inv later₂ _ => ?_
    have known := known.later (later₁.trans later₂)
    cases reason with
    | none => exact kept_admitAssessed inv known
    | some reason =>
      exact kept_bind (kept_markQueued inv known) fun _ _ inv _ _ =>
        kept_pure inv fun impossible => by cases impossible

theorem kept_selected (inv : R.inv w) : R.Keeps (selected op lease selection) w := by
  cases selection with
  | none => exact kept_queueCall inv fun _ _ _ => trivial
  | some given => exact kept_pure inv trivial

def Secures (op : Operation) (admission : SnapshotAdmission) (after : World) : Prop :=
  ∀ claim, admission = .admitted claim → after.Secured op.id .approved

theorem kept_admitForController (inv : R.inv w) (known : Known w op) :
    R.Kept (admitForController op lease selection) (Secures op) w := by
  have queued : ∀ {after}, Secures op .queued after := fun _ impossible => by cases impossible
  refine kept_bind (kept_selected inv) fun chosen w₁ inv later₁ _ => ?_
  refine kept_bind (kept_ofExcept inv) fun claim w₂ inv later₂ _ => ?_
  refine kept_bind (kept_assessForExecution inv) fun reason w₃ inv later₃ _ => ?_
  have known := known.later (later₁.trans (later₂.trans later₃))
  cases reason with
  | some reason =>
    exact kept_bind (kept_deferOrEnqueue inv known) fun _ _ inv _ _ => kept_pure inv queued
  | none =>
    refine kept_bind (kept_acquirePrecheckedTarget inv known) fun acquired w₄ inv later₄ holds => ?_
    have known := known.later later₄
    split
    · rename_i got
      refine kept_bind (kept_persistPrecheckedAdmission ⟨inv, holds got⟩ known)
        fun _ w₅ inv later₅ holds => kept_pure inv fun _ _ => ?_
      exact secured_of_holds (known.later later₅) holds .approved
    · exact kept_bind (kept_deferOrEnqueue inv known) fun _ _ inv _ _ => kept_pure inv queued

theorem kept_selectionFromExistingClaim {snapshot : Claim} (inv : R.inv w) :
    R.Keeps (selectionFromExistingClaim id lease snapshot) w :=
  kept_legal inv rfl fun _ _ _ => trivial

theorem kept_releaseRuntimeIfTerminal {targetOnly : Bool} (inv : R.inv w)
    (returned : Returned id op w) :
    R.Keeps (releaseRuntimeIfTerminal op targetOnly) w := by
  unfold releaseRuntimeIfTerminal
  split
  · rename_i ended
    have rests : (R.resting op.id).inv w := ⟨inv, fun _ => returned.named ▸ returned.inactive ended⟩
    split
    · exact kept_releaseTargetOnly rests
    · refine kept_bind (kept_queueCallResting rests fun _ => trivial)
        fun _ _ inv _ inactive => ?_
      exact kept_releaseTargetOnly ⟨inv, inactive⟩
  · exact kept_pure inv trivial

theorem kept_ensureReceipt (inv : R.inv w) : R.Keeps (ensureReceipt id) w :=
  kept_bind (kept_ensureTerminalReceipt inv) fun _ _ inv _ _ => kept_pure inv trivial

theorem kept_completeClaim (inv : R.inv w) :
    R.Keeps (completeClaim id lease claim) w := by
  cases claim with
  | none => exact kept_pure inv trivial
  | some snapshot => exact kept_queueCall inv fun _ _ _ => trivial

theorem kept_cleanUpTerminal (rests : (R.resting op.id).inv w) :
    R.Keeps (cleanUpTerminal lease op selection) w := by
  have chosen : R.Kept (selected op lease selection)
      (fun _ after => R.grounds.undisturbed → after.Inactive op.id) w := by
    cases selection with
    | none => exact kept_queueCallResting rests fun _ => trivial
    | some given => exact kept_pure rests.1 rests.2
  have claimed : R.Kept (claimTerminalForController op lease selection)
      (fun _ after => R.grounds.undisturbed → after.Inactive op.id) w := by
    refine kept_bind chosen fun selection w₁ inv _ inactive => ?_
    refine Upkeep.Kept.ofExcept inv fun _ _ => inactive
  refine kept_bind claimed fun claim w₁ inv _ inactive => ?_
  refine kept_bind (kept_releaseTargetOnly ⟨inv, inactive⟩) fun _ w₂ inv _ _ => ?_
  refine kept_bind (kept_ensureReceipt inv) fun _ w₃ inv _ _ => ?_
  exact kept_completeClaim inv

def reading (R : Regime T) (op : Operation) : Stage T :=
  R.stage (fun w => Held w op) fun id consistent held => held.pause consistent id

theorem reading_of_loaded (inv : R.inv w)
    (loaded : Known w op ∧ op.id = id ∧ w.operations.get id = some op) : (R.reading op).inv w := by
  refine ⟨inv, .inl ?_⟩
  rw [loaded.2.1]
  exact loaded.2.2

theorem kept_admitApproved (inv : (R.reading op).inv w) (known : Known w op) :
    R.Kept (admitApproved lease op selection) (Secures op) w := by
  unfold admitApproved
  split
  · refine kept_bind (kept_checkMaintenanceWindow inv.1) fun _ w₁ inv later₁ _ => ?_
    exact kept_admitForController inv (known.later later₁)
  · rename_i unapproved
    split
    · exact kept_raise inv.1
    · refine kept_pure inv.1 fun _ _ now found approved => ?_
      rcases inv.2 with kept | paused
      · have same : op = now := Option.some.inj (kept.symm.trans found)
        exact absurd (same ▸ approved) unapproved
      · have same : op.pausing.stored = now := Option.some.inj (paused.symm.trans found)
        rw [← same] at approved
        cases approved

theorem isTerminalRecovery_of_isTerminalReceipt {s : OperationState}
    (ended : s.isTerminalReceipt = true) : s.isTerminalRecovery = true := by
  cases s <;> simp_all [OperationState.isTerminalReceipt, OperationState.isTerminalRecovery]

theorem kept_startOperation (runs : R.RunsSteps) (inv : R.inv w) :
    R.Keeps (startOperation fuel lease id selection) w := by
  refine kept_bind (kept_loadOperation inv) fun op w₁ inv _ loaded => ?_
  split
  · rename_i ended
    have returned := Returned.of_stored loaded.2.1 loaded.2.2
    have inactive := returned.inactive (isTerminalRecovery_of_isTerminalReceipt ended)
    have rests : (R.resting op.id).inv w₁ := ⟨inv, fun _ => loaded.2.1 ▸ inactive⟩
    exact kept_bind (kept_cleanUpTerminal rests) fun _ _ inv _ _ => kept_pure inv trivial
  · let V := R.reading op
    have held : V.inv w₁ := reading_of_loaded inv loaded
    refine kept_bind (kept_within V And.left (kept_preflightRollbackAuthority held))
      fun plan w₂ _ later₂ held => ?_
    refine kept_bind (kept_within V And.left (kept_requireMutationExecutionEnabled held.2))
      fun _ w₃ _ later₃ held => ?_
    refine kept_bind (kept_within V And.left (kept_verifyCatalogBinding held.2))
      fun _ w₄ _ later₄ held => ?_
    have known := loaded.1.later (later₂.trans (later₃.trans later₄))
    refine kept_bind (kept_admitApproved held.2 known) fun admission w₅ inv _ secures => ?_
    cases admission with
    | queued => exact kept_pure inv trivial
    | admitted claim =>
      have ready : (R.ready id).inv w₅ := ⟨inv, loaded.2.1 ▸ secures claim rfl⟩
      refine kept_bind (kept_orchestratorStart runs ready) fun result w₆ inv _ returned => ?_
      refine kept_bind (kept_releaseRuntimeIfTerminal inv returned) fun _ w₇ inv _ _ => ?_
      refine kept_bind (kept_ensureReceipt inv) fun _ w₈ inv _ _ => ?_
      exact kept_bind (kept_completeClaim inv) fun _ _ inv _ _ => kept_pure inv trivial

theorem kept_preflightClaimed {candidate : Operation} {claim : Claim} (inv : R.inv w)
    (known : Known w candidate) :
    R.Keeps (preflightClaimed lease candidate claim) w := by
  unfold preflightClaimed
  split
  · refine kept_bind (kept_attempt (kept_preflightRollbackAuthority inv))
      fun outcome w₁ inv later₁ _ => ?_
    cases outcome with
    | ok plan => exact kept_pure inv trivial
    | error fault =>
      dsimp only
      split
      · refine kept_bind (kept_queueCall inv fun _ _ _ => trivial) fun _ w₂ inv later₂ _ => ?_
        refine kept_bind (kept_saveNote inv (known.later (later₁.trans later₂)) rfl)
          fun _ _ inv _ _ => ?_
        exact kept_raise inv
      · exact kept_raise inv
  · exact kept_pure inv trivial

theorem kept_drainQueue (runs : R.RunsSteps) (rounds : Nat) (inv : R.inv w) :
    R.Keeps (drainQueue fuel lease rounds) w := by
  induction rounds generalizing w with
  | zero => exact kept_halt (runs.rest inv)
  | succ rounds ih =>
    refine kept_bind (kept_queueCall inv fun _ _ _ => trivial) fun claimed w₁ inv _ _ => ?_
    cases claimed with
    | none => exact kept_pure inv trivial
    | some claim =>
      refine kept_bind (kept_selectionFromExistingClaim inv) fun selection w₂ inv _ _ => ?_
      refine kept_bind (kept_loadOperation inv) fun candidate w₃ inv _ loaded => ?_
      refine kept_bind (kept_preflightClaimed inv loaded.1) fun _ w₄ inv _ _ => ?_
      refine kept_bind (kept_startOperation runs inv) fun _ w₅ inv _ _ => ?_
      refine kept_bind (kept_position inv) fun position w₆ inv _ _ => ?_
      split
      · exact kept_pure inv trivial
      · exact kept_bind (ih inv) fun _ _ inv _ _ => kept_pure inv trivial

theorem kept_drainUnlessQueued (runs : R.RunsSteps) {ran : Bool} (inv : R.inv w) :
    R.Keeps (drainUnlessQueued fuel lease ran) w := by
  unfold drainUnlessQueued
  split
  · exact kept_bind (kept_drainQueue runs fuel inv) fun _ _ inv _ _ => kept_pure inv trivial
  · exact kept_pure inv trivial

theorem kept_reload (inv : R.inv w) : R.Keeps (do
      let _ ← loadOperation id
      pure ()) w :=
  kept_bind (kept_loadOperation inv) fun _ _ inv _ _ => kept_pure inv trivial

theorem leased_start (runs : R.RunsSteps) : R.Leased (start fuel id) := by
  refine ⟨_, _, rfl, fun lease w₁ inv => ?_⟩
  refine kept_bind (kept_startOperation runs inv) fun ran w₂ inv _ _ => ?_
  refine kept_bind (kept_drainUnlessQueued runs inv) fun _ w₃ inv _ _ => ?_
  exact kept_reload inv

theorem leased_processQueue (runs : R.RunsSteps) : R.Leased (processQueue fuel) :=
  ⟨_, _, rfl, fun _ _ inv => kept_drainUnlessQueued runs inv⟩

theorem kept_settleAdvance (runs : R.RunsSteps) {result : Operation} (inv : R.inv w)
    (returned : Returned id result w) :
    R.Keeps (settleAdvance fuel lease result claim) w := by
  unfold settleAdvance
  split
  · rename_i ended
    have inactive := returned.inactive (isTerminalRecovery_of_isTerminalReceipt ended)
    refine kept_bind (kept_releaseTargetOnly ⟨inv, fun _ => returned.named ▸ inactive⟩)
      fun _ w₁ inv _ _ => ?_
    refine kept_bind (kept_ensureReceipt inv) fun _ w₂ inv _ _ => ?_
    refine kept_bind (kept_completeClaim inv) fun _ w₃ inv _ _ => ?_
    exact kept_drainUnlessQueued runs inv
  · exact kept_completeClaim inv

theorem leased_advance (runs : R.RunsSteps) {maxSteps : Int} :
    R.Leased (advance fuel id maxSteps) := by
  refine ⟨_, _, rfl, fun lease w₁ inv => ?_⟩
  refine kept_bind (kept_loadOperation inv) fun op w₂ inv _ loaded => ?_
  let V := R.reading op
  have held : V.inv w₂ := reading_of_loaded inv loaded
  refine kept_bind (kept_within V And.left (kept_preflightRollbackAuthority held))
    fun _ w₃ _ later₃ held => ?_
  refine kept_bind (kept_within V And.left (kept_requireMutationExecutionEnabled held.2))
    fun _ w₄ _ later₄ held => ?_
  refine kept_bind (kept_admitApproved held.2 (loaded.1.later (later₃.trans later₄)))
    fun admission w₅ inv _ secures => ?_
  have settled : R.Keeps (advanceAdmitted fuel id maxSteps lease admission) w₅ := by
    cases admission with
    | queued => exact kept_pure inv trivial
    | admitted claim =>
      have ready : (R.ready id).inv w₅ := ⟨inv, loaded.2.1 ▸ secures claim rfl⟩
      exact kept_bind (kept_orchestratorAdvance runs ready) fun _ _ inv _ returned =>
        kept_settleAdvance runs inv returned
  exact kept_bind settled fun _ _ inv _ _ => kept_reload inv

theorem kept_prepareReadmission (inv : R.inv w) :
    R.Kept (prepareReadmission id) (fun admitted after => admitted = true →
      ∀ s, after.Secured id s) w := by
  refine kept_bind (kept_loadOperation inv) fun op w₁ inv _ loaded => ?_
  refine kept_bind (kept_preflightRollbackAuthority inv) fun _ w₂ inv later₂ _ => ?_
  refine kept_bind (kept_requireMutationExecutionEnabled inv) fun _ w₃ inv later₃ _ => ?_
  have known := loaded.1.later (later₂.trans later₃)
  unfold readmit
  split
  · refine kept_bind (kept_checkMaintenanceWindow inv) fun _ w₄ inv later₄ _ => ?_
    refine kept_mono (kept_admitForExecution inv (known.later later₄))
      fun admitted after _ later₅ holds got s => ?_
    exact loaded.2.1 ▸ secured_of_holds (known.later (later₄.trans later₅)) (holds got) s
  · rename_i reads
    refine kept_pure inv fun _ s => loaded.2.1 ▸ secured_of_holds known (fun uses => ?_) s
    rw [usesTargetLock, Bool.and_eq_true] at uses
    exact absurd uses.1 reads

theorem kept_runReadmitted (runs : R.RunsSteps) {run : Program Operation} {admitted : Bool}
    (inv : R.inv w)
    (kept : admitted = true → R.Kept run (fun result after => Returned id result after) w) :
    R.Keeps (runReadmitted fuel lease id run admitted) w := by
  unfold runReadmitted
  split
  · rename_i got
    refine kept_bind (kept got) fun result w₁ inv _ returned => ?_
    refine kept_bind (kept_releaseRuntimeIfTerminal inv returned) fun _ w₂ inv _ _ => ?_
    refine kept_bind (kept_ensureReceipt inv) fun _ w₃ inv _ _ => ?_
    exact kept_drainUnlessQueued runs inv
  · exact kept_pure inv trivial

theorem leased_resume (runs : R.RunsSteps) : R.Leased (resume fuel id) := by
  refine ⟨_, _, rfl, fun lease w₁ inv => ?_⟩
  refine kept_bind (kept_prepareReadmission inv) fun admitted w₂ inv _ _ => ?_
  exact kept_bind (kept_runReadmitted runs inv fun _ => kept_orchestratorResume runs inv)
    fun _ _ inv _ _ => kept_reload inv

theorem leased_retry (runs : R.RunsSteps) : R.Leased (retry fuel id) := by
  refine ⟨_, _, rfl, fun lease w₁ inv => ?_⟩
  have looks : R.Kept (read fun w => .ok (w.hasIndeterminateSideEffect id))
      (fun found after => found = false → (R.calm id).inv after) w₁ := by
    refine kept_read inv fun after found inv _ same calm => ⟨inv, ?_⟩
    cases same
    exact calm
  refine kept_bind looks fun found w₂ inv _ calm => ?_
  cases found with
  | true => exact kept_bind (kept_require inv) fun _ _ _ _ impossible => by simp at impossible
  | false =>
    refine kept_bind (kept_calm (kept_require (calm rfl))) fun _ w₃ _ _ calm => ?_
    refine kept_bind (kept_calm (kept_prepareReadmission calm.2)) fun admitted w₄ inv _ calm => ?_
    have retries : admitted = true → R.Kept (Orchestrator.retry fuel lease id)
        (fun result after => Returned id result after) w₄ := fun got =>
      kept_orchestratorRetry runs ⟨calm.2, calm.1 got .failed⟩
    exact kept_bind (kept_runReadmitted runs inv retries) fun _ _ inv _ _ => kept_reload inv

theorem leased_cancel (runs : R.RunsSteps) : R.Leased (cancel fuel id) := by
  refine ⟨_, _, rfl, fun lease w₁ inv => ?_⟩
  refine kept_bind (kept_loadOperation inv) fun op w₂ inv _ loaded => ?_
  have cancelled : R.Kept (if op.state = .cancelled then pure op else Orchestrator.cancel id)
      (fun result after => Returned id result after ∧
        result.state.isTerminalRecovery = true) w₂ := by
    split
    · rename_i already
      exact kept_pure inv ⟨.of_stored loaded.2.1 loaded.2.2, by rw [already]; rfl⟩
    · exact kept_orchestratorCancel inv
  refine kept_bind cancelled fun result w₃ inv _ returned => ?_
  have rests : (R.resting result.id).inv w₃ :=
    ⟨inv, fun _ => returned.1.named ▸ returned.1.inactive returned.2⟩
  refine kept_bind (kept_queueCallResting rests fun _ => trivial)
    fun _ w₄ inv _ inactive => ?_
  refine kept_bind (kept_releaseTargetOnly ⟨inv, inactive⟩) fun _ w₅ inv _ _ => ?_
  refine kept_bind (kept_drainUnlessQueued runs inv) fun _ w₆ inv _ _ => ?_
  exact kept_reload inv

theorem kept_escalate (inv : R.inv w) : R.Keeps (escalate id) w :=
  kept_bind (kept_orchestratorEscalate inv) fun _ _ inv _ _ => kept_ensureReceipt inv

theorem kept_existingRollbackOperation {parent : Operation} (inv : R.inv w) :
    R.Keeps (existingRollbackOperation parent) w := by
  refine kept_bind (kept_require inv) fun _ w₁ inv _ _ => ?_
  refine kept_bind (kept_read inv fun _ _ _ _ _ => trivial) fun found w₂ inv _ _ => ?_
  cases found with
  | none => exact kept_pure inv trivial
  | some child =>
    dsimp only
    split
    · exact kept_pure inv trivial
    · exact kept_raise inv

theorem kept_linkRollback {parentId : String} {child : Operation} (inv : R.inv w) :
    R.Keeps (linkRollback parentId child) w := by
  refine kept_bind (kept_loadOperation inv) fun parent w₁ inv _ loaded => ?_
  refine kept_bind (kept_loadPlan inv) fun _ w₂ inv later₂ _ => ?_
  exact kept_bind (kept_saveNote inv (loaded.1.later later₂) rfl) fun _ _ inv _ _ =>
    kept_pure inv trivial

theorem kept_rollback (runs : R.RunsSteps) (leases : R.grounds.leases) (inv : R.inv w) :
    R.Keeps (rollback fuel id) w := by
  refine kept_bind (kept_loadOperation inv) fun parent w₁ inv _ _ => ?_
  refine kept_bind (kept_loadPlan inv) fun parentPlan w₂ inv _ _ => ?_
  have chosen : R.Keeps (rollbackChild parent parentPlan) w₂ := by
    refine kept_bind (kept_existingRollbackOperation inv) fun found w₃ inv _ _ => ?_
    cases found with
    | some child => exact kept_pure inv trivial
    | none => exact kept_prepareRollbackOperation inv
  refine kept_bind chosen fun child w₃ inv _ _ => ?_
  refine kept_bind (kept_linkRollback inv) fun _ w₄ inv _ _ => ?_
  have ran : R.Keeps (runRollbackChild fuel parent.id child) w₄ := by
    unfold runRollbackChild
    split
    · refine kept_bind ((leased_start runs).keeps leases inv) fun _ w₅ inv _ _ => ?_
      exact kept_bind (kept_loadOperation inv) fun _ _ inv _ _ => kept_linkRollback inv
    · exact kept_pure inv trivial
  refine kept_bind ran fun _ w₅ inv _ _ => ?_
  exact kept_bind (kept_loadPlan inv) fun _ _ inv _ _ => kept_pure inv trivial

theorem inactive_of_isLockStale {found : World} (consistent : Consistent found)
    {record : LockRecord} (stale : found.isLockStale record = true) :
    found.Inactive record.operationId := by
  intro op here
  simp only [World.isLockStale, here, Bool.or_eq_true, beq_iff_eq] at stale
  rcases stale with unnamed | released
  · exact absurd unnamed (consistent.named here)
  · cases state : op.state <;> simp_all [OperationState.holdsLock, OperationState.isActive]

theorem kept_releaseStaleLocks (inv : R.inv w) : R.Keeps Recovery.releaseStaleLocks w := by
  refine kept_bind (kept_read inv fun _ _ _ _ _ => trivial) fun files w₁ inv _ _ => ?_
  refine Upkeep.Kept.forEach inv fun file _ after inv _ => ?_
  refine kept_bind (kept_read inv fun _ _ _ _ _ => trivial) fun found w₂ inv _ _ => ?_
  cases found with
  | none => exact kept_pure inv trivial
  | some payload =>
    have looks : R.Kept (read fun w => .ok (Recovery.staleRecord w payload))
        (fun found after => ∀ record, found = some record →
          after.Inactive record.operationId) w₂ := by
      refine kept_read inv fun after found inv _ same record here => ?_
      cases same
      have stale := (Option.filter_eq_some_iff.mp here).2
      exact inactive_of_isLockStale (R.consistent inv) stale
    refine kept_bind looks fun stale w₃ inv _ inactive => ?_
    cases stale with
    | none => exact kept_pure inv trivial
    | some record =>
      have releases : R.Keeps (access (.releaseLock payload.environment payload.target
          record.operationId) fun _ _ => .ok ()) w₃ :=
        kept_accessFrom (V := R.resting record.operationId) And.left
          ⟨inv, fun _ => inactive record rfl⟩ rfl (fun _ _ kept _ _ => kept.2) fun _ _ _ _ _ _ _ =>
            trivial
      exact kept_bind releases fun _ _ inv _ _ => kept_pure inv trivial

theorem plainSave_moved (allowed : target ∈ op.state.allowedTransitions)
    (active : op.state.isActive = true)
    (recovered : (op.moved target reason).isInterrupted = true) :
    PlainSave op (op.moved target reason) where
  evolves := ⟨⟨rfl, rfl, rfl, rfl, rfl⟩, rfl, .inr (.inl allowed), fun _ => rfl,
    fun _ _ => ⟨rfl, rfl⟩⟩
  calm failed := by
    rw [failed] at active
    cases active
  active _ := .inl active
  outboxed _ _ := .interrupted active recovered

theorem kept_transitionOperation (inv : R.inv w) (known : Known w op)
    (active : op.state.isActive = true)
    (recovered : (op.moved target reason).isInterrupted = true) :
    R.Kept (Recovery.transitionOperation op target reason) (fun _ after =>
      after.operations.get op.id = some (op.moved target reason).stored) w := by
  refine kept_bind (kept_ofExcept inv) fun _ w₁ inv later₁ valid => ?_
  refine kept_bind (kept_emit inv) fun _ w₂ inv later₂ _ => ?_
  have allowed := OperationState.validateTransition_ok valid
  exact kept_bind (kept_saveOperation inv (known.later (later₁.trans later₂))
    (plainSave_moved allowed active recovered)) fun _ _ inv _ saved => kept_pure inv saved.stored

def recovering (R : Regime T) (record : Operation) (recovered : record.isInterrupted = true) :
    Stage T where
  inv w := R.inv w ∧ Held w record ∧
    (R.grounds.undisturbed → w.operations.get record.id = some record)
  consistent inv := R.consistent inv.1
  crash inv := R.crash inv.1
  pause {command id w} inv allowed := by
    have consistent := R.consistent inv.1
    refine ⟨R.pause inv.1 allowed, inv.2.1.pause consistent id, fun undisturbed => ?_⟩
    have here := inv.2.2 undisturbed
    rcases pause_cases w consistent id with same | ⟨op, found, running, -, named, saved⟩
    · rw [same]
      exact here
    · by_cases own : record.id = id
      · have same : record = op := Option.some.inj (here.symm.trans (own ▸ found))
        have untouched := R.still undisturbed allowed found running
        rw [← same, recovered] at untouched
        cases untouched
      · rw [pause_get_ne consistent own]
        exact here

structure Resumed (R : Regime T) (op : Operation) (state : OperationState) (next : Operation)
    (after : World) : Prop where
  known : Known after next
  named : next.id = op.id
  active : next.state.isActive = true
  state : R.grounds.undisturbed → next.state = state

theorem isInterrupted_moved
    (recovery : (reason == "interrupted_by_restart" || reason == "interrupted_resume" ||
      reason == "interrupted_retry") = true) :
    (op.moved target reason).isInterrupted = true := by
  simp only [Operation.isInterrupted, Operation.moved, List.getLast?_concat, Option.any_some]
  exact recovery

theorem kept_transitionFrom {state target : OperationState} (inv : R.inv w) (known : Known w op)
    (active : op.state.isActive = true) (activates : target.isActive = true)
    (recovered : (op.moved target reason).isInterrupted = true) :
    R.Kept (Recovery.transitionFrom op state target reason)
      (R.Resumed op (if op.state = state then target else op.state)) w := by
  unfold Recovery.transitionFrom
  split
  · refine kept_bind (kept_transitionOperation inv known active recovered)
      fun _ w₁ inv _ stored => ?_
    let V := R.recovering (op.moved target reason).stored recovered
    have left : V.inv w₁ := ⟨inv, .inl stored, fun _ => stored⟩
    refine kept_mono (kept_within V And.left (kept_loadOperation left)) ?_
    rintro next after _ _ ⟨⟨known, named, found⟩, -, held, unpaused⟩
    refine ⟨known, named, held.isActive found activates, fun undisturbed => ?_⟩
    have same := Option.some.inj (found.symm.trans (unpaused undisturbed))
    rw [same]
    rfl
  · exact kept_pure inv ⟨known, rfl, active, fun _ => rfl⟩

theorem kept_failRunning (inv : R.inv w) (known : Known w op) (active : op.state.isActive = true) :
    R.Kept (Recovery.transitionOperation op .failed "interrupted_by_restart")
      (fun _ after => after.Inactive op.id) w := by
  refine kept_mono (kept_transitionOperation inv known active (isInterrupted_moved rfl)) ?_
  intro _ after _ _ stored other found
  have same := Option.some.inj (stored.symm.trans found)
  rw [← same]
  rfl

theorem kept_failInterrupted (inv : R.inv w) (known : Known w op)
    (active : op.state.isActive = true) :
    R.Kept (Recovery.failInterrupted op) (fun _ after => R.grounds.undisturbed →
      after.Inactive op.id) w := by
  unfold Recovery.failInterrupted
  split
  · exact kept_mono (kept_failRunning inv known active) fun _ _ _ _ inactive _ => inactive
  · rename_i unstarted
    split
    · rename_i waiting
      refine kept_bind (kept_transitionFrom inv known active rfl (isInterrupted_moved rfl))
        fun op₁ w₁ inv _ first => ?_
      refine kept_bind (kept_transitionFrom inv first.known first.active rfl
        (isInterrupted_moved rfl)) fun op₂ w₂ inv _ second => ?_
      refine kept_bind (kept_transitionFrom inv second.known second.active rfl
        (isInterrupted_moved rfl)) fun op₃ w₃ inv _ third => ?_
      have named : op₃.id = op.id := third.named.trans (second.named.trans first.named)
      split
      · refine kept_mono (kept_failRunning inv third.known third.active) ?_
        intro _ after _ _ inactive _
        exact named ▸ inactive
      · rename_i stopped
        refine kept_pure inv fun undisturbed => absurd ?_ stopped
        -- paused, resuming and retrying all lead to running
        rw [third.state undisturbed, second.state undisturbed, first.state undisturbed]
        rcases waiting with state | state | state <;> rw [state] <;> rfl
    · rename_i resting
      cases state : op.state <;> simp_all [OperationState.isActive]

theorem kept_markInterrupted (inv : R.inv w) (known : Known w op)
    (active : op.state.isActive = true) : R.Keeps (Recovery.markInterrupted observedAt op) w := by
  refine kept_bind (kept_failInterrupted inv known active) fun _ w₁ inv _ inactive => ?_
  let V := R.resting op.id
  have rests : V.inv w₁ := ⟨inv, inactive⟩
  refine kept_bind (kept_within V And.left (kept_loadOperation rests)) fun op₁ w₂ _ _ loaded => ?_
  have named : op₁.id = op.id := loaded.1.2.1
  refine kept_bind (kept_releaseTargetOnly (named ▸ loaded.2)) fun _ w₃ inv _ _ => ?_
  refine kept_bind (kept_loadOperation inv) fun op₂ w₄ inv _ loaded => ?_
  exact kept_bind (kept_saveNote inv loaded.1 rfl) fun _ _ inv _ _ => kept_pure inv trivial

theorem kept_interruptOperation (inv : R.inv w) (known : Known w op) :
    R.Keeps (Recovery.interruptOperation observedAt op) w := by
  unfold Recovery.interruptOperation
  split
  · rename_i active
    refine kept_bind (kept_markInterrupted inv known active) fun _ w₁ inv _ _ => ?_
    exact kept_bind (kept_loadOperation inv) fun _ _ inv _ _ => kept_pure inv trivial
  · exact kept_pure inv trivial

theorem kept_interruptActiveOperations (inv : R.inv w) :
    R.Keeps (Recovery.interruptActiveOperations observedAt) w := by
  have lists : R.Kept (read fun w => .ok w.listOperations)
      (fun ops after => ∀ op ∈ ops, Known after op) w := by
    refine kept_read inv fun found ops inv _ same op member => ?_
    cases same
    obtain ⟨id, -, here⟩ := List.mem_filterMap.mp member
    exact (R.consistent inv).known here
  refine kept_bind lists fun ops w₁ inv _ known => ?_
  exact Upkeep.Kept.forEach inv fun op member after inv later =>
    kept_interruptOperation inv ((known op member).later later)

def MarksLost (R : Regime T) : Prop :=
  ∀ {w : World} {operationId attemptId : String}, R.inv w →
    R.Keeps (access (.markIndeterminate operationId attemptId) fun i w =>
      .ok (w.markLost operationId attemptId i).1) w

theorem Plain.marksLost (plain : R.Plain) : R.MarksLost := by
  intro w operationId attemptId inv
  refine kept_of_leads (leads_access inv fun i found inv _ _ => ?_)
  have marked : Later found (found.markLost operationId attemptId i).2 ∧
      R.inv (found.markLost operationId attemptId i).2 := by
    unfold World.markLost
    split
    · rename_i record here
      split
      · obtain ⟨op, stored, executed⟩ := (R.consistent inv).attempted here
        have named : (World.lost record i.now).operationId = operationId :=
          ((R.consistent inv).journaled here).1
        exact ⟨later_putAttempt _ _,
          plain.journal inv (named ▸ stored) executed (by simp [World.lost])⟩
      · exact ⟨.refl found, inv⟩
    · exact ⟨.refl found, inv⟩
  exact .plain (by nofun) trivial (fun _ => ⟨inv, fun _ _ => trivial⟩)
    fun _ => ⟨marked.1, marked.2, fun _ _ => trivial⟩

theorem kept_repairTerminalReceipts (inv : R.inv w) :
    R.Keeps Recovery.repairTerminalReceipts w := by
  refine kept_bind (kept_read inv fun _ _ _ _ _ => trivial) fun ops w₁ inv _ _ => ?_
  have each : R.Keeps (Prog.forEach ops Recovery.repairReceipt) w₁ := by
    refine Upkeep.Kept.forEach inv fun op _ after inv _ => ?_
    refine kept_bind (kept_read inv fun _ _ _ _ _ => trivial) fun needed w₂ inv _ _ => ?_
    split
    · exact kept_bind (kept_ensureTerminalReceipt inv) fun _ _ inv _ _ => kept_pure inv trivial
    · exact kept_pure inv trivial
  exact kept_bind each fun _ _ inv _ _ => kept_pure inv trivial

theorem kept_releaseOwned (leases : R.grounds.leases) (inv : R.inv w) :
    R.Keeps (Recovery.releaseOwned given lease) w := by
  unfold Recovery.releaseOwned
  split
  · exact kept_releaseExecutionLease leases inv
  · exact kept_pure inv trivial

theorem kept_recoverQueue (leases : R.grounds.leases) (inv : R.inv w) :
    R.Keeps (Recovery.recoverQueue given lease observedAt) w := by
  refine kept_bind (kept_attempt (kept_queueCall inv fun _ _ _ => trivial))
    fun outcome w₁ inv _ _ => ?_
  cases outcome with
  | ok recovered => exact kept_pure inv trivial
  | error fault =>
    dsimp only
    split
    · exact kept_bind (kept_releaseOwned leases inv) fun _ _ inv _ _ => kept_raise inv
    · exact kept_raise inv

theorem kept_runStartupRecovery (marks : R.MarksLost) (leases : R.grounds.leases)
    {repairReceipts : Bool} (inv : R.inv w) :
    R.Keeps (Recovery.runStartupRecovery given observedAt repairReceipts) w := by
  have leased : R.Keeps (Recovery.ownedLease given) w := by
    cases given with
    | none => exact kept_acquireExecutionLease leases inv
    | some lease => exact kept_pure inv trivial
  refine kept_bind leased fun lease w₁ inv _ _ => ?_
  refine kept_bind (kept_releaseStaleLocks inv) fun _ w₂ inv _ _ => ?_
  refine kept_bind (kept_interruptActiveOperations inv) fun _ w₃ inv _ _ => ?_
  have marked : R.Keeps Recovery.recoverStartedAttempts w₃ := by
    refine kept_bind (kept_read inv fun _ _ _ _ _ => trivial) fun files w₄ inv _ _ => ?_
    exact Upkeep.Kept.forEach inv fun file _ after inv _ => marks inv
  refine kept_bind marked fun _ w₄ inv _ _ => ?_
  refine kept_bind (kept_recoverQueue leases inv) fun _ w₅ inv _ _ => ?_
  have repaired : R.Keeps
      (if repairReceipts then Recovery.repairTerminalReceipts else pure ([], [])) w₅ := by
    split
    · exact kept_repairTerminalReceipts inv
    · exact kept_pure inv trivial
  refine kept_bind repaired fun _ w₆ inv _ _ => ?_
  refine kept_bind (kept_reconcilePendingProjections inv) fun _ w₇ inv _ _ => ?_
  exact kept_bind (kept_releaseOwned leases inv) fun _ _ inv _ _ => kept_pure inv trivial

end Regime

/-- The calls on one root, with the bound of their loops. -/
inductive Call where
  | plan (request : PlanRequest)
  | approve (id : String)
  | start (fuel : Nat) (id : String)
  | processQueue (fuel : Nat)
  | advance (fuel : Nat) (id : String) (maxSteps : Int)
  | resume (fuel : Nat) (id : String)
  | retry (fuel : Nat) (id : String)
  | cancel (fuel : Nat) (id : String)
  | escalate (id : String)
  | exportReceipt (id : String)
  | rollback (fuel : Nat) (id : String)
  | recover (observedAt : Lease.Instant) (repairReceipts : Bool)

def Call.body : Call → Program Unit
  | .plan request => do
    let _ ← planOperation request
    pure ()
  | .approve id => do
    let _ ← RExecOp.approve id
    pure ()
  | .start fuel id => Controller.start fuel id
  | .processQueue fuel => Controller.processQueue fuel
  | .advance fuel id maxSteps => Controller.advance fuel id maxSteps
  | .resume fuel id => Controller.resume fuel id
  | .retry fuel id => Controller.retry fuel id
  | .cancel fuel id => Controller.cancel fuel id
  | .escalate id => Controller.escalate id
  | .exportReceipt id => RExecOp.exportReceipt id
  | .rollback fuel id => Controller.rollback fuel id
  | .recover observedAt repairReceipts => do
    let _ ← Recovery.runStartupRecovery none observedAt repairReceipts
    pure ()

/-- Startup recovery, as opposed to the calls that run operations. -/
def Call.isRecovery : Call → Bool
  | .recover _ _ => true
  | _ => false

open Stage Regime in
theorem Regime.kept_body {R : Regime T} (runs : R.RunsSteps) (leases : R.grounds.leases)
    (call : Call) (marks : call.isRecovery = true → R.MarksLost) (inv : R.inv w) :
    R.Keeps call.body w := by
  cases call with
  | plan request =>
    exact kept_bind (kept_planOperation inv) fun _ _ inv _ _ => kept_pure inv trivial
  | approve id => exact kept_bind (kept_approve inv) fun _ _ inv _ _ => kept_pure inv trivial
  | start fuel id => exact (leased_start runs).keeps leases inv
  | processQueue fuel => exact (leased_processQueue runs).keeps leases inv
  | advance fuel id maxSteps => exact (leased_advance runs).keeps leases inv
  | resume fuel id => exact (leased_resume runs).keeps leases inv
  | retry fuel id => exact (leased_retry runs).keeps leases inv
  | cancel fuel id => exact (leased_cancel runs).keeps leases inv
  | escalate id => exact kept_escalate inv
  | exportReceipt id => exact kept_exportReceipt inv
  | rollback fuel id => exact kept_rollback runs leases inv
  | recover observedAt repairReceipts =>
    exact kept_bind (kept_runStartupRecovery (marks rfl) leases inv) fun _ _ inv _ _ =>
      kept_pure inv trivial

/-- A root with at most one call in progress; only a pause does without the lease. -/
abbrev System := Machine Input World Command Fault Unit

variable {m : System}

abbrev SystemEvent := Event Input String Call

namespace System

def start : System := ⟨World.empty, none⟩

def run (events : List SystemEvent) (m : System) : System :=
  Machine.run effect (fun id w => w.pause id) Call.body m events

/-- The operation and the step of the attempt that is about to be written. -/
def starting (m : System) : Option (String × String) :=
  match m.running with
  | some (.access (.writePending operationId _ _ stepId _ _ _) _) => some (operationId, stepId)
  | _ => none

end System

/-- Every event of the run meets the terms, and every call is allowed. -/
def Terms.Meets (T : Terms) (allowsCall : Call → Prop) (m : System) (events : List SystemEvent) :
    Prop :=
  T.setting.Meets (fun call _ => allowsCall call) Call.body m events

theorem Regime.sound_run {R : Regime T} (runs : R.RunsSteps) (leases : R.grounds.leases)
    {allowsCall : Call → Prop}
    (marks : ∀ call, allowsCall call → call.isRecovery = true → R.MarksLost)
    (resting : ∀ {w}, T.rest w → R.inv w) {events : List SystemEvent} (sound : T.setting.Sound m)
    (meets : T.Meets allowsCall m events) : T.setting.Sound (m.run events) := by
  refine Setting.sound_run ?_ ?_ events sound meets
  · intro call w allowed rest
    refine Setting.Safe.mono (Regime.kept_body runs leases call (marks call allowed) (resting rest))
      ?_
    rintro outcome after ⟨inv, -, -⟩
    exact runs.rest inv
  · intro id w allowed rest
    exact runs.rest (R.pause (resting rest) allowed)

theorem Terms.rest_of_sound (crash : ∀ command w, T.allowsCrash command w)
    (sound : T.setting.Sound m) : T.rest m.store := by
  rw [Setting.Sound] at sound
  split at sound
  · exact sound
  · rename_i p running
    cases p with
    | ret value => exact sound
    | raise fault => exact sound
    | halt => exact sound
    | access command next => exact (sound _ .refl).1 (crash _ _)

theorem System.promise_of_sound (sound : T.setting.Sound m) {operationId stepId : String}
    (starting : m.starting = some (operationId, stepId))
    (enabled : ∀ {attemptId revision target mode lease} w, ∃ i, T.allowsInput
      (.writePending operationId attemptId revision stepId target mode lease) i w) :
    T.promise operationId stepId m.store := by
  unfold System.starting at starting
  split at starting
  · rename_i running
    cases starting
    obtain ⟨i, allowed⟩ := enabled m.store
    exact Setting.Sound.promise sound running allowed
  · simp at starting

def System.checks (ok : System → SystemEvent → Bool) (m : System) : List SystemEvent → Bool
  | [] => true
  | event :: rest => ok m event && checks ok (m.run [event]) rest

theorem Terms.meets_of_checks {allowsCall : Call → Prop} {ok : System → SystemEvent → Bool}
    (sound : ∀ m event, ok m event = true →
      T.setting.Allows (fun call _ => allowsCall call) m event)
    {events : List SystemEvent} (checked : m.checks ok events = true) :
    T.Meets allowsCall m events := by
  induction events generalizing m with
  | nil => trivial
  | cons event rest ih =>
    rw [System.checks, Bool.and_eq_true] at checked
    exact ⟨sound m event checked.1, ih checked.2⟩

def Input.agreeing (now : Lease.Instant) (fresh : String) : Input where
  now := now
  guardNow := now
  monotonic := now
  fresh := fresh
  freshProcess := fresh
  fault := none
  agrees := true
  posture := .labOnly
  decision := .allowed
  response := .succeeded
  maxSteps := 0
  sharedState := []
  profile := none
  reaction := none

def Input.raising (now : Lease.Instant) (fresh : String) (fault : Fault) : Input :=
  { Input.agreeing now fresh with fault := some fault }

def PlanRequest.applying (suffix : String) (steps : List String) (retryPolicy : RetryPolicy) :
    PlanRequest where
  suffix := suffix
  environment := "lab"
  intent := "restart"
  target := "host"
  mode := "apply"
  autoReact := false
  runtimePolicy := ⟨1, true, false⟩
  hasCatalogRuntime := false
  plannedSteps := steps.map fun id => ⟨id, .connector, "act", "ssh", true, false⟩
  retryPolicy := retryPolicy
  rollback := none

def Call.events (call : Call) (accesses : Nat) (i : Input) : List SystemEvent :=
  .call call :: List.replicate accesses (.input i)

end RExecOp
