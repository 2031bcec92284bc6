import RExecOp.Discipline

/-! Every call keeps a regime: an invariant of the store that legal commands and allowed pauses
preserve. A stage only has to survive pauses. -/

namespace RExecOp

open Upkeep

open Attempts (Attempt)
open Lease (LeaseRecord Credential)

variable {command : Command} {id reason : String} {op base : Operation} {plan : OperationPlan}

/-- Which inputs, pauses and crashes a run may have, and what is promised at each start. -/
structure Terms where
  allowsInput : Command → Input → World → Prop
  allowsPause : Option Command → String → World → Prop
  allowsCrash : Option Command → World → Prop
  rest : World → Prop
  promise : String → String → World → Prop

def Terms.promises (T : Terms) (w : World) : Command → Prop
  | .writePending operationId _ _ stepId _ _ _ => T.promise operationId stepId w
  | .saveOperation _ op => ∀ base, w.operations.get op.id = some base →
    base.revision = op.revision → base.state = .failed → op.state = .failed →
      op.lastFailure = base.lastFailure ∧ op.sharedState = base.sharedState
  | _ => True

def Terms.setting (T : Terms) : Setting Input World Command String where
  effect := effect
  intrude id w := w.pause id
  allowsInput := T.allowsInput
  allowsIntrusion := T.allowsPause
  allowsCrash := T.allowsCrash
  rest := T.rest
  promise command _ w := T.promises w command

def Command.isQuiet : Command → Bool
  | .read | .ask | .emit _ | .executionReceipt _ _ => true
  | _ => false

theorem effect_of_isQuiet (quiet : command.isQuiet = true) (i : Input) (w : World) :
    effect command i w = w := by
  cases command <;> simp [Command.isQuiet] at quiet <;> unfold effect <;> split <;> rfl

theorem Terms.promises_of_isQuiet {T : Terms} {w : World} (quiet : command.isQuiet = true) :
    T.promises w command := by
  cases command <;> trivial

theorem Terms.promises_of_legal {T : Terms} {G : Grounds} {w : World} (legal : Legal G w command)
    (outside : command.isStep = false) : T.promises w command := by
  cases command with
  | saveOperation site op =>
    intro base found level failed still
    exact (legal.1 base found level).evolves.failure failed still
  | writePending => simp [Command.isStep] at outside
  | _ => trivial

structure Stage (T : Terms) where
  inv : World → Prop
  consistent : ∀ {w}, inv w → Consistent w
  crash : ∀ {command w}, inv w → T.allowsCrash (some command) w → T.rest w
  pause : ∀ {command id w}, inv w → T.allowsPause command id w → inv (w.pause id)

structure Regime (T : Terms) extends Stage T where
  grounds : Grounds
  legal : ∀ {command i w}, inv w → T.allowsInput command i w → Legal grounds w command →
    command.isStep = false → inv (effect command i w)
  issues : ∀ {workerId i w record}, inv w → T.allowsInput (.writeLeaseEpoch workerId) i w →
    w.acquireLease workerId i = .ok record → grounds.issued record
  still : grounds.undisturbed → ∀ {command id w op}, T.allowsPause command id w →
    w.operations.get id = some op → op.state = .running → op.isInterrupted = false

namespace Stage

variable {T : Terms} (R : Stage T) {α β : Type} {w : World}

def upkeep : Upkeep T.setting where
  inv := R.inv
  grows := Later
  refl := Later.refl
  trans := Later.trans
  intrusion inv allowed := ⟨R.pause inv allowed, later_pause (R.consistent inv) _⟩
  crash := R.crash

def Kept (p : Program α) (post : α → World → Prop) (w : World) : Prop := R.upkeep.Kept p post w

def Keeps (p : Program α) (w : World) : Prop := R.Kept p (fun _ _ => True) w

variable {R}
  {p : Program α} {post : α → World → Prop}

theorem kept_pure {a : α} (inv : R.inv w) (holds : post a w) :
    R.Kept (pure a : Program α) post w :=
  Kept.pure inv holds

theorem kept_raise {fault : Fault} (inv : R.inv w) :
    R.Kept (raise fault : Program α) post w :=
  Kept.raise inv

theorem kept_halt (rest : T.rest w) :
    R.Kept (.halt : Program α) post w :=
  Kept.halt (U := R.upkeep) rest

theorem kept_bind {next : α → Program β} {mid : α → World → Prop} {post : β → World → Prop}
    (kept : R.Kept p mid w)
    (rest : ∀ a after, R.inv after → Later w after → mid a after → R.Kept (next a) post after) :
    R.Kept (p >>= next) post w :=
  Kept.bind kept rest

theorem kept_mono {post weaker : α → World → Prop} (kept : R.Kept p post w)
    (weaken : ∀ a after, R.inv after → Later w after → post a after → weaker a after) :
    R.Kept p weaker w :=
  Kept.mono kept weaken

theorem keeps_of_kept (kept : R.Kept p post w) :
    R.Keeps p w :=
  kept_mono kept fun _ _ _ _ _ => trivial

theorem kept_ofExcept {result : Except Fault α} (inv : R.inv w) :
    R.Kept (ofExcept result) (fun a _ => result = .ok a) w :=
  Kept.ofExcept inv fun _ same => same

theorem kept_require {holds : Bool} {fault : Fault} (inv : R.inv w) :
    R.Kept (require holds fault) (fun _ _ => holds = true) w := by
  unfold require
  split
  · exact kept_pure inv (by assumption)
  · exact kept_raise inv

theorem kept_remember {V : Stage T} (kept : V.Kept p post w)
    (weaker : ∀ after, V.inv after → R.inv after) :
    R.Kept p (fun a after => post a after ∧ V.inv after) w :=
  Kept.remember kept weaker fun _ grown => grown

theorem kept_quiet {reply : Input → World → Except Fault α} (inv : R.inv w)
    (quiet : command.isQuiet = true)
    (holds : ∀ i found a, R.inv found → Later w found → reply i found = .ok a → post a found) :
    R.Kept (Prog.request command reply) post w := by
  refine Kept.request inv fun i found kept later allowed => ?_
  refine ⟨Terms.promises_of_isQuiet quiet, ?_⟩
  change R.inv (effect command i found) ∧ Later found (effect command i found) ∧
    ∀ a, reply i found = .ok a → post a (effect command i found)
  rw [effect_of_isQuiet quiet]
  exact ⟨kept, .refl found, fun a replied => holds i found a kept later replied⟩

theorem kept_read {look : World → Except Fault α} (inv : R.inv w)
    (holds : ∀ found a, R.inv found → Later w found → look found = .ok a → post a found) :
    R.Kept (read look) post w := by
  refine kept_quiet inv rfl fun i found a kept later replied => ?_
  split at replied
  · simp at replied
  · exact holds found a kept later replied

theorem kept_ask {answer : Input → Except Fault α} (inv : R.inv w) :
    R.Keeps (ask answer) w :=
  kept_quiet inv rfl fun _ _ _ _ _ _ => trivial

theorem kept_check (inv : R.inv w) : R.Keeps check w := kept_ask inv

theorem kept_emit {site : Site} (inv : R.inv w) : R.Keeps (emit site) w :=
  kept_quiet inv rfl fun _ _ _ _ _ _ => trivial

theorem kept_sharedStateAfter {executed : List String} {verdict : RunVerdict} (inv : R.inv w) :
    R.Keeps (sharedStateAfter executed id verdict) w :=
  kept_quiet inv rfl fun _ _ _ _ _ _ => trivial

theorem kept_loadOperation (inv : R.inv w) :
    R.Kept (loadOperation id) (fun op after => Known after op ∧ op.id = id ∧
      after.operations.get id = some op) w := by
  refine kept_read inv fun found op kept _ loaded => ?_
  have here := World.loadOperation_ok loaded
  exact ⟨(R.consistent kept).known here, (R.consistent kept).keyed here, here⟩

theorem kept_loadPlan {id : String} (inv : R.inv w) :
    R.Kept (loadPlan id) (fun plan after => after.plans.get id = some plan) w :=
  kept_read inv fun _ _ _ _ loaded => World.loadPlan_ok loaded

theorem kept_transition {target : OperationState} (inv : R.inv w) :
    R.Kept (transition op target reason) (fun moved _ => Transitioned op target moved) w := by
  refine kept_bind (kept_ofExcept inv) fun moved w₁ inv _ done => ?_
  refine kept_bind (kept_emit inv) fun _ w₂ inv _ _ => ?_
  exact kept_pure inv (evolves_transition done)

theorem kept_attempt (kept : R.Kept p post w) :
    R.Kept p.attempt (fun outcome after => ∀ a, outcome = .ok a → post a after) w :=
  Kept.attempt kept

theorem keeps_ensuring {body : Program α} {cleanup : Program Unit} (kept : R.Keeps body w)
    (cleaned : ∀ after, R.inv after → R.Keeps cleanup after) :
    R.Keeps (body.ensuring cleanup) w :=
  Kept.ensuring kept (fun after inv _ => cleaned after inv) fun _ _ => trivial

theorem kept_verifyCatalogBinding (inv : R.inv w) : R.Keeps (verifyCatalogBinding op plan) w := by
  unfold verifyCatalogBinding
  split
  · exact kept_pure inv trivial
  · split
    · exact kept_raise inv
    · exact kept_check inv

theorem kept_requireRollbackCatalogBinding (inv : R.inv w) :
    R.Keeps (requireRollbackCatalogBinding op plan) w := by
  unfold requireRollbackCatalogBinding
  split
  · exact kept_verifyCatalogBinding inv
  · exact kept_pure inv trivial

theorem kept_requireRollbackParentAuthority (inv : R.inv w) :
    R.Keeps (requireRollbackParentAuthority op) w := by
  unfold requireRollbackParentAuthority
  split
  · exact kept_pure inv trivial
  · split
    · exact kept_raise inv
    · refine kept_bind (kept_loadOperation inv) fun parent w₁ inv _ _ => ?_
      split
      · exact kept_raise inv
      · exact kept_bind (kept_loadPlan inv) fun _ _ inv _ _ => kept_ask inv

theorem kept_preflightRollbackAuthority (inv : R.inv w) : R.Kept (preflightRollbackAuthority op)
      (fun plan _ => ∃ found, Later w found ∧ found.plans.get op.id = some plan) w := by
  refine kept_bind (kept_loadPlan inv) fun plan w₁ inv later here => ?_
  refine kept_bind (kept_requireRollbackCatalogBinding inv) fun _ _ inv _ _ => ?_
  refine kept_bind (kept_requireRollbackParentAuthority inv) fun _ _ inv _ _ => ?_
  exact kept_pure inv ⟨w₁, later, here⟩

theorem kept_requireMutationExecutionEnabled {mode : String} (inv : R.inv w) :
    R.Keeps (requireMutationExecutionEnabled mode) w :=
  kept_ask inv

end Stage

namespace Regime

open Stage

variable {T : Terms} {R : Regime T} {α : Type} {w : World}
  {post : α → World → Prop} {reply : Input → World → Except Fault α} {site : Site} {found : World}

/-- The regime with a fact that pauses leave true. -/
def stage (R : Regime T) (fact : World → Prop)
    (stable : ∀ {w} id, Consistent w → fact w → fact (w.pause id)) : Stage T where
  inv w := R.inv w ∧ fact w
  consistent inv := R.consistent inv.1
  crash inv := R.crash inv.1
  pause inv allowed := ⟨R.pause inv.1 allowed, stable _ (R.consistent inv.1) inv.2⟩

theorem kept_within (V : Stage T) (weaker : ∀ {w}, V.inv w → R.inv w) {p : Program α}
    (kept : V.Kept p post w) :
    R.Kept p (fun a after => post a after ∧ V.inv after) w :=
  kept_remember kept fun _ strong => weaker strong

theorem kept_accessFrom {V : Stage T} (weaker : ∀ {w}, V.inv w → R.inv w) (inv : V.inv w)
    (outside : command.isStep = false)
    (legal : ∀ i found, V.inv found → Later w found → T.allowsInput command i found →
      Legal R.grounds found command)
    (holds : ∀ i found a, V.inv found → Later w found → T.allowsInput command i found →
      reply i found = .ok a → post a (found.perform i command)) :
    R.Kept (access command reply) post w := by
  refine Kept.requestFrom (V := V.upkeep) inv (fun grown => grown)
    fun i found kept later allowed => ?_
  have lawful := legal i found kept later allowed
  have after := R.legal (weaker kept) allowed lawful outside
  refine ⟨Terms.promises_of_legal lawful outside, after,
    later_change (change_effect lawful outside), ?_⟩
  intro a replied
  split at replied
  · simp at replied
  · rename_i sound
    change post a (effect command i found)
    rw [effect_faultless sound]
    exact holds i found a kept later allowed replied

theorem kept_access (inv : R.inv w) (outside : command.isStep = false)
    (legal : ∀ i found, R.inv found → Later w found → T.allowsInput command i found →
      Legal R.grounds found command)
    (holds : ∀ i found a, R.inv found → Later w found → T.allowsInput command i found →
      reply i found = .ok a → post a (found.perform i command)) :
    R.Kept (access command reply) post w :=
  kept_accessFrom (fun kept => kept) inv outside legal holds

theorem kept_legal (inv : R.inv w) (outside : command.isStep = false)
    (legal : ∀ found, R.inv found → Later w found → Legal R.grounds found command) :
    R.Keeps (access command reply) w :=
  kept_access inv outside (fun _ found kept later _ => legal found kept later)
    fun _ _ _ _ _ _ _ => trivial

theorem legal_save (known : Known w base) (save : LegalSave w base op) :
    Legal R.grounds w (.saveOperation site op) := by
  obtain ⟨now, found, follows⟩ := known
  have same_id : op.id = base.id := save.evolves.id
  have level : op.revision = base.revision := save.evolves.revision
  rw [← same_id] at found
  refine ⟨fun stored here revision => ?_, fun absent => ?_⟩
  · rw [found] at here
    cases here
    have same := follows.same (by omega)
    subst same
    exact save
  · rw [found] at absent
    simp at absent

structure Saved (op saved : Operation) (after : World) : Prop where
  same : saved = op.stored
  known : Known after saved
  stored : after.operations.get op.id = some op.stored

theorem saved_perform {i : Input} {op saved : Operation}
    (replied : (found.saveOperation op).1 = .ok saved) :
    Saved op saved (found.perform i (.saveOperation site op)) ∧
      found.perform i (.saveOperation site op) = found.put op.stored := by
  rw [World.perform]
  rcases saveOperation_cases found op with ⟨_, _, _, done⟩ | ⟨_, _, done⟩ | ⟨fault, refused⟩
  · rw [done] at replied ⊢
    cases replied
    have here : (found.put op.stored).operations.get op.id = some op.stored :=
      Dict.get_set_self _ _ _
    exact ⟨⟨rfl, ⟨op.stored, here, .refl _⟩, here⟩, rfl⟩
  · rw [done] at replied ⊢
    cases replied
    have here : (found.put op.stored).operations.get op.id = some op.stored :=
      Dict.get_set_self _ _ _
    exact ⟨⟨rfl, ⟨op.stored, here, .refl _⟩, here⟩, rfl⟩
  · rw [refused] at replied
    simp at replied

theorem kept_saveFrom {V : Stage T} {base op : Operation} (weaker : ∀ {w}, V.inv w → R.inv w)
    (inv : V.inv w) (known : Known w base)
    (legal : ∀ found, V.inv found → LegalSave found base op) :
    R.Kept (saveAt site op) (fun saved after => Saved op saved after ∧
      ∃ found, V.inv found ∧ after = found.put op.stored) w := by
  refine kept_accessFrom weaker inv rfl ?_ ?_
  · intro i found kept later _
    exact legal_save (known.later later) (legal found kept)
  · intro i found saved kept later _ replied
    have done := @saved_perform site found i op saved replied
    exact ⟨done.1, found, kept, done.2⟩

structure PlainSave (base op : Operation) : Prop where
  evolves : Evolves base op
  calm : base.state = .failed → op.state ≠ .retrying
  active : op.state.isActive = true →
    base.state.isActive = true ∨ Coordinator.usesTargetLock op = false
  outboxed : op.state.isTerminalReceipt = true → ∀ w, Outboxed w base op

theorem PlainSave.legal (plain : PlainSave base op) (w : World) : LegalSave w base op where
  evolves := plain.evolves
  calm failed retrying := absurd retrying (plain.calm failed)
  locked resting active uses := by
    rcases plain.active active with running | free
    · rw [resting] at running
      cases running
    · rw [free] at uses
      cases uses
  outboxed ended := plain.outboxed ended w

theorem PlainSave.of_transition {op moved next : Operation} {target : OperationState}
    (done : Transitioned op target moved) (same : next.core = moved.core)
    (calm : op.state = .failed → target ≠ .retrying)
    (launched : op.state = .approved → target ≠ .running) : PlainSave op next := by
  have state : next.state = target := (congrArg Core.state same).trans done.state
  refine ⟨?_, fun failed => ?_, fun active => ?_, fun _ _ => .pending ?_⟩
  · rw [Evolves, same]
    exact done.evolves
  · rw [state]
    exact calm failed
  · rw [state] at active
    rcases OperationState.isActive_of_allowed done.allowed active with kept | ⟨approved, running⟩ |
      ⟨failed, retrying⟩
    · exact .inl kept
    · exact absurd running (launched approved)
    · exact absurd retrying (calm failed)
  · have marker : next.projection = moved.projection := congrArg Core.projection same
    rw [World.isProjectionPending, marker]
    exact done.pending

theorem PlainSave.of_core (same : op.core = base.core) : PlainSave base op := by
  have state : op.state = base.state := congrArg Core.state same
  refine ⟨?_, fun failed => ?_, fun active => .inl (state ▸ active), fun _ _ => .kept same⟩
  · rw [Evolves, same]
    exact Evolves.refl base
  · rw [state, failed]
    decide

theorem kept_saveOperation (inv : R.inv w) (known : Known w base) (plain : PlainSave base op) :
    R.Kept (saveOperation op) (fun saved after => Saved op saved after) w := by
  refine kept_mono (kept_saveFrom (fun kept => kept) inv known fun found _ => plain.legal found) ?_
  intro saved after _ _ done
  exact done.1

theorem kept_saveNote (inv : R.inv w) (known : Known w base) (same : op.core = base.core) :
    R.Kept (saveOperation op) (fun saved after => Saved op saved after) w :=
  kept_saveOperation inv known (.of_core same)

theorem kept_acquireExecutionLease {workerId : String} (leases : R.grounds.leases) (inv : R.inv w) :
    R.Keeps (acquireExecutionLease workerId) w := by
  have granted : R.Kept (access (.writeLeaseEpoch workerId) fun i w => w.acquireLease workerId i)
      (fun record after => R.grounds.issued record ∧ ∃ e, after.lease.epoch = some e ∧
        record.leaseEpoch ≤ e) w := by
    refine kept_access inv rfl (fun _ _ _ _ _ => leases) ?_
    intro i found record kept _ allowed replied
    refine ⟨R.issues kept allowed replied, ?_⟩
    simp only [World.perform, replied]
    exact ⟨_, rfl, le_rfl⟩
  refine kept_bind granted fun record w₁ inv _ known => ?_
  refine kept_legal inv rfl fun found _ later => ⟨leases, known.1, ?_⟩
  obtain ⟨e, here, lower⟩ := known.2
  obtain ⟨now, there, upper⟩ := later.epoch here
  exact ⟨now, there, lower.trans upper⟩

theorem kept_releaseExecutionLease {lease : LeaseRecord} (leases : R.grounds.leases)
    (inv : R.inv w) : R.Keeps (releaseExecutionLease lease) w :=
  kept_legal inv rfl fun _ _ _ => leases

/-- A program that keeps the regime while it has its own lease. -/
def Leased (R : Regime T) (p : Program α) : Prop :=
  ∃ workerId body, p = withExecutionLease workerId body ∧
    ∀ (lease : LeaseRecord) (w : World), R.inv w → R.Keeps (body lease) w

theorem Leased.keeps {p : Program α} (leased : R.Leased p) (leases : R.grounds.leases)
    (inv : R.inv w) : R.Keeps p w := by
  obtain ⟨workerId, body, rfl, kept⟩ := leased
  refine kept_bind (kept_acquireExecutionLease leases inv) fun lease w₁ inv _ _ => ?_
  exact keeps_ensuring (kept lease w₁ inv) fun _ inv => kept_releaseExecutionLease leases inv

theorem receipted_pause (id : String) (receipted : found.Receipted op) :
    (found.pause id).Receipted op := by
  rw [World.Receipted, pause_receipts]
  exact receipted

theorem exportable_pause {w : World} (consistent : Consistent w) (id : String)
    (exportable : w.Exportable op) : (w.pause id).Exportable op := by
  intro now found ended
  rcases pause_get consistent found with kept | ⟨-, base, -, -, rfl⟩
  · exact exportable now kept ended
  · cases ended

theorem exportable_loaded {id : String}
    (loaded : Known w op ∧ op.id = id ∧ w.operations.get id = some op) : w.Exportable op := by
  intro now found _
  rw [loaded.2.1, loaded.2.2] at found
  cases found
  rfl

theorem legalSave_projectedMarker (receipted : found.Receipted op) :
    LegalSave found op op.projectedMarker where
  evolves := ⟨⟨rfl, rfl, rfl, rfl, rfl⟩, rfl, .inl rfl, fun _ => rfl, fun _ _ => ⟨rfl, rfl⟩⟩
  calm failed retrying := by
    rw [show op.projectedMarker.state = op.state from rfl, failed] at retrying
    cases retrying
  locked resting active := by
    rw [show op.projectedMarker.state = op.state from rfl, resting] at active
    cases active
  outboxed _ := .exported receipted

theorem kept_exportReceipt (inv : R.inv w) : R.Keeps (exportReceipt id) w := by
  refine kept_bind (kept_loadOperation inv) fun op w₁ inv _ loaded => ?_
  -- pauses leave alone what has ended, so the receipt to come is one of its last transition
  let U := R.stage (·.Exportable op) fun id consistent fact => exportable_pause consistent id fact
  have current : U.inv w₁ := ⟨inv, exportable_loaded loaded⟩
  refine kept_bind (kept_within U And.left (kept_loadPlan current)) fun _ w₂ _ later₂ planned => ?_
  refine kept_bind (kept_within U And.left (kept_check planned.2)) fun _ w₃ _ later₃ checked => ?_
  -- from here on the receipt is stored, whatever pauses come in between
  let V := R.stage (fun w => w.Receipted op) fun id _ receipted => receipted_pause id receipted
  have written : R.Kept (access (.saveReceipt op) fun _ _ => .ok ())
      (fun _ after => after.Receipted op) w₃ :=
    kept_accessFrom And.left checked.2 rfl (fun _ _ strong _ _ => strong.2)
      fun _ _ _ _ _ _ _ => ⟨op, Dict.get_set_self _ _ _, rfl⟩
  refine kept_bind written fun _ w₄ inv later₄ receipted => ?_
  have exported : V.inv w₄ := ⟨inv, receipted⟩
  refine kept_bind (kept_within V And.left (kept_emit exported)) fun _ w₅ inv later₅ exported => ?_
  refine kept_bind (kept_within V And.left (kept_emit exported.2)) fun _ w₆ inv later₆ exported =>
    ?_
  have known := loaded.1.later
    (later₂.trans (later₃.trans (later₄.trans (later₅.trans later₆))))
  have saves := @kept_saveFrom T R w₆ .plain V op op.projectedMarker (fun strong => strong.1)
    exported.2 known fun found strong => legalSave_projectedMarker strong.2
  exact kept_bind saves fun _ _ inv _ _ => kept_pure inv trivial

theorem kept_recordReceiptBlocker (inv : R.inv w) (known : Known w op) :
    R.Keeps (recordReceiptBlocker op reason) w := by
  have plain : PlainSave op { op with recoveryBlocker := some reason } := by
    refine ⟨⟨⟨rfl, rfl, rfl, rfl, rfl⟩, rfl, .inl rfl, fun _ => rfl, fun _ _ => ⟨rfl, rfl⟩⟩,
      fun failed => ?_, .inl, fun _ _ => .blocked rfl⟩
    change op.state ≠ .retrying
    rw [failed]
    decide
  exact kept_bind (kept_saveOperation inv known plain) fun _ _ inv _ _ => kept_pure inv trivial

theorem kept_orBlocker {body : Program ReceiptStatus} (known : Known w op) (kept : R.Keeps body w) :
    R.Keeps (orBlocker op reason body) w := by
  refine kept_bind (kept_attempt kept) fun outcome w₁ inv later _ => ?_
  cases outcome with
  | ok status => exact kept_pure inv trivial
  | error fault =>
    dsimp only
    split
    · exact kept_recordReceiptBlocker inv (known.later later)
    · exact kept_raise inv

theorem kept_ensureTerminalReceipt (inv : R.inv w) : R.Keeps (ensureTerminalReceipt id) w := by
  refine kept_bind (kept_loadOperation inv) fun op w₁ inv _ loaded => ?_
  refine kept_bind (kept_read inv fun _ _ _ _ _ => trivial) fun needed w₂ inv later₂ _ => ?_
  have known := loaded.1.later later₂
  split
  · exact kept_pure inv trivial
  · have planned : R.Keeps (orBlocker op "plan_missing" do
        let _ ← loadPlan id
        pure .alreadySatisfied) w₂ :=
      kept_orBlocker known
        (kept_bind (kept_loadPlan inv) fun _ _ inv _ _ => kept_pure inv trivial)
    refine kept_bind planned fun status w₃ inv later₃ _ => ?_
    split
    · exact kept_pure inv trivial
    · exact kept_orBlocker (known.later later₃)
        (kept_bind (kept_exportReceipt inv) fun _ _ inv _ _ => kept_pure inv trivial)

theorem kept_reconcilePendingProjections (inv : R.inv w) :
    R.Keeps reconcilePendingProjections w := by
  refine kept_bind (kept_read inv fun _ _ _ _ _ => trivial) fun pending w₁ inv _ _ => ?_
  have each : R.Keeps (Prog.forEach pending fun op => do
      if op.state.isTerminalReceipt then
        exportReceipt op.id
        pure (some op.id)
      else pure none) w₁ := by
    refine Kept.forEach inv fun op _ after inv _ => ?_
    split
    · exact kept_bind (kept_exportReceipt inv) fun _ _ inv _ _ => kept_pure inv trivial
    · exact kept_pure inv trivial
  exact kept_bind each fun _ _ inv _ _ => kept_pure inv trivial

theorem kept_saveNew (inv : R.inv w) (zero : op.revision = 0) (named : op.id ≠ "")
    (unexecuted : op.state.isExecuted = false) (planned : ∃ plan, w.plans.get op.id = some plan) :
    R.Kept (saveOperation op) (fun saved after => Saved op saved after) w := by
  refine kept_access inv rfl ?_ ?_
  · intro i found kept later _
    obtain ⟨plan, here⟩ := planned
    refine ⟨fun base stored level => ?_, fun _ _ => ⟨named, unexecuted, later.planned here⟩⟩
    have positive := (R.consistent kept).revised stored
    omega
  · intro i found saved kept later _ replied
    exact (@saved_perform .plain found i op saved replied).1

theorem kept_savePlan (inv : R.inv w) : R.Kept (access (.savePlan plan) fun _ _ => .ok ())
      (fun _ after => ∃ now, after.plans.get plan.operationId = some now) w := by
  refine kept_access inv rfl (fun i found _ _ _ => trivial) ?_
  intro i found _ _ _ _ _
  exact ⟨plan, Dict.get_set_self _ _ _⟩

theorem kept_applyGovernanceTransition {decision : DecisionType} (inv : R.inv w) :
    R.Kept (applyGovernanceTransition op decision)
      (fun moved _ => Evolves op moved ∧ moved.state.isExecuted = false) w := by
  have reaches : ∀ {target reason}, target.isExecuted = false →
      R.Kept (transition op target reason)
        (fun moved _ => Evolves op moved ∧ moved.state.isExecuted = false) w := by
    intro target reason unexecuted
    refine kept_mono (kept_transition inv) ?_
    intro moved after _ _ done
    exact ⟨done.evolves, done.state ▸ unexecuted⟩
  unfold applyGovernanceTransition
  split
  · exact reaches rfl
  · split
    · exact reaches rfl
    · split <;> exact reaches rfl

theorem kept_govern (inv : R.inv w) :
    R.Kept (govern op) (fun moved _ => Evolves op moved ∧ moved.state.isExecuted = false) w := by
  refine kept_bind (kept_emit inv) fun _ _ inv _ _ => ?_
  refine kept_bind (kept_ask inv) fun decision _ inv _ _ => ?_
  refine kept_bind (kept_emit inv) fun _ _ inv _ _ => ?_
  refine kept_bind (kept_emit inv) fun _ _ inv _ _ => ?_
  exact kept_applyGovernanceTransition inv

theorem kept_planOperation {r : PlanRequest} (inv : R.inv w) : R.Keeps (planOperation r) w := by
  refine kept_bind (kept_require inv) fun _ _ inv _ _ => ?_
  refine kept_bind (kept_check inv) fun _ _ inv _ _ => ?_
  refine kept_bind (kept_emit inv) fun _ _ inv _ _ => ?_
  refine kept_bind (kept_transition inv) fun op _ inv _ moved => ?_
  refine kept_bind (kept_emit inv) fun _ _ inv _ _ => ?_
  refine kept_bind (kept_savePlan inv) fun _ w₁ inv _ planned => ?_
  refine kept_bind (kept_emit inv) fun _ w₂ inv later₂ _ => ?_
  have governed : R.Kept (if isMutatingMode r.mode then govern op else pure op)
      (fun next _ => Evolves op next ∧ next.state.isExecuted = false) w₂ := by
    split
    · exact kept_govern inv
    · refine kept_pure inv ⟨.refl op, ?_⟩
      rw [moved.2]
      rfl
  refine kept_bind governed fun next w₃ inv later₃ known => ?_
  refine kept_bind (kept_check inv) fun _ w₄ inv later₄ _ => ?_
  have id : next.id = r.id := (known.1.id).trans moved.1.id
  have zero : next.revision = 0 := (known.1.revision).trans moved.1.revision
  have named : next.id ≠ "" := by
    rw [id, PlanRequest.id]
    simp
  obtain ⟨plan, here⟩ := planned
  have stored := (later₂.trans (later₃.trans later₄)).planned here
  rw [show r.plan.operationId = next.id from id.symm] at stored
  exact keeps_of_kept (kept_saveNew inv zero named known.2 stored)

theorem kept_approve (inv : R.inv w) : R.Keeps (approve id) w := by
  refine kept_bind (kept_loadOperation inv) fun op w₁ inv _ loaded => ?_
  refine kept_bind (kept_require inv) fun _ w₂ inv later₂ _ => ?_
  refine kept_bind (kept_legal inv rfl fun _ _ _ => trivial) fun _ w₃ inv later₃ _ => ?_
  refine kept_bind (kept_emit inv) fun _ w₄ inv later₄ _ => ?_
  refine kept_bind (kept_transition inv) fun moved w₅ inv later₅ done => ?_
  have known := loaded.1.later (later₂.trans (later₃.trans (later₄.trans later₅)))
  exact keeps_of_kept (kept_saveOperation inv known
    (.of_transition done rfl (fun _ => by decide) fun _ => by decide))

theorem kept_prepareRollbackOperation {parent : Operation} {parentPlan : OperationPlan}
    (inv : R.inv w) : R.Keeps (prepareRollbackOperation parent parentPlan) w := by
  refine kept_bind (kept_ofExcept inv) fun block _ inv _ _ => ?_
  refine kept_bind (kept_ask inv) fun digest _ inv _ _ => ?_
  refine kept_bind (kept_emit inv) fun _ _ inv _ _ => ?_
  refine kept_bind (kept_transition inv) fun op _ inv _ moved => ?_
  refine kept_bind (kept_emit inv) fun _ _ inv _ _ => ?_
  refine kept_bind (kept_savePlan inv) fun _ w₁ inv _ planned => ?_
  refine kept_bind (kept_govern inv) fun next w₂ inv later₂ known => ?_
  refine kept_bind (kept_check inv) fun _ w₃ inv later₃ _ => ?_
  have id : next.id = rollbackOperationId parent.id := (known.1.id).trans moved.1.id
  have zero : next.revision = 0 := (known.1.revision).trans moved.1.revision
  have named : next.id ≠ "" := by
    rw [id, rollbackOperationId]
    simp
  obtain ⟨plan, here⟩ := planned
  have stored := (later₂.trans later₃).planned here
  rw [show (rollbackPlan parent parentPlan block).operationId = next.id from id.symm] at stored
  exact keeps_of_kept (kept_saveNew inv zero named known.2 stored)

end Regime

end RExecOp
