import RExecOp.RecoverySettles

/-! The authority of a rollback child: a digest over the parent's failure, compared again
whenever the child is about to run (`runtime_ops/rollback.py`). -/

namespace RExecOp.RollbackAuthority

open Recovery (anyRun lockRegime lockRegime_plain lockRegime_runsSteps meets_anyRun)

variable {op parent : Operation} {plan : OperationPlan}

/-- `canonical_digest` as a text and a hash without collisions over it. -/
structure Digests where
  rendered : Value → String
  sha256 : String → String
  plan : OperationPlan → String
  collisionFree : Function.Injective sha256

def lastFailureValue (op : Operation) : Value :=
  match op.lastFailure with
  | none => .dict []
  | some failure => .dict [("step_id", .str failure.stepId), ("error", .str failure.error),
      ("error_class", .str failure.errorClass), ("attempt", .int failure.attempt)]

def terminalReceipt (op : Operation) : Value :=
  let receipt := Value.get op.sharedState "execution_receipt"
  if receipt.truthy then receipt else .dict []

def authority (H : Digests) (parent : Operation) (plan : OperationPlan) : Value :=
  .dict [("parent_operation_id", .str parent.id), ("parent_state", .str parent.state.value),
    ("last_failure", lastFailureValue parent),
    ("terminal_execution_receipt", terminalReceipt parent),
    ("parent_plan_digest", .str ("sha256:" ++ H.plan plan))]

def rollbackFailureAuthorityDigest (H : Digests) (parent : Operation) (plan : OperationPlan) :
    String :=
  "sha256:" ++ H.sha256 (H.rendered (authority H parent plan))

theorem rendered_of_digest {H : Digests} {parent other : Operation} {plan later : OperationPlan}
    (same : rollbackFailureAuthorityDigest H parent plan =
      rollbackFailureAuthorityDigest H other later) :
    H.rendered (authority H parent plan) = H.rendered (authority H other later) := by
  apply H.collisionFree
  have lists := congrArg String.toList same
  simp only [rollbackFailureAuthorityDigest, String.toList_append] at lists
  exact String.toList_injective (List.append_cancel_left lists)

theorem authority_congr (H : Digests) {parent other : Operation} (plan : OperationPlan)
    (id : other.id = parent.id) (state : other.state = parent.state)
    (failure : other.lastFailure = parent.lastFailure)
    (shared : other.sharedState = parent.sharedState) :
    authority H other plan = authority H parent plan := by
  simp only [authority, lastFailureValue, terminalReceipt, id, state, failure, shared]

def requireCatalogBinding (answer : Except Fault Unit) (op : Operation) (plan : OperationPlan) :
    Except Fault Unit :=
  if op.isRollback && (op.hasCatalogRuntime || plan.hasCatalogBinding) then
    if !op.hasCatalogRuntime then .ok ()
    else if !plan.hasCatalogBinding then
      .error (.invalid "catalog runtime binding is incomplete")
    else answer
  else .ok ()

def requireParentAuthority (H : Digests) (w : World) (op : Operation) : Except Fault Unit :=
  match op.derived with
  | none => .ok ()
  | some derived =>
    if derived.parentOperationId = "" ∨ derived.failureAuthorityDigest = "" then
      .error (.invalid "rollback parent failure authority is missing")
    else do
      let parent ← w.loadOperation derived.parentOperationId
      if parent.state ≠ .failed then .error (.invalid "rollback parent is no longer failed")
      else do
        let plan ← w.loadPlan derived.parentOperationId
        if derived.failureAuthorityDigest = rollbackFailureAuthorityDigest H parent plan then .ok ()
        else .error (.invalid "rollback parent failure authority drift")

def preflight (H : Digests) (w : World) (answer : Except Fault Unit) (op : Operation) :
    Except Fault OperationPlan := do
  let plan ← w.loadPlan op.id
  requireCatalogBinding answer op plan
  requireParentAuthority H w op
  .ok plan

def honest (H : Digests) (op : Operation) (w : World) : Solo Input World Command where
  effect := effect
  allows _ i _ := i.fault = none ∧ ∀ derived parent plan, op.derived = some derived →
    w.operations.get derived.parentOperationId = some parent →
    w.plans.get derived.parentOperationId = some plan →
    i.agrees = decide
      (derived.failureAuthorityDigest = rollbackFailureAuthorityDigest H parent plan)
  strict := False

section Program

open Solo (Ends)

variable {H : Digests} {op : Operation} {w : World} {α β : Type}

def Yields (H : Digests) (op : Operation) (w : World) (p : Program α) (result : Except Fault α) :
    Prop :=
  (honest H op w).Ends p (fun outcome after => outcome = result ∧ after = w) w

theorem yields_ofExcept (result : Except Fault α) : Yields H op w (ofExcept result) result :=
  Ends.ofExcept False.elim ⟨rfl, rfl⟩

theorem yields_read (look : World → Except Fault α) : Yields H op w (read look) (look w) := by
  refine Ends.request fun i allowed => ⟨False.elim, ?_, effect_of_isQuiet rfl i w⟩
  rw [allowed.1]

theorem yields_check : Yields H op w check (.ok ()) := by
  refine Ends.request fun i allowed => ⟨False.elim, ?_, effect_of_isQuiet rfl i w⟩
  rw [allowed.1]

theorem yields_bind {p : Program α} {next : α → Program β} {first : Except Fault α}
    {second : α → Except Fault β} (yields : Yields H op w p first)
    (rest : ∀ a, first = .ok a → Yields H op w (next a) (second a)) :
    Yields H op w (p >>= next) (first >>= second) := by
  refine Ends.bind yields ?_ ?_
  · rintro fault after ⟨same, rfl⟩
    rw [← same]
    exact ⟨rfl, rfl⟩
  · rintro a after ⟨same, rfl⟩
    have follows := rest a same.symm
    rw [← same]
    exact follows

theorem yields_requireRollbackCatalogBinding (plan : OperationPlan) :
    Yields H op w (requireRollbackCatalogBinding op plan)
      (requireCatalogBinding (.ok ()) op plan) := by
  unfold requireRollbackCatalogBinding requireCatalogBinding
  split
  · unfold verifyCatalogBinding
    split
    · exact yields_ofExcept (.ok ())
    · split
      · exact yields_ofExcept (.error _)
      · exact yields_check
  · exact yields_ofExcept (.ok ())

theorem yields_requireRollbackParentAuthority :
    Yields H op w (requireRollbackParentAuthority op) (requireParentAuthority H w op) := by
  unfold requireRollbackParentAuthority requireParentAuthority
  cases here : op.derived with
  | none => exact yields_ofExcept (.ok ())
  | some derived =>
    dsimp only
    split
    · exact yields_ofExcept (.error _)
    · refine yields_bind (yields_read _) fun parent loaded => ?_
      split
      · exact yields_ofExcept (.error _)
      · refine yields_bind (yields_read _) fun plan planned => ?_
        -- the comparison is the environment's answer
        refine Ends.request fun i allowed => ⟨False.elim, ?_, effect_of_isQuiet rfl i w⟩
        have stored := World.loadOperation_ok loaded
        have answer := allowed.2 derived parent plan here stored (World.loadPlan_ok planned)
        simp only [allowed.1, answer, decide_eq_true_eq]

theorem yields_preflightRollbackAuthority :
    Yields H op w (preflightRollbackAuthority op) (preflight H w (.ok ()) op) := by
  refine yields_bind (yields_read _) fun plan _ => ?_
  refine yields_bind (yields_requireRollbackCatalogBinding plan) fun _ _ => ?_
  refine yields_bind yields_requireRollbackParentAuthority fun _ _ => ?_
  exact yields_ofExcept (.ok plan)

end Program

def Revoked (H : Digests) (id text : String) (w : World) : Prop :=
  ∀ op, w.operations.get id = some op → op.state = .failed →
    ∀ plan, H.rendered (authority H op plan) ≠ text

/-- No save into the failed state records the same text again. -/
def renewing (H : Digests) (id text : String) : Terms where
  allowsInput
    | .saveOperation _ op, _, w => op.id = id → op.state = .failed →
      (∀ base, w.operations.get id = some base → base.state ≠ .failed) →
        ∀ plan, H.rendered (authority H op plan) ≠ text
    | _, _, _ => True
  allowsPause _ _ _ := True
  allowsCrash _ _ := True
  rest := anyRun.rest
  promise _ _ _ := True

variable {H : Digests} {id text : String} {w : World}

theorem revoked_of_same {after : World} (revoked : Revoked H id text w)
    (same : after.operations = w.operations) : Revoked H id text after := by
  intro op found
  exact revoked op (same ▸ found)

theorem revoked_pause (consistent : Consistent w) (revoked : Revoked H id text w)
    (paused : String) : Revoked H id text (w.pause paused) := by
  intro op found failed
  rcases pause_get consistent found with kept | ⟨-, base, -, -, rfl⟩
  · exact revoked op kept failed
  · cases failed

theorem revoked_put (revoked : Revoked H id text w)
    (fresh : op.id = id → op.state = .failed → ∀ plan, H.rendered (authority H op plan) ≠ text) :
    Revoked H id text (w.put op.stored) := by
  intro other found failed
  rcases put_get found with ⟨named, rfl⟩ | kept
  · exact fresh named.symm failed
  · exact revoked other kept failed

theorem revoked_save {site : Site} {i : Input} (consistent : Consistent w)
    (revoked : Revoked H id text w) (promised : anyRun.promises w (.saveOperation site op))
    (allowed : (renewing H id text).allowsInput (.saveOperation site op) i w) :
    Revoked H id text (w.saveOperation op).2 := by
  rcases saveOperation_cases w op with ⟨base, found, level, done⟩ | ⟨absent, -, done⟩ |
    ⟨fault, refused⟩
  · rw [done]
    refine revoked_put revoked fun named failed => ?_
    by_cases still : base.state = .failed
    · intro plan
      have kept := promised base found level still failed
      have keyed : op.id = base.id := (consistent.keyed found).symm
      rw [authority_congr H plan keyed (failed.trans still.symm) kept.1 kept.2]
      exact revoked base (named ▸ found) still plan
    · refine allowed named failed fun other here => ?_
      have same : base = other := Option.some.inj (found.symm.trans (named ▸ here))
      exact same ▸ still
  · rw [done]
    refine revoked_put revoked fun named failed => allowed named failed fun other here => ?_
    rw [← named, absent] at here
    cases here
  · rw [refused]
    exact revoked

theorem revoked_step {m : System} (sound : anyRun.setting.Sound m)
    (revoked : Revoked H id text m.store) {event : SystemEvent}
    (allowed : (renewing H id text).setting.Allows (fun _ _ => True) m event) :
    Revoked H id text (m.run [event]).store := by
  have consistent := (Terms.rest_of_sound (fun _ _ => trivial) sound).1
  obtain ⟨store, running⟩ := m
  cases event with
  | call c => cases running <;> exact revoked
  | crash => exact revoked
  | intrude paused => exact revoked_pause consistent revoked paused
  | input i =>
    match running with
    | none => exact revoked
    | some (.ret _) => exact revoked
    | some (.raise _) => exact revoked
    | some .halt => exact revoked
    | some (.access command next) =>
      change Revoked H id text (effect command i store)
      by_cases saves : ∃ site op, command = .saveOperation site op
      · obtain ⟨site, op, rfl⟩ := saves
        have promised : anyRun.promises store (.saveOperation site op) :=
          Setting.Sound.promise sound rfl (i := i) trivial
        unfold effect
        split
        · contradiction
        · exact revoked
        · exact revoked_save (i := i) consistent revoked promised allowed
      · have other : ∀ site op, command ≠ .saveOperation site op :=
          fun site op same => saves ⟨site, op, same⟩
        exact revoked_of_same revoked (operations_effect other i store)

theorem revoked_run (later : List SystemEvent) : ∀ {before : List SystemEvent},
    Revoked H id text (System.start.run before).store →
    (renewing H id text).Meets (fun _ => True) (System.start.run before) later →
      Revoked H id text (System.start.run (before ++ later)).store := by
  induction later with
  | nil =>
    intro before revoked _
    rw [List.append_nil]
    exact revoked
  | cons event rest ih =>
    intro before revoked meets
    have next : System.start.run (before ++ [event]) = (System.start.run before).run [event] :=
      List.foldl_append
    have stepped := revoked_step (Recovery.sound_anyRun before) revoked meets.1
    rw [← next] at stepped
    rw [show before ++ event :: rest = before ++ [event] ++ rest by simp]
    refine ih stepped ?_
    rw [next]
    exact meets.2

theorem requireParentAuthority_of_revoked {parent child : Operation}
    (derived : child.derived = some ⟨id, rollbackFailureAuthorityDigest H parent plan⟩)
    (revoked : Revoked H id (H.rendered (authority H parent plan)) w) :
    requireParentAuthority H w child ≠ .ok () := by
  intro passed
  rw [requireParentAuthority, derived] at passed
  dsimp only at passed
  split at passed
  · cases passed
  · cases loaded : w.loadOperation id with
    | error fault =>
      rw [loaded] at passed
      cases passed
    | ok op =>
      rw [loaded] at passed
      change (if op.state ≠ .failed then _ else _) = _ at passed
      split at passed
      · cases passed
      · rename_i failed
        cases planned : w.loadPlan id with
        | error fault =>
          rw [planned] at passed
          cases passed
        | ok now =>
          rw [planned] at passed
          change (if _ then _ else _) = _ at passed
          split at passed
          · rename_i same
            exact revoked op (World.loadOperation_ok loaded) (not_not.mp failed) now
              (rendered_of_digest same).symm
          · cases passed

theorem preflight_of_revoked {parent child : Operation}
    (derived : child.derived = some ⟨id, rollbackFailureAuthorityDigest H parent plan⟩)
    (revoked : Revoked H id (H.rendered (authority H parent plan)) w) (answer : Except Fault Unit) :
    ∃ fault, preflight H w answer child = .error fault := by
  have refused := requireParentAuthority_of_revoked derived revoked
  unfold preflight
  cases w.loadPlan child.id with
  | error fault => exact ⟨fault, rfl⟩
  | ok own =>
    dsimp only [bind, Except.bind]
    cases requireCatalogBinding answer child own with
    | error fault => exact ⟨fault, rfl⟩
    | ok _ =>
      dsimp only
      cases passed : requireParentAuthority H w child with
      | error fault => exact ⟨fault, rfl⟩
      | ok _ => exact absurd passed refused

/-- The parent with another link, projection marker and revision. -/
def relinked (parent : Operation) (link : Option String) (projection : Option Projection)
    (revision : Nat) : Operation :=
  { parent with rollbackLink := link, projection := projection, revision := revision }

theorem requireParentAuthority_relinked (found : w.operations.get parent.id = some parent)
    (link : Option String) (projection : Option Projection) (revision : Nat)
    (receipts : Dict String Operation) (child : Operation) : requireParentAuthority H
        { w.put (relinked parent link projection revision) with receipts := receipts } child =
      requireParentAuthority H w child := by
  unfold requireParentAuthority
  cases child.derived with
  | none => rfl
  | some derived =>
    dsimp only
    split
    · rfl
    · by_cases own : derived.parentOperationId = parent.id
      · have before : w.loadOperation parent.id = .ok parent := by
          simp only [World.loadOperation, found]
        have after : World.loadOperation
            { w.put (relinked parent link projection revision) with receipts := receipts }
              parent.id = .ok (relinked parent link projection revision) := by
          have here : (w.put (relinked parent link projection revision)).operations.get
              parent.id = some (relinked parent link projection revision) :=
            Dict.get_set_self _ _ _
          simp only [World.loadOperation, here]
        rw [own, before, after]
        rfl
      · have kept : World.loadOperation
            { w.put (relinked parent link projection revision) with receipts := receipts }
              derived.parentOperationId = w.loadOperation derived.parentOperationId := by
          have here : (w.put (relinked parent link projection revision)).operations.get
              derived.parentOperationId = w.operations.get derived.parentOperationId :=
            Dict.get_set_ne _ _ own
          simp only [World.loadOperation, here]
        rw [kept]
        rfl

/-- A parent that leaves the failed state takes its child's authority with it, as long as no
later failure repeats the text of the first. -/
theorem authority_follows_failure (H : Digests) :
    (∀ (events later : List SystemEvent) (parent child : Operation) (plan : OperationPlan),
      child.derived = some ⟨parent.id, rollbackFailureAuthorityDigest H parent plan⟩ →
      (∀ op, (System.start.run events).store.operations.get parent.id = some op →
        op.state ≠ .failed) →
      (renewing H parent.id (H.rendered (authority H parent plan))).Meets (fun _ => True)
        (System.start.run events) later →
      ∀ answer, ∃ fault,
        preflight H (System.start.run (events ++ later)).store answer child = .error fault) ∧
    ∀ (w : World) (parent child : Operation) (link : Option String)
      (projection : Option Projection) (revision : Nat) (receipts : Dict String Operation)
      (answer : Except Fault Unit), w.operations.get parent.id = some parent →
      preflight H
          { w.put (relinked parent link projection revision) with receipts := receipts } answer
          child = preflight H w answer child := by
  refine ⟨fun events later parent child plan derived retried renews answer => ?_, ?_⟩
  · have revoked : Revoked H parent.id (H.rendered (authority H parent plan))
        (System.start.run events).store :=
      fun op found failed => absurd failed (retried op found)
    exact preflight_of_revoked derived (revoked_run later revoked renews) answer
  · intro w parent child link projection revision receipts answer found
    unfold preflight
    rw [requireParentAuthority_relinked found]
    rfl

mutual

def spell : Value → String
  | .null => "null"
  | .bool b => if b then "true" else "false"
  | .int n => toString n
  | .float q => toString q.num ++ "/" ++ toString q.den
  | .str s => "\"" ++ s ++ "\""
  | .list items => "[" ++ spellItems items ++ "]"
  | .dict entries => "\x7b" ++ spellEntries entries ++ "\x7d"

def spellItems : List Value → String
  | [] => ""
  | item :: rest => spell item ++ "," ++ spellItems rest

def spellEntries : Entries → String
  | [] => ""
  | (key, value) :: rest => "\"" ++ key ++ "\":" ++ spell value ++ "," ++ spellEntries rest

end

def plainDigests : Digests where
  rendered := spell
  sha256 rendered := rendered
  plan plan := plan.operationId
  collisionFree _ _ same := same

def failureEntries (op : Operation) : Entries :=
  [("parent_operation_id", .str op.id), ("parent_state", .str op.state.value),
    ("last_failure", lastFailureValue op)]

def head (op : Operation) : String := spellEntries (failureEntries op)

theorem spellEntries_append (entries others : Entries) :
    spellEntries (entries ++ others) = spellEntries entries ++ spellEntries others := by
  induction entries with
  | nil => simp [spellEntries]
  | cons entry rest ih => simp [spellEntries, ih, String.append_assoc]

theorem spell_authority (op : Operation) (plan : OperationPlan) :
    ∃ rest, spell (authority plainDigests op plan) = "\x7b" ++ (head op ++ rest) := by
  let others : Entries := [("terminal_execution_receipt", terminalReceipt op),
    ("parent_plan_digest", .str ("sha256:" ++ plan.operationId))]
  have split : spell (authority plainDigests op plan) =
      "\x7b" ++ spellEntries (failureEntries op ++ others) ++ "\x7d" := by
    rw [authority, spell]
    rfl
  refine ⟨spellEntries others ++ "\x7d", ?_⟩
  rw [split, spellEntries_append, String.append_assoc, String.append_assoc]
  rfl

theorem spell_ne_of_head (length : (head op).length = (head parent).length)
    (differ : head op ≠ head parent) (now plan : OperationPlan) :
    spell (authority plainDigests op now) ≠ spell (authority plainDigests parent plan) := by
  obtain ⟨rest, spelled⟩ := spell_authority op now
  obtain ⟨others, written⟩ := spell_authority parent plan
  rw [spelled, written]
  intro same
  have lists := congrArg String.toList same
  simp only [String.toList_append] at lists
  have heads := List.append_inj_left (List.append_cancel_left lists) length
  exact differ (String.toList_injective heads)

def request : PlanRequest :=
  { PlanRequest.applying "1" ["first"] ⟨0, [], []⟩ with
    rollback := some ⟨"apply", [⟨"undo", .connector, "undo", "ssh", true, false⟩]⟩ }

def failing (now : Lease.Instant) (errorClass : String) : Input :=
  { Input.agreeing now errorClass with response := .failed errorClass }

def failedEvents : List SystemEvent :=
  (Call.plan request).events 13 (.agreeing 1 "a") ++
    (Call.start 5 "op-1").events 57 (failing 2 "busy")

def storedDigest (w : World) : Option String := do
  let parent ← w.operations.get "op-1"
  let plan ← w.plans.get "op-1"
  some (rollbackFailureAuthorityDigest plainDigests parent plan)

def preparedEvents : List SystemEvent :=
  failedEvents ++ (Call.rollback 5 "op-1").events 19
    { Input.agreeing 3 ((storedDigest (System.start.run failedEvents).store).getD "") with
      decision := .approvalRequired }

def retriedEvents : List SystemEvent :=
  preparedEvents ++ (Call.retry 5 "op-1").events 15 (.agreeing 4 "c")

def failedAgainEvents : List SystemEvent := List.replicate 39 (.input (failing 4 "gone"))

def recoveredEvents : List SystemEvent :=
  [.crash] ++ (Call.recover 500000000 true).events 31 (.agreeing 500000000 "d")

def stateOf (w : World) (id : String) : Option OperationState :=
  (w.operations.get id).map (·.state)

def derivedOf (w : World) : Option Derived :=
  (w.operations.get "op-1-rollback").bind (·.derived)

def accepts (w : World) : Bool :=
  (w.operations.get "op-1-rollback").any fun child =>
    (preflight plainDigests w (.ok ()) child).toBool

def renewed (parent : Operation) (m : System) : SystemEvent → Bool
  | .input _ => match m.running with
    | some (.access (.saveOperation _ op) _) =>
      op.id != parent.id || op.state != .failed ||
        (m.store.operations.get parent.id).any (·.state = .failed) ||
        ((head op).length == (head parent).length && head op != head parent)
    | _ => true
  | _ => true

theorem allows_of_renewed (m : System) (event : SystemEvent) (ok : renewed parent m event = true) :
    (renewing plainDigests parent.id
      (plainDigests.rendered (authority plainDigests parent plan))).setting.Allows
      (fun _ _ => True) m event := by
  obtain ⟨store, running⟩ := m
  cases event with
  | call c => exact fun _ => trivial
  | intrude paused => trivial
  | crash => trivial
  | input i =>
    match running with
    | none => trivial
    | some (.ret _) => trivial
    | some (.raise _) => trivial
    | some .halt => trivial
    | some (.access command next) =>
      cases command with
      | saveOperation site op =>
        intro named failed unfailed now
        have others : (store.operations.get parent.id).any (·.state = .failed) = false := by
          cases found : store.operations.get parent.id with
          | none => rfl
          | some base => simpa using unfailed base found
        simp only [renewed, named, failed, others, bne_self_eq_false, Bool.false_or,
          Bool.and_eq_true, beq_iff_eq, bne_iff_ne] at ok
        exact spell_ne_of_head ok.1 ok.2 now plan
      | _ => trivial

theorem renewed_failure_refused :
    stateOf (System.start.run retriedEvents).store "op-1" = some .retrying ∧
      stateOf (System.start.run (retriedEvents ++ failedAgainEvents)).store "op-1" =
        some .failed ∧
      ∃ parent child, (System.start.run preparedEvents).store.operations.get "op-1" =
          some parent ∧ parent.state = .failed ∧
        (System.start.run preparedEvents).store.operations.get "op-1-rollback" = some child ∧
        (∃ fault, preflight plainDigests
          (System.start.run (retriedEvents ++ failedAgainEvents)).store (.ok ()) child =
            .error fault) ∧
        preflight plainDigests { (System.start.run preparedEvents).store.put
          (relinked parent none none 0) with receipts := ∅ } (.ok ()) child =
            preflight plainDigests (System.start.run preparedEvents).store (.ok ()) child := by
  obtain ⟨parent, stored⟩ : ∃ parent,
      (System.start.run preparedEvents).store.operations.get "op-1" = some parent :=
    Option.isSome_iff_exists.mp (by decide +kernel)
  obtain ⟨plan, planned⟩ : ∃ plan,
      (System.start.run preparedEvents).store.plans.get "op-1" = some plan :=
    Option.isSome_iff_exists.mp (by decide +kernel)
  obtain ⟨child, prepared⟩ : ∃ child,
      (System.start.run preparedEvents).store.operations.get "op-1-rollback" = some child :=
    Option.isSome_iff_exists.mp (by decide +kernel)
  have named : parent.id = "op-1" := (Recovery.reached preparedEvents).1.keyed stored
  have failed : parent.state = .failed := by
    have state : stateOf (System.start.run preparedEvents).store "op-1" = some .failed := by
      decide +kernel
    simpa [stateOf, stored] using state
  have derived : child.derived =
      some ⟨parent.id, rollbackFailureAuthorityDigest plainDigests parent plan⟩ := by
    have given : derivedOf (System.start.run preparedEvents).store =
        (storedDigest (System.start.run preparedEvents).store).map (⟨"op-1", ·⟩) := by
      decide +kernel
    simpa [derivedOf, storedDigest, prepared, stored, planned, named] using given
  have retrying : stateOf (System.start.run retriedEvents).store "op-1" = some .retrying := by
    decide +kernel
  have renews : (System.start.run retriedEvents).checks (renewed parent) failedAgainEvents =
      true := by
    have all : ((System.start.run preparedEvents).store.operations.get "op-1").all (fun parent =>
        (System.start.run retriedEvents).checks (renewed parent) failedAgainEvents) = true := by
      decide +kernel
    rw [stored, Option.all_some] at all
    exact all
  refine ⟨retrying, by decide +kernel, parent, child, stored, failed, prepared, ?_, ?_⟩
  · refine (authority_follows_failure plainDigests).1 retriedEvents failedAgainEvents parent child
      plan derived (fun op found => ?_) (Terms.meets_of_checks allows_of_renewed renews) (.ok ())
    rw [named] at found
    have state : op.state = .retrying := by simpa [stateOf, found] using retrying
    rw [state]
    decide
  · exact (authority_follows_failure plainDigests).2 _ parent child none none 0 ∅ (.ok ())
      (named.symm ▸ stored)

/-- The retry is lost, and recovery stores the failure that the child was prepared from. -/
theorem recovered_retry_accepted :
    stateOf (System.start.run preparedEvents).store "op-1" = some .failed ∧
      derivedOf (System.start.run preparedEvents).store =
        (storedDigest (System.start.run preparedEvents).store).map (⟨"op-1", ·⟩) ∧
      stateOf (System.start.run retriedEvents).store "op-1" = some .retrying ∧
      accepts (System.start.run (retriedEvents ++ recoveredEvents)).store = true := by
  decide +kernel

end RExecOp.RollbackAuthority
