import RExecOp.AttemptAuthority
import RExecOp.Calls

/-! No connector is dispatched on stale authority: what the check before I/O accepts,
against what the permit of the attempt was issued for. -/

namespace RExecOp.Permits

open Attempts (Attempt)
open Lease (Instant LeaseRecord)

variable {fault : Fault} {holds : Bool} {cur : Bound} {decision : GovernanceDecision}
  {artifact : SignedArtifact} {content out : PermitContent} {bindingMode : BindingMode}
  {issuedAt : Instant} {op : Operation} {plan : OperationPlan} {α : Type}

/-- What the accesses of a process find, one after the other. -/
abbrev Findings := Nat → Input × World

variable {now rest : Findings}

section Follow

variable {α β : Type} {found rest : Findings} {value : β} {next : α → Program β}

theorem follow_pure {b : β} :
    (pure b : Program β).follow found = (.returned value, rest) ↔ b = value ∧ found = rest := by
  simp [Prog.follow]

theorem follow_raise :
    (raise fault : Program β).follow found = (.returned value, rest) ↔ False := by
  simp [raise, Prog.follow]

theorem follow_ofExcept {result : Except Fault β} :
    (ofExcept result).follow found = (.returned value, rest) ↔
      result = .ok value ∧ found = rest := by
  cases result <;> simp [ofExcept, Prog.ofExcept, Prog.follow]

theorem follow_access {command : Command} {reply : Input → World → Except Fault β} :
    (access command reply).follow found = (.returned value, rest) ↔
      (found 0).1.fault = none ∧ reply (found 0).1 (found 0).2 = .ok value ∧
        (fun n => found (n + 1)) = rest := by
  refine Iff.trans follow_ofExcept ?_
  dsimp only
  cases (found 0).1.fault <;> simp

theorem follow_require :
    (require holds fault).follow found = (.returned (), rest) ↔ holds = true ∧ found = rest := by
  cases holds <;> simp [require, raise, Prog.follow]

theorem follow_require_bind {next : Unit → Program β} :
    (require holds fault >>= next).follow found = (.returned value, rest) ↔
      holds = true ∧ (next ()).follow found = (.returned value, rest) := by
  cases holds <;> simp [require, raise, Prog.follow, Prog.bind]

theorem follow_bind_require {p : Program Unit} :
    (p >>= fun _ => require holds fault).follow found = (.returned (), rest) ↔
      p.follow found = (.returned (), rest) ∧ holds = true := by
  simp only [Prog.follow_bind_returned, follow_require]
  constructor
  · intro ⟨_, _, run, met, here⟩
    exact ⟨here ▸ run, met⟩
  · intro ⟨run, met⟩
    exact ⟨(), rest, run, met, rfl⟩

theorem follow_ofExcept_bind {result : Except Fault α} :
    (ofExcept result >>= next).follow found = (.returned value, rest) ↔
      ∃ a, result = .ok a ∧ (next a).follow found = (.returned value, rest) := by
  cases result <;> simp [ofExcept, Prog.ofExcept, Prog.follow, Prog.bind]

theorem follow_clock_bind {next : Instant → Program β} :
    (clock >>= next).follow found = (.returned value, rest) ↔
      (next (wholeSeconds (found 0).1.now)).follow (fun n => found (n + 1)) =
        (.returned value, rest) :=
  Iff.rfl

theorem follow_access_bind {command : Command} {reply : Input → World → Except Fault α} :
    (access command reply >>= next).follow found = (.returned value, rest) ↔
      (found 0).1.fault = none ∧ ∃ a, reply (found 0).1 (found 0).2 = .ok a ∧
        (next a).follow (fun n => found (n + 1)) = (.returned value, rest) := by
  simp only [Prog.follow_bind_returned, follow_access]
  constructor
  · intro ⟨a, _, ⟨unfaulted, replied, here⟩, run⟩
    rw [here]
    exact ⟨unfaulted, a, replied, run⟩
  · intro ⟨unfaulted, a, replied, run⟩
    exact ⟨a, _, ⟨unfaulted, replied, rfl⟩, run⟩

end Follow

theorem driftOf_isEmpty {entries : List (String × Bool)} :
    (driftOf entries).isEmpty = true ↔ ∀ entry ∈ entries, entry.2 = true := by
  simp only [driftOf, List.isEmpty_iff, List.filterMap_eq_nil_iff]
  refine forall₂_congr fun entry _ => ?_
  split <;> simp_all

def Bound.decisionExpiry (b : Bound) : Option Instant :=
  b.claim.bind fun claim => claim.1.authorization.bind (·.expiresAt)

section Permit

variable {D : Digests} {b : Bound} {stepId : String} {found rest : Findings} {permit : Permit}

theorem issue_returned (issued : (issue D b stepId).follow found = (.returned permit, rest)) :
    ∃ bindingMode, b.governanceBindingMode = .ok bindingMode ∧
      bindClaim D b (permitContent D b stepId bindingMode (wholeSeconds (found 0).1.now)) =
        .ok permit.toPermitContent ∧
      permit.permitDigest = recordDigest D permit.toPermitContent := by
  simp only [issue, check, ask, follow_clock_bind, follow_ofExcept_bind, follow_access_bind,
    follow_pure] at issued
  obtain ⟨mode, bound, content, claimed, -, _, -, rfl, -⟩ := issued
  exact ⟨mode, bound, claimed, rfl⟩

theorem requireFresh_returned (schema : permit.schema = executionPermitSchema)
    (digest : permit.permitDigest = recordDigest D permit.toPermitContent) :
    (requireFresh D permit cur).follow found = (.returned (), rest) ↔
      wholeSeconds (found 0).1.now < permit.expiresAt ∧
      (bindingDrift D permit cur).isEmpty = true ∧
      (found 1).1.fault = none ∧
      Lease.validate (found 1).2.lease cur.lease.credential (found 1).1.now = .ok () ∧
      cur.governanceBindingMode = .ok permit.governanceBindingMode ∧
      (requireClaim D permit cur).follow (fun n => found (n + 2)) = (.returned (), rest) ∧
      cur.targetBinding.target = cur.operation.target := by
  simp only [requireFresh, requireNoDrift, follow_require_bind, follow_clock_bind,
    follow_access_bind, follow_ofExcept_bind, follow_bind_require, digest, schema, decide_true,
    decide_eq_true_eq, true_and]
  constructor
  · intro ⟨unexpired, undrifted, unfaulted, _, valid, _, mode, same, claim, target⟩
    exact ⟨unexpired, undrifted, unfaulted, valid, same ▸ mode, claim, target⟩
  · intro ⟨unexpired, undrifted, unfaulted, valid, mode, claim, target⟩
    exact ⟨unexpired, undrifted, unfaulted, (), valid, _, mode, rfl, claim, target⟩

theorem requireClaim_unclaimed (unclaimed : cur.claim = none) :
    (requireClaim D permit cur).follow found = (.returned (), rest) ↔ found = rest := by
  simp only [requireClaim, unclaimed, follow_pure, true_and]

theorem requireClaim_claimed {grant : Grant} {expiry : Instant} {binding : DecisionBinding}
    (claimed : cur.claim = some (decision, artifact))
    (granted : grantOf decision = .ok (grant, expiry))
    (bound : permit.governanceDecision = some binding) :
    (requireClaim D permit cur).follow found = (.returned (), rest) ↔
      wholeSeconds (found 0).1.now < expiry ∧
      (governanceDrift binding (decisionBinding D decision grant artifact)).isEmpty = true ∧
      (requireGovernedBinding permit cur).follow (fun n => found (n + 1)) =
        (.returned (), rest) := by
  simp only [requireClaim, claimed, granted, bound, requireNoDrift, follow_ofExcept_bind,
    follow_clock_bind, follow_require_bind, Except.ok.injEq, exists_eq_left', decide_eq_true_eq]

theorem bindClaim_frame (claimed : bindClaim D b content = .ok out) : out = { content with
      expiresAt := out.expiresAt
      governanceDecision := out.governanceDecision
      governedAdmissionBinding := out.governedAdmissionBinding } := by
  unfold bindClaim at claimed
  split at claimed
  · split at claimed <;> cases claimed
    rfl
  · next decision artifact _ =>
    cases granted : grantOf decision with
    | error fault =>
      rw [granted] at claimed
      cases claimed
    | ok grant =>
      rw [granted] at claimed
      cases governed : b.governedClaim with
      | none =>
        rw [governed] at claimed
        cases claimed
        rfl
      | some claim =>
        rw [governed] at claimed
        dsimp only [Bind.bind, Except.bind] at claimed
        split at claimed
        · cases claimed
        · cases claimed
          rfl

theorem bindClaim_unclaimed (unclaimed : b.claim = none)
    (claimed : bindClaim D b content = .ok out) : out = content := by
  unfold bindClaim at claimed
  rw [unclaimed] at claimed
  dsimp only at claimed
  split at claimed <;> cases claimed
  rfl

theorem bindClaim_claimed (claim : b.claim = some (decision, artifact))
    (claimed : bindClaim D b content = .ok out) :
    ∃ grant expiry, grantOf decision = .ok (grant, expiry) ∧
      out.expiresAt = min expiry content.expiresAt ∧
      out.governanceDecision = some (decisionBinding D decision grant artifact) ∧
      ∀ governed, b.governedClaim = some governed →
        out.governedAdmissionBinding = some (governedAttemptBinding governed) ∧
        b.operation.mode = governed.expectedActualOperationMode ∧
        governed.expectedActualOperationMode =
          (governedAttemptBinding governed).actualOperationMode := by
  unfold bindClaim at claimed
  rw [claim] at claimed
  cases granted : grantOf decision with
  | error fault =>
    simp only [granted] at claimed
    cases claimed
  | ok found =>
    obtain ⟨grant, expiry⟩ := found
    simp only [granted] at claimed
    refine ⟨grant, expiry, rfl, ?_⟩
    cases governed : b.governedClaim with
    | none =>
      simp only [governed] at claimed
      cases claimed
      exact ⟨rfl, rfl, nofun⟩
    | some claim =>
      simp only [governed, Bind.bind, Except.bind, requireGovernedActualOperationMode] at claimed
      split at claimed
      · cases claimed
      · next checked =>
        split at checked
        · next modes =>
          cases claimed
          refine ⟨rfl, rfl, fun _ same => ?_⟩
          cases same
          exact ⟨rfl, modes.2.1, modes.2.2⟩
        · cases checked

theorem decisionExpiry_claimed {grant : Grant} {expiry : Instant}
    (claim : b.claim = some (decision, artifact))
    (granted : grantOf decision = .ok (grant, expiry)) : b.decisionExpiry = some expiry := by
  unfold grantOf at granted
  split at granted
  · cases granted
  · next authorized =>
    split at granted
    · cases granted
    · next timed =>
      cases granted
      simp only [Bound.decisionExpiry, claim, Option.bind_some, authorized, timed]

theorem expiresAt_issued {issuedAt now : Instant}
    (claimed : bindClaim D b (permitContent D b stepId bindingMode issuedAt) =
      .ok permit.toPermitContent) :
    now < permit.expiresAt ↔ now < issuedAt + permitTtl ∧
      ∀ expiry, b.decisionExpiry = some expiry → now < expiry := by
  cases claim : b.claim with
  | none =>
    have same := congrArg PermitContent.expiresAt (bindClaim_unclaimed claim claimed)
    have untimed : b.decisionExpiry = none := by
      rw [Bound.decisionExpiry, claim]
      rfl
    simp [same, permitContent, untimed]
  | some found =>
    obtain ⟨grant, expiry, granted, expires, -⟩ := bindClaim_claimed claim claimed
    rw [expires, decisionExpiry_claimed claim granted, lt_min_iff, and_comm]
    simp [permitContent]

theorem requireClaim_issued
    (claimed : bindClaim D b (permitContent D b stepId bindingMode issuedAt) =
      .ok permit.toPermitContent)
    (mode : b.operation.mode = op.mode) :
    (requireClaim D permit { b with operation := op, plan := plan }).follow found =
        (.returned (), rest) ↔
      (∀ expiry, b.decisionExpiry = some expiry → wholeSeconds (found 0).1.now < expiry) ∧
        rest = fun n => found (n + if b.claim.isSome then 1 else 0) := by
  cases claim : b.claim with
  | none =>
    have untimed : b.decisionExpiry = none := by
      rw [Bound.decisionExpiry, claim]
      rfl
    have unclaimed : ({ b with operation := op, plan := plan } : Bound).claim = none := claim
    rw [requireClaim_unclaimed unclaimed]
    simp [untimed, eq_comm]
  | some claimant =>
    obtain ⟨decision, artifact⟩ := claimant
    obtain ⟨grant, expiry, granted, -, bound, governs⟩ := bindClaim_claimed claim claimed
    have current : ({ b with operation := op, plan := plan } : Bound).claim =
      some (decision, artifact) := claim
    have undrifted : (governanceDrift (decisionBinding D decision grant artifact)
        (decisionBinding D decision grant artifact)).isEmpty = true := by
      simp [governanceDrift, driftOf]
    have governed : (requireGovernedBinding permit { b with operation := op, plan := plan }).follow
        (fun n => found (n + 1)) = (.returned (), rest) ↔ (fun n => found (n + 1)) = rest := by
      unfold requireGovernedBinding
      cases attempt : b.governedClaim with
      | none => simp only [follow_pure, true_and]
      | some governed =>
        obtain ⟨admitted, expected, actual⟩ := governs governed attempt
        have permitted : permit.mode = b.operation.mode :=
          congrArg PermitContent.mode (bindClaim_frame claimed)
        have modes : requireGovernedActualOperationMode permit.mode op.mode governed stalePermit =
            .ok () := if_pos ⟨permitted.trans mode, mode.symm.trans expected, actual⟩
        simp only [modes, follow_ofExcept_bind, follow_require, admitted, decide_true, true_and,
          exists_const]
    rw [requireClaim_claimed current granted bound, governed, undrifted,
      decisionExpiry_claimed claim granted]
    simp [eq_comm]

theorem bindingDrift_issued
    (claimed : bindClaim D b (permitContent D b stepId bindingMode issuedAt) =
      .ok permit.toPermitContent) :
    (bindingDrift D permit { b with operation := op, plan := plan }).isEmpty = true ↔
      b.operation.id = op.id ∧ b.operation.revision = op.revision ∧
      b.operation.mode = op.mode ∧
      b.operation.govengineDecisionType = op.govengineDecisionType ∧
      D.sha (.plan b.plan) = D.sha (.plan plan) := by
  have frame := bindClaim_frame claimed
  obtain ⟨content, digest⟩ := permit
  dsimp only at frame
  rw [frame]
  simp only [bindingDrift, driftOf_isEmpty, permitContent, List.forall_mem_cons, beq_self_eq_true,
    beq_iff_eq, true_and, List.not_mem_nil, false_implies, implies_true, and_true]
  constructor
  · intro ⟨type, mode, named, revision, planned⟩
    exact ⟨named, revision, mode, of_decide_eq_true type, planned⟩
  · intro ⟨named, revision, mode, type, planned⟩
    exact ⟨decide_eq_true type, mode, named, revision, planned⟩

theorem requireFresh_issued (bound : b.governanceBindingMode = .ok bindingMode)
    (claimed : bindClaim D b (permitContent D b stepId bindingMode issuedAt) =
      .ok permit.toPermitContent)
    (digest : permit.permitDigest = recordDigest D permit.toPermitContent) :
    (requireFresh D permit { b with operation := op, plan := plan }).follow found =
        (.returned (), rest) ↔
      (b.operation.id = op.id ∧ b.operation.revision = op.revision ∧
        b.operation.mode = op.mode ∧
        b.operation.govengineDecisionType = op.govengineDecisionType ∧
        D.sha (.plan b.plan) = D.sha (.plan plan)) ∧
      b.targetBinding.target = op.target ∧
      wholeSeconds (found 0).1.now < issuedAt + permitTtl ∧
      (∀ expiry, b.decisionExpiry = some expiry → wholeSeconds (found 0).1.now < expiry ∧
        wholeSeconds (found 2).1.now < expiry) ∧
      (found 1).1.fault = none ∧
      Lease.validate (found 1).2.lease b.lease.credential (found 1).1.now = .ok () ∧
      rest = fun n => found (n + if b.claim.isSome then 3 else 2) := by
  have frame := bindClaim_frame claimed
  have schema : permit.schema = executionPermitSchema := congrArg PermitContent.schema frame
  have mode : b.governanceBindingMode = .ok permit.governanceBindingMode := by
    rw [bound, congrArg PermitContent.governanceBindingMode frame]
    rfl
  have tail : (fun n => found ((n + if b.claim.isSome then 1 else 0) + 2)) =
      fun n => found (n + if b.claim.isSome then 3 else 2) := by
    funext n
    split <;> rfl
  rw [requireFresh_returned schema digest, bindingDrift_issued claimed, expiresAt_issued claimed]
  constructor
  · intro ⟨⟨lives, decided⟩, same, unfaulted, valid, _, claim, target⟩
    obtain ⟨again, here⟩ := (requireClaim_issued claimed same.2.2.1).mp claim
    refine ⟨same, target, lives, fun expiry timed => ?_, unfaulted, valid, here.trans tail⟩
    exact ⟨decided expiry timed, again expiry timed⟩
  · intro ⟨same, target, lives, decided, unfaulted, valid, here⟩
    refine ⟨⟨lives, fun expiry timed => (decided expiry timed).1⟩, same, unfaulted, valid, mode, ?_,
      target⟩
    refine (requireClaim_issued claimed same.2.2.1).mpr
      ⟨fun expiry timed => ?_, here.trans tail.symm⟩
    exact (decided expiry timed).2

end Permit

section Start

variable {runtime : Runtime} {lease : LeaseRecord} {ctx : ConnectorStep} {found rest : Findings}
  {attempt : RuntimeAttempt}

theorem loadOperation_returned {id : String} :
    (loadOperation id).follow found = (.returned op, rest) ↔ (found 0).1.fault = none ∧
      (found 0).2.loadOperation id = .ok op ∧ (fun n => found (n + 1)) = rest :=
  follow_access

theorem preflight_returned
    (run : (preflightRollbackAuthority op).follow found = (.returned plan, rest)) :
    (found 0).2.loadPlan op.id = .ok plan := by
  obtain ⟨loaded, _, loads, checks⟩ := Prog.follow_bind_returned.mp run
  obtain ⟨_, _, -, parents⟩ := Prog.follow_bind_returned.mp checks
  obtain ⟨_, _, -, ends⟩ := Prog.follow_bind_returned.mp parents
  obtain ⟨same, -⟩ := follow_pure.mp ends
  rw [same] at loads
  exact (follow_access.mp loads).2.1

theorem requireSameFacts_returned {facts : Facts} {again : Except Fault Facts} :
    (requireSameFacts facts again).follow found = (.returned (), rest) ↔
      again = .ok facts ∧ found = rest := by
  simp only [requireSameFacts, follow_ofExcept_bind, follow_require, decide_eq_true_eq]
  constructor
  · intro ⟨current, built, same, here⟩
    exact ⟨same ▸ built, here⟩
  · intro ⟨built, here⟩
    exact ⟨facts, built, rfl, here⟩

theorem claimAuthority_returned {spec : ExecutionSpec} {attemptId : String}
    {claims : Option ClaimedGovernanceDecision × Option ClaimedGovernedAttempt}
    (run : (claimAuthority runtime lease op ctx spec attemptId).follow found = (.returned claims,
      rest))
    {governed : ClaimedGovernedAttempt} (claimed : claims.2 = some governed) :
    stepFacts runtime lease op ctx spec attemptId = .ok governed.facts ∧
      runtime.governedAttemptConsumer.isSome = true := by
  unfold claimAuthority at run
  split at run
  · split at run
    · exact (follow_raise.mp run).elim
    · next authority there =>
      obtain ⟨facts, built, run⟩ := follow_ofExcept_bind.mp run
      obtain ⟨claim, _, authorizes, run⟩ := Prog.follow_bind_returned.mp run
      obtain ⟨_, _, -, ends⟩ := Prog.follow_bind_returned.mp run
      obtain ⟨same, -⟩ := follow_pure.mp ends
      simp only [authorizeGoverned, check, claimOnce, ask, follow_access_bind, follow_ofExcept_bind,
        follow_require_bind, follow_pure] at authorizes
      obtain ⟨-, _, -, bundle, -, -, _, -, -, -, _, -, holds, -⟩ := authorizes
      rw [← same] at claimed
      cases claimed
      rw [← holds]
      exact ⟨built, by rw [there]; rfl⟩
  · split at run
    · cases (follow_pure.mp run).1
      cases claimed
    · obtain ⟨facts, built, run⟩ := follow_ofExcept_bind.mp run
      obtain ⟨claim, _, authorizes, run⟩ := Prog.follow_bind_returned.mp run
      obtain ⟨_, _, -, ends⟩ := Prog.follow_bind_returned.mp run
      cases (follow_pure.mp ends).1
      cases claimed

theorem startRecord_returned {attemptId : String} {record : Attempt}
    (run : (startRecord lease op ctx attemptId).follow found = (.returned record, rest)) :
    record.operationId = op.id ∧ record.attemptId = attemptId ∧ record.stepId = ctx.step.id := by
  simp only [startRecord, follow_access_bind, follow_access] at run
  obtain ⟨-, pending, built, -, marked, -⟩ := run
  unfold World.startAttempt Attempts.buildPendingAttempt at built
  split at built
  · cases built
  · split at built
    · cases built
    · cases built
      cases marked
      exact ⟨rfl, rfl, rfl⟩

variable (runtime lease ctx found attempt) in
/-- What the permit was issued for, as the start of the attempt finds it. -/
structure IssuedFor (b : Bound) (issuedAt : Instant) : Prop where
  stored : ∃ n, (found n).2.operations.get ctx.operationId = some b.operation
  planned : ∃ n, (found n).2.plans.get b.operation.id = some b.plan
  issued : ∃ n rest, issuedAt = wholeSeconds (found n).1.now ∧
    (issue runtime.digests b ctx.step.id).follow (fun k => found (n + k)) =
      (.returned attempt.permit, rest)
  held : b.lease = lease
  kept : attempt = b.attempt attempt.permit attempt.record
  operationId : attempt.record.operationId = b.operation.id
  attemptId : attempt.record.attemptId = b.attemptId
  facts : ∀ governed, b.governedClaim = some governed →
    buildFacts runtime.digests b.operation.id attempt.record.stepId b.attemptId
      b.targetBinding.target b.executionSpec b.lease runtime.inventoryEpoch = .ok governed.facts ∧
    runtime.governedAttemptConsumer.isSome = true

theorem point_of_follow {p : Program α} {n : Nat} {mid : Findings} {outcome : Prog.Outcome Fault α}
    (run : p.follow (fun k => found (n + k)) = (outcome, mid)) :
    ∃ m, mid = fun k => found (m + k) := by
  obtain ⟨made, rest⟩ := p.follow_rest fun k => found (n + k)
  rw [run] at rest
  refine ⟨n + made, rest.trans (funext fun k => ?_)⟩
  rw [Nat.add_assoc]

theorem startAttempt_returned
    (run : (startAttempt runtime lease ctx).follow found = (.returned attempt, rest)) :
    ∃ b issuedAt, IssuedFor runtime lease ctx found attempt b issuedAt := by
  obtain ⟨-, _, -, run⟩ := follow_access_bind.mp run
  obtain ⟨op, _, loads, run⟩ := Prog.follow_bind_returned.mp run
  obtain ⟨-, loaded, rfl⟩ := loadOperation_returned.mp loads
  obtain ⟨plan, mid, checks, run⟩ := Prog.follow_bind_returned.mp run
  have planned := preflight_returned checks
  have here : (fun n => found (n + 1 + 1)) = fun k => found (2 + k) := by
    funext k
    rw [Nat.add_comm 2 k]
  rw [here] at checks
  obtain ⟨n, rfl⟩ := point_of_follow checks
  obtain ⟨-, run⟩ := follow_require_bind.mp run
  obtain ⟨_, mid, precheck, run⟩ := Prog.follow_bind_returned.mp run
  obtain ⟨n, rfl⟩ := point_of_follow precheck
  obtain ⟨attemptId, mid, allocates, run⟩ := Prog.follow_bind_returned.mp run
  obtain ⟨n, rfl⟩ := point_of_follow allocates
  obtain ⟨claims, mid, authorizes, run⟩ := Prog.follow_bind_returned.mp run
  obtain ⟨m, rfl⟩ := point_of_follow authorizes
  obtain ⟨permit, mid, issues, run⟩ := Prog.follow_bind_returned.mp run
  obtain ⟨record, _, records, run⟩ := Prog.follow_bind_returned.mp run
  obtain ⟨operationId, recordId, stepId⟩ := startRecord_returned records
  obtain ⟨rfl, -⟩ := follow_pure.mp run
  refine ⟨boundOf runtime lease op plan ctx attemptId claims, wholeSeconds (found m).1.now, ?_⟩
  exact {
    stored := ⟨1, World.loadOperation_ok loaded⟩
    planned := ⟨2, World.loadPlan_ok planned⟩
    issued := ⟨m, mid, rfl, issues⟩
    held := rfl
    kept := rfl
    operationId := operationId
    attemptId := recordId
    facts := fun governed claimed => by
      have built := claimAuthority_returned authorizes claimed
      rw [show (Bound.attempt (boundOf runtime lease op plan ctx attemptId claims) permit
        record).record.stepId = ctx.step.id from stepId]
      exact built }

end Start

structure Authority where
  operationId : String
  operationRevision : Nat
  mode : String
  govengineDecisionType : Option DecisionType
  plan : OperationPlan
  attemptId : String
  executionSpecDigest : String
  governanceAdmissionDigest : String
  targetBinding : TargetBinding
  leaseEpoch : Int
  processInstanceId : String
  governanceClaim : Option ClaimedGovernanceDecision
  governedClaim : Option ClaimedGovernedAttempt

def Bound.authority (b : Bound) : Authority where
  operationId := b.operation.id
  operationRevision := b.operation.revision
  mode := b.operation.mode
  govengineDecisionType := b.operation.govengineDecisionType
  plan := b.plan
  attemptId := b.attemptId
  executionSpecDigest := b.executionSpec.digest
  governanceAdmissionDigest := b.governanceAdmissionDigest
  targetBinding := b.targetBinding
  leaseEpoch := b.lease.leaseEpoch
  processInstanceId := b.lease.processInstanceId
  governanceClaim := b.governanceClaim
  governedClaim := b.governedClaim

/-- The check before I/O finds what the permit was issued for, in time and under a valid lease. -/
def Matches (runtime : Runtime) (lease : LeaseRecord) (attempt : RuntimeAttempt) (issued : Bound)
    (issuedAt : Instant) (found mid : Findings) : Prop :=
  ∃ op plan, (storedAuthority attempt).follow found = (.returned (op, plan), mid) ∧
    (attempt.bound lease op plan).authority = issued.authority ∧
    attempt.targetBinding.target = op.target ∧
    attempt.permit.permitDigest = recordDigest runtime.digests attempt.permit.toPermitContent ∧
    (mid 0).1.now < issuedAt + permitTtl ∧
    (mid 1).1.fault = none ∧
    Lease.validate (mid 1).2.lease lease.credential (mid 1).1.now = .ok () ∧
    (attempt.governedClaim.isSome = true → (mid 3).1.fault = none)

def Undecayed (clock : Instant → Instant) (issued : Bound) (mid : Findings) : Prop :=
  ∀ expiry, issued.decisionExpiry = some expiry →
    clock (mid 0).1.now < expiry ∧ clock (mid 2).1.now < expiry

/-- The attempt's authority is that of the permit, and not out of time. -/
def Current (runtime : Runtime) (lease : LeaseRecord) (attempt : RuntimeAttempt) (issued : Bound)
    (issuedAt : Instant) (found : Findings) : Prop :=
  ∃ mid, Matches runtime lease attempt issued issuedAt found mid ∧ Undecayed id issued mid

/-- The decision behind the permit expires at a whole second. -/
def Bound.ExpiresOnTheSecond (b : Bound) : Prop :=
  ∀ expiry, b.decisionExpiry = some expiry → wholeSeconds expiry = expiry

theorem wholeSeconds_le (now : Instant) : wholeSeconds now ≤ now :=
  Int.sub_le_self now (Int.emod_nonneg now (by decide))

theorem wholeSeconds_lt_iff {now expiry : Instant} (whole : wholeSeconds expiry = expiry) :
    wholeSeconds now < expiry ↔ now < expiry := by
  have rounded : ∀ now expiry : Int, expiry - expiry % 1000000 = expiry →
      (now - now % 1000000 < expiry ↔ now < expiry) := by
    intro now expiry whole
    omega
  exact rounded now expiry whole

theorem wholeSeconds_add_permitTtl (now : Instant) :
    wholeSeconds (wholeSeconds now + permitTtl) = wholeSeconds now + permitTtl := by
  have minutes : ∀ now : Int, now - now % 1000000 + 60000000 -
      (now - now % 1000000 + 60000000) % 1000000 = now - now % 1000000 + 60000000 := by
    intro now
    omega
  exact minutes now

theorem Undecayed.whole {issued : Bound} {mid : Findings} (undecayed : Undecayed id issued mid) :
    Undecayed wholeSeconds issued mid := by
  intro expiry timed
  obtain ⟨first, second⟩ := undecayed expiry timed
  exact ⟨(wholeSeconds_le _).trans_lt first, (wholeSeconds_le _).trans_lt second⟩

theorem Undecayed.exact {issued : Bound} {mid : Findings} (whole : issued.ExpiresOnTheSecond)
    (undecayed : Undecayed wholeSeconds issued mid) : Undecayed id issued mid := by
  intro expiry timed
  obtain ⟨first, second⟩ := undecayed expiry timed
  have on := whole expiry timed
  exact ⟨(wholeSeconds_lt_iff on).mp first, (wholeSeconds_lt_iff on).mp second⟩

section Check

variable {runtime : Runtime} {lease : LeaseRecord} {ctx : ConnectorStep} {found : Findings}
  {attempt : RuntimeAttempt} {issued : Bound} {issuedAt : Instant}

theorem IssuedFor.bound (start : IssuedFor runtime lease ctx found attempt issued issuedAt)
    (op : Operation) (plan : OperationPlan) :
    attempt.bound lease op plan = { issued with operation := op, plan := plan } := by
  rw [RuntimeAttempt.bound, start.attemptId, start.kept, ← start.held]
  rfl

def PlanFound (found : Findings) (plan : OperationPlan) : Prop :=
  ∃ n id, (found n).2.plans.get id = some plan

def PlanDigestsDiffer (D : Digests) (found : Findings) : Prop :=
  ∀ first second, PlanFound found first → PlanFound found second →
    D.canonical (.plan first) = D.canonical (.plan second) → first = second

theorem canonical_of_sha {D : Digests} {first second : Document}
    (same : D.sha first = D.sha second) : D.canonical first = D.canonical second := by
  have bare := congrArg String.toList same
  simp only [Digests.sha, String.toList_append, List.append_cancel_left_eq] at bare
  exact String.toList_inj.mp bare

theorem planFound_of_storedAuthority
    (run : (storedAuthority attempt).follow now = (.returned (op, plan), rest)) :
    PlanFound now plan := by
  obtain ⟨_, _, loads, run⟩ := Prog.follow_bind_returned.mp run
  obtain ⟨-, -, rfl⟩ := loadOperation_returned.mp loads
  obtain ⟨_, _, checks, ends⟩ := Prog.follow_bind_returned.mp run
  have planned := World.loadPlan_ok (preflight_returned checks)
  cases (follow_pure.mp ends).1
  exact ⟨1, _, planned⟩

theorem requireGovernedFacts_rest
    (run : (requireGovernedFacts runtime lease attempt op).follow now = (.returned (), rest)) :
    now = rest := by
  unfold requireGovernedFacts at run
  split at run
  · exact (follow_pure.mp run).2
  · exact (requireSameFacts_returned.mp run).2

theorem requireGovernedFacts_returned
    (start : IssuedFor runtime lease ctx found attempt issued issuedAt)
    (named : issued.operation.id = op.id) :
    (requireGovernedFacts runtime lease attempt op).follow now = (.returned (), rest) ↔
      now = rest := by
  have kept : attempt.governedClaim = issued.governedClaim :=
    congrArg RuntimeAttempt.governedClaim start.kept
  unfold requireGovernedFacts
  rw [kept]
  cases claim : issued.governedClaim with
  | none => simp only [follow_pure, true_and]
  | some governed =>
    have built := (start.facts governed claim).1
    have same : buildFacts runtime.digests op.id attempt.record.stepId attempt.record.attemptId
        attempt.targetBinding.target attempt.executionSpec lease runtime.inventoryEpoch =
          .ok governed.facts := by
      rw [← named, start.attemptId, ← start.held,
        congrArg RuntimeAttempt.targetBinding start.kept,
        congrArg RuntimeAttempt.executionSpec start.kept]
      exact built
    simp only [requireSameFacts_returned, same, true_and]

theorem requireCurrent_returned
    (start : IssuedFor runtime lease ctx found attempt issued issuedAt) :
    (∃ rest, (requireCurrent runtime attempt).follow now = (.returned (), rest)) ↔
      (attempt.governedClaim.isSome = true → (now 0).1.fault = none) := by
  have kept : attempt.governedClaim = issued.governedClaim :=
    congrArg RuntimeAttempt.governedClaim start.kept
  unfold requireCurrent
  rw [kept]
  cases claim : issued.governedClaim with
  | none => exact ⟨fun _ => nofun, fun _ => ⟨now, rfl⟩⟩
  | some governed =>
    have there := (start.facts governed claim).2
    rw [Option.isSome_some, if_pos rfl, Option.isNone_eq_false_iff.mpr there]
    simp [check, ask, follow_access]

theorem authority_iff (start : IssuedFor runtime lease ctx found attempt issued issuedAt) :
    (attempt.bound lease op plan).authority = issued.authority ↔
      issued.operation.id = op.id ∧ issued.operation.revision = op.revision ∧
      issued.operation.mode = op.mode ∧
      issued.operation.govengineDecisionType = op.govengineDecisionType ∧ issued.plan = plan := by
  rw [start.bound]
  simp only [Bound.authority, Authority.mk.injEq, and_true]
  constructor
  · intro ⟨named, revision, mode, type, planned⟩
    exact ⟨named.symm, revision.symm, mode.symm, type.symm, planned.symm⟩
  · intro ⟨named, revision, mode, type, planned⟩
    exact ⟨named.symm, revision.symm, mode.symm, type.symm, planned.symm⟩

theorem requireAttemptFresh_iff (start : IssuedFor runtime lease ctx found attempt issued issuedAt)
    (differ : ∀ plan, PlanFound now plan →
      runtime.digests.canonical (.plan issued.plan) = runtime.digests.canonical (.plan plan) →
      issued.plan = plan) :
    (∃ rest, (requireAttemptFresh runtime lease attempt).follow now = (.returned (), rest)) ↔
      ∃ mid, Matches runtime lease attempt issued issuedAt now mid ∧
        Undecayed wholeSeconds issued mid := by
  obtain ⟨n, _, timed, issues⟩ := start.issued
  obtain ⟨mode, bound, claimed, digest⟩ := issue_returned issues
  rw [Nat.add_zero, ← timed] at claimed
  -- the time to live ends at a whole second, as it started at one
  have lives_iff : ∀ checked : Instant, wholeSeconds checked < issuedAt + permitTtl ↔
      checked < issuedAt + permitTtl := by
    intro checked
    refine wholeSeconds_lt_iff ?_
    rw [timed]
    exact wholeSeconds_add_permitTtl _
  have target : attempt.targetBinding = issued.targetBinding :=
    congrArg RuntimeAttempt.targetBinding start.kept
  have governed : attempt.governedClaim = issued.governedClaim :=
    congrArg RuntimeAttempt.governedClaim start.kept
  -- The access of the governance port comes after the two clocks and the lease.
  have last : ∀ mid : Findings, attempt.governedClaim.isSome = true →
      (mid (0 + if issued.claim.isSome then 3 else 2)) = mid 3 := by
    intro mid some
    have claim : issued.claim.isSome = true := by
      rw [governed] at some
      obtain ⟨claim, holds⟩ := Option.isSome_iff_exists.mp some
      simp only [Bound.claim, holds, Option.isSome_some]
    rw [if_pos claim]
  constructor
  · intro ⟨rest, run⟩
    obtain ⟨⟨op, plan⟩, mid, reads, run⟩ := Prog.follow_bind_returned.mp run
    obtain ⟨_, _, facts, run⟩ := Prog.follow_bind_returned.mp run
    cases requireGovernedFacts_rest facts
    obtain ⟨_, later, fresh, current⟩ := Prog.follow_bind_returned.mp run
    rw [start.bound, requireFresh_issued bound claimed digest] at fresh
    obtain ⟨⟨named, revision, mode, type, planned⟩, aimed, lives, decided, unfaulted, valid,
      here⟩ :=
      fresh
    have rechecked := (requireCurrent_returned start).mp ⟨rest, current⟩
    refine ⟨mid, ⟨op, plan, reads, ?_, target ▸ aimed, digest, (lives_iff _).mp lives, unfaulted,
      start.held ▸ valid, fun some => ?_⟩, decided⟩
    · refine (authority_iff start).mpr ⟨named, revision, mode, type, ?_⟩
      exact differ plan (planFound_of_storedAuthority reads) (canonical_of_sha planned)
    · rw [← last mid some]
      rw [here] at rechecked
      exact rechecked some
  · rintro ⟨mid, ⟨op, plan, reads, same, aimed, -, lives, unfaulted, valid, rechecks⟩, decided⟩
    obtain ⟨named, revision, mode, type, planned⟩ := (authority_iff start).mp same
    have fresh := (requireFresh_issued bound claimed digest).mpr
      ⟨⟨named, revision, mode, type, by rw [planned]⟩, target ▸ aimed, (lives_iff _).mpr lives,
        decided, unfaulted, start.held ▸ valid, rfl⟩
    rw [← start.bound] at fresh
    have rechecked : ∃ rest, (requireCurrent runtime attempt).follow
        (fun n => mid (n + if issued.claim.isSome then 3 else 2)) = (.returned (), rest) := by
      refine (requireCurrent_returned start).mpr fun some => ?_
      rw [last mid some]
      exact rechecks some
    obtain ⟨rest, current⟩ := rechecked
    refine ⟨rest, Prog.follow_bind_returned.mpr ⟨(op, plan), mid, reads, ?_⟩⟩
    refine Prog.follow_bind_returned.mpr ⟨(), mid, ?_, ?_⟩
    · exact (requireGovernedFacts_returned start named).mpr rfl
    · exact Prog.follow_bind_returned.mpr ⟨(), _, fresh, current⟩

end Check

def isDispatch : Command → Bool
  | .dispatch _ _ _ => true
  | _ => false

def dispatches {α : Type} (p : Program α) (found : Findings) : Bool :=
  (p.accesses found).any fun access => isDispatch access.1

def Silent {α : Type} (p : Program α) : Prop := p.Only fun command => isDispatch command = false

section Silent

variable {α β : Type}

theorem Silent.dispatches {p : Program α} (silent : Silent p) (found : Findings) :
    dispatches p found = false := by
  rw [Permits.dispatches, List.any_eq_false]
  intro access made
  rw [Prog.Only.accesses silent made]
  decide

attribute [local simp] Silent isDispatch ask check loadOperation loadPlan clock requireNoDrift

theorem silent_preflightRollbackAuthority (op : Operation) :
    Silent (preflightRollbackAuthority op) := by
  have parent : Silent (requireRollbackParentAuthority op) := by
    unfold requireRollbackParentAuthority
    split <;> simp
  simp_all [preflightRollbackAuthority, requireRollbackCatalogBinding, verifyCatalogBinding]

variable (runtime : Runtime) (lease : LeaseRecord)

theorem silent_claimAuthority (op : Operation) (ctx : ConnectorStep) (spec : ExecutionSpec)
    (attemptId : String) : Silent (claimAuthority runtime lease op ctx spec attemptId) := by
  unfold claimAuthority
  split <;> split <;>
    simp [authorizeGoverned, authorizeAndClaim, claimOnce, requireSameFacts]

theorem silent_startAttempt (ctx : ConnectorStep) : Silent (startAttempt runtime lease ctx) := by
  have authority : ∀ op, Silent (preflightRollbackAuthority op) := silent_preflightRollbackAuthority
  have claims : ∀ op spec attemptId, Silent (claimAuthority runtime lease op ctx spec attemptId) :=
    fun op => silent_claimAuthority runtime lease op ctx
  have precheck : ∀ op, Silent (requireTypedPrecheck runtime op ctx (ctx.spec.getD .empty)) := by
    intro op
    unfold requireTypedPrecheck
    split
    · simp
    · split <;> simp
  simp_all [startAttempt, issue, startRecord]

theorem silent_prepareConnector (ctx : ConnectorStep) :
    Silent (prepareConnector runtime lease ctx) := by
  have starts := silent_startAttempt runtime lease ctx
  refine Prog.Only.bind (by simp) fun outcome => ?_
  cases outcome <;> simp_all [requireMutationExecutionEnabled]

theorem silent_requireAttemptFresh (attempt : RuntimeAttempt) :
    Silent (requireAttemptFresh runtime lease attempt) := by
  have authority : ∀ op, Silent (preflightRollbackAuthority op) := silent_preflightRollbackAuthority
  have facts : ∀ op, Silent (requireGovernedFacts runtime lease attempt op) := by
    intro op
    unfold requireGovernedFacts
    split <;> simp [requireSameFacts]
  have claim : ∀ b, Silent (requireClaim runtime.digests attempt.permit b) := by
    intro b
    unfold requireClaim
    split
    · simp
    · refine Prog.Only.bind (by simp) fun _ => Prog.Only.bind (by simp) fun _ => ?_
      refine Prog.Only.bind (by simp) fun _ => ?_
      split
      · simp
      · unfold requireGovernedBinding
        split <;> simp
  have current : Silent (requireCurrent runtime attempt) := by
    unfold requireCurrent
    split
    · split <;> simp
    · simp
  simp_all [requireAttemptFresh, storedAuthority, requireFresh]

theorem silent_finishAttempt (attempt : Attempt) (status : AttemptStatus) (errorClass : String) :
    Silent (finishAttempt attempt status errorClass) := by
  refine Prog.Only.bind (by simp [finishIndeterminateIfStarted, finishExecutionAttempt]) fun done =>
    ?_
  cases done <;> simp [finishIndeterminateIfStarted]

end Silent

/-- The last access to an attempt whose check has rejected it. -/
def rejection (attempt : RuntimeAttempt) (fault : Fault) : Command :=
  .finishAttempt attempt.record.operationId attempt.record.attemptId .failed fault.reasonCode

/-- A started record is failed; one that is finished stays. -/
def Settles (attempt : RuntimeAttempt) (fault : Fault) (i : Input) (w : World) : Prop :=
  ∀ stored, w.attempt attempt.record.operationId attempt.record.attemptId = some stored →
    stored.operationId = attempt.record.operationId →
    stored.attemptId = attempt.record.attemptId →
    ((effect (rejection attempt fault) i w).attempt attempt.record.operationId
      attempt.record.attemptId).map (·.status) =
        some (if stored.status = .started then .failed else stored.status)

section Verdict

variable {runtime : Runtime} {lease : LeaseRecord} {ctx : ConnectorStep} {rest : Findings}
  {attempt : RuntimeAttempt}

theorem settles (fault : Fault) {i : Input} (unfaulted : i.fault = none) (w : World) :
    Settles attempt fault i w := by
  intro stored found operationId attemptId
  have finished : effect (rejection attempt fault) i w =
      (w.refinish attempt.record.operationId attempt.record.attemptId fun record =>
        Attempts.finishAttemptRecord record .failed fault.reasonCode i.now).2 := by
    simp only [rejection, effect, unfaulted, World.perform]
  rw [finished, World.refinish, found]
  by_cases started : stored.status = .started
  · have ends : Attempts.finishAttemptRecord stored .failed fault.reasonCode i.now =
        .ok { stored with
          status := .failed, finishedAt := some i.now, errorClass := fault.reasonCode } := by
      simp [Attempts.finishAttemptRecord, AttemptStatus.isFinal, started]
    simp only [ends]
    rw [attempt_putAttempt, if_pos ⟨operationId.symm, attemptId.symm⟩, if_pos started]
    rfl
  · have refused : Attempts.finishAttemptRecord stored .failed fault.reasonCode i.now =
        .error (.invalid "execution attempt is not started") := by
      simp [Attempts.finishAttemptRecord, AttemptStatus.isFinal, started]
    simp only [refused]
    rw [found, if_neg started]
    rfl

theorem dispatches_bind {α β : Type} (p : Program α) (next : α → Program β) (found : Findings) :
    dispatches (p >>= next) found = (dispatches p found || match p.follow found with
      | (.returned a, rest) => dispatches (next a) rest
      | (.raised _, _) => false
      | (.halted, _) => false) := by
  rw [dispatches, Prog.bind_eq, Prog.accesses_bind, List.any_append]
  obtain ⟨outcome, rest⟩ := p.follow found
  cases outcome <;> rfl

theorem follow_attemptException (p : Program α) (found : Findings) :
    (attemptException p).follow found = match p.follow found with
      | (.returned value, rest) => (.returned (.ok value), rest)
      | (.raised fault, rest) =>
        if fault.isException then (.returned (.error fault), rest) else (.raised fault, rest)
      | (.halted, rest) => (.halted, rest) := by
  rw [attemptException, Prog.bind_eq, Prog.follow_bind, Prog.follow_attempt]
  obtain ⟨outcome, rest⟩ := p.follow found
  cases outcome with
  | returned value => rfl
  | raised fault =>
    dsimp only
    split <;> rfl
  | halted => rfl

theorem dispatches_invokeConnector :
    dispatches (invokeConnector runtime lease ctx attempt) rest = true ↔
      ∃ later, (requireAttemptFresh runtime lease attempt).follow rest = (.returned (), later) := by
  have silent := Silent.dispatches (only_attemptException_iff.mpr
    (silent_requireAttemptFresh runtime lease attempt)) rest
  have finishes : ∀ fault later,
      dispatches (dispatchOrFinish ctx.toStepContext attempt.record (.error fault)) later = false :=
    fun fault => Silent.dispatches ((silent_finishAttempt _ _ _).bind fun _ => trivial)
  rw [invokeConnector, dispatches_bind, silent, follow_attemptException, Bool.false_or]
  cases checked : (requireAttemptFresh runtime lease attempt).follow rest with
  | mk outcome later =>
    cases outcome with
    | returned u => exact ⟨fun _ => ⟨later, rfl⟩, fun _ => rfl⟩
    | raised fault =>
      by_cases exceptional : fault.isException = true
      · simp [if_pos exceptional, finishes]
      · simp [if_neg exceptional]
    | halted => simp

theorem rejection_mem_accesses {later : Findings}
    (rejected : (requireAttemptFresh runtime lease attempt).follow rest = (.raised fault, later))
    (exceptional : fault.isException = true) : (rejection attempt fault, later 0) ∈
      (invokeConnector runtime lease ctx attempt).accesses rest := by
  have verdict : (attemptException (requireAttemptFresh runtime lease attempt)).follow rest =
      (.returned (.error fault), later) := by
    rw [follow_attemptException, rejected]
    exact if_pos exceptional
  rw [invokeConnector, Prog.bind_eq, Prog.accesses_bind, verdict]
  exact List.mem_append_right _ List.mem_cons_self

theorem prepareConnector_returned {found : Findings}
    (run : (prepareConnector runtime lease ctx).follow found = (.returned (.inr attempt), rest)) :
    ∃ n, (startAttempt runtime lease ctx).follow (fun k => found (n + k)) =
      (.returned attempt, rest) := by
  have start : found = fun k => found (0 + k) := by
    funext k
    rw [Nat.zero_add]
  obtain ⟨outcome, _, binds, run⟩ := Prog.follow_bind_returned.mp run
  rw [start] at binds
  obtain ⟨n, rfl⟩ := point_of_follow binds
  cases outcome with
  | error fault =>
    dsimp only at run
    split at run
    · cases (follow_pure.mp run).1
    · exact (follow_raise.mp run).elim
  | ok u =>
    obtain ⟨admitted, _, admits, run⟩ := Prog.follow_bind_returned.mp run
    obtain ⟨n, rfl⟩ := point_of_follow admits
    split at run
    · cases (follow_pure.mp run).1
    · obtain ⟨_, _, enables, run⟩ := Prog.follow_bind_returned.mp run
      obtain ⟨n, rfl⟩ := point_of_follow enables
      obtain ⟨started, _, starts, ends⟩ := Prog.follow_bind_returned.mp run
      obtain ⟨same, rfl⟩ := follow_pure.mp ends
      cases same
      exact ⟨n, starts⟩

end Verdict

-- The executor's own model leaves the outcome of the check to the environment.

section Refines

variable {runtime : Runtime} {lease : LeaseRecord} {found rest : Findings}
  {attempt : RuntimeAttempt}

theorem requireAttemptFresh_eq (attempt : RuntimeAttempt) :
    RExecOp.requireAttemptFresh attempt.record = storedAuthority attempt >>= fun _ => check := by
  simp only [RExecOp.requireAttemptFresh, storedAuthority, Prog.bind_eq, Prog.bind_assoc]
  rfl

theorem follow_check (rest : Findings) (fault : Option Fault) :
    ∃ asked : Findings, check.follow asked =
      (match fault with
        | none => .returned ()
        | some fault => .raised fault, rest) := by
  refine ⟨fun n => n.casesOn ({ (rest 0).1 with fault := fault }, (rest 0).2) rest, ?_⟩
  cases fault <;> rfl

theorem requireAttemptFresh_refines {outcome : Prog.Outcome Fault Unit}
    (run : (requireAttemptFresh runtime lease attempt).follow found = (outcome, rest))
    (ends : outcome ≠ .halted) :
    ∃ other, (RExecOp.requireAttemptFresh attempt.record).follow other = (outcome, rest) := by
  rw [requireAttemptFresh_eq]
  rw [requireAttemptFresh, Prog.bind_eq, Prog.follow_bind] at run
  cases stored : (storedAuthority attempt).follow found with
  | mk first mid =>
    rw [stored] at run
    cases first with
    | raised fault =>
      cases run
      refine ⟨found, ?_⟩
      rw [Prog.bind_eq, Prog.follow_bind, stored]
    | halted =>
      cases run
      exact absurd rfl ends
    | returned value =>
      have answered : ∃ asked : Findings, check.follow asked = (outcome, rest) := by
        cases outcome with
        | returned u => exact follow_check rest none
        | raised fault => exact follow_check rest (some fault)
        | halted => exact absurd rfl ends
      obtain ⟨asked, answers⟩ := answered
      obtain ⟨other, redirected⟩ := Prog.follow_redirect stored asked
      refine ⟨other, ?_⟩
      rw [Prog.bind_eq, Prog.follow_bind, redirected]
      exact answers

theorem invokeConnector_eq (ctx : StepContext) (record : Attempt) :
    RExecOp.invokeConnector ctx record =
      attemptException (RExecOp.requireAttemptFresh record) >>= dispatchOrFinish ctx record := by
  unfold RExecOp.invokeConnector
  refine congrArg _ (funext fun verdict => ?_)
  cases verdict <;> rfl

theorem invokeConnector_refines {ctx : ConnectorStep} {outcome : Prog.Outcome Fault Executed}
    (run : (invokeConnector runtime lease ctx attempt).follow found = (outcome, rest))
    (ends : outcome ≠ .halted) :
    ∃ other, (RExecOp.invokeConnector ctx.toStepContext attempt.record).follow other =
      (outcome, rest) := by
  rw [invokeConnector_eq]
  rw [invokeConnector, Prog.bind_eq, Prog.follow_bind, follow_attemptException] at run
  cases checked : (requireAttemptFresh runtime lease attempt).follow found with
  | mk verdict mid =>
    rw [checked] at run
    by_cases halts : verdict = .halted
    · rw [halts] at run
      cases run
      exact absurd rfl ends
    · obtain ⟨other, same⟩ := requireAttemptFresh_refines checked halts
      refine ⟨other, ?_⟩
      rw [Prog.bind_eq, Prog.follow_bind, follow_attemptException, same]
      exact run

end Refines

def sampleDigests : Digests where
  canonical
    | .plan plan => "plan:" ++ plan.operationId
    | .target binding => "target:" ++ binding.target
    | .nonce nonce => "nonce:" ++ nonce
    | .owner token => "owner:" ++ token
    | .fencing token _ process => "fencing:" ++ token ++ process
    | .permit content => "permit:" ++ content.attemptId
  requestedScope scope := "scope:" ++ scope.targetNamespace
  inventory process _ := "inventory:" ++ process

def sampleRuntime : Runtime where
  digests := sampleDigests
  governanceDecisionConsumer := none
  governedAttemptConsumer := none
  inventoryEpoch := 0
  admissionDigest _ := ""
  typedRequestDigest _ _ _ := .ok ""

def looking : PlanRequest where
  suffix := "a"
  environment := "lab"
  intent := "inspect"
  target := "host"
  mode := "observe"
  autoReact := false
  runtimePolicy := ⟨1, false, false⟩
  hasCatalogRuntime := false
  plannedSteps := [⟨"collect", .connector, "look", "ssh", true, false⟩]
  retryPolicy := ⟨0, [], []⟩
  rollback := none

def lookingStep : ConnectorStep where
  operationId := "op-a"
  target := "host"
  mode := "observe"
  step := ⟨"collect", .connector, "look", "ssh", true, false⟩
  spec := none
  admission := none

def lookingLease : LeaseRecord :=
  ⟨Lease.workerLeaseSchema, "worker", "process", 1, "token", 0, 0, some 120000000, 0⟩

def lookingWorld : World :=
  { World.empty with
    operations := Dict.set ∅ "op-a" { looking.operation with
      state := .running, cursor := some .initial, revision := 4 }
    plans := Dict.set ∅ "op-a" looking.plan
    lease := ⟨some 1, some lookingLease⟩ }

def undisturbed : Findings := fun _ => (.agreeing 0 "f", lookingWorld)

/-- The attempt a step has started, if it gets so far. -/
def attemptOf (run : Prog.Outcome Fault (Executed ⊕ RuntimeAttempt)) : Option RuntimeAttempt :=
  match run with
  | .returned (.inr attempt) => some attempt
  | _ => none

/-- A runtime whose decisions expire at a given time. -/
def decidingRuntime (expiry : Instant) : Runtime :=
  { sampleRuntime with
    governanceDecisionConsumer := some fun facts => .ok
      ⟨⟨"sha256:decision", some ⟨"authorization", "nonce", facts.requestedScopeDigest,
        facts.capabilityInventoryDigest, facts.inventoryEpoch, "sha256:policy", 1, some expiry⟩⟩,
        ⟨"sha256:record", "signer"⟩⟩ }

def specifiedStep : ConnectorStep :=
  { lookingStep with spec := some ⟨"sha256:spec", some ⟨"sha256:shape", "", "", none⟩⟩ }

/-- Another process takes over the lease and recovers the attempt. -/
def takenOver (w : World) : World :=
  effect (.markIndeterminate "op-a" "attempt-f") (.agreeing 200000000 "g")
    ((acquireExecutionLease "other").exec effect (fun _ => .agreeing 200000000 "g") w).2

end RExecOp.Permits
