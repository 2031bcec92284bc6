import RExecOp.Permit

/-! The authority of a connector attempt from its start to connector I/O, beside any other
processes. -/

namespace RExecOp.Permits

open Attempts (Attempt)
open Lease (Instant LeaseRecord)

structure StepAdmission where
  admissionDigest : String
  requestDigest : String
  actualOperationMode : String
  typedExecutionOperationMode : String

structure ConnectorStep extends StepContext where
  spec : Option ExecutionSpec
  admission : Option StepAdmission

structure SignedGovernanceDecisionBundle where
  decision : GovernanceDecision
  signedArtifact : SignedArtifact

structure SignedGovernedAttemptBundle where
  governedAdmission : GovernedAdmission
  decision : GovernanceDecision
  signedArtifact : SignedArtifact

/-- What an orchestrator is built with; the authorities of the consumers belong to the host. -/
structure Runtime where
  digests : Digests
  governanceDecisionConsumer : Option (Facts → Except Fault SignedGovernanceDecisionBundle)
  governedAttemptConsumer : Option (Facts → String → Except Fault SignedGovernedAttemptBundle)
  inventoryEpoch : Int
  admissionDigest : Operation → String
  typedRequestDigest : Operation → ConnectorStep → ExecutionSpec → Except Fault String

structure RuntimeAttempt where
  record : Attempt
  permit : Permit
  executionSpec : ExecutionSpec
  targetBinding : TargetBinding
  governanceAdmissionDigest : String
  governanceClaim : Option ClaimedGovernanceDecision
  governedClaim : Option ClaimedGovernedAttempt

def decisionFault (reasonCode : String) : Fault := .validation reasonCode reasonCode

def claimOnce : Program Unit :=
  ask fun i => if i.agrees then .ok () else .error (decisionFault "governance_decision_reused")

/-- `authorize_and_claim`; trust in the decision is the environment's answer. -/
def authorizeAndClaim (authority : Facts → Except Fault SignedGovernanceDecisionBundle)
    (facts : Facts) : Program ClaimedGovernanceDecision := do
  let bundle ← ofExcept (authority facts)
  check
  require bundle.decision.authorization.isSome (decisionFault "governance_decision_denied")
  check
  let granted ← ofExcept (grantOf bundle.decision)
  ask fun i => if i.now < granted.2 then .ok ()
    else .error (decisionFault "governance_decision_expired")
  claimOnce
  pure ⟨bundle.decision, bundle.signedArtifact, facts⟩

def authorizeGoverned (authority : Facts → String → Except Fault SignedGovernedAttemptBundle)
    (facts : Facts) (mode : String) : Program ClaimedGovernedAttempt := do
  check
  let bundle ← ofExcept (authority facts mode)
  check
  require bundle.decision.authorization.isSome missingGrant
  claimOnce
  pure ⟨bundle.governedAdmission, bundle.decision, bundle.signedArtifact, mode, facts⟩

section Runtime

variable (runtime : Runtime) (lease : LeaseRecord)

def requireTypedPrecheck (op : Operation) (ctx : ConnectorStep) (spec : ExecutionSpec) :
    Program Unit :=
  if runtime.governedAttemptConsumer.isNone then
    raise (.invalid "governed approval authority required for mutation")
  else match ctx.admission with
    | none => raise (.invalid "governed mutation requires typed execution precheck")
    | some admission => do
      let requestDigest ← ofExcept (runtime.typedRequestDigest op ctx spec)
      require (admission.requestDigest = requestDigest)
        (.invalid "typed execution governed precheck request drift")
      require (admission.actualOperationMode = ctx.mode ∧
          admission.typedExecutionOperationMode = "apply")
        (.invalid "typed execution governed precheck mode drift")

def governanceAdmissionDigest (op : Operation) (ctx : ConnectorStep) : String :=
  match ctx.admission with
  | none => runtime.admissionDigest op
  | some admission => orElse admission.admissionDigest (runtime.admissionDigest op)

def stepFacts (op : Operation) (ctx : ConnectorStep) (spec : ExecutionSpec) (attemptId : String) :
    Except Fault Facts :=
  buildFacts runtime.digests op.id ctx.step.id attemptId ctx.target spec lease
    runtime.inventoryEpoch

def requireSameFacts (facts : Facts) (again : Except Fault Facts) : Program Unit := do
  let current ← ofExcept again
  require (current = facts) (.invalid "governance_runtime_facts_drift")

def claimAuthority (op : Operation) (ctx : ConnectorStep) (spec : ExecutionSpec)
    (attemptId : String) :
    Program (Option ClaimedGovernanceDecision × Option ClaimedGovernedAttempt) :=
  if isMutatingMode ctx.mode then
    match runtime.governedAttemptConsumer with
    | none => raise (.exception "governed attempt consumer missing")
    | some authority => do
      let facts ← ofExcept (stepFacts runtime lease op ctx spec attemptId)
      let claim ← authorizeGoverned authority facts ctx.mode
      requireSameFacts facts (stepFacts runtime lease op ctx spec attemptId)
      pure (none, some claim)
  else match runtime.governanceDecisionConsumer with
    | none => pure (none, none)
    | some authority => do
      let facts ← ofExcept (stepFacts runtime lease op ctx spec attemptId)
      let claim ← authorizeAndClaim authority facts
      requireSameFacts facts (stepFacts runtime lease op ctx spec attemptId)
      pure (some claim, none)

def boundOf (op : Operation) (plan : OperationPlan) (ctx : ConnectorStep) (attemptId : String)
    (claims : Option ClaimedGovernanceDecision × Option ClaimedGovernedAttempt) : Bound :=
  let spec := ctx.spec.getD .empty
  { operation := op
    plan := plan
    attemptId := attemptId
    executionSpec := spec
    targetBinding := ⟨ctx.target, spec.payload.bind (·.destinationBinding)⟩
    lease := lease
    governanceAdmissionDigest := match claims.2 with
      | some claim => claim.governedAdmission.admissionDigest
      | none => governanceAdmissionDigest runtime op ctx
    governanceClaim := claims.1
    governedClaim := claims.2 }

def Bound.attempt (b : Bound) (permit : Permit) (record : Attempt) : RuntimeAttempt where
  record := record
  permit := permit
  executionSpec := b.executionSpec
  targetBinding := b.targetBinding
  governanceAdmissionDigest := b.governanceAdmissionDigest
  governanceClaim := b.governanceClaim
  governedClaim := b.governedClaim

def startRecord (op : Operation) (ctx : ConnectorStep) (attemptId : String) : Program Attempt := do
  let pending ← access
    (.writePending op.id attemptId op.revision ctx.step.id ctx.target ctx.mode lease.credential)
    fun i w => w.startAttempt op.id attemptId op.revision ctx.step.id ctx.target ctx.mode
      lease.credential i
  access (.writeStarted pending) fun i _ => .ok (Attempts.markAttemptStarted pending i.now)

def startAttempt (ctx : ConnectorStep) : Program RuntimeAttempt := do
  access .read fun i w => Lease.validate w.lease lease.credential i.now
  let op ← loadOperation ctx.operationId
  let plan ← preflightRollbackAuthority op
  require (!(op.isRollback && runtime.governedAttemptConsumer.isNone))
    (.invalid "rollback connector attempt requires governed approval authority")
  (if isMutatingMode ctx.mode then requireTypedPrecheck runtime op ctx (ctx.spec.getD .empty)
    else pure ())
  let attemptId ← ask fun i => .ok ("attempt-" ++ i.fresh)
  let claims ← claimAuthority runtime lease op ctx (ctx.spec.getD .empty) attemptId
  let permit ← issue runtime.digests (boundOf runtime lease op plan ctx attemptId claims)
    ctx.step.id
  let record ← startRecord lease op ctx attemptId
  pure ((boundOf runtime lease op plan ctx attemptId claims).attempt permit record)

/-- What the attempt is checked with, for what is stored now. -/
def RuntimeAttempt.bound (attempt : RuntimeAttempt) (op : Operation) (plan : OperationPlan) :
    Bound where
  operation := op
  plan := plan
  attemptId := attempt.record.attemptId
  executionSpec := attempt.executionSpec
  targetBinding := attempt.targetBinding
  lease := lease
  governanceAdmissionDigest := attempt.governanceAdmissionDigest
  governanceClaim := attempt.governanceClaim
  governedClaim := attempt.governedClaim

def storedAuthority (attempt : RuntimeAttempt) : Program (Operation × OperationPlan) := do
  let op ← loadOperation attempt.record.operationId
  let plan ← preflightRollbackAuthority op
  pure (op, plan)

def requireGovernedFacts (attempt : RuntimeAttempt) (op : Operation) : Program Unit :=
  match attempt.governedClaim with
  | none => pure ()
  | some claim => requireSameFacts claim.facts
    (buildFacts runtime.digests op.id attempt.record.stepId attempt.record.attemptId
      attempt.targetBinding.target attempt.executionSpec lease runtime.inventoryEpoch)

def requireCurrent (attempt : RuntimeAttempt) : Program Unit :=
  if attempt.governedClaim.isSome then
    if runtime.governedAttemptConsumer.isNone then
      raise (.invalid "governed approval authority missing before connector I/O")
    else check
  else pure ()

def requireAttemptFresh (attempt : RuntimeAttempt) : Program Unit := do
  let stored ← storedAuthority attempt
  requireGovernedFacts runtime lease attempt stored.1
  requireFresh runtime.digests attempt.permit (attempt.bound lease stored.1 stored.2)
  requireCurrent runtime attempt

def dispatchOrFinish (ctx : StepContext) (attempt : Attempt) :
    Except Fault Unit → Program Executed
  | .error fault => do
    finishAttempt attempt .failed fault.reasonCode
    pure ⟨.failure fault.reasonCode, none, none⟩
  | .ok () => do
    match ← (dispatch ctx attempt).attempt with
    | .error fault =>
      finishAttempt attempt .indeterminate "outcome_indeterminate"
      raise fault
    | .ok .overLimit => pure ⟨.failure "output_limit_exceeded", some attempt, some .failed⟩
    | .ok (.failed errorClass) =>
      finishAttempt attempt .failed errorClass
      pure ⟨.failure errorClass, some attempt, none⟩
    | .ok .succeeded =>
      if attempt.sideEffectful then
        pure ⟨⟨true, ""⟩, some attempt, some .sideEffectfulSuccess⟩
      else do
        finishAttempt attempt .completed ""
        pure ⟨⟨true, ""⟩, some attempt, none⟩

def invokeConnector (ctx : ConnectorStep) (attempt : RuntimeAttempt) : Program Executed := do
  let verdict ← attemptException (requireAttemptFresh runtime lease attempt)
  dispatchOrFinish ctx.toStepContext attempt.record verdict

/-- `_execute_connector` up to the pre-I/O check. -/
def prepareConnector (ctx : ConnectorStep) : Program (Executed ⊕ RuntimeAttempt) := do
  match ← check.attempt with
  | .error fault =>
    if fault.isValidation then pure (.inl ⟨.failure "validation_failed", none, none⟩)
    else raise fault
  | .ok () =>
    let admitted ← (if ctx.spec.isSome then ask fun i => .ok i.agrees else pure true)
    if !admitted then pure (.inl ⟨.failure "policy_denied", none, none⟩)
    else do
      requireMutationExecutionEnabled ctx.mode
      let attempt ← startAttempt runtime lease ctx
      pure (.inr attempt)

def executeConnector (ctx : ConnectorStep) : Program Executed := do
  match ← prepareConnector runtime lease ctx with
  | .inl executed => pure executed
  | .inr attempt => invokeConnector runtime lease ctx attempt

end Runtime

end RExecOp.Permits
