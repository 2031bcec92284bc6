import RExecOp.Executor

/-! Runtime attempt permits (`runtime_ops/permit.py`, `runtime_ops/governance_facts.py`). `none`
is a text that is not a timestamp with a time zone. -/

namespace RExecOp.Permits

open Lease (Instant LeaseRecord)

structure Destination where
  scheme : String
  effectivePort : Int
  addressClass : String
  originBindingDigest : String
  deriving DecidableEq

structure SpecPayload where
  shapeDigest : String
  argvDigest : String
  actionDigest : String
  destinationBinding : Option Destination
  deriving DecidableEq

structure ExecutionSpec where
  digest : String
  payload : Option SpecPayload
  deriving DecidableEq

/-- `dict(spec or {})` of a step without a typed spec. -/
def ExecutionSpec.empty : ExecutionSpec := ⟨"", none⟩

structure TargetBinding where
  target : String
  destination : Option Destination
  deriving DecidableEq

structure Facts where
  operationId : String
  stepId : String
  attemptId : String
  runtimeInstanceId : String
  leaseId : String
  leaseEpoch : Int
  fencingTokenDigest : String
  executionSpecDigest : String
  payloadDigest : String
  requestedScopeDigest : String
  capabilityInventoryDigest : String
  inventoryEpoch : Int
  deriving DecidableEq

structure Grant where
  authorizationId : String
  nonce : String
  requestedScopeDigest : String
  capabilityInventoryDigest : String
  inventoryEpoch : Int
  policyPackDigest : String
  policyEpoch : Int
  expiresAt : Option Instant

structure GovernanceDecision where
  decisionDigest : String
  authorization : Option Grant

structure SignedArtifact where
  recordDigest : String
  signerId : String

structure ClaimedGovernanceDecision where
  decision : GovernanceDecision
  signedArtifact : SignedArtifact
  facts : Facts

structure GovernedAdmission where
  actualOperationMode : String
  admissionDigest : String
  governanceRequestDigest : String
  governanceDecisionDigest : String
  approvalAttestationDigest : String
  decisionExpiresAt : String
  deriving DecidableEq

structure ClaimedGovernedAttempt where
  governedAdmission : GovernedAdmission
  decision : GovernanceDecision
  signedArtifact : SignedArtifact
  expectedActualOperationMode : String
  facts : Facts

def governedAttemptBinding (claim : ClaimedGovernedAttempt) : GovernedAdmission :=
  claim.governedAdmission

inductive BindingMode where
  | governedAttempt
  | signedDecision
  | legacyReadOnly
  deriving DecidableEq

structure DecisionBinding where
  decisionDigest : String
  authorizationId : String
  nonceDigest : String
  requestedScopeDigest : String
  capabilityInventoryDigest : String
  inventoryEpoch : Int
  policyPackDigest : String
  policyEpoch : Int
  signedRecordDigest : String
  decisionIssuerRef : String
  deriving DecidableEq

def executionPermitSchema : String := "rexecop.runtime_attempt_permit.v0.1"

structure PermitContent where
  schema : String
  operationId : String
  operationRevision : Nat
  stepId : String
  attemptId : String
  planDigest : String
  executionSpecDigest : String
  govengineDecisionType : Option DecisionType
  governanceAdmissionDigest : String
  governanceBindingMode : BindingMode
  targetBinding : TargetBinding
  targetBindingDigest : String
  mode : String
  leaseEpoch : Int
  processInstanceId : String
  issuedAt : Instant
  expiresAt : Instant
  governanceDecision : Option DecisionBinding
  governedAdmissionBinding : Option GovernedAdmission

structure Permit extends PermitContent where
  permitDigest : String

inductive Document where
  | plan (plan : OperationPlan)
  | target (binding : TargetBinding)
  | nonce (nonce : String)
  | owner (ownerToken : String)
  | fencing (ownerToken : String) (leaseEpoch : Int) (runtimeInstanceId : String)
  | permit (content : PermitContent)

structure RequestedScope where
  targetNamespace : String
  requestedDestination : Option Destination

/-- `canonical_digest`, and the digests of the governance engine. -/
structure Digests where
  canonical : Document → String
  requestedScope : RequestedScope → String
  inventory : String → Int → String

variable (D : Digests)

def Digests.sha (document : Document) : String := "sha256:" ++ D.canonical document

def isDigest (text : String) : Bool := "sha256:".toList.isPrefixOf text.toList

def executionPayloadDigest (spec : ExecutionSpec) : Except Fault String :=
  match spec.payload with
  | none => .error (.invalid "canonical_governance_missing_payload")
  | some payload =>
    match [payload.shapeDigest, payload.argvDigest, payload.actionDigest].find? isDigest with
    | some digest => .ok digest
    | none => .error (.invalid "canonical_governance_missing_payload_digest")

def requestedScope (target : String) (spec : ExecutionSpec) : Except Fault RequestedScope :=
  match spec.payload.bind (·.destinationBinding) with
  | none => .ok ⟨target, none⟩
  | some destination =>
    let addressClass := if destination.addressClass = "public_ip" then "public"
      else destination.addressClass
    if ["public", "private", "loopback", "link_local"].contains addressClass then
      .ok ⟨target, some { destination with addressClass := addressClass }⟩
    else .error (.invalid "canonical_governance_unresolved_destination_address_class")

def buildFacts (operationId stepId attemptId target : String) (spec : ExecutionSpec)
    (lease : LeaseRecord) (inventoryEpoch : Int) : Except Fault Facts :=
  if lease.processInstanceId = "" ∨ lease.ownerToken = "" ∨ lease.leaseEpoch < 1 then
    .error (.invalid "canonical_governance_requires_active_lease")
  else if !isDigest spec.digest then
    .error (.invalid "canonical_governance_missing_execution_spec_digest")
  else do
    let payloadDigest ← executionPayloadDigest spec
    let scope ← requestedScope target spec
    pure {
      operationId := operationId
      stepId := stepId
      attemptId := attemptId
      runtimeInstanceId := lease.processInstanceId
      leaseId := D.sha (.owner lease.ownerToken)
      leaseEpoch := lease.leaseEpoch
      fencingTokenDigest :=
        D.sha (.fencing lease.ownerToken lease.leaseEpoch lease.processInstanceId)
      executionSpecDigest := spec.digest
      payloadDigest := payloadDigest
      requestedScopeDigest := D.requestedScope scope
      capabilityInventoryDigest := D.inventory lease.processInstanceId inventoryEpoch
      inventoryEpoch := inventoryEpoch }

def wholeSeconds (now : Instant) : Instant := now - now % 1000000

def clock : Program Instant := .request .ask fun i _ => .ok (wholeSeconds i.now)

/-- `DEFAULT_PERMIT_TTL_SECONDS`, in microseconds. -/
def permitTtl : Int := 60000000

/-- The arguments `issue` and `require_fresh` share. -/
structure Bound where
  operation : Operation
  plan : OperationPlan
  attemptId : String
  executionSpec : ExecutionSpec
  targetBinding : TargetBinding
  lease : LeaseRecord
  governanceAdmissionDigest : String
  governanceClaim : Option ClaimedGovernanceDecision
  governedClaim : Option ClaimedGovernedAttempt

/-- `governed_claim or governance_claim` -/
def Bound.claim (b : Bound) : Option (GovernanceDecision × SignedArtifact) :=
  match b.governedClaim, b.governanceClaim with
  | some claim, _ => some (claim.decision, claim.signedArtifact)
  | none, some claim => some (claim.decision, claim.signedArtifact)
  | none, none => none

def Bound.governanceBindingMode (b : Bound) : Except Fault BindingMode :=
  match b.governanceClaim, b.governedClaim with
  | some _, some _ => .error (.invalid "execution_permit_invalid: multiple governance claims")
  | none, some _ => .ok .governedAttempt
  | some _, none => .ok .signedDecision
  | none, none => .ok .legacyReadOnly

def recordDigest (content : PermitContent) : String := D.sha (.permit content)

def decisionBinding (decision : GovernanceDecision) (grant : Grant) (artifact : SignedArtifact) :
    DecisionBinding where
  decisionDigest := decision.decisionDigest
  authorizationId := grant.authorizationId
  nonceDigest := D.sha (.nonce grant.nonce)
  requestedScopeDigest := grant.requestedScopeDigest
  capabilityInventoryDigest := grant.capabilityInventoryDigest
  inventoryEpoch := grant.inventoryEpoch
  policyPackDigest := grant.policyPackDigest
  policyEpoch := grant.policyEpoch
  signedRecordDigest := artifact.recordDigest
  decisionIssuerRef := artifact.signerId

def requireGovernedActualOperationMode (permitMode operationMode : String)
    (claim : ClaimedGovernedAttempt) (errorPrefixed : String → String) : Except Fault Unit :=
  if permitMode = operationMode ∧ operationMode = claim.expectedActualOperationMode ∧
      claim.expectedActualOperationMode = (governedAttemptBinding claim).actualOperationMode then
    .ok ()
  else .error (.invalid (errorPrefixed "governed actual operation mode drift"))

def invalidPermit (text : String) : String := "execution_permit_invalid: " ++ text

def stalePermit (text : String) : String := "execution_permit_stale: " ++ text

def missingGrant : Fault := .exception "governance authorization missing"

def untimedGrant : Fault := .exception "governance expiry is not a timestamp"

def grantOf (decision : GovernanceDecision) : Except Fault (Grant × Instant) :=
  match decision.authorization with
  | none => .error missingGrant
  | some grant => match grant.expiresAt with
    | none => .error untimedGrant
    | some expiry => .ok (grant, expiry)

def permitContent (b : Bound) (stepId : String) (bindingMode : BindingMode) (issuedAt : Instant) :
    PermitContent where
  schema := executionPermitSchema
  operationId := b.operation.id
  operationRevision := b.operation.revision
  stepId := stepId
  attemptId := b.attemptId
  planDigest := D.sha (.plan b.plan)
  executionSpecDigest := b.executionSpec.digest
  govengineDecisionType := b.operation.govengineDecisionType
  governanceAdmissionDigest := b.governanceAdmissionDigest
  governanceBindingMode := bindingMode
  targetBinding := b.targetBinding
  targetBindingDigest := D.sha (.target b.targetBinding)
  mode := b.operation.mode
  leaseEpoch := b.lease.leaseEpoch
  processInstanceId := b.lease.processInstanceId
  issuedAt := issuedAt
  expiresAt := issuedAt + permitTtl
  governanceDecision := none
  governedAdmissionBinding := none

def bindClaim (b : Bound) (content : PermitContent) : Except Fault PermitContent :=
  match b.claim with
  | none =>
    if isReadOnlyMode b.operation.mode then .ok content
    else .error (.invalid "signed_governance_decision_required_for_mutation")
  | some (decision, artifact) => do
    let (grant, expiry) ← grantOf decision
    let content := { content with
      expiresAt := min expiry content.expiresAt
      governanceDecision := some (decisionBinding D decision grant artifact) }
    match b.governedClaim with
    | none => pure content
    | some claim => do
      requireGovernedActualOperationMode content.mode b.operation.mode claim invalidPermit
      pure { content with governedAdmissionBinding := some (governedAttemptBinding claim) }

/-- `issue`; the saved permit is not read back here. -/
def issue (b : Bound) (stepId : String) : Program Permit := do
  let issuedAt ← clock
  let bindingMode ← ofExcept b.governanceBindingMode
  let content ← ofExcept (bindClaim D b (permitContent D b stepId bindingMode issuedAt))
  check
  pure ⟨content, recordDigest D content⟩

def driftOf (entries : List (String × Bool)) : List String :=
  entries.filterMap fun entry => if entry.2 then none else some entry.1

def bindingDrift (permit : Permit) (b : Bound) : List String := driftOf [
  ("attempt_id", permit.attemptId == b.attemptId),
  ("execution_spec_digest", permit.executionSpecDigest == b.executionSpec.digest),
  ("govengine_decision_type",
    decide (permit.govengineDecisionType = b.operation.govengineDecisionType)),
  ("governance_admission_digest",
    permit.governanceAdmissionDigest == b.governanceAdmissionDigest),
  ("lease_epoch", permit.leaseEpoch == b.lease.leaseEpoch),
  ("mode", permit.mode == b.operation.mode),
  ("operation_id", permit.operationId == b.operation.id),
  ("operation_revision", permit.operationRevision == b.operation.revision),
  ("plan_digest", permit.planDigest == D.sha (.plan b.plan)),
  ("process_instance_id", permit.processInstanceId == b.lease.processInstanceId),
  ("target_binding_digest", permit.targetBindingDigest == D.sha (.target b.targetBinding))]

def governanceDrift (found expected : DecisionBinding) : List String := driftOf [
  ("authorization_id", found.authorizationId == expected.authorizationId),
  ("capability_inventory_digest",
    found.capabilityInventoryDigest == expected.capabilityInventoryDigest),
  ("decision_digest", found.decisionDigest == expected.decisionDigest),
  ("decision_issuer_ref", found.decisionIssuerRef == expected.decisionIssuerRef),
  ("inventory_epoch", found.inventoryEpoch == expected.inventoryEpoch),
  ("nonce_digest", found.nonceDigest == expected.nonceDigest),
  ("policy_epoch", found.policyEpoch == expected.policyEpoch),
  ("policy_pack_digest", found.policyPackDigest == expected.policyPackDigest),
  ("requested_scope_digest", found.requestedScopeDigest == expected.requestedScopeDigest),
  ("signed_record_digest", found.signedRecordDigest == expected.signedRecordDigest)]

def requireNoDrift (kind : String) (drift : List String) : Program Unit :=
  require drift.isEmpty (.invalid (stalePermit (kind ++ ": " ++ ",".intercalate drift)))

/-- The part of `require_fresh` about a governed claim. -/
def requireGovernedBinding (permit : Permit) (b : Bound) : Program Unit :=
  match b.governedClaim with
  | none => pure ()
  | some claim => do
    ofExcept (requireGovernedActualOperationMode permit.mode b.operation.mode claim stalePermit)
    require (permit.governedAdmissionBinding = some (governedAttemptBinding claim))
      (.invalid (stalePermit "governed admission drift"))

def requireClaim (permit : Permit) (b : Bound) : Program Unit :=
  match b.claim with
  | none => pure ()
  | some (decision, artifact) => do
    let granted ← ofExcept (grantOf decision)
    let checkedAt ← clock
    require (checkedAt < granted.2) (.invalid (stalePermit "governance decision expired"))
    match permit.governanceDecision with
    | none => raise (.invalid (invalidPermit "missing governance decision binding"))
    | some binding => do
      requireNoDrift "governance drift"
        (governanceDrift binding (decisionBinding D decision granted.1 artifact))
      requireGovernedBinding permit b

def requireFresh (permit : Permit) (b : Bound) : Program Unit := do
  require (permit.schema = executionPermitSchema) (.invalid (invalidPermit "unsupported schema"))
  require (permit.permitDigest = recordDigest D permit.toPermitContent)
    (.invalid (invalidPermit "digest mismatch"))
  let checkedAt ← clock
  require (checkedAt < permit.expiresAt) (.invalid (stalePermit "permit expired"))
  requireNoDrift "binding drift" (bindingDrift D permit b)
  access .read fun i w => Lease.validate w.lease b.lease.credential i.now
  let bindingMode ← ofExcept b.governanceBindingMode
  require (permit.governanceBindingMode = bindingMode)
    (.invalid (stalePermit "governance binding mode drift"))
  requireClaim D permit b
  require (b.targetBinding.target = b.operation.target)
    (.invalid (stalePermit "target binding drift"))

end RExecOp.Permits
