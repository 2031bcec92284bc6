import RExecOp.Receipts

/-! Planning, approval and the preparation of rollback children (`operation/controller.py`,
`runtime_ops/rollback.py`). -/

namespace RExecOp

def supportedModes : List String :=
  ["observe", "dry_run", "apply", "emergency_readonly", "recovery"]

def PlanRequest.operation (r : PlanRequest) : Operation where
  id := r.id
  environment := r.environment
  intent := r.intent
  target := r.target
  mode := r.mode
  state := .created
  currentStepId := ""
  govengineDecisionType := none
  runtimePolicy := r.runtimePolicy
  derived := none
  hasCatalogRuntime := r.hasCatalogRuntime
  autoReact := r.autoReact
  cursor := none
  pauseRequested := false
  cancelRequested := false
  lastFailure := none
  queueNote := none
  sharedState := []
  projection := none
  recoveryBlocker := none
  interruptedAt := none
  rollbackLink := none
  history := []
  revision := 0

def pauseSafePoints (steps : List PlannedStep) : List String :=
  (steps.filter (·.pauseSafe)).map (·.id)

def PlanRequest.plan (r : PlanRequest) : OperationPlan :=
  ⟨r.id, r.plannedSteps, pauseSafePoints r.plannedSteps, r.retryPolicy, r.rollback,
    r.hasCatalogRuntime⟩

def applyGovernanceTransition (op : Operation) (decision : DecisionType) : Program Operation :=
  if decision = .allowed then transition op .approved "govengine_allowed"
  else if decision.isWaiting then
    transition op .waitingForApproval ("govengine_" ++ decision.value)
  else if decision.isBlocking then transition op .blocked ("govengine_" ++ decision.value)
  else transition op .blocked "govengine_unknown_decision"

def govern (op : Operation) : Program Operation := do
  emit .plain
  let decision ← ask fun i => .ok i.decision
  emit .plain
  emit .plain
  applyGovernanceTransition { op with govengineDecisionType := some decision } decision

def planOperation (r : PlanRequest) : Program Operation := do
  require (supportedModes.contains r.mode) (.invalid ("unsupported mode: " ++ r.mode))
  check
  emit .plain
  let op ← transition r.operation .planned "plan_completed"
  emit .plain
  access (.savePlan r.plan) fun _ _ => .ok ()
  emit .plain
  let op ← (if isMutatingMode r.mode then govern op else pure op)
  check
  saveOperation op

def approve (id : String) : Program Operation := do
  let op ← loadOperation id
  require (op.state = .waitingForApproval)
    (.invalid ("approve requires waiting_for_approval, got " ++ op.state.value))
  access (.saveApproval id) fun _ _ => .ok ()
  emit .plain
  let op ← transition op .approved "manual_approval"
  saveOperation op

def rollbackOperationId (parentId : String) : String := parentId ++ "-rollback"

def rollbackOperation (parent : Operation) (mode digest : String) : Operation where
  id := rollbackOperationId parent.id
  environment := parent.environment
  intent := parent.intent
  target := parent.target
  mode := mode
  state := .created
  currentStepId := ""
  govengineDecisionType := none
  runtimePolicy := parent.runtimePolicy
  derived := some ⟨parent.id, digest⟩
  hasCatalogRuntime := parent.hasCatalogRuntime
  autoReact := false
  cursor := none
  pauseRequested := false
  cancelRequested := false
  lastFailure := none
  queueNote := none
  sharedState := []
  projection := none
  recoveryBlocker := none
  interruptedAt := none
  rollbackLink := none
  history := []
  revision := 0

def rollbackPlan (parent : Operation) (parentPlan : OperationPlan) (block : Rollback) :
    OperationPlan :=
  ⟨rollbackOperationId parent.id, block.steps,
    (pauseSafePoints block.steps).filter (· ≠ ""),
    ⟨0, [], ["outcome_indeterminate"]⟩, none, parentPlan.hasCatalogBinding⟩

def rollbackBlock (parent : Operation) (parentPlan : OperationPlan) : Except Fault Rollback :=
  let undefined := Fault.invalid "rollback not defined for this failed operation"
  match parentPlan.rollback with
  | none => .error undefined
  | some block =>
    if parent.state ≠ .failed ∨ block.steps = [] then .error undefined
    else if !supportedModes.contains block.mode then
      .error (.invalid ("unsupported rollback mode: " ++ block.mode))
    else .ok block

def prepareRollbackOperation (parent : Operation) (parentPlan : OperationPlan) :
    Program Operation := do
  let block ← ofExcept (rollbackBlock parent parentPlan)
  let digest ← ask fun i => .ok i.fresh
  emit .plain
  let op ← transition (rollbackOperation parent block.mode digest) .planned
    "rollback_plan_completed"
  emit .plain
  access (.savePlan (rollbackPlan parent parentPlan block)) fun _ _ => .ok ()
  let op ← govern op
  check
  saveOperation op

end RExecOp
