import RExecOp.Errors
import RExecOp.Value

/-! Declared validation rules and their evaluator (`validation/validator.py`,
`profile/validation_rules.py`), for parsed rule files. -/

namespace RExecOp.Validation

structure DetailsSource where
  detailsFrom : Value
  details : Value

structure MappingFailure where
  rule : String
  details : Value

inductive ValidationStep where
  | requireMapping (key : String) (fail : Option MappingFailure)
  | requireTruthyPath (path passRule failRule : String) (source : DetailsSource)
  | requireEquals (path : String) (value : Value) (passRule failRule : String)
      (source : DetailsSource)

variable {step : ValidationStep}

inductive RuleItem where
  | step (step : ValidationStep)
  | unsupported (stepType : String)
  | notMapping

inductive RuleFile where
  | absent
  | notMapping
  | ruleMissing
  | steps (items : List RuleItem)

structure LoadedProfile where
  root : String
  validationRules : String → RuleFile

structure ValidationResult where
  passed : Bool
  rule : String
  details : Entries

def rulePath (profile : LoadedProfile) (intent : String) : String :=
  profile.root ++ "/validation_rules/" ++ intent ++ ".yaml"

def loadValidationRuleSpec (profile : LoadedProfile) (intent : String) :
    Except Fault (List RuleItem) :=
  match profile.validationRules intent with
  | .absent => .error (.invalid ("no validation rules for intent: " ++ intent))
  | .notMapping =>
    .error (.invalid ("invalid validation rules file: " ++ rulePath profile intent))
  | .ruleMissing =>
    .error (.invalid ("validation_rule mapping missing in: " ++ rulePath profile intent))
  | .steps [] =>
    .error (.invalid ("validation_rule.steps required in: " ++ rulePath profile intent))
  | .steps items => .ok items

def getPathFrom : Value → List String → Value
  | current, [] => current
  | current, part :: rest =>
    if part = "" then getPathFrom current rest
    else match current with
      | .dict entries => getPathFrom (Value.get entries part) rest
      | _ => .null

def getPath (state : Entries) (path : String) : Value :=
  getPathFrom (.dict state) (splitDots path)

def pathTruthy (state : Entries) (path : String) : Bool := (getPath state path).truthy

mutual

def resolveRef (state : Entries) : Value → Value
  | .str s => match s.toList with
    | '$' :: path => getPath state (String.ofList path)
    | _ => .str s
  | .dict entries => .dict (resolveEntries state entries)
  | v => v

def resolveEntries (state : Entries) : Entries → Entries
  | [] => []
  | (key, v) :: rest => (key, resolveRef state v) :: resolveEntries state rest

end

def resolveDetails (state : Entries) : Value → Entries
  | .dict entries => resolveEntries state entries
  | _ => []

def detailsFromStep (source : DetailsSource) (state : Entries) : Entries :=
  match source.detailsFrom with
  | .str key =>
    if key = "" then resolveDetails state source.details
    else match Value.get state key with
      | .dict entries => entries
      | v => [(key, v)]
  | _ => resolveDetails state source.details

def evaluateStep (step : ValidationStep) (state : Entries) : Option ValidationResult :=
  match step with
  | .requireMapping key fail =>
    let key := strip key
    if (Value.get state key).isDict then none
    else match fail with
      | some failure => some ⟨false, orElse failure.rule (key ++ "_required"),
          resolveDetails state failure.details⟩
      | none => some ⟨false, key ++ "_required",
          [("reason", .str ("missing mapping: " ++ key))]⟩
  | .requireTruthyPath path passRule failRule source =>
    let path := strip path
    if pathTruthy state path then some ⟨true, orElse passRule path, detailsFromStep source state⟩
    else some ⟨false, orElse failRule path, detailsFromStep source state⟩
  | .requireEquals path value passRule failRule source =>
    let path := strip path
    if (getPath state path).eq value then
      some ⟨true, orElse passRule (path ++ "_equals"), detailsFromStep source state⟩
    else some ⟨false, orElse failRule (path ++ "_equals"), detailsFromStep source state⟩

def evaluateItems (intent : String) (state : Entries) :
    List RuleItem → Except Fault ValidationResult
  | [] => .error (.invalid ("validation rules produced no result for intent: " ++ intent))
  | .notMapping :: _ => .error (.invalid ("invalid validation step for intent: " ++ intent))
  | .unsupported stepType :: _ =>
    .error (.invalid ("unsupported validation step type: " ++ stepType))
  | .step step :: rest => match evaluateStep step state with
    | some result => .ok result
    | none => evaluateItems intent state rest

def validateOperationResult (intent : String) (state : Entries)
    (profile : Option LoadedProfile) : Except Fault ValidationResult :=
  match profile with
  | none => .error (.invalid ("profile root required to validate intent: " ++ intent))
  | some profile => match loadValidationRuleSpec profile intent with
    | .error fault => .error fault
    | .ok items => evaluateItems intent state items

/-- What a step demands of the shared state, read off the contract's table. -/
def Demands (state : Entries) : ValidationStep → Prop
  | .requireMapping key _ => (Value.get state (strip key)).isDict = true
  | .requireTruthyPath path _ _ _ => pathTruthy state (strip path) = true
  | .requireEquals path value _ _ _ => (getPath state (strip path)).eq value = true

instance (state : Entries) : (step : ValidationStep) → Decidable (Demands state step)
  | .requireMapping _ _ => inferInstanceAs (Decidable (_ = true))
  | .requireTruthyPath _ _ _ _ => inferInstanceAs (Decidable (_ = true))
  | .requireEquals _ _ _ _ _ => inferInstanceAs (Decidable (_ = true))

def isMappingStep : ValidationStep → Bool
  | .requireMapping _ _ => true
  | _ => false

theorem evaluateStep_mapping (state : Entries) (mapping : isMappingStep step = true) :
    (Demands state step ∧ evaluateStep step state = none) ∨
      (¬Demands state step ∧ ∃ r, evaluateStep step state = some r ∧ r.passed = false) := by
  cases step with
  | requireMapping key fail =>
    by_cases held : (Value.get state (strip key)).isDict = true
    · exact .inl ⟨held, by simp [evaluateStep, held]⟩
    · refine .inr ⟨held, ?_⟩
      cases fail <;> simp [evaluateStep, held]
  | requireTruthyPath => simp [isMappingStep] at mapping
  | requireEquals => simp [isMappingStep] at mapping

theorem evaluateStep_path (state : Entries) (kind : isMappingStep step = false) :
    ∃ r, evaluateStep step state = some r ∧ (r.passed = true ↔ Demands state step) := by
  cases step with
  | requireMapping => simp [isMappingStep] at kind
  | requireTruthyPath path passRule failRule source =>
    by_cases held : pathTruthy state (strip path) = true <;>
      simp [evaluateStep, Demands, held]
  | requireEquals path value passRule failRule source =>
    by_cases held : (getPath state (strip path)).eq value = true <;>
      simp [evaluateStep, Demands, held]

/-- The verdict an outcome of the evaluator has to give on a rule. -/
def Conjunctive (state : Entries) (steps : List ValidationStep)
    (outcome : Except Fault ValidationResult) : Prop :=
  ∃ r, outcome = .ok r ∧ (r.passed = true ↔ ∀ step ∈ steps, Demands state step)

def leading (steps : List ValidationStep) : List ValidationStep := steps.takeWhile isMappingStep

def deciding (steps : List ValidationStep) : List ValidationStep := steps.dropWhile isMappingStep

def Decided (state : Entries) (steps : List ValidationStep) : Prop :=
  (∃ step ∈ leading steps, ¬Demands state step) ∨
    ∃ step rest, deciding steps = step :: rest ∧
      (Demands state step → ∀ later ∈ rest, Demands state later)

theorem decided_cons_mapping {state : Entries} {rest : List ValidationStep}
    (mapping : isMappingStep step = true) :
    Decided state (step :: rest) ↔ ¬Demands state step ∨ Decided state rest := by
  simp [Decided, leading, deciding, mapping, or_assoc]

theorem decided_cons_path {state : Entries} {rest : List ValidationStep}
    (path : isMappingStep step = false) : Decided state (step :: rest) ↔
      (Demands state step → ∀ later ∈ rest, Demands state later) := by
  simp [Decided, leading, deciding, path]

theorem evaluateItems_conjunctive_iff (intent : String) (state : Entries)
    (steps : List ValidationStep) :
    Conjunctive state steps (evaluateItems intent state (steps.map .step)) ↔
      Decided state steps := by
  induction steps with
  | nil => simp [Conjunctive, evaluateItems, Decided, leading, deciding]
  | cons step rest ih =>
    cases kind : isMappingStep step with
    | true =>
      rw [decided_cons_mapping kind]
      rcases evaluateStep_mapping state kind with ⟨held, next⟩ | ⟨failed, r, here, no⟩
      · have skip : evaluateItems intent state ((step :: rest).map .step) =
            evaluateItems intent state (rest.map .step) := by
          simp [evaluateItems, next]
        have same : Conjunctive state (step :: rest)
            (evaluateItems intent state (rest.map .step)) ↔
            Conjunctive state rest (evaluateItems intent state (rest.map .step)) := by
          simp [Conjunctive, held]
        rw [skip, same, ih]
        simp [held]
      · simp [Conjunctive, evaluateItems, here, no, failed]
    | false =>
      rw [decided_cons_path kind]
      obtain ⟨r, here, verdict⟩ := evaluateStep_path state kind
      simp only [Conjunctive, List.map_cons, evaluateItems, here, Except.ok.injEq,
        exists_eq_left', verdict, List.mem_cons, forall_eq_or_imp]
      tauto

/-- A rule is the conjunction of its steps exactly when its leading mapping steps decide it, or
a first path step after which nothing could change the verdict. -/
theorem validateOperationResult_conjunctive_iff (profile : LoadedProfile) (intent : String)
    (state : Entries) (steps : List ValidationStep)
    (declared : profile.validationRules intent = .steps (steps.map .step)) :
    Conjunctive state steps (validateOperationResult intent state (some profile)) ↔
      Decided state steps := by
  cases steps with
  | nil =>
    simp [validateOperationResult, loadValidationRuleSpec, declared, Conjunctive, Decided,
      leading, deciding]
  | cons step rest =>
    rw [← evaluateItems_conjunctive_iff intent]
    simp [validateOperationResult, loadValidationRuleSpec, declared]

def twoPathRule : List ValidationStep :=
  [.requireTruthyPath "probe.reachable" "" "" ⟨.null, .null⟩,
    .requireEquals "probe.status" (.str "ok") "" "" ⟨.null, .null⟩]

def probeState : Entries :=
  [("probe", .dict [("reachable", .bool true), ("status", .str "degraded")])]

def twoPathProfile : LoadedProfile where
  root := "profile"
  validationRules _ := .steps (twoPathRule.map .step)

theorem twoPathProfile_conjunctive_iff :
    Conjunctive probeState twoPathRule
        (validateOperationResult "probe" probeState (some twoPathProfile)) ↔
      Decided probeState twoPathRule :=
  validateOperationResult_conjunctive_iff twoPathProfile "probe" probeState twoPathRule rfl

def firstRunRule : List ValidationStep :=
  [.requireMapping "connector_results" (some ⟨"first_run_demo.connector_results_required",
    .dict [("reason", .str "missing connector results")]⟩)]

def firstRunProfile : LoadedProfile where
  root := "profile"
  validationRules _ := .steps (firstRunRule.map .step)

/-- The first path step answers before the failing equality is read. -/
theorem pathRules_not_conjunctive :
    ¬Conjunctive probeState twoPathRule
        (validateOperationResult "probe" probeState (some twoPathProfile)) ∧
      ¬Conjunctive [("connector_results", .dict [])] firstRunRule
        (validateOperationResult "inspect" [("connector_results", .dict [])]
          (some firstRunProfile)) := by
  constructor
  · rintro ⟨r, returned, verdict⟩
    have passes : validateOperationResult "probe" probeState (some twoPathProfile) =
        .ok ⟨true, "probe.reachable", []⟩ := by rfl
    rw [passes, Except.ok.injEq] at returned
    subst returned
    have unread : ¬∀ step ∈ twoPathRule, Demands probeState step := by decide
    exact unread (verdict.mp rfl)
  · rintro ⟨r, returned, -⟩
    have raises : validateOperationResult "inspect" [("connector_results", .dict [])]
        (some firstRunProfile) =
        .error (.invalid "validation rules produced no result for intent: inspect") := by rfl
    rw [raises] at returned
    exact absurd returned (by simp)

end RExecOp.Validation
