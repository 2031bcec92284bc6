import Mathlib.Init

/-! Exceptions of the runtime, kept apart as far as some handler tells them apart; `interrupt`
is a `BaseException` outside `Exception`. -/

namespace RExecOp

inductive Fault where
  | validation (reasonCode message : String)
  | state (message : String)
  | conflict (message : String)
  | runtime (reasonCode message : String)
  | exception (message : String)
  | interrupt (message : String)
  deriving DecidableEq, Repr

namespace Fault

def invalid (message : String) : Fault := .validation "validation_error" message

def leaseLost (message : String) : Fault := .validation "lease_lost" message

def outcomeIndeterminate (message : String) : Fault :=
  .validation "outcome_indeterminate" message

def mutationNotCertified (message : String) : Fault :=
  .validation "mutation_not_certified" message

def reasonCode : Fault → String
  | .validation code _ => code
  | .state _ => "invalid_state_transition"
  | .conflict _ => "concurrency_conflict"
  | .runtime code _ => code
  | .exception _ => "internal_error"
  | .interrupt _ => "internal_error"

def isException : Fault → Bool
  | .interrupt _ => false
  | _ => true

def isValidation : Fault → Bool
  | .validation _ _ => true
  | _ => false

end Fault

end RExecOp
