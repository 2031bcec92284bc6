import Mathlib.Init

/-! Results of computations that may raise: the steps of one that returned. -/

namespace RExecOp.Results

variable {ε α β : Type} {x : Except ε α} {a : α} {b : β}

theorem bind_eq_ok {f : α → Except ε β} : x >>= f = .ok b ↔ ∃ a, x = .ok a ∧ f a = .ok b := by
  cases x with
  | error e => simp [bind, Except.bind]
  | ok a => simp [bind, Except.bind]

theorem return_eq_ok {value : α} : (pure value : Except ε α) = .ok a ↔ value = a := by
  simp [pure, Except.pure]

theorem check_eq_ok {fails : Prop} [Decidable fails] {e : ε} {f : β → Except ε α} :
    (if fails then throw e >>= f else x) = .ok a ↔ ¬ fails ∧ x = .ok a := by
  by_cases failed : fails
  · simp [failed, bind, Except.bind, throw, throwThe, MonadExceptOf.throw]
  · simp [failed]

end RExecOp.Results
