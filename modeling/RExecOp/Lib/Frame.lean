import RExecOp.Lib.Prog

/-! Runs alone on the store, taken apart at a bind, and programs that are blind to a part of the
store. -/

namespace RExecOp.Prog

variable {ι σ κ ε α β θ : Type} {effect : κ → ι → σ → σ}
  {p : Prog ι σ κ ε α}

/-- The number of accesses of a run alone on the store. -/
def steps (effect : κ → ι → σ → σ) (p : Prog ι σ κ ε α) (inputs : Nat → ι) (store : σ) : Nat :=
  p.count effect (fun _ _ _ => true) inputs store

theorem steps_access (command : κ) (next : ι → σ → Prog ι σ κ ε α) (inputs : Nat → ι)
    (store : σ) : steps effect (.access command next) inputs store =
      1 + steps effect (next (inputs 0) store) (fun n => inputs (n + 1))
        (effect command (inputs 0) store) := rfl

theorem exec_bind (p : Prog ι σ κ ε α) (next : α → Prog ι σ κ ε β) (inputs : Nat → ι)
    (store : σ) :
    (p >>= next).exec effect inputs store = match p.exec effect inputs store with
      | (.returned value, after) =>
        (next value).exec effect (fun n => inputs (steps effect p inputs store + n)) after
      | (.raised fault, after) => (.raised fault, after)
      | (.halted, after) => (.halted, after) := by
  induction p generalizing inputs store with
  | ret value =>
    have none_made :
        (fun n => inputs (steps effect (ret value : Prog ι σ κ ε α) inputs store + n)) =
          inputs := funext fun n => congrArg inputs (Nat.zero_add n)
    simp only [exec, none_made]
    rfl
  | raise fault => rfl
  | halt => rfl
  | access command following ih =>
    have first := ih (inputs 0) store (fun n => inputs (n + 1)) (effect command (inputs 0) store)
    have shifted : ∀ made n : Nat, inputs (made + n + 1) = inputs (1 + made + n) :=
      fun made n => congrArg inputs (by omega)
    simp only [shifted] at first
    simp only [steps_access]
    exact first

theorem exec_request (command : κ) (reply : ι → σ → Except ε α) (inputs : Nat → ι) (store : σ) :
    (request command reply).exec effect inputs store =
      (match reply (inputs 0) store with
        | .ok value => .returned value
        | .error fault => .raised fault, effect command (inputs 0) store) := by
  rw [request, exec]
  cases reply (inputs 0) store <;> rfl

theorem exec_request_bind (command : κ) (reply : ι → σ → Except ε α) (next : α → Prog ι σ κ ε β)
    (inputs : Nat → ι) (store : σ) :
    (request command reply >>= next).exec effect inputs store =
      match reply (inputs 0) store with
      | .ok value =>
        (next value).exec effect (fun n => inputs (n + 1)) (effect command (inputs 0) store)
      | .error fault => (.raised fault, effect command (inputs 0) store) := by
  rw [request, bind_eq, bind, exec]
  cases reply (inputs 0) store <;> rfl

theorem exec_attempt (p : Prog ι σ κ ε α) (inputs : Nat → ι) (store : σ) :
    p.attempt.exec effect inputs store = match p.exec effect inputs store with
      | (.returned value, after) => (.returned (.ok value), after)
      | (.raised fault, after) => (.returned (.error fault), after)
      | (.halted, after) => (.halted, after) := by
  induction p generalizing inputs store with
  | ret value => rfl
  | raise fault => rfl
  | halt => rfl
  | access command following ih => exact ih _ _ _ _

theorem steps_attempt (p : Prog ι σ κ ε α) (inputs : Nat → ι) (store : σ) :
    p.attempt.steps effect inputs store = p.steps effect inputs store := by
  induction p generalizing inputs store with
  | ret value => rfl
  | raise fault => rfl
  | halt => rfl
  | access command following ih => exact congrArg (1 + ·) (ih _ _ _ _)

theorem exec_bind_induct {next : α → Prog ι σ κ ε β} {inputs : Nat → ι} {store : σ}
    {post : Outcome ε β × σ → Prop}
    (returned : ∀ value after rest, p.exec effect inputs store = (.returned value, after) →
      post ((next value).exec effect rest after))
    (raised : ∀ fault after, p.exec effect inputs store = (.raised fault, after) →
      post (.raised fault, after))
    (halted : ∀ after, p.exec effect inputs store = (.halted, after) → post (.halted, after)) :
    post ((p >>= next).exec effect inputs store) := by
  rw [exec_bind]
  split
  · next value after ran => exact returned value after _ ran
  · next fault after ran => exact raised fault after ran
  · next after ran => exact halted after ran

def Loopless : Prog ι σ κ ε α → Prop
  | ret _ => True
  | raise _ => True
  | halt => False
  | access _ next => ∀ input store, Loopless (next input store)

namespace Loopless

theorem bind {next : α → Prog ι σ κ ε β} (first : p.Loopless)
    (rest : ∀ value, (next value).Loopless) : (p >>= next).Loopless := by
  induction p with
  | ret value => exact rest value
  | raise fault => exact trivial
  | halt => exact first
  | access command following ih => exact fun input store => ih input store (first input store)

theorem attempt (loopless : p.Loopless) : p.attempt.Loopless := by
  induction p with
  | ret value => exact trivial
  | raise fault => exact trivial
  | halt => exact loopless
  | access command following ih => exact fun input store => ih input store (loopless input store)

theorem request {command : κ} {reply : ι → σ → Except ε α} :
    (Prog.request command reply : Prog ι σ κ ε α).Loopless := by
  intro input store
  dsimp only
  cases reply input store <;> exact trivial

theorem exec (loopless : p.Loopless) (inputs : Nat → ι) (store : σ) :
    (p.exec effect inputs store).1 ≠ .halted := by
  induction p generalizing inputs store with
  | ret value => exact nofun
  | raise fault => exact nofun
  | halt => exact loopless.elim
  | access command following ih => exact ih _ _ (loopless _ _) _ _

end Loopless

theorem Only.mono {legal wider : κ → Prop} (only : p.Only legal)
    (widen : ∀ {command}, legal command → wider command) : p.Only wider := by
  induction p with
  | ret value => exact trivial
  | raise fault => exact trivial
  | halt => exact trivial
  | access command following ih =>
    exact ⟨widen only.1, fun input store => ih input store (only.2 input store)⟩

theorem Only.ofExcept_bind {legal : κ → Prop} {result : Except ε α} {next : α → Prog ι σ κ ε β}
    (rest : ∀ value, result = .ok value → (next value).Only legal) :
    (Prog.ofExcept result >>= next).Only legal := by
  cases result with
  | ok value => exact rest value rfl
  | error fault => exact trivial

theorem Only.exec {legal : κ → Prop} (only : p.Only legal) (relates : σ → σ → Prop)
    (refl : ∀ s, relates s s) (trans : ∀ s t u, relates s t → relates t u → relates s u)
    (step : ∀ {command}, legal command → ∀ input store, relates store (effect command input store))
    (inputs : Nat → ι) (store : σ) :
    relates store (p.exec effect inputs store).2 := by
  induction p generalizing inputs store with
  | ret value => exact refl store
  | raise fault => exact refl store
  | halt => exact refl store
  | access command following ih =>
    have rest := ih (inputs 0) store (only.2 _ _) (fun n => inputs (n + 1))
      (effect command (inputs 0) store)
    exact trans _ _ _ (step only.1 (inputs 0) store) rest

/-- The program stays `outside` a part of the store and goes on alike when that is replaced. -/
def Blind (put : θ → σ → σ) (outside : κ → Prop) : Prog ι σ κ ε α → Prop
  | ret _ => True
  | raise _ => True
  | halt => True
  | access command next => outside command ∧ ∀ input store,
    Blind put outside (next input store) ∧ ∀ part, next input (put part store) = next input store

namespace Blind

variable {put : θ → σ → σ} {outside : κ → Prop}

theorem bind {next : α → Prog ι σ κ ε β} (first : p.Blind put outside)
    (rest : ∀ value, (next value).Blind put outside) : (p >>= next).Blind put outside := by
  induction p with
  | ret value => exact rest value
  | raise fault => exact trivial
  | halt => exact trivial
  | access command following ih =>
    refine ⟨first.1, fun input store => ⟨ih input store (first.2 input store).1, fun part => ?_⟩⟩
    exact congrArg (·.bind next) ((first.2 input store).2 part)

theorem attempt (blind : p.Blind put outside) :
    p.attempt.Blind put outside := by
  induction p with
  | ret value => exact trivial
  | raise fault => exact trivial
  | halt => exact trivial
  | access command following ih =>
    refine ⟨blind.1, fun input store => ⟨ih input store (blind.2 input store).1, fun part => ?_⟩⟩
    exact congrArg (·.attempt) ((blind.2 input store).2 part)

theorem mono {wider : κ → Prop} (blind : p.Blind put outside)
    (widen : ∀ {command}, outside command → wider command) : p.Blind put wider := by
  induction p with
  | ret value => exact trivial
  | raise fault => exact trivial
  | halt => exact trivial
  | access command following ih =>
    exact ⟨widen blind.1, fun input store =>
      ⟨ih input store (blind.2 input store).1, (blind.2 input store).2⟩⟩

theorem ofExcept {result : Except ε α} :
    (Prog.ofExcept result : Prog ι σ κ ε α).Blind put outside := by
  cases result <;> exact trivial

theorem request {command : κ} {reply : ι → σ → Except ε α} (fits : outside command)
    (same : ∀ input store part, reply input (put part store) = reply input store) :
    (Prog.request command reply : Prog ι σ κ ε α).Blind put outside :=
  ⟨fits, fun input store => ⟨ofExcept, fun part => congrArg Prog.ofExcept (same input store part)⟩⟩

theorem only (blind : p.Blind put outside) : p.Only outside := by
  induction p with
  | ret value => exact trivial
  | raise fault => exact trivial
  | halt => exact trivial
  | access command following ih =>
    exact ⟨blind.1, fun input store => ih input store (blind.2 input store).1⟩

section Run

variable (commutes : ∀ {command}, outside command → ∀ input part store,
  effect command input (put part store) = put part (effect command input store))

include commutes

theorem exec (blind : p.Blind put outside) (inputs : Nat → ι) (part : θ)
    (store : σ) : p.exec effect inputs (put part store) =
      ((p.exec effect inputs store).1, put part (p.exec effect inputs store).2) := by
  induction p generalizing inputs store with
  | ret value => rfl
  | raise fault => rfl
  | halt => rfl
  | access command following ih =>
    rw [Prog.exec, (blind.2 (inputs 0) store).2 part, commutes blind.1]
    exact ih _ _ (blind.2 (inputs 0) store).1 _ _

theorem steps (blind : p.Blind put outside) (inputs : Nat → ι) (part : θ)
    (store : σ) : p.steps effect inputs (put part store) = p.steps effect inputs store := by
  induction p generalizing inputs store with
  | ret value => rfl
  | raise fault => rfl
  | halt => rfl
  | access command following ih =>
    rw [steps_access, steps_access, (blind.2 (inputs 0) store).2 part, commutes blind.1]
    exact congrArg (1 + ·) (ih _ _ (blind.2 (inputs 0) store).1 _ _)

end Run

end Blind

end RExecOp.Prog
