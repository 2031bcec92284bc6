import RExecOp.Lib.Prog

/-! Runs of a program alone on the store: what it returns meets the postcondition, and a strict
run returns. -/

namespace RExecOp

variable {ι σ κ ε α β : Type}

theorem Setting.drift_alone {S : Setting ι σ κ Empty} {command : Option κ} {s found : σ}
    (drift : S.Drift command s found) : found = s := by
  induction drift with
  | refl => rfl
  | tail _ last _ =>
    obtain ⟨x, _, _⟩ := last
    exact x.elim

/-- The inputs of a run alone on the store, and whether it has to return. -/
structure Solo (ι σ κ : Type) where
  effect : κ → ι → σ → σ
  allows : κ → ι → σ → Prop
  strict : Prop

namespace Solo

variable (M : Solo ι σ κ)

def setting : Setting ι σ κ Empty where
  effect := M.effect
  intrude x _ := x.elim
  allowsInput := M.allows
  allowsIntrusion _ _ _ := False
  allowsCrash _ _ := False
  rest _ := ¬M.strict
  promise _ _ _ := True

def Ends (p : Prog ι σ κ ε α) (post : Except ε α → σ → Prop) (s : σ) : Prop :=
  M.setting.Safe p (fun outcome after =>
    (M.strict → ∃ a, outcome = .ok a) ∧ post outcome after) s

/-- What the program returns meets `post`; in a strict run it returns. -/
def Gives (p : Prog ι σ κ ε α) (post : α → σ → Prop) (s : σ) : Prop :=
  M.Ends p (fun outcome after => ∀ a, outcome = .ok a → post a after) s

variable {M}

namespace Ends

variable {p : Prog ι σ κ ε α} {post : Except ε α → σ → Prop} {s : σ}

theorem mono {post weaker : Except ε α → σ → Prop} (ends : M.Ends p post s)
    (weaken : ∀ outcome after, post outcome after → weaker outcome after) :
    M.Ends p weaker s := by
  refine Setting.Safe.mono ends fun outcome after reached => ?_
  exact ⟨reached.1, weaken outcome after reached.2⟩

theorem raise {fault : ε} (lax : ¬M.strict)
    (holds : post (.error fault) s) : M.Ends (.raise fault : Prog ι σ κ ε α) post s :=
  ⟨fun strict => absurd strict lax, holds⟩

theorem ofExcept {result : Except ε α} (returns : M.strict → ∃ a, result = .ok a)
    (holds : post result s) :
    M.Ends (Prog.ofExcept result : Prog ι σ κ ε α) post s := by
  cases result with
  | ok a => exact ⟨fun _ => ⟨a, rfl⟩, holds⟩
  | error fault => exact ⟨returns, holds⟩

theorem request {command : κ} {reply : ι → σ → Except ε α}
    (step : ∀ i, M.allows command i s → (M.strict → ∃ a, reply i s = .ok a) ∧
      post (reply i s) (M.effect command i s)) :
    M.Ends (.request command reply) post s := by
  intro found drifted
  have same := Setting.drift_alone drifted
  subst same
  refine ⟨False.elim, fun i allowed => ⟨trivial, ?_⟩⟩
  exact ofExcept (step i allowed).1 (step i allowed).2

theorem bind {next : α → Prog ι σ κ ε β} {mid : Except ε α → σ → Prop}
    {post : Except ε β → σ → Prop} (ends : M.Ends p mid s)
    (stop : ∀ fault after, mid (.error fault) after → post (.error fault) after)
    (rest : ∀ a after, mid (.ok a) after → M.Ends (next a) post after) :
    M.Ends (p >>= next) post s := by
  apply Setting.Safe.bind
  refine Setting.Safe.mono ends ?_
  rintro (fault | a) after ⟨returns, holds⟩
  · refine ⟨fun strict => ?_, stop fault after holds⟩
    obtain ⟨a, impossible⟩ := returns strict
    cases impossible
  · exact rest a after holds

theorem attempt_bind {next : Except ε α → Prog ι σ κ ε β} {mid : Except ε α → σ → Prop}
    {post : Except ε β → σ → Prop} (ends : M.Ends p mid s)
    (rest : ∀ outcome after, (M.strict → ∃ a, outcome = .ok a) → mid outcome after →
      M.Ends (next outcome) post after) :
    M.Ends (p.attempt >>= next) post s := by
  apply Setting.Safe.bind
  apply Setting.Safe.attempt
  refine Setting.Safe.mono ends fun outcome after reached => ?_
  exact rest outcome after reached.1 reached.2

theorem raised {fault : ε} {inputs : Nat → ι} {after : σ} (ends : M.Ends p post s)
    (allowed : ∀ command n store, M.allows command (inputs n) store)
    (ran : p.exec M.effect inputs s = (.raised fault, after)) : post (.error fault) after := by
  have reached := Setting.Safe.exec ends allowed
  rw [show p.exec M.setting.effect inputs s = _ from ran] at reached
  exact reached.2

end Ends

namespace Gives

variable {p : Prog ι σ κ ε α} {post : α → σ → Prop} {s : σ} {items : List α}
  {body : α → Prog ι σ κ ε (Option β)}

theorem pure {a : α} (holds : post a s) :
    M.Gives (pure a : Prog ι σ κ ε α) post s := by
  refine ⟨fun _ => ⟨a, rfl⟩, fun b same => ?_⟩
  cases same
  exact holds

theorem raise {fault : ε} (lax : ¬M.strict) :
    M.Gives (.raise fault : Prog ι σ κ ε α) post s :=
  Ends.raise lax nofun

theorem mono {post weaker : α → σ → Prop} (gives : M.Gives p post s)
    (weaken : ∀ a after, post a after → weaker a after) : M.Gives p weaker s :=
  Ends.mono gives fun _ after holds a same => weaken a after (holds a same)

theorem bind {next : α → Prog ι σ κ ε β} {mid : α → σ → Prop} {post : β → σ → Prop}
    (gives : M.Gives p mid s) (rest : ∀ a after, mid a after → M.Gives (next a) post after) :
    M.Gives (p >>= next) post s :=
  Ends.bind gives (fun _ _ _ => nofun) fun a after holds => rest a after (holds a rfl)

theorem request {command : κ} {reply : ι → σ → Except ε α}
    (step : ∀ i, M.allows command i s → (M.strict → ∃ a, reply i s = .ok a) ∧
      ∀ a, reply i s = .ok a → post a (M.effect command i s)) :
    M.Gives (.request command reply) post s :=
  Ends.request step

theorem forEach_from {inv : List α → List β → σ → Prop}
    (each : ∀ item rest done s, inv (item :: rest) done s →
      M.Gives (body item) (fun found after => inv rest (done ++ found.toList) after) s)
    {done : List β} (holds : inv items done s) :
    M.Gives (Prog.forEach items body) (fun others after => inv [] (done ++ others) after) s := by
  induction items generalizing done s with
  | nil => exact pure (by rwa [List.append_nil])
  | cons item rest ih =>
    refine bind (each item rest done s holds) fun found after reached => ?_
    refine bind (ih reached) fun others last final => ?_
    refine pure ?_
    rwa [List.append_assoc] at final

theorem forEach (inv : List α → List β → σ → Prop)
    (each : ∀ item rest done s, inv (item :: rest) done s →
      M.Gives (body item) (fun found after => inv rest (done ++ found.toList) after) s)
    (holds : inv items [] s) :
    M.Gives (Prog.forEach items body) (inv []) s :=
  forEach_from each holds

theorem forEach_none
    (each : ∀ item ∈ items, M.Gives (body item) (fun found after => found = none ∧ after = s) s) :
    M.Gives (Prog.forEach items body) (fun all after => all = [] ∧ after = s) s := by
  refine forEach (fun rest all after => rest ⊆ items ∧ all = [] ∧ after = s) ?_
    ⟨List.Subset.refl _, rfl, rfl⟩ |>.mono fun _ _ reached => reached.2
  rintro item rest done after ⟨inside, rfl, rfl⟩
  refine (each item (inside List.mem_cons_self)).mono ?_
  rintro found last ⟨rfl, rfl⟩
  exact ⟨fun _ member => inside (List.mem_cons_of_mem _ member), rfl, rfl⟩

theorem exec (gives : M.Gives p post s) {inputs : Nat → ι}
    (allowed : ∀ command n store, M.allows command (inputs n) store) :
    (∀ a after, p.exec M.effect inputs s = (.returned a, after) → post a after) ∧
      (M.strict → ∃ a after, p.exec M.effect inputs s = (.returned a, after)) := by
  change (∀ a after, p.exec M.setting.effect inputs s = _ → _) ∧
    (_ → ∃ a after, p.exec M.setting.effect inputs s = _)
  have reached := Setting.Safe.exec gives allowed
  split at reached
  · rename_i value after ran
    rw [ran]
    refine ⟨fun a last same => ?_, fun _ => ⟨value, after, rfl⟩⟩
    cases same
    exact reached.2 value rfl
  · rename_i fault after ran
    rw [ran]
    refine ⟨fun a last same => by simp at same, fun strict => ?_⟩
    obtain ⟨a, impossible⟩ := reached.1 strict
    cases impossible
  · rename_i after ran
    rw [ran]
    exact ⟨fun a last same => by simp at same, fun strict => absurd strict reached⟩

theorem returns {condition : κ → ι → σ → Prop} {inputs : Nat → ι} (gives : M.Gives p post s)
    (strict : M.strict) (meets : p.Throughout M.effect condition inputs s)
    (allowed : ∀ command i s, condition command i s → M.allows command i s) :
    (p.exec M.effect inputs s).1.returns = true := by
  induction p generalizing s inputs with
  | ret value => rfl
  | raise fault =>
    obtain ⟨a, impossible⟩ := gives.1 strict
    cases impossible
  | halt => exact absurd strict gives
  | access command next ih =>
    have here := gives s .refl
    exact ih _ _ (here.2 (inputs 0) (allowed _ _ _ meets.1)).2 meets.2

end Gives

end Solo

namespace Prog

def Within (legal : κ → Prop) (good : α → Prop) : Prog ι σ κ ε α → Prop
  | ret value => good value
  | raise _ => True
  | halt => False
  | access command next => legal command ∧ ∀ input store, Within legal good (next input store)

namespace Within

variable {legal : κ → Prop} {good : α → Prop}

theorem bind {p : Prog ι σ κ ε α} {next : α → Prog ι σ κ ε β} {last : β → Prop}
    (first : p.Within legal good) (rest : ∀ value, good value → (next value).Within legal last) :
    (p >>= next).Within legal last := by
  induction p with
  | ret value => exact rest value first
  | raise fault => exact trivial
  | halt => exact first
  | access command following ih =>
    exact ⟨first.1, fun input store => ih input store (first.2 input store)⟩

theorem ofExcept {result : Except ε α} (holds : ∀ value, result = .ok value → good value) :
    (Prog.ofExcept result : Prog ι σ κ ε α).Within legal good := by
  cases result with
  | ok value => exact holds value rfl
  | error fault => exact trivial

theorem request {command : κ} {reply : ι → σ → Except ε α} (fits : legal command)
    (holds : ∀ input store value, reply input store = .ok value → good value) :
    (Prog.request command reply : Prog ι σ κ ε α).Within legal good :=
  ⟨fits, fun input store => ofExcept (holds input store)⟩

end Within

/-- What a component raises leaves the program; its own errors are `refuses`. -/
def Uncaught (fault : ι → Option ε) (refuses : ε → Prop) : Prog ι σ κ ε α → Prop
  | ret _ => True
  | raise raised => refuses raised
  | halt => False
  | access _ next => ∀ input store, match fault input with
    | some raised => next input store = raise raised
    | none => Uncaught fault refuses (next input store)

namespace Uncaught

variable {fault : ι → Option ε} {refuses : ε → Prop} {p q : Prog ι σ κ ε α}

theorem bind {next : α → Prog ι σ κ ε β} (first : p.Uncaught fault refuses)
    (rest : ∀ value, (next value).Uncaught fault refuses) :
    (p >>= next).Uncaught fault refuses := by
  induction p with
  | ret value => exact rest value
  | raise raised => exact first
  | halt => exact first
  | access command following ih =>
    intro input store
    have here := first input store
    cases faulted : fault input with
    | some raised =>
      simp only [faulted] at here
      exact congrArg (Prog.bind · next) here
    | none =>
      simp only [faulted] at here
      exact ih input store here

theorem ofExcept {result : Except ε α} (own : ∀ raised, result = .error raised → refuses raised) :
    (Prog.ofExcept result : Prog ι σ κ ε α).Uncaught fault refuses := by
  cases result with
  | ok value => exact trivial
  | error raised => exact own raised rfl

theorem request {command : κ} {reply : ι → σ → Except ε α}
    (raises : ∀ input store raised, fault input = some raised → reply input store = .error raised)
    (own : ∀ input store raised, fault input = none → reply input store = .error raised →
      refuses raised) : (Prog.request command reply).Uncaught fault refuses := by
  intro input store
  cases faulted : fault input with
  | some raised => exact congrArg Prog.ofExcept (raises input store raised faulted)
  | none => exact ofExcept fun raised => own input store raised faulted

theorem ite {choice : Prop} [Decidable choice] (first : p.Uncaught fault refuses)
    (second : q.Uncaught fault refuses) : (if choice then p else q).Uncaught fault refuses := by
  split
  · exact first
  · exact second

theorem forEach {items : List α} {body : α → Prog ι σ κ ε (Option β)}
    (each : ∀ item, (body item).Uncaught fault refuses) :
    (Prog.forEach items body).Uncaught fault refuses := by
  induction items with
  | nil => exact trivial
  | cons item rest ih => exact (each item).bind fun _ => ih.bind fun _ => trivial

theorem exec (uncaught : p.Uncaught fault refuses) (effect : κ → ι → σ → σ) (inputs : Nat → ι)
    (store : σ) :
    let raising := fun tolerated : ε → Prop => p.Throughout effect
      (fun _ input _ => ∀ other, fault input = some other → tolerated other) inputs store
    match (p.exec effect inputs store).1 with
    | .returned _ => ∀ tolerated, raising tolerated
    | .raised raised => (∀ tolerated, raising tolerated) ∧ refuses raised ∨
      ∀ tolerated, raising tolerated ↔ tolerated raised
    | .halted => False := by
  induction p generalizing inputs store with
  | ret value => exact fun _ => trivial
  | raise raised => exact .inl ⟨fun _ => trivial, uncaught⟩
  | halt => exact uncaught
  | access command next ih =>
    have here := uncaught (inputs 0) store
    cases faulted : fault (inputs 0) with
    | some other =>
      simp only [faulted] at here
      simp only [Prog.exec, Throughout, here, faulted, Option.some.injEq, forall_eq', and_true,
        implies_true, or_true]
    | none =>
      simp only [faulted] at here
      have rest := ih (inputs 0) store here (fun n => inputs (n + 1))
        (effect command (inputs 0) store)
      simpa only [Prog.exec, Throughout, faulted, reduceCtorEq, false_imp_iff, implies_true,
        true_and] using rest

end Uncaught

end Prog

namespace Setting

def alone (effect : κ → ι → σ → σ) (promise : κ → ι → σ → Prop) : Setting ι σ κ Empty where
  effect := effect
  intrude x _ := x.elim
  allowsInput _ _ _ := True
  allowsIntrusion _ _ _ := False
  allowsCrash _ _ := False
  rest _ := False
  promise := promise

variable {effect : κ → ι → σ → σ} {promise : κ → ι → σ → Prop}
  {p : Prog ι σ κ ε α} {post : Except ε α → σ → Prop} {s : σ}

theorem Safe.request_alone {command : κ} {reply : ι → σ → Except ε α}
    (step : ∀ i, promise command i s ∧ post (reply i s) (effect command i s)) :
    (alone effect promise).Safe (.request command reply) post s := by
  intro found drifted
  have same := drift_alone drifted
  subst same
  exact ⟨False.elim, fun i _ => ⟨(step i).1, .ofExcept (step i).2⟩⟩

theorem Safe.of_within {legal : κ → Prop} {good : α → Prop} {near : σ → Prop}
    (within : p.Within legal good)
    (step : ∀ command i s, legal command → near s → promise command i s ∧ near (effect command i s))
    (start : near s) (returned : ∀ value after, good value → near after → post (.ok value) after)
    (raised : ∀ fault after, near after → post (.error fault) after) :
    (alone effect promise).Safe p post s := by
  induction p generalizing s with
  | ret value => exact returned value s within start
  | raise fault => exact raised fault s start
  | halt => exact within
  | access command next ih =>
    intro found drifted
    have same := drift_alone drifted
    subst same
    refine ⟨False.elim, fun i _ => ?_⟩
    have kept := step command i found within.1 start
    exact ⟨kept.1, ih i found (within.2 i found) kept.2⟩

theorem Safe.throughout {condition : κ → ι → σ → Prop} (safe : (alone effect promise).Safe p post s)
    (keeps : ∀ command i s, promise command i s → condition command i s) (inputs : Nat → ι) :
    p.Throughout effect condition inputs s := by
  induction p generalizing s inputs with
  | ret value => exact trivial
  | raise fault => exact trivial
  | halt => exact trivial
  | access command next ih =>
    have kept := (safe s .refl).2 (inputs 0) trivial
    exact ⟨keeps _ _ _ kept.1, ih (inputs 0) s kept.2 _⟩

theorem Safe.exec_alone (safe : (alone effect promise).Safe p post s) (inputs : Nat → ι) :
    ∃ outcome, post outcome (p.exec effect inputs s).2 ∧
      ∀ value, (p.exec effect inputs s).1 = .returned value → outcome = .ok value := by
  have allowed : ∀ command n store, (alone effect promise).allowsInput command (inputs n) store :=
    fun _ _ _ => trivial
  have ends := safe.exec allowed
  change ∃ outcome, post outcome (p.exec (alone effect promise).effect inputs s).2 ∧ ∀ value,
    (p.exec (alone effect promise).effect inputs s).1 = _ → _
  split at ends
  · next value after ran =>
    rw [ran]
    exact ⟨.ok value, ends, fun _ same => by cases same; rfl⟩
  · next fault after ran =>
    rw [ran]
    exact ⟨.error fault, ends, by simp⟩
  · exact ends.elim

end Setting

end RExecOp
