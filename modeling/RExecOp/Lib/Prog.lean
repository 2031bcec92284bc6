import Mathlib.Logic.Relation

/-! Programs that reach a shared store one access at a time, and a logic for them: between two
accesses other parties may change the store, and the process may crash. -/

namespace RExecOp

variable {ι σ κ ε α β χ γ : Type}

/-- A program returns, raises, stops at the bound of its loops, or issues a command and goes on
with the input and the store of that access. -/
inductive Prog (ι σ κ ε : Type) (α : Type) where
  | ret (value : α)
  | raise (fault : ε)
  | halt
  | access (command : κ) (next : ι → σ → Prog ι σ κ ε α)

namespace Prog

def bind : Prog ι σ κ ε α → (α → Prog ι σ κ ε β) → Prog ι σ κ ε β
  | ret value, rest => rest value
  | raise fault, _ => raise fault
  | halt, _ => halt
  | access command next, rest => access command fun input store => bind (next input store) rest

instance : Monad (Prog ι σ κ ε) where
  pure := ret
  bind := bind

/-- The outcome as a value; the bound of a loop is not caught. -/
def attempt : Prog ι σ κ ε α → Prog ι σ κ ε (Except ε α)
  | ret value => ret (.ok value)
  | raise fault => ret (.error fault)
  | halt => halt
  | access command next => access command fun input store => attempt (next input store)

def ofExcept : Except ε α → Prog ι σ κ ε α
  | .ok value => ret value
  | .error fault => raise fault

def request (command : κ) (reply : ι → σ → Except ε α) : Prog ι σ κ ε α :=
  access command fun input store => ofExcept (reply input store)

/-- Runs `cleanup` after `body`, however that ends. -/
def ensuring (body : Prog ι σ κ ε α) (cleanup : Prog ι σ κ ε Unit) : Prog ι σ κ ε α := do
  let outcome ← attempt body
  cleanup
  ofExcept outcome

def forEach : List α → (α → Prog ι σ κ ε (Option β)) → Prog ι σ κ ε (List β)
  | [], _ => ret []
  | item :: rest, body => do
    let found ← body item
    let others ← forEach rest body
    pure (found.toList ++ others)

inductive Outcome (ε α : Type) where
  | returned (value : α)
  | raised (fault : ε)
  | halted

def Outcome.returns : Outcome ε α → Bool
  | .returned _ => true
  | _ => false

def exec (effect : κ → ι → σ → σ) : Prog ι σ κ ε α → (Nat → ι) → σ → Outcome ε α × σ
  | ret value, _, store => (.returned value, store)
  | raise fault, _, store => (.raised fault, store)
  | halt, _, store => (.halted, store)
  | access command next, inputs, store =>
    exec effect (next (inputs 0) store) (fun n => inputs (n + 1)) (effect command (inputs 0) store)

/-- A run beside other parties, who may change the store before each access. -/
def follow : Prog ι σ κ ε α → (Nat → ι × σ) → Outcome ε α × (Nat → ι × σ)
  | ret value, found => (.returned value, found)
  | raise fault, found => (.raised fault, found)
  | halt, found => (.halted, found)
  | access _ next, found => follow (next (found 0).1 (found 0).2) fun n => found (n + 1)

def accesses : Prog ι σ κ ε α → (Nat → ι × σ) → List (κ × ι × σ)
  | ret _, _ => []
  | raise _, _ => []
  | halt, _ => []
  | access command next, found =>
    (command, found 0) :: accesses (next (found 0).1 (found 0).2) fun n => found (n + 1)

/-- How many accesses of a run alone on the store meet a test. -/
def count (effect : κ → ι → σ → σ) (test : κ → ι → σ → Bool) :
    Prog ι σ κ ε α → (Nat → ι) → σ → Nat
  | ret _, _, _ => 0
  | raise _, _, _ => 0
  | halt, _, _ => 0
  | access command next, inputs, store =>
    (if test command (inputs 0) store then 1 else 0) +
      count effect test (next (inputs 0) store) (fun n => inputs (n + 1))
        (effect command (inputs 0) store)

/-- Every access of a run alone on the store meets a condition. -/
def Throughout (effect : κ → ι → σ → σ) (condition : κ → ι → σ → Prop) :
    Prog ι σ κ ε α → (Nat → ι) → σ → Prop
  | ret _, _, _ => True
  | raise _, _, _ => True
  | halt, _, _ => True
  | access command next, inputs, store => condition command (inputs 0) store ∧
    Throughout effect condition (next (inputs 0) store) (fun n => inputs (n + 1))
      (effect command (inputs 0) store)

theorem exists_of_returns {run : Outcome ε α × σ} (returns : run.1.returns = true) :
    ∃ value after, run = (.returned value, after) := by
  obtain ⟨outcome, after⟩ := run
  cases outcome with
  | returned value => exact ⟨value, after, rfl⟩
  | raised fault => cases returns
  | halted => cases returns

@[simp] theorem pure_eq (value : α) : (pure value : Prog ι σ κ ε α) = ret value := rfl

@[simp] theorem bind_eq (p : Prog ι σ κ ε α) (rest : α → Prog ι σ κ ε β) :
    p >>= rest = p.bind rest := rfl

theorem bind_assoc {δ : Type} (p : Prog ι σ κ ε α) (next : α → Prog ι σ κ ε β)
    (rest : β → Prog ι σ κ ε δ) :
    (p.bind next).bind rest = p.bind fun value => (next value).bind rest := by
  induction p with
  | ret value => rfl
  | raise fault => rfl
  | halt => rfl
  | access command following ih =>
    rw [bind, bind, bind]
    congr 1
    funext input store
    exact ih input store

theorem bind_pure (p : Prog ι σ κ ε α) : p >>= pure = p := by
  induction p with
  | ret value => rfl
  | raise fault => rfl
  | halt => rfl
  | access command following ih =>
    exact congrArg (access command) (funext fun input => funext fun store => ih input store)

theorem follow_bind (p : Prog ι σ κ ε α) (next : α → Prog ι σ κ ε β) (found : Nat → ι × σ) :
    (p.bind next).follow found = match p.follow found with
      | (.returned value, rest) => (next value).follow rest
      | (.raised fault, rest) => (.raised fault, rest)
      | (.halted, rest) => (.halted, rest) := by
  induction p generalizing found with
  | ret value => rfl
  | raise fault => rfl
  | halt => rfl
  | access command following ih => exact ih _ _ _

theorem follow_bind_returned {p : Prog ι σ κ ε α} {next : α → Prog ι σ κ ε β}
    {found rest : Nat → ι × σ} {value : β} :
    (p >>= next).follow found = (.returned value, rest) ↔ ∃ first mid,
      p.follow found = (.returned first, mid) ∧
        (next first).follow mid = (.returned value, rest) := by
  rw [bind_eq, follow_bind]
  obtain ⟨outcome, mid⟩ := p.follow found
  cases outcome with
  | returned first =>
    constructor
    · exact fun ends => ⟨first, mid, rfl, ends⟩
    · intro ⟨_, _, same, ends⟩
      cases same
      exact ends
  | raised fault => exact ⟨nofun, fun ⟨_, _, same, _⟩ => nomatch same⟩
  | halted => exact ⟨nofun, fun ⟨_, _, same, _⟩ => nomatch same⟩

theorem accesses_bind (p : Prog ι σ κ ε α) (next : α → Prog ι σ κ ε β) (found : Nat → ι × σ) :
    (p.bind next).accesses found = p.accesses found ++ match p.follow found with
      | (.returned value, rest) => (next value).accesses rest
      | (.raised _, _) => []
      | (.halted, _) => [] := by
  induction p generalizing found with
  | ret value => rfl
  | raise fault => rfl
  | halt => rfl
  | access command following ih =>
    rw [bind, accesses, accesses, List.cons_append, follow]
    exact congrArg _ (ih _ _ _)

theorem follow_attempt (p : Prog ι σ κ ε α) (found : Nat → ι × σ) :
    p.attempt.follow found = match p.follow found with
      | (.returned value, rest) => (.returned (.ok value), rest)
      | (.raised fault, rest) => (.returned (.error fault), rest)
      | (.halted, rest) => (.halted, rest) := by
  induction p generalizing found with
  | ret value => rfl
  | raise fault => rfl
  | halt => rfl
  | access command following ih => exact ih _ _ _

def Only (legal : κ → Prop) : Prog ι σ κ ε α → Prop
  | ret _ => True
  | raise _ => True
  | halt => True
  | access command next => legal command ∧ ∀ input store, Only legal (next input store)

def Returns (a : α) : Prog ι σ κ ε α → Prop
  | ret value => value = a
  | raise _ => False
  | halt => False
  | access _ next => ∃ input store, Returns a (next input store)

namespace Only

variable {legal : κ → Prop} {p p' : Prog ι σ κ ε α}

@[simp] theorem ret_iff {value : α} : Only legal (.ret value : Prog ι σ κ ε α) ↔ True := .rfl

@[simp] theorem raise_iff {fault : ε} : Only legal (.raise fault : Prog ι σ κ ε α) ↔ True := .rfl

@[simp] theorem bind_iff {next : α → Prog ι σ κ ε β} :
    Only legal (p.bind next) ↔ Only legal p ∧ ∀ a, p.Returns a → Only legal (next a) := by
  induction p with
  | ret value => simp [Prog.bind, Returns]
  | raise fault => simp [Prog.bind, Returns, Only]
  | halt => simp [Prog.bind, Returns, Only]
  | access command following ih =>
    simp only [Prog.bind, Only, ih, Returns, forall_exists_index]
    exact ⟨fun both => ⟨⟨both.1, fun i s => (both.2 i s).1⟩, fun a i s => (both.2 i s).2 a⟩,
      fun both => ⟨both.1.1, fun i s => ⟨both.1.2 i s, fun a => both.2 a i s⟩⟩⟩

theorem bind {next : α → Prog ι σ κ ε β} (first : Only legal p)
    (rest : ∀ value, Only legal (next value)) : Only legal (p >>= next) :=
  bind_iff.mpr ⟨first, fun a _ => rest a⟩

@[simp] theorem attempt_iff : Only legal p.attempt ↔ Only legal p := by
  induction p with
  | ret value => rfl
  | raise fault => rfl
  | halt => rfl
  | access command following ih => simp only [Prog.attempt, Only, ih]

theorem attempt (only : Only legal p) : Only legal p.attempt := attempt_iff.mpr only

@[simp] theorem ite_iff {choice : Prop} [Decidable choice] : Only legal (if choice then p else p') ↔
    (choice → Only legal p) ∧ (¬choice → Only legal p') := by
  split <;> simp_all

@[simp] theorem ofExcept {result : Except ε α} :
    Only legal (Prog.ofExcept result : Prog ι σ κ ε α) := by
  cases result <;> exact trivial

@[simp] theorem request_iff {command : κ} {reply : ι → σ → Except ε α} :
    Only legal (Prog.request command reply) ↔ legal command :=
  ⟨And.left, fun ok => ⟨ok, fun _ _ => ofExcept⟩⟩

theorem request {command : κ} {reply : ι → σ → Except ε α} (ok : legal command) :
    Only legal (Prog.request command reply) := request_iff.mpr ok

theorem forEach {body : α → Prog ι σ κ ε (Option β)} (each : ∀ item, Only legal (body item))
    (items : List α) : Only legal (Prog.forEach items body) := by
  induction items with
  | nil => exact trivial
  | cons item rest ih => exact (each item).bind fun _ => ih.bind fun _ => trivial

theorem accesses (only : Only legal p) {found : Nat → ι × σ}
    {access : κ × ι × σ} (made : access ∈ p.accesses found) : legal access.1 := by
  induction p generalizing found with
  | ret value => cases made
  | raise fault => cases made
  | halt => cases made
  | access command following ih =>
    cases made with
    | head => exact only.1
    | tail _ later => exact ih _ _ (only.2 _ _) later

end Only

theorem follow_redirect {p : Prog ι σ κ ε α} {found rest : Nat → ι × σ} {outcome : Outcome ε α}
    (run : p.follow found = (outcome, rest)) (other : Nat → ι × σ) :
    ∃ redirected, p.follow redirected = (outcome, other) := by
  induction p generalizing found with
  | ret value =>
    cases run
    exact ⟨other, rfl⟩
  | raise fault =>
    cases run
    exact ⟨other, rfl⟩
  | halt =>
    cases run
    exact ⟨other, rfl⟩
  | access command following ih =>
    obtain ⟨later, redirected⟩ := ih _ _ run
    refine ⟨fun n => match n with
      | 0 => found 0
      | n + 1 => later n, ?_⟩
    exact redirected

theorem follow_rest (p : Prog ι σ κ ε α) (found : Nat → ι × σ) :
    ∃ made, (p.follow found).2 = fun n => found (made + n) := by
  induction p generalizing found with
  | ret value => exact ⟨0, funext fun n => by rw [Nat.zero_add]; rfl⟩
  | raise fault => exact ⟨0, funext fun n => by rw [Nat.zero_add]; rfl⟩
  | halt => exact ⟨0, funext fun n => by rw [Nat.zero_add]; rfl⟩
  | access command following ih =>
    obtain ⟨made, rest⟩ := ih (found 0).1 (found 0).2 fun n => found (n + 1)
    refine ⟨made + 1, rest.trans (funext fun n => ?_)⟩
    rw [Nat.add_right_comm]

end Prog

/-- What commands and intrusions do, which of them may occur, what holds at rest and what is
promised of every access. -/
structure Setting (ι σ κ χ : Type) where
  effect : κ → ι → σ → σ
  intrude : χ → σ → σ
  allowsInput : κ → ι → σ → Prop
  allowsIntrusion : Option κ → χ → σ → Prop
  allowsCrash : Option κ → σ → Prop
  rest : σ → Prop
  promise : κ → ι → σ → Prop

namespace Setting

variable (S : Setting ι σ κ χ)

def Intrusion (command : Option κ) (store after : σ) : Prop :=
  ∃ x, S.allowsIntrusion command x store ∧ after = S.intrude x store

def Drift (command : Option κ) : σ → σ → Prop := Relation.ReflTransGen (S.Intrusion command)

def Safe : Prog ι σ κ ε α → (Except ε α → σ → Prop) → σ → Prop
  | .ret value, post, store => post (.ok value) store
  | .raise fault, post, store => post (.error fault) store
  | .halt, _, store => S.rest store
  | .access command next, post, store => ∀ found, S.Drift (some command) store found →
    (S.allowsCrash (some command) found → S.rest found) ∧
      ∀ input, S.allowsInput command input found →
        S.promise command input found ∧
          Safe (next input found) post (S.effect command input found)

variable {S}

theorem Safe.mono {p : Prog ι σ κ ε α} {post weaker : Except ε α → σ → Prop} {store : σ}
    (safe : S.Safe p post store) (weaken : ∀ outcome after, post outcome after →
      weaker outcome after) :
    S.Safe p weaker store := by
  induction p generalizing store with
  | ret value => exact weaken _ _ safe
  | raise fault => exact weaken _ _ safe
  | halt => exact safe
  | access command next ih =>
    intro found drift
    obtain ⟨crash, inputs⟩ := safe found drift
    refine ⟨crash, fun input allowed => ?_⟩
    obtain ⟨promise, after⟩ := inputs input allowed
    exact ⟨promise, ih input found after⟩

theorem Safe.bind {p : Prog ι σ κ ε α} {next : α → Prog ι σ κ ε β}
    {post : Except ε β → σ → Prop} {store : σ}
    (safe : S.Safe p (fun outcome after => match outcome with
      | .ok value => S.Safe (next value) post after
      | .error fault => post (.error fault) after) store) :
    S.Safe (p.bind next) post store := by
  induction p generalizing store with
  | ret value => exact safe
  | raise fault => exact safe
  | halt => exact safe
  | access command following ih =>
    intro found drift
    obtain ⟨crash, inputs⟩ := safe found drift
    refine ⟨crash, fun input allowed => ?_⟩
    obtain ⟨promise, after⟩ := inputs input allowed
    exact ⟨promise, ih input found after⟩

theorem Safe.attempt {p : Prog ι σ κ ε α} {post : Except ε (Except ε α) → σ → Prop} {store : σ}
    (safe : S.Safe p (fun outcome => post (.ok outcome)) store) :
    S.Safe p.attempt post store := by
  induction p generalizing store with
  | ret value => exact safe
  | raise fault => exact safe
  | halt => exact safe
  | access command next ih =>
    intro found drift
    obtain ⟨crash, inputs⟩ := safe found drift
    refine ⟨crash, fun input allowed => ?_⟩
    obtain ⟨promise, after⟩ := inputs input allowed
    exact ⟨promise, ih input found after⟩

theorem Safe.ofExcept {result : Except ε α} {post : Except ε α → σ → Prop} {store : σ}
    (holds : post result store) : S.Safe (Prog.ofExcept result : Prog ι σ κ ε α) post store := by
  cases result with
  | ok value => exact holds
  | error fault => exact holds

end Setting

structure Machine (ι σ κ ε α : Type) where
  store : σ
  running : Option (Prog ι σ κ ε α)

inductive Event (ι χ γ : Type) where
  | call (c : γ)
  | input (i : ι)
  | intrude (x : χ)
  | crash

namespace Machine

def settle : Prog ι σ κ ε α → Option (Prog ι σ κ ε α)
  | .ret _ => none
  | .raise _ => none
  | p => some p

def awaiting : Option (Prog ι σ κ ε α) → Option κ
  | some (.access command _) => some command
  | _ => none

/-- One event; an event that is not enabled changes nothing. -/
def step (effect : κ → ι → σ → σ) (intrude : χ → σ → σ) (body : γ → Prog ι σ κ ε α)
    (m : Machine ι σ κ ε α) : Event ι χ γ → Machine ι σ κ ε α
  | .call c => match m.running with
    | none => { m with running := settle (body c) }
    | some _ => m
  | .input i => match m.running with
    | some (.access command next) => ⟨effect command i m.store, settle (next i m.store)⟩
    | _ => m
  | .intrude x => { m with store := intrude x m.store }
  | .crash => { m with running := none }

def run (effect : κ → ι → σ → σ) (intrude : χ → σ → σ) (body : γ → Prog ι σ κ ε α)
    (m : Machine ι σ κ ε α) (events : List (Event ι χ γ)) : Machine ι σ κ ε α :=
  events.foldl (step effect intrude body) m

end Machine

namespace Setting

variable (S : Setting ι σ κ χ) (allowsCall : γ → σ → Prop)

def Allows (m : Machine ι σ κ ε α) : Event ι χ γ → Prop
  | .call c => m.running = none → allowsCall c m.store
  | .input i => match m.running with
    | some (.access command _) => S.allowsInput command i m.store
    | _ => True
  | .intrude x => S.allowsIntrusion (Machine.awaiting m.running) x m.store
  | .crash => S.allowsCrash (Machine.awaiting m.running) m.store

def Meets (body : γ → Prog ι σ κ ε α) (m : Machine ι σ κ ε α) : List (Event ι χ γ) → Prop
  | [] => True
  | event :: rest => S.Allows allowsCall m event ∧
    Meets body (m.step S.effect S.intrude body event) rest

def Sound (m : Machine ι σ κ ε α) : Prop :=
  match m.running with
  | none => S.rest m.store
  | some p => S.Safe p (fun _ after => S.rest after) m.store

variable {S allowsCall}

theorem sound_settle {p : Prog ι σ κ ε α} {store : σ}
    (safe : S.Safe p (fun _ after => S.rest after) store) :
    S.Sound ⟨store, Machine.settle p⟩ := by
  cases p with
  | ret value => exact safe
  | raise fault => exact safe
  | halt => exact safe
  | access command next => exact safe

theorem Safe.drift {command : κ} {next : ι → σ → Prog ι σ κ ε α}
    {post : Except ε α → σ → Prop} {store found : σ}
    (safe : S.Safe (.access command next) post store)
    (drift : S.Drift (some command) store found) :
    S.Safe (.access command next) post found :=
  fun later further => safe later (drift.trans further)

theorem sound_step {body : γ → Prog ι σ κ ε α}
    (calls : ∀ c store, allowsCall c store → S.rest store →
      S.Safe (body c) (fun _ after => S.rest after) store)
    (idle : ∀ x store, S.allowsIntrusion none x store → S.rest store → S.rest (S.intrude x store))
    {m : Machine ι σ κ ε α} (sound : S.Sound m) {event : Event ι χ γ}
    (allowed : S.Allows allowsCall m event) :
    S.Sound (m.step S.effect S.intrude body event) := by
  obtain ⟨store, running⟩ := m
  cases event with
  | call c =>
    cases running with
    | none => exact sound_settle (calls c store (allowed rfl) sound)
    | some p => exact sound
  | input i =>
    cases running with
    | none => exact sound
    | some p =>
      cases p with
      | ret value => exact sound
      | raise fault => exact sound
      | halt => exact sound
      | access command next =>
        obtain ⟨-, inputs⟩ := sound store .refl
        exact sound_settle (inputs i allowed).2
  | intrude x =>
    cases running with
    | none => exact idle x store allowed sound
    | some p =>
      cases p with
      | ret value => exact idle x store allowed sound
      | raise fault => exact idle x store allowed sound
      | halt => exact idle x store allowed sound
      | access command next => exact Safe.drift sound (.single ⟨x, allowed, rfl⟩)
  | crash =>
    cases running with
    | none => exact sound
    | some p =>
      cases p with
      | ret value => exact sound
      | raise fault => exact sound
      | halt => exact sound
      | access command next => exact (sound store .refl).1 allowed

theorem sound_run {body : γ → Prog ι σ κ ε α}
    (calls : ∀ c store, allowsCall c store → S.rest store →
      S.Safe (body c) (fun _ after => S.rest after) store)
    (idle : ∀ x store, S.allowsIntrusion none x store → S.rest store → S.rest (S.intrude x store))
    (events : List (Event ι χ γ)) {m : Machine ι σ κ ε α} (sound : S.Sound m)
    (meets : S.Meets allowsCall body m events) :
    S.Sound (m.run S.effect S.intrude body events) := by
  induction events generalizing m with
  | nil => exact sound
  | cons event rest ih =>
    rw [Machine.run, List.foldl_cons]
    exact ih (sound_step calls idle sound meets.1) meets.2

theorem Sound.promise {m : Machine ι σ κ ε α} (sound : S.Sound m) {command : κ}
    {next : ι → σ → Prog ι σ κ ε α} (running : m.running = some (.access command next)) {i : ι}
    (allowed : S.allowsInput command i m.store) : S.promise command i m.store := by
  rw [Sound, running] at sound
  exact ((sound m.store .refl).2 i allowed).1

theorem Safe.exec {p : Prog ι σ κ ε α} {post : Except ε α → σ → Prop} {store : σ}
    (safe : S.Safe p post store) {inputs : Nat → ι}
    (allowed : ∀ command n store, S.allowsInput command (inputs n) store) :
    match p.exec S.effect inputs store with
    | (.returned value, after) => post (.ok value) after
    | (.raised fault, after) => post (.error fault) after
    | (.halted, after) => S.rest after := by
  induction p generalizing store inputs with
  | ret value => exact safe
  | raise fault => exact safe
  | halt => exact safe
  | access command next ih =>
    obtain ⟨-, after⟩ := safe store .refl
    exact ih (inputs 0) store (after (inputs 0) (allowed command 0 store)).2
      (fun command n => allowed command (n + 1))

end Setting

end RExecOp
