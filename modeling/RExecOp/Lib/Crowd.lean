import Mathlib.Logic.Function.Basic
import RExecOp.Lib.Prog

/-! Programs that keep to a protocol, and any number of them over one store. The phase says
nothing of the store, so no other party can disturb it. -/

namespace RExecOp

variable {who : Nat}

variable {ι σ κ ε α β Φ χ γ : Type}

/-- Which commands a phase admits, which answers are considered and where an access leads. -/
structure Protocol (ι σ κ Φ : Type) where
  legal : Φ → κ → Prop
  allows : Φ → κ → ι → σ → Prop
  next : Φ → κ → ι → σ → Φ
  halts : Prop := False

namespace Protocol

variable (P : Protocol ι σ κ Φ)

/-- The program issues only what its phase admits; `post` holds at its end. -/
def Follows : Prog ι σ κ ε α → (Except ε α → Φ → Prop) → Φ → Prop
  | .ret value, post, phase => post (.ok value) phase
  | .raise fault, post, phase => post (.error fault) phase
  | .halt, _, _ => P.halts
  | .access command next, post, phase => P.legal phase command ∧
    ∀ input store, P.allows phase command input store →
      Follows (next input store) post (P.next phase command input store)

variable {P}

namespace Follows

variable {p : Prog ι σ κ ε α} {post : Except ε α → Φ → Prop} {phase : Φ}

theorem mono {post weaker : Except ε α → Φ → Prop} (follows : P.Follows p post phase)
    (weaken : ∀ outcome last, post outcome last → weaker outcome last) :
    P.Follows p weaker phase := by
  induction p generalizing phase with
  | ret value => exact weaken _ _ follows
  | raise fault => exact weaken _ _ follows
  | halt => exact follows
  | access command next ih =>
    refine ⟨follows.1, fun input store allowed => ?_⟩
    exact ih input store (follows.2 input store allowed)

theorem bind {next : α → Prog ι σ κ ε β} {post : Except ε β → Φ → Prop}
    (follows : P.Follows p (fun outcome last => match outcome with
      | .ok value => P.Follows (next value) post last
      | .error fault => post (.error fault) last) phase) :
    P.Follows (p >>= next) post phase := by
  rw [Prog.bind_eq]
  induction p generalizing phase with
  | ret value => exact follows
  | raise fault => exact follows
  | halt => exact follows
  | access command following ih =>
    refine ⟨follows.1, fun input store allowed => ?_⟩
    exact ih input store (follows.2 input store allowed)

theorem attempt {post : Except ε (Except ε α) → Φ → Prop}
    (follows : P.Follows p (fun outcome => post (.ok outcome)) phase) :
    P.Follows p.attempt post phase := by
  induction p generalizing phase with
  | ret value => exact follows
  | raise fault => exact follows
  | halt => exact follows
  | access command next ih =>
    refine ⟨follows.1, fun input store allowed => ?_⟩
    exact ih input store (follows.2 input store allowed)

theorem ofExcept {result : Except ε α}
    (holds : post result phase) : P.Follows (Prog.ofExcept result) post phase := by
  cases result with
  | ok value => exact holds
  | error fault => exact holds

theorem request {command : κ} {reply : ι → σ → Except ε α} (legal : P.legal phase command)
    (step : ∀ input store, P.allows phase command input store →
      post (reply input store) (P.next phase command input store)) :
    P.Follows (.request command reply) post phase :=
  ⟨legal, fun input store allowed => ofExcept (step input store allowed)⟩

theorem forEach {items : List α} {body : α → Prog ι σ κ ε (Option β)} {good : Φ → Prop}
    (each : ∀ item ∈ items, ∀ phase, good phase →
      P.Follows (body item) (fun _ last => good last) phase) (start : good phase) :
    P.Follows (Prog.forEach items body) (fun _ last => good last) phase := by
  induction items generalizing phase with
  | nil => exact start
  | cons item rest ih =>
    have others : ∀ last, good last →
        P.Follows (Prog.forEach rest body) (fun _ last => good last) last := by
      intro last holds
      exact ih (fun other member => each other (List.mem_cons_of_mem _ member)) holds
    apply bind
    refine mono (each item List.mem_cons_self phase start) ?_
    intro outcome last holds
    cases outcome with
    | error fault => exact holds
    | ok found =>
      apply bind
      refine mono (others last holds) ?_
      intro outcome final holds
      cases outcome with
      | error fault => exact holds
      | ok found => exact holds

end Follows

end Protocol

structure Crowd (ι σ κ ε α : Type) where
  store : σ
  running : Nat → Option (Prog ι σ κ ε α)

/-- A process starts a call, is answered or crashes; or an intrusion. -/
inductive CrowdEvent (ι χ γ : Type) where
  | call (who : Nat) (c : γ)
  | input (who : Nat) (i : ι)
  | intrude (x : χ)
  | crash (who : Nat)

structure Crowd.System (ι σ κ ε α χ γ : Type) where
  effect : κ → ι → σ → σ
  intrude : χ → σ → σ
  body : γ → Prog ι σ κ ε α

namespace Crowd

def put (m : Crowd ι σ κ ε α) (who : Nat) (p : Option (Prog ι σ κ ε α)) : Crowd ι σ κ ε α :=
  { m with running := Function.update m.running who p }

def step (sys : System ι σ κ ε α χ γ) (m : Crowd ι σ κ ε α) :
    CrowdEvent ι χ γ → Crowd ι σ κ ε α
  | .call who c => match m.running who with
    | none => m.put who (Machine.settle (sys.body c))
    | some _ => m
  | .input who i => match m.running who with
    | some (.access command next) =>
      { m.put who (Machine.settle (next i m.store)) with
        store := sys.effect command i m.store }
    | _ => m
  | .intrude x => { m with store := sys.intrude x m.store }
  | .crash who => m.put who none

def run (sys : System ι σ κ ε α χ γ) (m : Crowd ι σ κ ε α)
    (events : List (CrowdEvent ι χ γ)) : Crowd ι σ κ ε α :=
  events.foldl (step sys) m

def awaiting (m : Crowd ι σ κ ε α) (who : Nat) : Option κ := Machine.awaiting (m.running who)

def Quiet (m : Crowd ι σ κ ε α) : Prop := ∀ who, m.running who = none

/-- Every event of a run meets the condition in the state it finds. -/
def Meets (sys : System ι σ κ ε α χ γ)
    (allowed : Crowd ι σ κ ε α → CrowdEvent ι χ γ → Prop) (m : Crowd ι σ κ ε α) :
    List (CrowdEvent ι χ γ) → Prop
  | [] => True
  | event :: rest => allowed m event ∧ Meets sys allowed (m.step sys event) rest

def observe (P : Protocol ι σ κ Φ) (idle : Φ) (m : Crowd ι σ κ ε α) (phases : Nat → Φ) :
    CrowdEvent ι χ γ → Nat → Φ
  | .input who i => match m.running who with
    | some (.access command next) => Function.update phases who
      (match Machine.settle (next i m.store) with
      | none => idle
      | some _ => P.next (phases who) command i m.store)
    | _ => phases
  | .crash who => Function.update phases who idle
  | .call _ _ => phases
  | .intrude _ => phases

def Attends (sys : System ι σ κ ε α χ γ) (P : Protocol ι σ κ Φ) (idle : Φ)
    (allowed : Crowd ι σ κ ε α → (Nat → Φ) → CrowdEvent ι χ γ → Prop) (m : Crowd ι σ κ ε α)
    (phases : Nat → Φ) : List (CrowdEvent ι χ γ) → Prop
  | [] => True
  | event :: rest => allowed m phases event ∧
    Attends sys P idle allowed (m.step sys event) (observe P idle m phases event) rest

def observed (sys : System ι σ κ ε α χ γ) (P : Protocol ι σ κ Φ) (idle : Φ)
    (m : Crowd ι σ κ ε α) (phases : Nat → Φ) : List (CrowdEvent ι χ γ) → Nat → Φ
  | [] => phases
  | event :: rest => observed sys P idle (m.step sys event) (observe P idle m phases event) rest

theorem Meets.attends {sys : System ι σ κ ε α χ γ} {P : Protocol ι σ κ Φ} {idle : Φ}
    {allowed : Crowd ι σ κ ε α → CrowdEvent ι χ γ → Prop} {m : Crowd ι σ κ ε α}
    {phases : Nat → Φ} {events : List (CrowdEvent ι χ γ)} (meets : Meets sys allowed m events) :
    Attends sys P idle (fun m _ event => allowed m event) m phases events := by
  induction events generalizing m phases with
  | nil => exact trivial
  | cons event rest ih => exact ⟨meets.1, ih meets.2⟩

section

variable (sys : System ι σ κ ε α χ γ) (P : Protocol ι σ κ Φ) (idle : Φ)
  (ends : Except ε α → Φ → Prop)

/-- A running process follows the protocol from its phase; any other is idle. -/
def Coherent (m : Crowd ι σ κ ε α) (phases : Nat → Φ) : Prop :=
  ∀ who, match m.running who with
    | none => phases who = idle
    | some (.access command next) => P.Follows (.access command next) ends (phases who)
    | some .halt => P.halts
    | some _ => False

variable {P idle ends}
  {m : Crowd ι σ κ ε α} {phases : Nat → Φ}

theorem Coherent.follows {command : κ} {next : ι → σ → Prog ι σ κ ε α}
    (coherent : Coherent P idle ends m phases)
    (running : m.running who = some (.access command next)) :
    P.Follows (.access command next) ends (phases who) := by
  have at_who := coherent who
  rwa [running] at at_who

theorem Coherent.waits (coherent : Coherent P idle ends m phases) (bounded : ¬ P.halts)
    (busy : phases who ≠ idle) :
    ∃ command, m.awaiting who = some command := by
  have at_who := coherent who
  rw [awaiting]
  cases running : m.running who with
  | none =>
    rw [running] at at_who
    exact absurd at_who busy
  | some p =>
    rw [running] at at_who
    cases p with
    | access command next => exact ⟨command, rfl⟩
    | halt => exact absurd at_who bounded
    | _ => exact at_who.elim

theorem Coherent.legal {command : κ} (coherent : Coherent P idle ends m phases)
    (waits : m.awaiting who = some command) :
    P.legal (phases who) command := by
  rw [awaiting] at waits
  cases running : m.running who with
  | none =>
    rw [running] at waits
    cases waits
  | some p =>
    rw [running] at waits
    cases p with
    | access issued next =>
      cases waits
      exact (coherent.follows running).1
    | _ => cases waits

theorem Coherent.put {phase : Φ} {p : Option (Prog ι σ κ ε α)}
    (coherent : Coherent P idle ends m phases)
    (follows : match p with
      | none => phase = idle
      | some (.access command next) => P.Follows (.access command next) ends phase
      | some .halt => P.halts
      | some _ => False) :
    Coherent P idle ends (m.put who p) (Function.update phases who phase) := by
  intro other
  by_cases same : other = who
  · subst same
    simp only [Crowd.put, Function.update_self]
    exact follows
  · simp only [Crowd.put, Function.update_of_ne same]
    exact coherent other

theorem Coherent.store {after : σ} (coherent : Coherent P idle ends m phases) :
    Coherent P idle ends { m with store := after } phases :=
  coherent

variable (P idle ends)

/-- What single events have to keep for the invariant to hold along every run. -/
structure Upholds (inv : σ → (Nat → Φ) → Prop)
    (allowed : Crowd ι σ κ ε α → (Nat → Φ) → CrowdEvent ι χ γ → Prop) : Prop where
  call : ∀ {m phases who c}, m.running who = none → allowed m phases (.call who c) →
    P.Follows (sys.body c) ends idle
  input : ∀ {m phases who command next i}, Coherent P idle ends m phases →
    inv m.store phases → m.running who = some (.access command next) →
    allowed m phases (.input who i) → P.allows (phases who) command i m.store ∧
      inv (sys.effect command i m.store)
        (Function.update phases who (P.next (phases who) command i m.store))
  intrude : ∀ {m phases x}, Coherent P idle ends m phases → inv m.store phases →
    allowed m phases (.intrude x) → inv (sys.intrude x m.store) phases
  crash : ∀ {m phases who}, Coherent P idle ends m phases → inv m.store phases →
    allowed m phases (.crash who) → inv m.store (Function.update phases who idle)
  leave : ∀ {store phases who outcome}, inv store phases → ends outcome (phases who) →
    inv store (Function.update phases who idle)

variable {sys P idle ends} {inv : σ → (Nat → Φ) → Prop}
  {allowed : Crowd ι σ κ ε α → (Nat → Φ) → CrowdEvent ι χ γ → Prop}

namespace Upholds

variable (upholds : Upholds sys P idle ends inv allowed)

include upholds

theorem settle (who : Nat) {phase : Φ} {after : σ} {p : Prog ι σ κ ε α}
    (coherent : Coherent P idle ends m phases)
    (holds : inv after (Function.update phases who phase)) (follows : P.Follows p ends phase) :
    let next := Function.update phases who
      (match Machine.settle p with
      | none => idle
      | some _ => phase)
    Coherent P idle ends { m.put who (Machine.settle p) with store := after } next ∧
      inv after next := by
  have leaves : ∀ outcome, ends outcome phase → inv after (Function.update phases who idle) := by
    intro outcome ended
    have last : ends outcome (Function.update phases who phase who) := by
      rw [Function.update_self]
      exact ended
    have kept := upholds.leave holds last
    rwa [Function.update_idem] at kept
  cases p with
  | ret value => exact ⟨(coherent.put rfl).store, leaves _ follows⟩
  | raise fault => exact ⟨(coherent.put rfl).store, leaves _ follows⟩
  | halt => exact ⟨(coherent.put follows).store, holds⟩
  | access command next => exact ⟨(coherent.put follows).store, holds⟩

theorem step {event : CrowdEvent ι χ γ} (coherent : Coherent P idle ends m phases)
    (holds : inv m.store phases) (meets : allowed m phases event) :
    Coherent P idle ends (m.step sys event) (observe P idle m phases event) ∧
      inv (m.step sys event).store (observe P idle m phases event) := by
  cases event with
  | call who c =>
    rw [Crowd.step, observe]
    cases running : m.running who with
    | some p => exact ⟨coherent, holds⟩
    | none =>
      have resting : phases who = idle := by
        have at_who := coherent who
        rwa [running] at at_who
      have same : Function.update phases who idle = phases := by
        rw [← resting, Function.update_eq_self]
      have kept : inv m.store (Function.update phases who idle) := by
        rw [same]
        exact holds
      have settled := upholds.settle who coherent kept (upholds.call running meets)
      have phase : (match Machine.settle (sys.body c) with
          | none => idle
          | some _ => idle) = idle := by
        split <;> rfl
      rw [phase, same] at settled
      exact settled
  | input who i =>
    simp only [Crowd.step, observe]
    split
    · next command next running =>
      obtain ⟨allows, kept⟩ := upholds.input coherent holds running meets
      exact upholds.settle who coherent kept ((coherent.follows running).2 i m.store allows)
    · exact ⟨coherent, holds⟩
  | intrude x => exact ⟨coherent.store, upholds.intrude coherent holds meets⟩
  | crash who =>
    have kept := upholds.crash coherent holds meets
    exact ⟨coherent.put rfl, kept⟩

theorem run {events : List (CrowdEvent ι χ γ)} (coherent : Coherent P idle ends m phases)
    (holds : inv m.store phases) (attends : Attends sys P idle allowed m phases events) :
    Coherent P idle ends (m.run sys events) (observed sys P idle m phases events) ∧
      inv (m.run sys events).store (observed sys P idle m phases events) := by
  induction events generalizing m phases with
  | nil => exact ⟨coherent, holds⟩
  | cons event rest ih =>
    obtain ⟨goes, kept⟩ := upholds.step coherent holds attends.1
    exact ih goes kept attends.2

end Upholds

def Solo (m : Crowd ι σ κ ε α) : Prop := ∃ who, ∀ other, other ≠ who → m.running other = none

theorem Solo.step {event : CrowdEvent ι χ γ} (solo : m.Solo)
    (calls : ∀ who c, event = .call who c → m.Quiet) : (m.step sys event).Solo := by
  obtain ⟨only, resting⟩ := solo
  cases event with
  | call who c =>
    refine ⟨who, fun other different => ?_⟩
    have quiet := calls who c rfl
    simp only [Crowd.step, quiet who, Crowd.put, Function.update_of_ne different, quiet other]
  | input who i =>
    simp only [Crowd.step]
    split
    · next command next running =>
      refine ⟨only, fun other different => ?_⟩
      have same : who = only := by
        by_contra apart
        rw [resting who apart] at running
        cases running
      subst same
      exact (Function.update_of_ne different _ _).trans (resting other different)
    · exact ⟨only, resting⟩
  | intrude x => exact ⟨only, resting⟩
  | crash who =>
    refine ⟨only, fun other different => ?_⟩
    simp only [Crowd.step, Crowd.put]
    by_cases same : other = who
    · rw [same, Function.update_self]
    · rw [Function.update_of_ne same, resting other different]

theorem Solo.meets {allowed : Crowd ι σ κ ε α → CrowdEvent ι χ γ → Prop}
    {events : List (CrowdEvent ι χ γ)} (solo : m.Solo)
    (calls : ∀ {m who c}, allowed m (.call who c) → m.Quiet) (meets : Meets sys allowed m events) :
    Meets sys (fun m event => allowed m event ∧ m.Solo) m events := by
  induction events generalizing m with
  | nil => exact trivial
  | cons event rest ih =>
    refine ⟨⟨meets.1, solo⟩, ih (solo.step ?_) meets.2⟩
    intro who c same
    have first := meets.1
    rw [same] at first
    exact calls first

theorem Solo.others {p : Prog ι σ κ ε α} (solo : m.Solo) (coherent : Coherent P idle ends m phases)
    (running : m.running who = some p) :
    ∀ other, other ≠ who → phases other = idle := by
  obtain ⟨only, resting⟩ := solo
  have same : who = only := by
    by_contra apart
    rw [resting who apart] at running
    cases running
  subst same
  intro other different
  have at_other := coherent other
  rwa [resting other different] at at_other

theorem Quiet.coherent (quiet : m.Quiet) :
    Coherent P idle ends m fun _ => idle := by
  intro who
  rw [quiet who]

end

end Crowd

end RExecOp
