import Mathlib.Data.Finset.Card
import RExecOp.Lib.Dict
import RExecOp.Value

/-! References to secrets (`secrets/reference.py`, `secrets/resolver.py`): the check of a
document against the resolver, which finds conflicts call by call. -/

namespace RExecOp.SecretRefs

structure Language where
  text : Value → String
  upper : String → String

structure Binding where
  path : String
  ref : String
  document : String := ""

def isSecretRefKey (key : String) : Bool :=
  key = "secret_ref" || "_secret_ref".toList.isSuffixOf key.toList

/-- `_SecretRefEnvCollision` and the two other validation errors. -/
inductive Refusal where
  | required
  | collision
  | missing (envKey : String)
deriving DecidableEq

def Refusal.message : Refusal → String
  | .required => "secret_ref is required"
  | .collision => "secret_ref environment key collision"
  | .missing envKey => s!"secret not found in environment: {envKey}"

structure Collision where
  envKey : String
  refs : List String
  paths : List String
  refCount : Nat
  bindingCount : Nat

def bounded (value : String) (maximum : Nat) : String :=
  if value.length ≤ maximum then value
  else String.ofList (value.toList.take (maximum - 3)) ++ "..."

def Binding.location (binding : Binding) : String :=
  if binding.document = "" then binding.path else s!"{binding.document}:{binding.path}"

section

variable (language : Language)

def refText (item : Value) : String :=
  match item.orElse (.str "") with
  | .str s => strip s
  | other => strip (language.text other)

mutual

def collectSecretRefBindings (path : String) : Value → List Binding
  | .dict entries => bindingsOfEntries path entries
  | .list items => bindingsOfItems path 0 items
  | _ => []

def bindingsOfEntries (path : String) : Entries → List Binding
  | [] => []
  | (key, item) :: rest =>
    let childPath := if path = "" then key else s!"{path}.{key}"
    let own := if isSecretRefKey key then [⟨childPath, refText language item, ""⟩] else []
    own ++ collectSecretRefBindings childPath item ++ bindingsOfEntries path rest

def bindingsOfItems (path : String) (index : Nat) : List Value → List Binding
  | [] => []
  | item :: rest =>
    collectSecretRefBindings s!"{path}[{index}]" item ++ bindingsOfItems path (index + 1) rest

end

def envKeyForSecretRef (secretRef : String) : String :=
  "REXECOP_SECRET_" ++ String.ofList ((language.upper (strip secretRef)).toList.map
    fun c => if c = '-' then '_' else c)

def Binding.envKey (binding : Binding) : String := envKeyForSecretRef language (strip binding.ref)

def secretRefEnvCollisions (bindings : List Binding) : List Collision :=
  let named := bindings.filter (strip ·.ref ≠ "")
  let envKeys := (named.map (·.envKey language)).dedup.insertionSort (· ≤ ·)
  (envKeys.filterMap fun envKey =>
    let group := named.filter (·.envKey language = envKey)
    let refs := (group.map (strip ·.ref)).dedup
    if refs.length < 2 then none
    else
      some { envKey := bounded envKey 256
             refs := ((refs.insertionSort (· ≤ ·)).take 64).map (bounded · 256)
             paths := (((group.map (·.location)).insertionSort (· ≤ ·)).take 64).map (bounded · 512)
             refCount := refs.length
             bindingCount := group.length }).take 32

def enforceSecretRefEnvCollisionFreedom (value : Value) : Except Refusal Unit :=
  if (secretRefEnvCollisions language (collectSecretRefBindings language "" value)).isEmpty then
    pure ()
  else throw .collision

abbrev Claims := Dict String String

def claim (claims : Claims) (secretRef : String) : Except Refusal (Claims × String) :=
  let ref := strip secretRef
  if ref = "" then throw .required
  else
    let envKey := envKeyForSecretRef language ref
    if (claims.get envKey).any (· ≠ ref) then throw .collision
    else pure (claims.set envKey ref, envKey)

def received (envKey : String) : Option String → Except Refusal String
  | none => throw (.missing envKey)
  | some value => if value = "" then throw (.missing envKey) else pure value

def resolve (environ : String → Option String) (claims : Claims) (secretRef : String) :
    Claims × Except Refusal String :=
  match claim language claims secretRef with
  | .error refusal => (claims, .error refusal)
  | .ok (claims, envKey) => (claims, received envKey (environ envKey))

inductive Phase where
  | waiting
  | claimed (envKey : String)
  | ended (used : Option String) (result : Except Refusal String)

structure State (ι : Type) where
  claims : Claims := ∅
  phase : ι → Phase := fun _ => .waiting

/-- The environment may change between the two steps of a call. -/
inductive Event (ι : Type) where
  | claim (call : ι)
  | read (call : ι) (value : Option String)

variable {ι : Type} [DecidableEq ι]

def step (refs : ι → String) (state : State ι) : Event ι → State ι
  | .claim call => match state.phase call with
    | .waiting => match claim language state.claims (refs call) with
      | .error refusal =>
        { state with phase := Function.update state.phase call (.ended none (.error refusal)) }
      | .ok (claims, envKey) => ⟨claims, Function.update state.phase call (.claimed envKey)⟩
    | _ => state
  | .read call value => match state.phase call with
    | .claimed envKey =>
      let ended := .ended (some envKey) (received envKey value)
      { state with phase := Function.update state.phase call ended }
    | _ => state

def run (refs : ι → String) (events : List (Event ι)) : State ι :=
  events.foldl (step language refs) {}

end

section

variable {language : Language}

theorem length_dedup_lt_two {α : Type} [DecidableEq α] {l : List α} :
    l.dedup.length < 2 ↔ ∀ a ∈ l, ∀ b ∈ l, a = b := by
  rw [← List.card_toFinset, Nat.lt_succ_iff, Finset.card_le_one]
  simp only [List.mem_toFinset]

def Apart (language : Language) (bindings : List Binding) : Prop :=
  ∀ first ∈ bindings, ∀ second ∈ bindings, strip first.ref ≠ "" → strip second.ref ≠ "" →
    first.envKey language = second.envKey language → strip first.ref = strip second.ref

theorem secretRefEnvCollisions_nil_iff {bindings : List Binding} :
    secretRefEnvCollisions language bindings = [] ↔ Apart language bindings := by
  simp only [secretRefEnvCollisions, List.take_eq_nil_iff, false_or,
    List.filterMap_eq_nil_iff, List.mem_insertionSort, List.mem_dedup, List.mem_map,
    ite_eq_left_iff, reduceCtorEq, imp_false, not_not, length_dedup_lt_two]
  constructor
  · intro groups first firstMember second secondMember firstNamed secondNamed same
    exact groups _ ⟨first, by simp [*], rfl⟩ _ ⟨first, by simp [*], rfl⟩ _
      ⟨second, by simp [*], rfl⟩
  · rintro apart _ ⟨binding, -, rfl⟩ _ ⟨first, firstMember, rfl⟩ _ ⟨second, secondMember, rfl⟩
    simp only [List.mem_filter, decide_eq_true_eq] at firstMember secondMember
    exact apart first firstMember.1.1 second secondMember.1.1 firstMember.1.2 secondMember.1.2
      (firstMember.2.trans secondMember.2.symm)

theorem enforce_ok_iff {value : Value} :
    enforceSecretRefEnvCollisionFreedom language value = .ok () ↔
      Apart language (collectSecretRefBindings language "" value) := by
  rw [← secretRefEnvCollisions_nil_iff, enforceSecretRefEnvCollisionFreedom]
  split <;> simp_all [pure, Except.pure, throw, throwThe, MonadExceptOf.throw]

variable {ι : Type}

def callKey (language : Language) (refs : ι → String) (call : ι) : String :=
  envKeyForSecretRef language (strip (refs call))

structure Separate (language : Language) (refs : ι → String) : Prop where
  named : ∀ call, strip (refs call) ≠ ""
  apart : ∀ first second, callKey language refs first = callKey language refs second →
    strip (refs first) = strip (refs second)

def Phase.Keeps (envKey : String) : Phase → Prop
  | .waiting => True
  | .claimed other => other = envKey
  | .ended used result => result ≠ .error .collision ∧ ∀ other ∈ used, other = envKey

structure Sound (language : Language) (refs : ι → String) (state : State ι) : Prop where
  owned : ∀ {envKey owner}, state.claims.get envKey = some owner →
    ∃ call, strip (refs call) = owner ∧ callKey language refs call = envKey
  phases : ∀ call, (state.phase call).Keeps (callKey language refs call)

variable {refs : ι → String} {state : State ι}

theorem Sound.claim_eq (separate : Separate language refs) (sound : Sound language refs state)
    (call : ι) : claim language state.claims (refs call) =
      .ok (state.claims.set (callKey language refs call) (strip (refs call)),
        callKey language refs call) := by
  have free : (state.claims.get (callKey language refs call)).any (· ≠ strip (refs call)) =
      false := by
    cases found : state.claims.get (callKey language refs call) with
    | none => rfl
    | some owner =>
      obtain ⟨other, rfl, key⟩ := sound.owned found
      simpa using separate.apart other call key
  rw [claim, if_neg (separate.named call)]
  exact if_neg (by simpa [callKey] using free)

theorem received_ne_collision (envKey : String) (value : Option String) :
    received envKey value ≠ .error .collision := by
  fun_cases received envKey value <;> simp [throw, throwThe, MonadExceptOf.throw, pure, Except.pure]

variable [DecidableEq ι]

theorem Sound.update (sound : Sound language refs state) {call : ι} {phase : Phase}
    (keeps : phase.Keeps (callKey language refs call)) :
    Sound language refs { state with phase := Function.update state.phase call phase } where
  owned := sound.owned
  phases other := by
    rcases eq_or_ne other call with rfl | elsewhere
    · simpa using keeps
    · simpa [elsewhere] using sound.phases other

theorem Sound.step (separate : Separate language refs) (sound : Sound language refs state)
    (event : Event ι) : Sound language refs (step language refs state event) := by
  fun_cases SecretRefs.step language refs state event with
  | case1 call waiting refusal refused =>
    rw [sound.claim_eq separate call] at refused
    contradiction
  | case2 call waiting claims envKey claimed =>
    rw [sound.claim_eq separate call] at claimed
    obtain ⟨rfl, rfl⟩ := Prod.mk.inj (Except.ok.inj claimed)
    have begun : Sound language refs { state with
        phase := Function.update state.phase call (.claimed (callKey language refs call)) } :=
      sound.update rfl
    refine ⟨fun {envKey owner} found => ?_, begun.phases⟩
    rw [Dict.get_set] at found
    split at found
    · exact ⟨call, Option.some.inj found, .symm ‹_›⟩
    · exact sound.owned found
  | case3 => exact sound
  | case4 call value envKey claimed =>
    have own := sound.phases call
    rw [claimed] at own
    refine sound.update ⟨received_ne_collision envKey value, ?_⟩
    rintro _ ⟨⟩
    exact own
  | case5 => exact sound

theorem sound_run (separate : Separate language refs) (events : List (Event ι)) :
    Sound language refs (run language refs events) := by
  have initial : Sound language refs {} := ⟨fun found => by simp at found, fun _ => trivial⟩
  exact List.foldlRecOn events _ initial fun state sound event _ => sound.step separate event

theorem resolve_second {first second : String} (named : strip first ≠ "")
    (others : strip second ≠ "") (differ : strip first ≠ strip second)
    (same : envKeyForSecretRef language (strip first) = envKeyForSecretRef language (strip second))
    (environ later : String → Option String) :
    (resolve language later (resolve language environ ∅ first).1 second).2 =
      .error .collision := by
  simp [resolve, claim, named, others, same, differ, pure, Except.pure, throw, throwThe,
    MonadExceptOf.throw]

end

/-- The refs of the calls are refs of the document. -/
def Collected (language : Language) (value : Value) {ι : Type} (refs : ι → String) : Prop :=
  ∀ call, strip (refs call) ≠ "" ∧
    ∃ binding ∈ collectSecretRefBindings language "" value, strip binding.ref = strip (refs call)

/-- Where the document is accepted no call collides, however the calls interleave; where it is
not, two of its refs collide in either order. -/
theorem static_dynamic_agree (language : Language) (value : Value) :
    (enforceSecretRefEnvCollisionFreedom language value = .ok () →
      ∀ (ι : Type) [DecidableEq ι] (refs : ι → String), Collected language value refs →
        ∀ events : List (Event ι),
          (∀ call used, (run language refs events).phase call ≠ .ended used (.error .collision)) ∧
          ∀ first second envKey firstResult secondResult,
            (run language refs events).phase first = .ended (some envKey) firstResult →
            (run language refs events).phase second = .ended (some envKey) secondResult →
              strip (refs first) = strip (refs second)) ∧
    (enforceSecretRefEnvCollisionFreedom language value ≠ .ok () →
      ∃ first ∈ collectSecretRefBindings language "" value,
        ∃ second ∈ collectSecretRefBindings language "" value, ∀ environ later,
          (resolve language later (resolve language environ ∅ first.ref).1 second.ref).2 =
              .error .collision ∧
            (resolve language later (resolve language environ ∅ second.ref).1 first.ref).2 =
              .error .collision) := by
  rw [Ne, enforce_ok_iff]
  constructor
  · intro apart ι _ refs collected events
    have separate : Separate language refs := by
      refine ⟨fun call => (collected call).1, fun first second same => ?_⟩
      obtain ⟨firstNamed, firstBinding, firstMember, firstRef⟩ := collected first
      obtain ⟨secondNamed, secondBinding, secondMember, secondRef⟩ := collected second
      rw [← firstRef, ← secondRef]
      refine apart _ firstMember _ secondMember (firstRef ▸ firstNamed) (secondRef ▸ secondNamed) ?_
      rwa [Binding.envKey, Binding.envKey, firstRef, secondRef]
    have sound := sound_run separate events
    refine ⟨fun call used ended => ?_, fun first second envKey _ _ firstEnded secondEnded => ?_⟩
    · have keeps := sound.phases call
      rw [ended] at keeps
      exact keeps.1 rfl
    · have firstKeeps := sound.phases first
      have secondKeeps := sound.phases second
      rw [firstEnded] at firstKeeps
      rw [secondEnded] at secondKeeps
      exact separate.apart first second ((firstKeeps.2 _ rfl).symm.trans (secondKeeps.2 _ rfl))
  · intro shared
    simp only [Apart, not_forall] at shared
    obtain ⟨first, firstMember, second, secondMember, firstNamed, secondNamed, same, differ⟩ :=
      shared
    exact ⟨first, firstMember, second, secondMember, fun environ later =>
      ⟨resolve_second firstNamed secondNamed differ same environ later,
        resolve_second secondNamed firstNamed (Ne.symm differ) same.symm environ later⟩⟩

def ascii : Language := ⟨fun _ => "", fun s => String.ofList (s.toList.map Char.toUpper)⟩

def apartRefs : Value :=
  .dict [("auth", .dict [("secret_ref", .str " api-token ")]), ("db_secret_ref", .str "db.token")]

def twoRefs : Value := .dict [("a_secret_ref", .str "api-token"), ("secret_ref", .str "api_token")]

theorem samples_agree :
    (∀ (events : List (Event Bool)) call used,
      (run ascii (if · then "api-token" else "db.token") events).phase call ≠
        .ended used (.error .collision)) ∧
    ∃ first ∈ collectSecretRefBindings ascii "" twoRefs,
      ∃ second ∈ collectSecretRefBindings ascii "" twoRefs, ∀ environ later,
        (resolve ascii later (resolve ascii environ ∅ first.ref).1 second.ref).2 =
            .error .collision ∧
          (resolve ascii later (resolve ascii environ ∅ second.ref).1 first.ref).2 =
            .error .collision :=
  ⟨fun events => ((static_dynamic_agree ascii apartRefs).1 (by decide +kernel) Bool _
      (by unfold Collected; decide +kernel) events).1,
    (static_dynamic_agree ascii twoRefs).2 (by decide +kernel)⟩

end RExecOp.SecretRefs
