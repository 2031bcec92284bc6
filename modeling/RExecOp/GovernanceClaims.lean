import Mathlib.Logic.Function.Basic
import RExecOp.Errors
import RExecOp.Lib.Dict
import RExecOp.Value

/-! `FileStore.claim_governance_decision_once` under any number of processes: two records
written one after the other inside `flock`. -/

namespace RExecOp.GovernanceClaims

structure Claim where
  decisionDigest : String
  nonce : String
  attemptId : String
  runtimeInstanceId : String
  deriving DecidableEq

def bareDigest (text : String) : String :=
  if "sha256:".toList.isPrefixOf text.toList then String.ofList (text.toList.drop 7) else text

def isHexDigest (text : String) : Bool :=
  text.length == 64 && text.toList.all fun c => "0123456789abcdef".toList.contains c

def Claim.isValid (claim : Claim) : Bool :=
  isHexDigest (bareDigest claim.decisionDigest) &&
    strip claim.nonce != "" && decide (claim.nonce.length ≤ 256) &&
    "attempt-".toList.isPrefixOf claim.attemptId.toList && decide (claim.attemptId.length ≤ 96) &&
    strip claim.runtimeInstanceId != "" && decide (claim.runtimeInstanceId.length ≤ 256)

def invalidClaim : Fault := .invalid "invalid governance decision claim"

inductive Record where
  | decision (decisionDigest nonceDigest attemptId runtimeInstanceId : String)
  | nonce (decisionClaimRef attemptId runtimeInstanceId : String)

inductive Phase where
  | entering
  | opening
  | locking
  | checkingDecision
  | checkingNonce
  | writingDecision
  | securingDecision
  | writingNonce
  | securingNonce
  | closing
  deriving DecidableEq

/-- The claim directory, the holder of its lock, the calls and the replies, newest first. -/
structure System where
  files : Dict String Record
  lock : Option Nat
  calls : Nat → Option (Claim × Phase)
  replies : List (Claim × Except Fault Bool)

def System.start : System := ⟨∅, none, fun _ => none, []⟩

inductive Event where
  | call (c : Nat) (claim : Claim)
  | access (c : Nat) (fault : Option Fault)
  | crash (c : Nat)

section Step

variable (sha : String → String)

def decisionFile (claim : Claim) : String := "decision-" ++ sha claim.decisionDigest ++ ".json"

def nonceFile (claim : Claim) : String := "nonce-" ++ sha claim.nonce ++ ".json"

def decisionRecord (claim : Claim) : Record :=
  .decision claim.decisionDigest ("sha256:" ++ sha claim.nonce) claim.attemptId
    claim.runtimeInstanceId

def nonceRecord (claim : Claim) : Record :=
  .nonce ("sha256:" ++ sha claim.decisionDigest) claim.attemptId claim.runtimeInstanceId

def System.put (sys : System) (c : Nat) (call : Option (Claim × Phase)) : System :=
  { sys with calls := Function.update sys.calls c call }

def System.go (sys : System) (c : Nat) (claim : Claim) (phase : Phase) : System :=
  sys.put c (some (claim, phase))

def System.leave (sys : System) (c : Nat) : System :=
  { sys.put c none with lock := if sys.lock = some c then none else sys.lock }

def System.reply (sys : System) (c : Nat) (claim : Claim) (result : Except Fault Bool) : System :=
  { sys.leave c with replies := (claim, result) :: sys.replies }

def System.perform (sys : System) (c : Nat) (claim : Claim) : Phase → System
  | .entering => sys.go c claim .opening
  | .opening => sys.go c claim .locking
  | .locking => match sys.lock with
    | none => { sys.go c claim .checkingDecision with lock := some c }
    | some _ => sys
  | .checkingDecision =>
    if (sys.files.get (decisionFile sha claim)).isSome then sys.reply c claim (.ok false)
    else sys.go c claim .checkingNonce
  | .checkingNonce =>
    if (sys.files.get (nonceFile sha claim)).isSome then sys.reply c claim (.ok false)
    else sys.go c claim .writingDecision
  | .writingDecision =>
    { sys.go c claim .securingDecision with
      files := sys.files.set (decisionFile sha claim) (decisionRecord sha claim) }
  | .securingDecision => sys.go c claim .writingNonce
  | .writingNonce =>
    { sys.go c claim .securingNonce with
      files := sys.files.set (nonceFile sha claim) (nonceRecord sha claim) }
  | .securingNonce => sys.go c claim .closing
  | .closing => sys.reply c claim (.ok true)

def System.step (sys : System) : Event → System
  | .call c claim => match sys.calls c with
    | some _ => sys
    | none =>
      if claim.isValid then sys.go c claim .entering
      else { sys with replies := (claim, .error invalidClaim) :: sys.replies }
  | .access c fault => match sys.calls c, fault with
    | none, _ => sys
    | some (claim, _), some fault => sys.reply c claim (.error fault)
    | some (claim, phase), none => sys.perform sha c claim phase
  | .crash c => match sys.calls c with
    | none => sys
    | some _ => sys.leave c

def System.run (sys : System) (events : List Event) : System := events.foldl (System.step sha) sys

end Step

def System.granted (sys : System) : List Claim :=
  sys.replies.filterMap fun
    | (claim, .ok true) => some claim
    | _ => none

namespace Phase

def holds : Phase → Bool
  | entering | opening | locking => false
  | _ => true

def knowsDecision : Phase → Bool
  | entering | opening | locking | checkingDecision => false
  | _ => true

def knowsNonce : Phase → Bool
  | entering | opening | locking | checkingDecision | checkingNonce => false
  | _ => true

def hasDecision : Phase → Bool
  | securingDecision | writingNonce | securingNonce | closing => true
  | _ => false

def hasNonce : Phase → Bool
  | securingNonce | closing => true
  | _ => false

end Phase

section Invariant

variable {sha : String → String}

structure Reached (sha : String → String) (sys : System) (c : Nat) (claim : Claim)
    (phase : Phase) : Prop where
  held : sys.lock = some c ↔ phase.holds = true
  newDecision : phase.knowsDecision = true →
    ∀ g ∈ sys.granted, decisionFile sha g ≠ decisionFile sha claim
  newNonce : phase.knowsNonce = true →
    ∀ g ∈ sys.granted, nonceFile sha g ≠ nonceFile sha claim
  decision : phase.hasDecision = true → (sys.files.get (decisionFile sha claim)).isSome = true
  nonce : phase.hasNonce = true → (sys.files.get (nonceFile sha claim)).isSome = true

structure Inv (sha : String → String) (sys : System) : Prop where
  busy : ∀ {c claim phase}, sys.calls c = some (claim, phase) → Reached sha sys c claim phase
  idle : ∀ {c}, sys.calls c = none → sys.lock ≠ some c
  recorded : ∀ g ∈ sys.granted, (sys.files.get (decisionFile sha g)).isSome = true ∧
    (sys.files.get (nonceFile sha g)).isSome = true
  distinct : sys.granted.Pairwise fun a b =>
    decisionFile sha a ≠ decisionFile sha b ∧ nonceFile sha a ≠ nonceFile sha b

/-- What a step of client `d` may do as far as the others can tell. -/
structure Moves (sys : System) (d : Nat) (after : System) : Prop where
  others : ∀ c, c ≠ d → after.calls c = sys.calls c
  locks : ∀ c, c ≠ d → (after.lock = some c ↔ sys.lock = some c)
  files : ∀ file, (sys.files.get file).isSome = true → (after.files.get file).isSome = true
  granted : after.granted = sys.granted ∨ sys.lock = some d

variable {sys after : System} {c d : Nat} {claim : Claim} {phase later : Phase}

theorem Reached.moves (reached : Reached sha sys c claim phase) (moves : Moves sys d after)
    (other : c ≠ d) : Reached sha after c claim phase := by
  have same : phase.holds = true → after.granted = sys.granted := by
    intro holds
    rcases moves.granted with same | held
    · exact same
    · have own := reached.held.mpr holds
      rw [own] at held
      exact absurd (Option.some.inj held) other
  refine ⟨(moves.locks c other).trans reached.held, fun knows => ?_, fun knows => ?_,
    fun has => moves.files _ (reached.decision has), fun has => moves.files _ (reached.nonce has)⟩
  · rw [same (by cases phase <;> simp_all [Phase.knowsDecision, Phase.holds])]
    exact reached.newDecision knows
  · rw [same (by cases phase <;> simp_all [Phase.knowsNonce, Phase.holds])]
    exact reached.newNonce knows

theorem Inv.moves (inv : Inv sha sys) (moves : Moves sys d after)
    (busy : ∀ claim phase, after.calls d = some (claim, phase) → Reached sha after d claim phase)
    (idle : after.calls d = none → after.lock ≠ some d)
    (recorded : ∀ g ∈ after.granted, (after.files.get (decisionFile sha g)).isSome = true ∧
      (after.files.get (nonceFile sha g)).isSome = true)
    (distinct : after.granted.Pairwise fun a b =>
      decisionFile sha a ≠ decisionFile sha b ∧ nonceFile sha a ≠ nonceFile sha b) :
    Inv sha after where
  busy {c claim phase} running := by
    by_cases same : c = d
    · subst same
      exact busy claim phase running
    · rw [moves.others c same] at running
      exact (inv.busy running).moves moves same
  idle {c} resting := by
    by_cases same : c = d
    · subst same
      exact idle resting
    · rw [moves.others c same] at resting
      rw [ne_eq, moves.locks c same]
      exact inv.idle resting
  recorded := recorded
  distinct := distinct

theorem Inv.next (inv : Inv sha sys) (moves : Moves sys d after)
    (running : after.calls d = some (claim, phase)) (reached : Reached sha after d claim phase)
    (granted : after.granted = sys.granted) : Inv sha after := by
  refine inv.moves moves ?_ ?_ ?_ ?_
  · intro other at_ found
    rw [running] at found
    cases found
    exact reached
  · intro resting
    rw [running] at resting
    cases resting
  · intro g member
    rw [granted] at member
    obtain ⟨decision, nonce⟩ := inv.recorded g member
    exact ⟨moves.files _ decision, moves.files _ nonce⟩
  · rw [granted]
    exact inv.distinct

theorem moves_go (sys : System) (d : Nat) (claim : Claim) (phase : Phase) :
    Moves sys d (sys.go d claim phase) :=
  ⟨fun _ other => Function.update_of_ne other _ _, fun _ _ => Iff.rfl, fun _ here => here,
    .inl rfl⟩

@[simp] theorem go_calls (sys : System) (d : Nat) (claim : Claim) (phase : Phase) :
    (sys.go d claim phase).calls d = some (claim, phase) := Function.update_self ..

theorem leave_lock (sys : System) (d : Nat) : (sys.leave d).lock ≠ some d := by
  simp only [System.leave]
  split
  · simp
  · assumption

theorem moves_leave (sys : System) (d : Nat) : Moves sys d (sys.leave d) := by
  refine ⟨fun _ other => Function.update_of_ne other _ _, fun c other => ?_, fun _ here => here,
    .inl rfl⟩
  simp only [System.leave]
  split
  · rename_i own
    simp [own, Ne.symm other]
  · rfl

theorem inv_leave (inv : Inv sha sys) (d : Nat) : Inv sha (sys.leave d) := by
  refine inv.moves (moves_leave sys d) ?_ (fun _ => leave_lock sys d) inv.recorded inv.distinct
  intro claim phase running
  simp [System.leave, System.put] at running

theorem granted_reply_of_ne (result : Except Fault Bool) (other : result ≠ .ok true) :
    (sys.reply d claim result).granted = sys.granted := by
  rcases result with fault | _ | _
  · rfl
  · rfl
  · exact absurd rfl other

theorem inv_refuse (inv : Inv sha sys) (result : Except Fault Bool) (other : result ≠ .ok true) :
    Inv sha (sys.reply d claim result) := by
  have same := @granted_reply_of_ne sys d claim result other
  have left := inv_leave inv d
  have moves := moves_leave sys d
  refine inv.moves ⟨moves.others, moves.locks, moves.files, .inl same⟩ ?_
    (fun _ => leave_lock sys d) ?_ ?_
  · intro claim phase running
    simp [System.reply, System.leave, System.put] at running
  · rw [same]
    exact inv.recorded
  · rw [same]
    exact inv.distinct

theorem inv_grant (inv : Inv sha sys) (reached : Reached sha sys d claim .closing) :
    Inv sha (sys.reply d claim (.ok true)) := by
  have grown : (sys.reply d claim (.ok true)).granted = claim :: sys.granted := rfl
  have moves := moves_leave sys d
  refine inv.moves ⟨moves.others, moves.locks, moves.files, .inr (reached.held.mpr rfl)⟩ ?_
    (fun _ => leave_lock sys d) ?_ ?_
  · intro claim phase running
    simp [System.reply, System.leave, System.put] at running
  · rw [grown]
    intro g member
    rcases List.mem_cons.mp member with rfl | before
    · exact ⟨reached.decision rfl, reached.nonce rfl⟩
    · exact inv.recorded g before
  · rw [grown, List.pairwise_cons]
    refine ⟨fun g member => ?_, inv.distinct⟩
    exact ⟨(reached.newDecision rfl g member).symm, (reached.newNonce rfl g member).symm⟩

theorem inv_pass (inv : Inv sha sys) (reached : Reached sha sys d claim phase)
    (holds : later.holds = phase.holds) (knowsDecision : later.knowsDecision = phase.knowsDecision)
    (knowsNonce : later.knowsNonce = phase.knowsNonce)
    (hasDecision : later.hasDecision = phase.hasDecision)
    (hasNonce : later.hasNonce = phase.hasNonce) : Inv sha (sys.go d claim later) := by
  refine inv.next (moves_go sys d claim later) (go_calls sys d claim later) ?_ rfl
  refine ⟨?_, ?_, ?_, ?_, ?_⟩
  · rw [holds]
    exact reached.held
  · rw [knowsDecision]
    exact reached.newDecision
  · rw [knowsNonce]
    exact reached.newNonce
  · rw [hasDecision]
    exact reached.decision
  · rw [hasNonce]
    exact reached.nonce

theorem inv_lock (inv : Inv sha sys) (free : sys.lock = none) :
    Inv sha { sys.go d claim .checkingDecision with lock := some d } := by
  have moves : Moves sys d { sys.go d claim .checkingDecision with lock := some d } :=
    ⟨(moves_go sys d claim _).others, fun c other => by simp [free, Ne.symm other],
      fun _ here => here, .inl rfl⟩
  refine inv.next moves (go_calls sys d claim _) ?_ rfl
  exact ⟨by simp [Phase.holds], by simp [Phase.knowsDecision], by simp [Phase.knowsNonce],
    by simp [Phase.hasDecision], by simp [Phase.hasNonce]⟩

theorem inv_checkDecision (inv : Inv sha sys)
    (reached : Reached sha sys d claim .checkingDecision)
    (absent : (sys.files.get (decisionFile sha claim)).isSome = false) :
    Inv sha (sys.go d claim .checkingNonce) := by
  refine inv.next (moves_go sys d claim _) (go_calls sys d claim _) ?_ rfl
  refine ⟨reached.held, fun _ g member same => ?_, by simp [Phase.knowsNonce],
    by simp [Phase.hasDecision], by simp [Phase.hasNonce]⟩
  have present := (inv.recorded g member).1
  rw [same, absent] at present
  cases present

theorem inv_checkNonce (inv : Inv sha sys) (reached : Reached sha sys d claim .checkingNonce)
    (absent : (sys.files.get (nonceFile sha claim)).isSome = false) :
    Inv sha (sys.go d claim .writingDecision) := by
  refine inv.next (moves_go sys d claim _) (go_calls sys d claim _) ?_ rfl
  refine ⟨reached.held, reached.newDecision, fun _ g member same => ?_,
    by simp [Phase.hasDecision], by simp [Phase.hasNonce]⟩
  have present := (inv.recorded g member).2
  rw [same, absent] at present
  cases present

theorem isSome_set {files : Dict String Record} {file name : String} {record : Record}
    (here : (files.get name).isSome = true) : ((files.set file record).get name).isSome = true := by
  rw [Dict.get_set]
  split
  · rfl
  · exact here

theorem inv_writeDecision (inv : Inv sha sys)
    (reached : Reached sha sys d claim .writingDecision) :
    Inv sha { sys.go d claim .securingDecision with
      files := sys.files.set (decisionFile sha claim) (decisionRecord sha claim) } := by
  have moves : Moves sys d { sys.go d claim .securingDecision with
      files := sys.files.set (decisionFile sha claim) (decisionRecord sha claim) } :=
    ⟨(moves_go sys d claim _).others, fun _ _ => Iff.rfl, fun _ here => isSome_set here, .inl rfl⟩
  refine inv.next moves (go_calls sys d claim _) ?_ rfl
  exact ⟨reached.held, reached.newDecision, reached.newNonce, fun _ => by simp,
    by simp [Phase.hasNonce]⟩

theorem inv_writeNonce (inv : Inv sha sys) (reached : Reached sha sys d claim .writingNonce) :
    Inv sha { sys.go d claim .securingNonce with
      files := sys.files.set (nonceFile sha claim) (nonceRecord sha claim) } := by
  have moves : Moves sys d { sys.go d claim .securingNonce with
      files := sys.files.set (nonceFile sha claim) (nonceRecord sha claim) } :=
    ⟨(moves_go sys d claim _).others, fun _ _ => Iff.rfl, fun _ here => isSome_set here, .inl rfl⟩
  refine inv.next moves (go_calls sys d claim _) ?_ rfl
  exact ⟨reached.held, reached.newDecision, reached.newNonce,
    fun _ => isSome_set (reached.decision rfl), fun _ => by simp⟩

theorem inv_perform (inv : Inv sha sys) (reached : Reached sha sys d claim phase) :
    Inv sha (sys.perform sha d claim phase) := by
  cases phase with
  | entering => exact inv_pass inv reached rfl rfl rfl rfl rfl
  | opening => exact inv_pass inv reached rfl rfl rfl rfl rfl
  | locking =>
    simp only [System.perform]
    split
    · rename_i free
      exact inv_lock inv free
    · exact inv
  | checkingDecision =>
    simp only [System.perform]
    split
    · exact inv_refuse inv _ (by simp)
    · rename_i absent
      exact inv_checkDecision inv reached (by simpa using absent)
  | checkingNonce =>
    simp only [System.perform]
    split
    · exact inv_refuse inv _ (by simp)
    · rename_i absent
      exact inv_checkNonce inv reached (by simpa using absent)
  | writingDecision => exact inv_writeDecision inv reached
  | securingDecision => exact inv_pass inv reached rfl rfl rfl rfl rfl
  | writingNonce => exact inv_writeNonce inv reached
  | securingNonce => exact inv_pass inv reached rfl rfl rfl rfl rfl
  | closing => exact inv_grant inv reached

theorem inv_step (inv : Inv sha sys) (event : Event) : Inv sha (sys.step sha event) := by
  cases event with
  | call c claim =>
    simp only [System.step]
    split
    · exact inv
    · rename_i resting
      split
      · refine inv.next (moves_go sys c claim .entering) (go_calls sys c claim .entering) ?_ rfl
        have free := inv.idle resting
        exact ⟨by simpa [System.go, System.put, Phase.holds] using free,
          by simp [Phase.knowsDecision], by simp [Phase.knowsNonce], by simp [Phase.hasDecision],
          by simp [Phase.hasNonce]⟩
      · refine ⟨fun running => ?_, inv.idle, inv.recorded, inv.distinct⟩
        obtain ⟨held, newDecision, newNonce, decision, nonce⟩ := inv.busy running
        exact ⟨held, newDecision, newNonce, decision, nonce⟩
  | access c fault =>
    simp only [System.step]
    split
    · exact inv
    · exact inv_refuse inv _ (by simp)
    · rename_i claim phase running
      exact inv_perform inv (inv.busy running)
  | crash c =>
    simp only [System.step]
    split
    · exact inv
    · exact inv_leave inv c

theorem inv_run (events : List Event) (inv : Inv sha sys) : Inv sha (sys.run sha events) := by
  induction events generalizing sys with
  | nil => exact inv
  | cons event rest ih => exact ih (inv_step inv event)

theorem inv_start : Inv sha System.start := by
  refine ⟨fun running => ?_, fun _ => by simp [System.start], ?_, List.Pairwise.nil⟩
  · simp [System.start] at running
  · simp [System.start, System.granted]

def System.Claims (sys : System) (claim : Claim) : Prop :=
  claim ∈ sys.granted ∨ ∃ c phase, sys.calls c = some (claim, phase)

variable {g : Claim}

theorem claims_put {call : Option (Claim × Phase)} (claims : (sys.put c call).Claims g) :
    sys.Claims g ∨ ∃ phase, call = some (g, phase) := by
  rcases claims with granted | ⟨other, phase, running⟩
  · exact .inl (.inl granted)
  · by_cases same : other = c
    · subst same
      simp only [System.put, Function.update_self] at running
      exact .inr ⟨phase, running⟩
    · simp only [System.put, Function.update_of_ne same] at running
      exact .inl (.inr ⟨other, phase, running⟩)

theorem claims_go (running : sys.calls c = some (claim, phase))
    (claims : (sys.go c claim later).Claims g) : sys.Claims g := by
  rcases claims_put claims with before | ⟨_, same⟩
  · exact before
  · cases same
    exact .inr ⟨c, phase, running⟩

theorem claims_leave (claims : (sys.leave c).Claims g) : sys.Claims g := by
  have put : (sys.put c none).Claims g := claims
  rcases claims_put put with before | ⟨_, same⟩
  · exact before
  · cases same

theorem claims_reply (running : sys.calls c = some (claim, phase)) {result : Except Fault Bool}
    (claims : (sys.reply c claim result).Claims g) : sys.Claims g := by
  rcases claims with granted | busy
  · by_cases grants : result = .ok true
    · subst grants
      rcases List.mem_cons.mp granted with rfl | before
      · exact .inr ⟨c, phase, running⟩
      · exact .inl before
    · rw [granted_reply_of_ne result grants] at granted
      exact .inl granted
  · have left : (sys.leave c).Claims g := .inr busy
    exact claims_leave left

theorem claims_perform (running : sys.calls c = some (claim, phase))
    (claims : (sys.perform sha c claim phase).Claims g) : sys.Claims g := by
  cases phase with
  | entering | opening | writingDecision | securingDecision | writingNonce | securingNonce =>
    exact claims_go running claims
  | locking =>
    simp only [System.perform] at claims
    split at claims
    · exact claims_go running claims
    · exact claims
  | checkingDecision | checkingNonce =>
    simp only [System.perform] at claims
    split at claims
    · exact claims_reply running claims
    · exact claims_go running claims
  | closing => exact claims_reply running claims

theorem claims_step {event : Event} (claims : (sys.step sha event).Claims g) :
    sys.Claims g ∨ ∃ c, event = .call c g := by
  cases event with
  | call c claim =>
    simp only [System.step] at claims
    split at claims
    · exact .inl claims
    · split at claims
      · rcases claims_put claims with before | ⟨_, same⟩
        · exact .inl before
        · cases same
          exact .inr ⟨c, rfl⟩
      · exact .inl claims
  | access c fault =>
    simp only [System.step] at claims
    split at claims
    · exact .inl claims
    · rename_i claim phase fault running
      exact .inl (claims_reply running claims)
    · rename_i claim phase running
      exact .inl (claims_perform running claims)
  | crash c =>
    simp only [System.step] at claims
    split at claims
    · exact .inl claims
    · exact .inl (claims_leave claims)

theorem claims_run {events : List Event} (claims : (sys.run sha events).Claims g) :
    sys.Claims g ∨ ∃ c, .call c g ∈ events := by
  induction events generalizing sys with
  | nil => exact .inl claims
  | cons event rest ih =>
    rcases ih claims with before | ⟨c, later⟩
    · rcases claims_step before with earlier | ⟨c, rfl⟩
      · exact .inl earlier
      · exact .inr ⟨c, List.mem_cons_self⟩
    · exact .inr ⟨c, List.mem_cons_of_mem _ later⟩

theorem called_of_granted {events : List Event}
    (granted : g ∈ (System.start.run sha events).granted) : ∃ c, .call c g ∈ events := by
  rcases claims_run (.inl granted) with before | called
  · rcases before with none | ⟨_, _, none⟩
    · simp [System.start, System.granted] at none
    · simp [System.start] at none
  · exact called

end Invariant

/-- Calls that name one digest spell it alike. -/
def Uniform (events : List Event) : Prop :=
  ∀ c claim d other, .call c claim ∈ events → .call d other ∈ events →
    bareDigest claim.decisionDigest = bareDigest other.decisionDigest →
    claim.decisionDigest = other.decisionDigest

/-- No two calls that returned true had one digest, or one nonce. -/
def ClaimedOnce (sys : System) : Prop :=
  sys.granted.Pairwise fun a b =>
    bareDigest a.decisionDigest ≠ bareDigest b.decisionDigest ∧ a.nonce ≠ b.nonce

theorem claimed_once (sha : String → String) (events : List Event) (uniform : Uniform events) :
    ClaimedOnce (System.start.run sha events) := by
  have inv := inv_run events (@inv_start sha)
  refine inv.distinct.imp_of_mem fun {a b} first second distinct => ?_
  obtain ⟨c, calledFirst⟩ := called_of_granted first
  obtain ⟨d, calledSecond⟩ := called_of_granted second
  refine ⟨fun same => distinct.1 ?_, fun same => distinct.2 ?_⟩
  · have alike := uniform c a d b calledFirst calledSecond same
    rw [decisionFile, decisionFile, alike]
  · rw [nonceFile, nonceFile, same]

/-- The calls of two processes, one after the other. -/
def inTurn (first second : Claim) : List Event :=
  (.call 0 first :: List.replicate 10 (.access 0 none)) ++
    (.call 1 second :: List.replicate 10 (.access 1 none))

def firstClaim : Claim :=
  ⟨"sha256:0123456789abcdef0123456789abcdef0123456789abcdef0123456789abcdef", "nonce-1",
    "attempt-1", "runtime-1"⟩

def secondClaim : Claim :=
  ⟨"sha256:1123456789abcdef0123456789abcdef0123456789abcdef0123456789abcdef", "nonce-2",
    "attempt-2", "runtime-2"⟩

/-- The digest of `firstClaim` without its algorithm. -/
def bareClaim : Claim :=
  ⟨"0123456789abcdef0123456789abcdef0123456789abcdef0123456789abcdef", "nonce-2", "attempt-2",
    "runtime-2"⟩

theorem uniform_inTurn {first second : Claim}
    (differ : bareDigest first.decisionDigest ≠ bareDigest second.decisionDigest) :
    Uniform (inTurn first second) := by
  intro c claim d other called calledOther same
  simp only [inTurn, List.mem_append, List.mem_cons, List.mem_replicate, Event.call.injEq,
    reduceCtorEq, and_false, or_false] at called calledOther
  rcases called with ⟨_, rfl⟩ | ⟨_, rfl⟩ <;> rcases calledOther with ⟨_, rfl⟩ | ⟨_, rfl⟩
  · rfl
  · exact absurd same differ
  · exact absurd same.symm differ
  · rfl

theorem twoDecisions_claimed :
    (System.start.run id (inTurn firstClaim secondClaim)).granted = [secondClaim, firstClaim] ∧
      ClaimedOnce (System.start.run id (inTurn firstClaim secondClaim)) :=
  ⟨by decide +kernel, claimed_once id _ (uniform_inTurn (by decide +kernel))⟩

/-- `digest_key` hashes the digest as it was spelled. -/
theorem otherSpelling_claimed_again :
    Function.Injective (id : String → String) ∧
      (System.start.run id (inTurn firstClaim bareClaim)).granted = [bareClaim, firstClaim] ∧
      bareDigest bareClaim.decisionDigest = bareDigest firstClaim.decisionDigest ∧
      ¬ClaimedOnce (System.start.run id (inTurn firstClaim bareClaim)) := by
  have granted : (System.start.run id (inTurn firstClaim bareClaim)).granted =
      [bareClaim, firstClaim] := by decide +kernel
  have same : bareDigest bareClaim.decisionDigest = bareDigest firstClaim.decisionDigest := by
    decide +kernel
  refine ⟨Function.injective_id, granted, same, fun once => ?_⟩
  rw [ClaimedOnce, granted, List.pairwise_pair] at once
  exact once.1 same

end RExecOp.GovernanceClaims
