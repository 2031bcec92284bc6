import RExecOp.Store

/-! The attempt journal in full (`runtime_ops/attempts.py`, `storage/memory_store.py`): records
with their digests, and every durable write of a call on its own. -/

namespace RExecOp.AttemptJournal

open Attempts (Attempt)
open Lease (Instant)

variable {now : Instant} {o a text digest : String}

/-- An attempt record; `result_digest` is absent until a call writes it. -/
structure Entry where
  attempt : Attempt
  planDigest : String
  executionSpecDigest : String
  executionPermitRef : String
  resultDigest : Option String
  deriving DecidableEq

variable {e e' : Entry} {finish : Entry → Except Fault Entry}

def Entry.status (entry : Entry) : AttemptStatus := entry.attempt.status

/-- The arguments of `start`; reading the plan or the lease may raise. -/
structure Binding where
  operationRevision : Nat
  stepId : String
  planDigest : Except Fault String
  executionSpecDigest : String
  target : String
  mode : String
  leaseEpoch : Except Fault Int
  processInstanceId : String
  executionPermitRef : String

def buildPendingAttempt (operationId attemptId : String) (binding : Binding) (now : Instant) :
    Except Fault Entry := do
  -- the id is checked before the digest and the epoch are read
  let attempt ← Attempts.buildPendingAttempt operationId attemptId binding.operationRevision
    binding.stepId binding.target binding.mode ⟨"", 0, binding.processInstanceId⟩ now
  let planDigest ← binding.planDigest
  let leaseEpoch ← binding.leaseEpoch
  pure ⟨{ attempt with leaseEpoch := leaseEpoch }, "sha256:" ++ planDigest,
    binding.executionSpecDigest, binding.executionPermitRef, none⟩

def markAttemptStarted (entry : Entry) (now : Instant) : Entry :=
  { entry with attempt := Attempts.markAttemptStarted entry.attempt now }

def terminalStatus (status : String) : Option AttemptStatus :=
  if status = "completed" then some .completed
  else if status = "failed" then some .failed
  else if status = "indeterminate" then some .indeterminate
  else none

def finishAttemptRecord (entry : Entry) (status resultDigest errorClass : String) (now : Instant) :
    Except Fault Entry :=
  match terminalStatus status with
  | none => .error (.invalid ("invalid attempt terminal status: " ++ status))
  | some final => do
    let attempt ← Attempts.finishAttemptRecord entry.attempt final errorClass now
    pure { entry with attempt := attempt, resultDigest := some resultDigest }

def finishAttemptIndeterminateIfStarted (entry : Entry) (resultDigest : String) (now : Instant) :
    Except Fault Entry :=
  if entry.status.isFinal then .ok entry
  else if entry.status ≠ .started then
    .error (.invalid "execution attempt is not started or terminal")
  else finishAttemptRecord entry "indeterminate" resultDigest "outcome_indeterminate" now

/-- `prepare` is `start` up to its first write, `lose` what recovery makes of a record. -/
structure Store (σ : Type) where
  empty : σ
  get : σ → String → String → Option Entry
  put : σ → String → String → Entry → σ
  keys : σ → List (String × String)
  missing : Fault
  prepare : σ → String → String → Binding → Instant → Except Fault Entry
  lose : Entry → Instant → Except Fault Entry

def existsFault : Fault := .invalid "execution attempt already exists"

abbrev Files := Dict String (Dict String Entry)

def Files.directory (files : Files) (operationId : String) : Dict String Entry :=
  (Dict.get files operationId).getD ∅

/-- `AttemptJournal`: one file an attempt. -/
def fileStore : Store Files where
  empty := ∅
  get files operationId attemptId := (files.directory operationId).get attemptId
  put files operationId attemptId entry :=
    Dict.set files operationId ((files.directory operationId).set attemptId entry)
  keys files := (Dict.sortedKeys files).flatMap fun operationId =>
    ((files.directory operationId).fileOrder ".json").map fun attemptId => (operationId, attemptId)
  missing := .exception "FileNotFoundError"
  prepare files operationId attemptId binding now :=
    if ((files.directory operationId).get attemptId).isSome then .error existsFault
    else buildPendingAttempt operationId attemptId binding now
  lose entry now := .ok { entry with attempt := World.lost entry.attempt now }

abbrev Memory := Dict (String × String) Entry

def pairLe (a b : String × String) : Bool := decide (a.1 < b.1 ∨ a.1 = b.1 ∧ a.2 ≤ b.2)

def memoryStore : Store Memory where
  empty := ∅
  get memory operationId attemptId := Dict.get memory (operationId, attemptId)
  put memory operationId attemptId entry := Dict.set memory (operationId, attemptId) entry
  keys memory := (AList.keys memory).insertionSort fun a b => pairLe a b
  missing := .invalid "execution attempt not found"
  prepare memory operationId attemptId binding now := do
    let pending ← buildPendingAttempt operationId attemptId binding now
    if (Dict.get memory (operationId, attemptId)).isSome then .error existsFault
    else pure pending
  lose entry now := finishAttemptIndeterminateIfStarted entry "" now

inductive Call where
  | start (operationId attemptId : String) (binding : Binding) (now : Instant)
  /-- The ids are those of the record the caller hands in, if it has them. -/
  | finish (ids : Option (String × String)) (status resultDigest errorClass : String)
      (now : Instant)
  | finishIndeterminateIfStarted (ids : Option (String × String)) (resultDigest : String)
      (now : Instant)
  | recoverStarted (now : Instant)

inductive Reply where
  | record (entry : Entry)
  | changed (ids : List String)

/-- What a call replies, and the store after each of its writes. -/
structure Outcome (σ : Type) where
  reply : Except Fault Reply
  states : List σ

def Outcome.last {σ : Type} (outcome : Outcome σ) (start : σ) : σ := outcome.states.getLastD start

section Calls

variable {σ : Type} (S : Store σ)

def refinish (s : σ) (ids : Option (String × String)) (finish : Entry → Except Fault Entry) :
    Outcome σ :=
  match ids with
  | none => ⟨.error (.exception "KeyError"), []⟩
  | some (operationId, attemptId) => match S.get s operationId attemptId with
    | none => ⟨.error S.missing, []⟩
    | some current => match finish current with
      | .error fault => ⟨.error fault, []⟩
      | .ok finished => ⟨.ok (.record finished), [S.put s operationId attemptId finished]⟩

def recoverEach (now : Instant) : List (String × String) → σ → Outcome σ
  | [], _ => ⟨.ok (.changed []), []⟩
  | (operationId, attemptId) :: rest, s => match S.get s operationId attemptId with
    | none => recoverEach now rest s
    | some current =>
      if current.status ≠ .started then recoverEach now rest s
      else match S.lose current now with
        | .error fault => ⟨.error fault, []⟩
        | .ok lost =>
          let after := S.put s operationId attemptId lost
          let others := recoverEach now rest after
          ⟨others.reply.map fun
            | .changed ids => .changed (attemptId :: ids)
            | reply => reply, after :: others.states⟩

def perform (s : σ) : Call → Outcome σ
  | .start operationId attemptId binding now =>
    match S.prepare s operationId attemptId binding now with
    | .error fault => ⟨.error fault, []⟩
    | .ok pending =>
      let started := markAttemptStarted pending now
      ⟨.ok (.record started), [S.put s operationId attemptId pending,
        S.put (S.put s operationId attemptId pending) operationId attemptId started]⟩
  | .finish ids status resultDigest errorClass now =>
    refinish S s ids fun entry => finishAttemptRecord entry status resultDigest errorClass now
  | .finishIndeterminateIfStarted ids resultDigest now =>
    refinish S s ids fun entry => finishAttemptIndeterminateIfStarted entry resultDigest now
  | .recoverStarted now => recoverEach S now (S.keys s) s

def outcomes (s : σ) : List Call → List (Outcome σ)
  | [] => []
  | call :: rest =>
    let outcome := perform S s call
    outcome :: outcomes (outcome.last s) rest

def run (s : σ) (calls : List Call) : σ :=
  calls.foldl (fun s call => (perform S s call).last s) s

def passed (s : σ) (calls : List Call) : List σ :=
  s :: (outcomes S s calls).flatMap (·.states)

end Calls

def Entry.visible (entry : Entry) : Entry := { entry with resultDigest := none }

structure Store.Lawful {σ : Type} (S : Store σ) : Prop where
  get_empty : ∀ o a, S.get S.empty o a = none
  get_put : ∀ s o a e o' a',
    S.get (S.put s o a e) o' a' = if o' = o ∧ a' = a then some e else S.get s o' a'
  mem_keys : ∀ s o a, (o, a) ∈ S.keys s ↔ ∃ e, S.get s o a = some e
  keys_nodup : ∀ s, (S.keys s).Nodup
  prepare_fresh : ∀ s o a b now, S.get s o a = none →
    S.prepare s o a b now = buildPendingAttempt o a b now
  prepare_existing : ∀ s o a b now e, S.get s o a = some e →
    ∃ fault, S.prepare s o a b now = .error fault
  lose_started : ∀ e now, e.status = .started → ∃ digest,
    S.lose e now = .ok { e with attempt := World.lost e.attempt now, resultDigest := digest }

theorem fileStore_lawful : fileStore.Lawful where
  get_empty _ _ := rfl
  get_put files o a e o' a' := by
    simp only [fileStore, Files.directory, Dict.get_set]
    by_cases same : o' = o
    · subst same
      simp [Dict.get_set]
    · simp [same]
  mem_keys files o a := by
    simp only [fileStore, List.mem_flatMap, List.mem_map, Dict.mem_sortedKeys_iff,
      Dict.mem_fileOrder]
    constructor
    · rintro ⟨operationId, -, attemptId, found, same⟩
      cases same
      exact found
    · rintro ⟨e, found⟩
      cases directory : Dict.get files o with
      | none => simp [Files.directory, directory] at found
      | some entries => exact ⟨o, ⟨entries, directory⟩, a, ⟨e, found⟩, rfl⟩
  keys_nodup files := by
    simp only [fileStore]
    rw [List.nodup_flatMap]
    refine ⟨fun o _ => ?_, ?_⟩
    · refine (Dict.fileOrder_nodup _ _).map fun a b same => ?_
      exact (Prod.mk.injEq _ _ _ _ ▸ same).2
    · refine (Dict.sortedKeys_nodup files).imp fun {o o'} differ => ?_
      intro key first second
      obtain ⟨a, -, rfl⟩ := List.mem_map.mp first
      obtain ⟨b, -, same⟩ := List.mem_map.mp second
      exact differ (congrArg Prod.fst same).symm
  prepare_fresh files o a b now absent := by
    have absent : (files.directory o).get a = none := absent
    simp [fileStore, absent]
  prepare_existing files o a b now e found := by
    have found : (files.directory o).get a = some e := found
    exact ⟨existsFault, by simp [fileStore, found]⟩
  lose_started e now _ := ⟨e.resultDigest, rfl⟩

theorem finishAttemptIndeterminateIfStarted_started (started : e.status = .started)
    (digest : String) : finishAttemptIndeterminateIfStarted e digest now =
      .ok { e with attempt := World.lost e.attempt now, resultDigest := some digest } := by
  have started : e.attempt.status = .started := started
  simp [finishAttemptIndeterminateIfStarted, finishAttemptRecord, terminalStatus, Entry.status,
    started, AttemptStatus.isFinal, Attempts.finishAttemptRecord, World.lost, bind, Except.bind,
    pure, Except.pure]

theorem memoryStore_lawful : memoryStore.Lawful where
  get_empty _ _ := rfl
  get_put memory o a e o' a' := by
    simp only [memoryStore, Dict.get_set, Prod.mk.injEq]
  mem_keys memory o a := by
    simp only [memoryStore, List.mem_insertionSort, Dict.mem_keys_iff]
  keys_nodup memory := (List.perm_insertionSort _ _).nodup_iff.mpr (AList.keys_nodup memory)
  prepare_fresh memory o a b now absent := by
    have absent : Dict.get memory (o, a) = none := absent
    simp only [memoryStore, absent]
    cases buildPendingAttempt o a b now <;> rfl
  prepare_existing memory o a b now e found := by
    have found : Dict.get memory (o, a) = some e := found
    simp only [memoryStore, found]
    cases buildPendingAttempt o a b now with
    | ok pending => exact ⟨existsFault, rfl⟩
    | error fault => exact ⟨fault, rfl⟩
  lose_started e now started := ⟨some "", finishAttemptIndeterminateIfStarted_started started ""⟩

/-- What one write may do to the record of an attempt. -/
inductive Follows : Option Entry → Option Entry → Prop
  | same (e : Option Entry) : Follows e e
  | created {e : Entry} : e.status = .pending → Follows none (some e)
  | started {e e' : Entry} : e.status = .pending → e'.status = .started →
      Follows (some e) (some e')
  | finished {e e' : Entry} : e.status = .started → e'.status.isFinal = true →
      Follows (some e) (some e')

theorem Follows.of_final {e' : Option Entry} (follows : Follows (some e) e')
    (final : e.status.isFinal = true) : e' = some e := by
  cases follows with
  | same => rfl
  | started pending => rw [pending] at final; cases final
  | finished started => rw [started] at final; cases final

theorem buildPendingAttempt_status {b : Binding} (built : buildPendingAttempt o a b now = .ok e) :
    e.status = .pending := by
  unfold buildPendingAttempt Attempts.buildPendingAttempt at built
  split at built
  · cases built
  · cases planDigest : b.planDigest with
    | error fault => simp [planDigest, bind, Except.bind] at built
    | ok digest =>
      cases leaseEpoch : b.leaseEpoch with
      | error fault => simp [planDigest, leaseEpoch, bind, Except.bind] at built
      | ok epoch =>
        simp only [planDigest, leaseEpoch, bind, Except.bind, pure, Except.pure] at built
        cases built
        rfl

theorem terminalStatus_isFinal {status : AttemptStatus}
    (terminal : terminalStatus text = some status) : status.isFinal = true := by
  unfold terminalStatus at terminal
  split at terminal
  · cases terminal; rfl
  · split at terminal
    · cases terminal; rfl
    · split at terminal
      · cases terminal; rfl
      · cases terminal

theorem finishAttemptRecord_ok {text digest errorClass : String}
    (finished : finishAttemptRecord e text digest errorClass now = .ok e') :
    e.status = .started ∧ ∃ status, terminalStatus text = some status ∧
      e' = { e with
        attempt := { e.attempt with
          status := status
          finishedAt := some now
          errorClass := errorClass }
        resultDigest := some digest } := by
  unfold finishAttemptRecord at finished
  split at finished
  · cases finished
  · rename_i status terminal
    by_cases started : e.attempt.status = .started
    · refine ⟨started, status, terminal, ?_⟩
      simp only [Attempts.finishAttemptRecord, terminalStatus_isFinal terminal, started, bind,
        Except.bind, pure, Except.pure, Bool.not_true, Bool.false_eq_true, if_false, ne_eq,
        not_true_eq_false] at finished
      cases finished
      rfl
    · simp [Attempts.finishAttemptRecord, terminalStatus_isFinal terminal, started, bind,
        Except.bind] at finished

theorem follows_finishAttemptRecord {text digest errorClass : String}
    (finished : finishAttemptRecord e text digest errorClass now = .ok e') :
    Follows (some e) (some e') := by
  obtain ⟨started, status, terminal, rfl⟩ := finishAttemptRecord_ok finished
  exact .finished started (terminalStatus_isFinal terminal)

theorem follows_finishAttemptIndeterminateIfStarted
    (finished : finishAttemptIndeterminateIfStarted e digest now = .ok e') :
    Follows (some e) (some e') := by
  unfold finishAttemptIndeterminateIfStarted at finished
  split at finished
  · cases finished
    exact .same _
  · split at finished
    · cases finished
    · exact follows_finishAttemptRecord finished

section Machine

variable {σ : Type} {S : Store σ}

def Moves (S : Store σ) (s s' : σ) : Prop := ∀ o a, Follows (S.get s o a) (S.get s' o a)

theorem moves_put (lawful : S.Lawful) {s : σ} (follows : Follows (S.get s o a) (some e)) :
    Moves S s (S.put s o a e) := by
  intro o' a'
  rw [lawful.get_put]
  split
  · rename_i same
    rw [same.1, same.2]
    exact follows
  · exact .same _

theorem passed_refinish (lawful : S.Lawful) {s : σ} {ids : Option (String × String)}
    (follows : ∀ e e', finish e = .ok e' → Follows (some e) (some e')) :
    (s :: (refinish S s ids finish).states).IsChain (Moves S) := by
  unfold refinish
  split
  · exact .singleton s
  · split
    · exact .singleton s
    · rename_i current found
      split
      · exact .singleton s
      · rename_i finished done
        refine .cons_cons (moves_put lawful ?_) (.singleton _)
        rw [found]
        exact follows current finished done

theorem passed_recoverEach (lawful : S.Lawful) (now : Instant) (keys : List (String × String))
    (s : σ) : (s :: (recoverEach S now keys s).states).IsChain (Moves S) := by
  induction keys generalizing s with
  | nil => exact .singleton s
  | cons key rest ih =>
    obtain ⟨o, a⟩ := key
    unfold recoverEach
    split
    · exact ih s
    · rename_i current found
      split
      · exact ih s
      · rename_i started
        have started : current.status = .started := not_not.mp started
        obtain ⟨digest, lost⟩ := lawful.lose_started current now started
        rw [lost]
        refine .cons_cons (moves_put lawful ?_) (ih _)
        rw [found]
        exact .finished started rfl

theorem passed_perform (lawful : S.Lawful) (s : σ) (call : Call) :
    (s :: (perform S s call).states).IsChain (Moves S) := by
  cases call with
  | start o a binding now =>
    cases found : S.get s o a with
    | some e =>
      obtain ⟨fault, refused⟩ := lawful.prepare_existing s o a binding now e found
      rw [perform, refused]
      exact .singleton s
    | none =>
      rw [perform, lawful.prepare_fresh s o a binding now found]
      cases built : buildPendingAttempt o a binding now with
      | error fault => exact .singleton s
      | ok pending =>
        have status := buildPendingAttempt_status built
        refine .cons_cons (moves_put lawful ?_) (.cons_cons (moves_put lawful ?_) (.singleton _))
        · rw [found]
          exact .created status
        · rw [lawful.get_put, if_pos ⟨rfl, rfl⟩]
          exact .started status rfl
  | finish ids status digest errorClass now =>
    exact passed_refinish lawful fun _ _ => follows_finishAttemptRecord
  | finishIndeterminateIfStarted ids digest now =>
    exact passed_refinish lawful fun _ _ => follows_finishAttemptIndeterminateIfStarted
  | recoverStarted now => exact passed_recoverEach lawful now _ s

theorem isChain_join {R : σ → σ → Prop} {s : σ} {xs ys : List σ} (first : (s :: xs).IsChain R)
    (second : (xs.getLastD s :: ys).IsChain R) : (s :: (xs ++ ys)).IsChain R := by
  induction xs generalizing s with
  | nil => exact second
  | cons x rest ih =>
    rw [List.isChain_cons_cons] at first
    rw [List.getLastD_cons] at second
    exact .cons_cons first.1 (ih first.2 second)

theorem passed_chain (lawful : S.Lawful) (s : σ) (calls : List Call) :
    (passed S s calls).IsChain (Moves S) := by
  induction calls generalizing s with
  | nil => exact .singleton s
  | cons call rest ih => exact isChain_join (passed_perform lawful s call) (ih _)

theorem final_of_chain {s : σ} {xs : List σ} (chain : (s :: xs).IsChain (Moves S))
    (found : S.get s o a = some e) (final : e.status.isFinal = true) :
    S.get (xs.getLastD s) o a = some e := by
  induction xs generalizing s with
  | nil => exact found
  | cons x rest ih =>
    rw [List.isChain_cons_cons] at chain
    have kept := chain.1 o a
    rw [found] at kept
    rw [List.getLastD_cons]
    exact ih chain.2 (kept.of_final final)

theorem final_run (lawful : S.Lawful) {s : σ} (found : S.get s o a = some e)
    (final : e.status.isFinal = true) (calls : List Call) : S.get (run S s calls) o a = some e := by
  induction calls generalizing s with
  | nil => exact found
  | cons call rest ih => exact ih (final_of_chain (passed_perform lawful s call) found final)

theorem start_existing (lawful : S.Lawful) {s : σ} (found : S.get s o a = some e)
    (binding : Binding) (now : Instant) :
    (∃ fault, (perform S s (.start o a binding now)).reply = .error fault) ∧
      (perform S s (.start o a binding now)).states = [] := by
  obtain ⟨fault, refused⟩ := lawful.prepare_existing s o a binding now e found
  rw [perform, refused]
  exact ⟨⟨fault, rfl⟩, rfl⟩

end Machine

/-- The same attempts with the same contents, `result_digest` apart. -/
def Agree {σ τ : Type} (S : Store σ) (T : Store τ) (s : σ) (t : τ) : Prop :=
  ∀ o a, (S.get s o a).map Entry.visible = (T.get t o a).map Entry.visible

def Parallel (x y : Except Fault Entry) : Prop :=
  match x, y with
  | .ok e, .ok e' => e.visible = e'.visible
  | .error _, .error _ => True
  | _, _ => False

theorem status_of_visible (same : e.visible = e'.visible) : e.status = e'.status :=
  congrArg (·.attempt.status) same

theorem attempt_of_visible (same : e.visible = e'.visible) : e.attempt = e'.attempt :=
  congrArg (·.attempt) same

theorem parallel_finishAttemptRecord (same : e.visible = e'.visible)
    (text digest errorClass : String) (now : Instant) :
    Parallel (finishAttemptRecord e text digest errorClass now)
      (finishAttemptRecord e' text digest errorClass now) := by
  unfold finishAttemptRecord
  split
  · trivial
  · rename_i status terminal
    rw [attempt_of_visible same]
    cases Attempts.finishAttemptRecord e'.attempt status errorClass now with
    | error fault => trivial
    | ok attempt =>
      have rest := congrArg (fun entry : Entry => { entry with attempt := attempt }) same
      exact rest

theorem parallel_finishAttemptIndeterminateIfStarted (same : e.visible = e'.visible)
    (digest : String) (now : Instant) : Parallel (finishAttemptIndeterminateIfStarted e digest now)
      (finishAttemptIndeterminateIfStarted e' digest now) := by
  unfold finishAttemptIndeterminateIfStarted
  rw [status_of_visible same]
  split
  · exact same
  · split
    · trivial
    · exact parallel_finishAttemptRecord same _ _ _ _

section Lockstep

variable {σ τ : Type} {S : Store σ} {T : Store τ} {s : σ} {t : τ}

theorem Agree.get (agree : Agree S T s t) (o a : String) :
    (S.get s o a = none ∧ T.get t o a = none) ∨
      ∃ e e', S.get s o a = some e ∧ T.get t o a = some e' ∧ e.visible = e'.visible := by
  have same := agree o a
  cases first : S.get s o a with
  | none =>
    cases second : T.get t o a with
    | none => exact .inl ⟨rfl, rfl⟩
    | some e' => simp [first, second] at same
  | some e =>
    cases second : T.get t o a with
    | none => simp [first, second] at same
    | some e' =>
      rw [first, second, Option.map_some, Option.map_some] at same
      exact .inr ⟨e, e', rfl, rfl, Option.some.inj same⟩

theorem Agree.put (lawfulS : S.Lawful) (lawfulT : T.Lawful) (agree : Agree S T s t)
    (same : e.visible = e'.visible) : Agree S T (S.put s o a e) (T.put t o a e') := by
  intro o' a'
  rw [lawfulS.get_put, lawfulT.get_put]
  split
  · rw [Option.map_some, Option.map_some, same]
  · exact agree o' a'

def InStep (S : Store σ) (T : Store τ) (s : σ) (t : τ) (x : Outcome σ) (y : Outcome τ) : Prop :=
  x.reply.isOk = y.reply.isOk ∧ Agree S T (x.last s) (y.last t)

theorem inStep_refinish (lawfulS : S.Lawful) (lawfulT : T.Lawful) (agree : Agree S T s t)
    {ids : Option (String × String)}
    (parallel : ∀ e e', e.visible = e'.visible → Parallel (finish e) (finish e')) :
    InStep S T s t (refinish S s ids finish) (refinish T t ids finish) := by
  cases ids with
  | none => exact ⟨rfl, agree⟩
  | some key =>
    obtain ⟨o, a⟩ := key
    rcases agree.get o a with ⟨first, second⟩ | ⟨e, e', first, second, same⟩
    · simp only [refinish, first, second]
      exact ⟨rfl, agree⟩
    · simp only [refinish, first, second]
      have both := parallel e e' same
      cases left : finish e with
      | error fault =>
        cases right : finish e' with
        | error fault' => exact ⟨rfl, agree⟩
        | ok done => simp [Parallel, left, right] at both
      | ok done =>
        cases right : finish e' with
        | error fault' => simp [Parallel, left, right] at both
        | ok done' =>
          rw [left, right] at both
          exact ⟨rfl, agree.put lawfulS lawfulT both⟩

theorem Outcome.last_cons {reply : Except Fault Reply} {x : σ} {xs : List σ} :
    (⟨reply, x :: xs⟩ : Outcome σ).last s = xs.getLastD x :=
  List.getLastD_cons ..

def recovered (now : Instant) (e : Entry) : Entry :=
  if e.status = .started then { e.visible with attempt := World.lost e.attempt now }
  else e.visible

theorem recovered_skip {o a o' a' : String} {rest : List (String × String)} (fresh : (o, a) ∉ rest)
    (idle : ∀ e, S.get s o a = some e → e.status ≠ .started) :
    (S.get s o' a').map (if (o', a') ∈ rest then recovered now else Entry.visible) =
      (S.get s o' a').map (if (o', a') ∈ (o, a) :: rest then recovered now else Entry.visible) := by
  by_cases same : (o', a') = (o, a)
  · cases same
    cases found : S.get s o a with
    | none => rfl
    | some e => simp [fresh, recovered, idle e found]
  · simp [List.mem_cons, same]

theorem recoverEach_get (lawful : S.Lawful) (now : Instant) (keys : List (String × String))
    (distinct : keys.Nodup) (s : σ) :
    (recoverEach S now keys s).reply.isOk = true ∧
      ∀ o a, (S.get ((recoverEach S now keys s).last s) o a).map Entry.visible =
        (S.get s o a).map (if (o, a) ∈ keys then recovered now else Entry.visible) := by
  induction keys generalizing s with
  | nil => exact ⟨rfl, fun o a => by simp [recoverEach, Outcome.last]⟩
  | cons key rest ih =>
    obtain ⟨o, a⟩ := key
    obtain ⟨fresh, distinct⟩ := List.nodup_cons.mp distinct
    unfold recoverEach
    split
    · rename_i missing
      obtain ⟨replies, others⟩ := ih distinct s
      refine ⟨replies, fun o' a' => ?_⟩
      rw [others, recovered_skip fresh fun e found => by rw [missing] at found; cases found]
    · rename_i current found
      split
      · rename_i idle
        obtain ⟨replies, others⟩ := ih distinct s
        refine ⟨replies, fun o' a' => ?_⟩
        rw [others, recovered_skip fresh fun e here => by
          rw [found] at here
          cases here
          exact idle]
      · rename_i started
        have started : current.status = .started := not_not.mp started
        obtain ⟨digest, lost⟩ := lawful.lose_started current now started
        rw [lost]
        obtain ⟨replies, others⟩ := ih distinct (S.put s o a
          { current with attempt := World.lost current.attempt now, resultDigest := digest })
        refine ⟨?_, fun o' a' => ?_⟩
        · dsimp only
          cases reply : (recoverEach S now rest (S.put s o a { current with
              attempt := World.lost current.attempt now, resultDigest := digest })).reply with
          | error fault => simp [reply, Except.isOk, Except.toBool] at replies
          | ok value => rfl
        · rw [Outcome.last_cons]
          refine (others o' a').trans ?_
          rw [lawful.get_put]
          by_cases same : (o', a') = (o, a)
          · cases same
            simp [fresh, found, recovered, started, Entry.visible]
          · have apart : ¬(o' = o ∧ a' = a) := fun both => same (by rw [both.1, both.2])
            simp [List.mem_cons, same, apart]

theorem inStep_recoverStarted (lawfulS : S.Lawful) (lawfulT : T.Lawful) (agree : Agree S T s t)
    (now : Instant) :
    InStep S T s t (recoverEach S now (S.keys s) s) (recoverEach T now (T.keys t) t) := by
  obtain ⟨okS, gotS⟩ := recoverEach_get lawfulS now (S.keys s) (lawfulS.keys_nodup s) s
  obtain ⟨okT, gotT⟩ := recoverEach_get lawfulT now (T.keys t) (lawfulT.keys_nodup t) t
  refine ⟨okS.trans okT.symm, fun o a => ?_⟩
  rw [gotS, gotT]
  rcases agree.get o a with ⟨first, second⟩ | ⟨e, e', first, second, same⟩
  · rw [first, second]
    rfl
  · have listedS : (o, a) ∈ S.keys s := (lawfulS.mem_keys s o a).mpr ⟨e, first⟩
    have listedT : (o, a) ∈ T.keys t := (lawfulT.mem_keys t o a).mpr ⟨e', second⟩
    rw [first, second, if_pos listedS, if_pos listedT, Option.map_some, Option.map_some]
    simp only [recovered, status_of_visible same, attempt_of_visible same, same]

theorem inStep_start (lawfulS : S.Lawful) (lawfulT : T.Lawful) (agree : Agree S T s t)
    (o a : String) (binding : Binding) (now : Instant) :
    InStep S T s t (perform S s (.start o a binding now))
      (perform T t (.start o a binding now)) := by
  rcases agree.get o a with ⟨first, second⟩ | ⟨e, e', first, second, -⟩
  · rw [perform, perform, lawfulS.prepare_fresh _ _ _ _ _ first,
      lawfulT.prepare_fresh _ _ _ _ _ second]
    cases buildPendingAttempt o a binding now with
    | error fault => exact ⟨rfl, agree⟩
    | ok pending =>
      exact ⟨rfl, (agree.put lawfulS lawfulT rfl).put lawfulS lawfulT rfl⟩
  · obtain ⟨fault, refused⟩ := lawfulS.prepare_existing s o a binding now e first
    obtain ⟨fault', refused'⟩ := lawfulT.prepare_existing t o a binding now e' second
    rw [perform, perform, refused, refused']
    exact ⟨rfl, agree⟩

theorem inStep_perform (lawfulS : S.Lawful) (lawfulT : T.Lawful) (agree : Agree S T s t)
    (call : Call) : InStep S T s t (perform S s call) (perform T t call) := by
  cases call with
  | start o a binding now => exact inStep_start lawfulS lawfulT agree o a binding now
  | finish ids status digest errorClass now =>
    exact inStep_refinish lawfulS lawfulT agree fun _ _ same =>
      parallel_finishAttemptRecord same _ _ _ _
  | finishIndeterminateIfStarted ids digest now =>
    exact inStep_refinish lawfulS lawfulT agree fun _ _ same =>
      parallel_finishAttemptIndeterminateIfStarted same _ _
  | recoverStarted now => exact inStep_recoverStarted lawfulS lawfulT agree now

theorem inStep_run (lawfulS : S.Lawful) (lawfulT : T.Lawful) (agree : Agree S T s t)
    (calls : List Call) :
    (outcomes S s calls).map (·.reply.isOk) = (outcomes T t calls).map (·.reply.isOk) ∧
      Agree S T (run S s calls) (run T t calls) := by
  induction calls generalizing s t with
  | nil => exact ⟨rfl, agree⟩
  | cons call rest ih =>
    obtain ⟨replies, agree⟩ := inStep_perform lawfulS lawfulT agree call
    obtain ⟨others, last⟩ := ih agree
    refine ⟨?_, last⟩
    simp only [outcomes, List.map_cons, replies, others]

end Lockstep

/-- What holds of one store after the calls, and along them. -/
structure Disciplined {σ : Type} (S : Store σ) (calls : List Call) : Prop where
  moves : (passed S S.empty calls).IsChain (Moves S)
  final : ∀ {o a e}, S.get (run S S.empty calls) o a = some e → e.status.isFinal = true →
    ∀ later, S.get (run S (run S S.empty calls) later) o a = some e
  once : ∀ {o a e}, S.get (run S S.empty calls) o a = some e → ∀ binding now,
    (∃ fault, (perform S (run S S.empty calls) (.start o a binding now)).reply = .error fault) ∧
      (perform S (run S S.empty calls) (.start o a binding now)).states = []

theorem disciplined_of_lawful {σ : Type} {S : Store σ} (lawful : S.Lawful) (calls : List Call) :
    Disciplined S calls where
  moves := passed_chain lawful _ calls
  final found final later := final_run lawful found final later
  once found binding now := start_existing lawful found binding now

/-- In both stores every write takes the attempts along the state machine, a finished record is
never changed and no attempt is started twice; the two stores agree. -/
theorem journal_state_machine (calls : List Call) :
    Disciplined fileStore calls ∧ Disciplined memoryStore calls ∧
      (outcomes fileStore fileStore.empty calls).map (·.reply.isOk) =
        (outcomes memoryStore memoryStore.empty calls).map (·.reply.isOk) ∧
      ∀ o a, (fileStore.get (run fileStore fileStore.empty calls) o a).map Entry.visible =
        (memoryStore.get (run memoryStore memoryStore.empty calls) o a).map Entry.visible := by
  have agree : Agree fileStore memoryStore fileStore.empty memoryStore.empty := by
    intro o a
    rw [fileStore_lawful.get_empty, memoryStore_lawful.get_empty]
  obtain ⟨replies, last⟩ := inStep_run fileStore_lawful memoryStore_lawful agree calls
  exact ⟨disciplined_of_lawful fileStore_lawful calls,
    disciplined_of_lawful memoryStore_lawful calls, replies, last⟩

/-- The root holds the attempts of the journal under their ids, without digests. -/
structure Represents (files : Files) (w : World) : Prop where
  attempt : ∀ o a, w.attempt o a = (fileStore.get files o a).map (·.attempt)
  keyed : ∀ {o a record}, w.attempt o a = some record →
    record.operationId = o ∧ record.attemptId = a

theorem Represents.put {files : Files} {w : World} (represents : Represents files w)
    (operationId : e.attempt.operationId = o) (attemptId : e.attempt.attemptId = a) :
    Represents (fileStore.put files o a e) (w.putAttempt e.attempt) where
  attempt o' a' := by
    rw [attempt_putAttempt, fileStore_lawful.get_put, operationId, attemptId]
    split
    · rfl
    · exact represents.attempt o' a'
  keyed {o' a' record} found := by
    rw [attempt_putAttempt] at found
    split at found
    · rename_i same
      cases found
      exact ⟨same.1.symm, same.2.symm⟩
    · exact represents.keyed found

theorem refinish_represents {files : Files} {w : World} (represents : Represents files w)
    {finish' : Attempt → Except Fault Attempt}
    (lifts : ∀ e, (finish e).map (·.attempt) = finish' e.attempt)
    (keeps : ∀ r r', finish' r = .ok r' →
      r'.operationId = r.operationId ∧ r'.attemptId = r.attemptId)
    (o a : String) : let outcome := refinish fileStore files (some (o, a)) finish
    outcome.reply.isOk = (w.refinish o a finish').1.isOk ∧
      Represents (outcome.last files) (w.refinish o a finish').2 := by
  have same := represents.attempt o a
  simp only [refinish, World.refinish]
  cases found : fileStore.get files o a with
  | none =>
    rw [found, Option.map_none] at same
    rw [same]
    exact ⟨rfl, represents⟩
  | some e =>
    rw [found, Option.map_some] at same
    have lift := lifts e
    have own := represents.keyed same
    rw [same]
    dsimp only
    rw [← lift]
    cases done : finish e with
    | error fault => exact ⟨rfl, represents⟩
    | ok e' =>
      rw [done] at lift
      have kept := keeps e.attempt e'.attempt lift.symm
      exact ⟨rfl, represents.put (kept.1.trans own.1) (kept.2.trans own.2)⟩

theorem lifts_finishAttemptRecord {status : AttemptStatus}
    (terminal : terminalStatus text = some status) (e : Entry) (digest errorClass : String)
    (now : Instant) : (finishAttemptRecord e text digest errorClass now).map (·.attempt) =
      Attempts.finishAttemptRecord e.attempt status errorClass now := by
  simp only [finishAttemptRecord, terminal]
  cases Attempts.finishAttemptRecord e.attempt status errorClass now <;> rfl

end RExecOp.AttemptJournal
