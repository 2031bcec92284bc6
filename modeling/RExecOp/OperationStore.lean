import Mathlib.Logic.Function.Basic
import RExecOp.Store

/-! Clients that save one operation id at the same time, in `FileStore` and in `SqliteStore`.
Raising closes the file or the connection, which releases the lock. -/

namespace RExecOp.OperationStore

variable {α : Type}

structure Versioned (α : Type) where
  revision : Int
  payload : α
  deriving DecidableEq

def revisionOf : Option (Versioned α) → Int
  | some record => record.revision
  | none => 0

inductive SystemCall where
  | ensureLayout
  | openLock
  | secureDirectory
  | createTemp
  | writeTemp
  | secureRecord
  | checkTemp
  | closeLock
  | createDatabase
  | secureDatabase
  | connect
  | setPragmas
  | insertRow
  | closeConnection
  deriving DecidableEq

inductive Access where
  | validate
  | call (name : SystemCall)
  | lock
  | compare
  | render
  | commit
  | assign
  | unlock
  deriving DecidableEq

structure Backend (α : Type) where
  conflict : Versioned α → Option (Versioned α) → Option Fault
  program : List Access

def staleRevision (id : String) (expected found : Int) : Fault :=
  .conflict ("concurrency_conflict: operation " ++ id ++ " expected revision " ++
    toString expected ++ ", found " ++ toString found)

/-- `FileStore.save_operation`: `os.replace` inside `flock`. -/
def fileStore (id : String) : Backend α where
  conflict object
    | some current =>
      if current.revision ≠ object.revision then
        some (staleRevision id object.revision current.revision)
      else none
    | none =>
      if object.revision ≠ 0 then
        some (.conflict ("concurrency_conflict: operation " ++ id ++ " no longer exists"))
      else none
  program := [.validate, .call .ensureLayout, .call .openLock, .lock, .compare, .validate, .render,
    .call .secureDirectory, .call .createTemp, .call .writeTemp, .commit, .call .secureRecord,
    .call .checkTemp, .assign, .unlock, .call .closeLock]

/-- `SqliteStore.save_operation`: the commit gives up the lock of `BEGIN IMMEDIATE`. -/
def sqliteStore (id : String) : Backend α where
  conflict object stored :=
    if revisionOf stored ≠ object.revision then
      some (staleRevision id object.revision (revisionOf stored))
    else none
  program := [.validate, .call .ensureLayout, .call .createDatabase, .call .secureDatabase,
    .call .connect, .call .setPragmas, .lock, .call .secureDatabase, .compare, .validate, .render,
    .call .insertRow, .commit, .unlock, .call .secureDatabase, .call .closeConnection,
    .call .secureDatabase, .assign]

structure Save (α : Type) where
  base : Versioned α
  rest : List Access
  found : Int
  wrote : List (Option (Versioned α) × Versioned α)

structure Client (α : Type) where
  object : Versioned α
  save : Option (Save α)

structure Ended (α : Type) where
  client : Nat
  base : Versioned α
  final : Versioned α
  wrote : List (Option (Versioned α) × Versioned α)
  outcome : Except Fault Unit

/-- The record, the holder of the lock, the clients, the commits and the ended saves. -/
structure System (α : Type) where
  stored : Option (Versioned α)
  lock : Option Nat
  clients : Nat → Client α
  commits : List (Option (Versioned α) × Versioned α)
  ended : List (Ended α)

inductive Event (α : Type) where
  | load (c : Nat)
  | modify (c : Nat) (object : Versioned α)
  | save (c : Nat)
  | access (c : Nat) (fault : Option Fault)

section Step

variable (b : Backend α) (finite : α → Bool)

def System.put (sys : System α) (c : Nat) (client : Client α) : System α :=
  { sys with clients := Function.update sys.clients c client }

def System.finish (sys : System α) (c : Nat) (save : Save α) (outcome : Except Fault Unit) :
    System α where
  stored := sys.stored
  lock := if sys.lock = some c then none else sys.lock
  clients := Function.update sys.clients c ⟨(sys.clients c).object, none⟩
  commits := sys.commits
  ended := ⟨c, save.base, (sys.clients c).object, save.wrote, outcome⟩ :: sys.ended

def invalidJson : Fault :=
  .validation "invalid_json_value" "value is not finite JSON-compatible data"

def System.perform (sys : System α) (c : Nat) (save : Save α) : Access → System α
  | .validate | .render =>
    if finite (sys.clients c).object.payload then sys.put c ⟨(sys.clients c).object, some save⟩
    else sys.finish c save (.error invalidJson)
  | .call _ => sys.put c ⟨(sys.clients c).object, some save⟩
  | .lock => match sys.lock with
    | none => { sys.put c ⟨(sys.clients c).object, some save⟩ with lock := some c }
    | some _ => sys
  | .compare => match b.conflict (sys.clients c).object sys.stored with
    | some fault => sys.finish c save (.error fault)
    | none =>
      sys.put c ⟨(sys.clients c).object, some { save with found := revisionOf sys.stored }⟩
  | .commit =>
    let record : Versioned α := ⟨save.found + 1, (sys.clients c).object.payload⟩
    { sys.put c ⟨(sys.clients c).object,
        some { save with wrote := (sys.stored, record) :: save.wrote }⟩ with
      stored := some record
      commits := (sys.stored, record) :: sys.commits }
  | .assign =>
    sys.put c ⟨{ (sys.clients c).object with revision := save.found + 1 }, some save⟩
  | .unlock =>
    { sys.put c ⟨(sys.clients c).object, some save⟩ with
      lock := if sys.lock = some c then none else sys.lock }

def System.step (sys : System α) : Event α → System α
  | .load c => match (sys.clients c).save, sys.stored with
    | none, some record => sys.put c ⟨record, none⟩
    | _, _ => sys
  | .modify c object => match (sys.clients c).save with
    | none => sys.put c ⟨object, none⟩
    | some _ => sys
  | .save c => match (sys.clients c).save with
    | none =>
      let object := (sys.clients c).object
      sys.put c ⟨object, some ⟨object, b.program, 0, []⟩⟩
    | some _ => sys
  | .access c fault => match (sys.clients c).save with
    | none => sys
    | some save => match save.rest, fault with
      | [], _ => sys.finish c save (.ok ())
      | .assign :: rest, _ => sys.perform b finite c { save with rest := rest } .assign
      | _ :: _, some fault => sys.finish c save (.error fault)
      | next :: rest, none => sys.perform b finite c { save with rest := rest } next

def System.run (sys : System α) (events : List (Event α)) : System α :=
  events.foldl (System.step b finite) sys

end Step

def System.start (stored : Option (Versioned α)) (objects : Nat → Versioned α) : System α :=
  ⟨stored, none, fun c => ⟨objects c, none⟩, [], []⟩

inductive Stage where
  | start
  | locked
  | compared
  | committed
  | assigned
  | released
  | done
  deriving DecidableEq

namespace Stage

def holds : Stage → Bool
  | locked | compared | committed | assigned => true
  | _ => false

def hasCompared : Stage → Bool
  | start | locked => false
  | _ => true

def hasCommitted : Stage → Bool
  | start | locked | compared => false
  | _ => true

def hasAssigned : Stage → Bool
  | assigned | done => true
  | _ => false

def after (stage : Stage) : Access → Option Stage
  | .validate | .render => if stage.hasCommitted then none else some stage
  | .call _ => some stage
  | .lock => if stage = start then some locked else none
  | .compare => if stage = locked then some compared else none
  | .commit => if stage = compared then some committed else none
  | .assign =>
    if stage = committed then some assigned else if stage = released then some done else none
  | .unlock =>
    if stage = committed then some released else if stage = assigned then some done else none

def leads : Stage → List Access → Bool
  | stage, [] => stage == done
  | stage, access :: rest => match stage.after access with
    | some next => next.leads rest
    | none => false

theorem leads_cons {stage : Stage} {access : Access} {rest : List Access}
    (leads : stage.leads (access :: rest) = true) :
    ∃ next, stage.after access = some next ∧ next.leads rest = true := by
  rw [Stage.leads] at leads
  split at leads
  · rename_i next moved
    exact ⟨next, moved, leads⟩
  · cases leads

end Stage

structure Backend.Sound (b : Backend α) : Prop where
  conflict : ∀ object stored, b.conflict object stored = none → revisionOf stored = object.revision
  leads : Stage.start.leads b.program = true

theorem fileStore_sound (id : String) : (fileStore id : Backend α).Sound where
  conflict object stored agrees := by
    cases stored with
    | some current =>
      by_contra differ
      simp only [fileStore, if_pos (show current.revision ≠ object.revision from differ)] at agrees
      cases agrees
    | none =>
      by_contra differ
      have nonzero : object.revision ≠ 0 := Ne.symm differ
      simp only [fileStore, if_pos nonzero] at agrees
      cases agrees
  leads := rfl

theorem sqliteStore_sound (id : String) : (sqliteStore id : Backend α).Sound where
  conflict object stored agrees := by
    by_contra differ
    simp only [sqliteStore, if_pos (show revisionOf stored ≠ object.revision from differ)] at agrees
    cases agrees
  leads := rfl

def Versioned.next (base : Versioned α) : Versioned α := { base with revision := base.revision + 1 }

def Wrote (base : Versioned α) (wrote : List (Option (Versioned α) × Versioned α)) : Prop :=
  ∃ before, wrote = [(before, base.next)] ∧ revisionOf before = base.revision

structure Reached (sys : System α) (c : Nat) (save : Save α) (stage : Stage) : Prop where
  held : sys.lock = some c ↔ stage.holds = true
  object : (sys.clients c).object = if stage.hasAssigned then save.base.next else save.base
  found : stage.hasCompared = true → save.found = save.base.revision
  current : stage = .compared → revisionOf sys.stored = save.base.revision
  wrote : if stage.hasCommitted then Wrote save.base save.wrote else save.wrote = []
  listed : save.wrote ⊆ sys.commits

def Faithful (e : Ended α) : Prop :=
  match e.outcome with
  | .ok () => Wrote e.base e.wrote ∧ e.final = e.base.next
  | .error _ => e.wrote = [] ∧ e.final = e.base

/-- The commits lead from the first record to the stored one. -/
def Linked (initial : Option (Versioned α)) :
    List (Option (Versioned α) × Versioned α) → Option (Versioned α) → Prop
  | [], stored => stored = initial
  | (before, record) :: rest, stored =>
    stored = some record ∧ record.revision = revisionOf before + 1 ∧ Linked initial rest before

structure Inv (initial : Option (Versioned α)) (sys : System α) : Prop where
  busy : ∀ {c save}, (sys.clients c).save = some save →
    ∃ stage : Stage, stage.leads save.rest = true ∧ Reached sys c save stage
  idle : ∀ {c}, (sys.clients c).save = none → sys.lock ≠ some c
  ended : ∀ e ∈ sys.ended, Faithful e ∧ e.wrote ⊆ sys.commits
  linked : Linked initial sys.commits sys.stored

structure Moves (sys : System α) (d : Nat) (after : System α) : Prop where
  others : ∀ c, c ≠ d → after.clients c = sys.clients c
  locks : ∀ c, c ≠ d → (after.lock = some c ↔ sys.lock = some c)
  stored : after.stored = sys.stored ∨ sys.lock = some d
  commits : sys.commits ⊆ after.commits

section Steps

variable {initial : Option (Versioned α)} {sys after : System α} {c d : Nat} {save : Save α}
  {stage : Stage}

theorem Reached.moves (reached : Reached sys c save stage) (moves : Moves sys d after)
    (other : c ≠ d) : Reached after c save stage where
  held := (moves.locks c other).trans reached.held
  object := by rw [moves.others c other, reached.object]
  found := reached.found
  current compared := by
    rcases moves.stored with same | held
    · rw [same, reached.current compared]
    · have own : sys.lock = some c := reached.held.mpr (by rw [compared]; rfl)
      rw [own] at held
      exact absurd (Option.some.inj held) other
  wrote := reached.wrote
  listed := fun w member => moves.commits (reached.listed member)

theorem Inv.moves (inv : Inv initial sys) (moves : Moves sys d after)
    (busy : ∀ save, (after.clients d).save = some save →
      ∃ stage : Stage, stage.leads save.rest = true ∧ Reached after d save stage)
    (idle : (after.clients d).save = none → after.lock ≠ some d)
    (ended : ∀ e ∈ after.ended, Faithful e ∧ e.wrote ⊆ after.commits)
    (linked : Linked initial after.commits after.stored) : Inv initial after where
  busy {c save} running := by
    by_cases same : c = d
    · subst same
      exact busy save running
    · rw [moves.others c same] at running
      obtain ⟨stage, leads, reached⟩ := inv.busy running
      exact ⟨stage, leads, reached.moves moves same⟩
  idle {c} resting := by
    by_cases same : c = d
    · subst same
      exact idle resting
    · rw [moves.others c same] at resting
      rw [ne_eq, moves.locks c same]
      exact inv.idle resting
  ended := ended
  linked := linked

theorem Inv.next (inv : Inv initial sys) (moves : Moves sys d after)
    (running : (after.clients d).save = some save) (leads : stage.leads save.rest = true)
    (reached : Reached after d save stage)
    (ended : ∀ e ∈ after.ended, Faithful e ∧ e.wrote ⊆ after.commits)
    (linked : Linked initial after.commits after.stored) : Inv initial after := by
  refine inv.moves moves ?_ ?_ ended linked
  · intro other found
    rw [running] at found
    cases found
    exact ⟨stage, leads, reached⟩
  · intro resting
    rw [running] at resting
    cases resting

theorem moves_put (sys : System α) (d : Nat) (client : Client α) :
    Moves sys d (sys.put d client) where
  others _ other := Function.update_of_ne other _ _
  locks _ _ := Iff.rfl
  stored := .inl rfl
  commits := List.Subset.refl _

@[simp] theorem put_clients (sys : System α) (d : Nat) (client : Client α) :
    (sys.put d client).clients d = client := Function.update_self ..

theorem moves_finish (sys : System α) (d : Nat) (save : Save α) (outcome : Except Fault Unit) :
    Moves sys d (sys.finish d save outcome) where
  others c other := Function.update_of_ne other _ _
  locks c other := by
    simp only [System.finish]
    split
    · rename_i held
      rw [held]
      simp [Ne.symm other]
    · rfl
  stored := .inl rfl
  commits := List.Subset.refl _

theorem inv_finish (inv : Inv initial sys) (outcome : Except Fault Unit)
    (listed : save.wrote ⊆ sys.commits)
    (faithful : Faithful ⟨d, save.base, (sys.clients d).object, save.wrote, outcome⟩) :
    Inv initial (sys.finish d save outcome) := by
  refine inv.moves (moves_finish sys d save outcome) ?_ ?_ ?_ inv.linked
  · intro other running
    simp [System.finish] at running
  · intro _ held
    simp only [System.finish] at held
    split at held
    · cases held
    · contradiction
  · intro e member
    rcases List.mem_cons.mp member with rfl | before
    · exact ⟨faithful, listed⟩
    · exact inv.ended e before

theorem inv_raise (inv : Inv initial sys) (reached : Reached sys d save stage)
    (early : stage.hasCommitted = false) (fault : Fault) :
    Inv initial (sys.finish d save (.error fault)) := by
  have wrote : save.wrote = [] := by
    have here := reached.wrote
    rwa [early] at here
  have kept : (sys.clients d).object = save.base := by
    have unassigned : stage.hasAssigned = false := by
      cases stage <;> simp_all [Stage.hasCommitted, Stage.hasAssigned]
    rw [reached.object, unassigned]
    rfl
  exact inv_finish inv _ reached.listed ⟨wrote, kept⟩

theorem inv_return (inv : Inv initial sys) (reached : Reached sys d save .done) :
    Inv initial (sys.finish d save (.ok ())) :=
  inv_finish inv _ reached.listed ⟨reached.wrote, reached.object⟩

theorem inv_pass (inv : Inv initial sys) (leads : stage.leads save.rest = true)
    (reached : Reached sys d save stage) :
    Inv initial (sys.put d ⟨(sys.clients d).object, some save⟩) := by
  refine inv.next (moves_put sys d _) (by simp) leads ?_ inv.ended inv.linked
  exact ⟨reached.held, by simpa using reached.object, reached.found, reached.current,
    reached.wrote, reached.listed⟩

variable {b : Backend α} {finite : α → Bool} {access : Access} {next : Stage}

theorem inv_check (inv : Inv initial sys) (early : stage.hasCommitted = false)
    (leads : stage.leads save.rest = true) (reached : Reached sys d save stage) :
    Inv initial (if finite (sys.clients d).object.payload then
      sys.put d ⟨(sys.clients d).object, some save⟩
      else sys.finish d save (.error invalidJson)) := by
  split
  · exact inv_pass inv leads reached
  · exact inv_raise inv reached early _

theorem inv_lock (inv : Inv initial sys) (free : sys.lock = none)
    (leads : Stage.locked.leads save.rest = true) (reached : Reached sys d save .start) :
    Inv initial { sys.put d ⟨(sys.clients d).object, some save⟩ with lock := some d } := by
  have moves : Moves sys d
      { sys.put d ⟨(sys.clients d).object, some save⟩ with lock := some d } :=
    ⟨(moves_put sys d _).others, fun c other => by simp [free, Ne.symm other], .inl rfl,
      List.Subset.refl _⟩
  refine inv.next moves (by simp) leads ?_ inv.ended inv.linked
  exact ⟨by simp [Stage.holds], by simpa [Stage.hasAssigned] using reached.object,
    by simp [Stage.hasCompared], by simp, reached.wrote, reached.listed⟩

theorem inv_compare (sound : b.Sound) (inv : Inv initial sys)
    (leads : Stage.compared.leads save.rest = true) (reached : Reached sys d save .locked)
    (agrees : b.conflict (sys.clients d).object sys.stored = none) :
    Inv initial (sys.put d ⟨(sys.clients d).object,
      some { save with found := revisionOf sys.stored }⟩) := by
  have object : (sys.clients d).object = save.base := reached.object
  have current : revisionOf sys.stored = save.base.revision := by
    rw [sound.conflict _ _ agrees, object]
  have running := congrArg Client.save (put_clients sys d
    ⟨(sys.clients d).object, some { save with found := revisionOf sys.stored }⟩)
  refine inv.next (moves_put sys d _) running leads ?_ inv.ended inv.linked
  exact ⟨reached.held, by simpa [Stage.hasAssigned] using object, fun _ => current,
    fun _ => current, reached.wrote, reached.listed⟩

theorem inv_commit (inv : Inv initial sys) (leads : Stage.committed.leads save.rest = true)
    (reached : Reached sys d save .compared) :
    Inv initial { sys.put d ⟨(sys.clients d).object, some { save with
        wrote :=
          (sys.stored, ⟨save.found + 1, (sys.clients d).object.payload⟩) :: save.wrote }⟩ with
      stored := some ⟨save.found + 1, (sys.clients d).object.payload⟩
      commits := (sys.stored, ⟨save.found + 1, (sys.clients d).object.payload⟩) ::
        sys.commits } := by
  have own : sys.lock = some d := reached.held.mpr rfl
  have found : save.found = save.base.revision := reached.found rfl
  have current : revisionOf sys.stored = save.base.revision := reached.current rfl
  have object : (sys.clients d).object = save.base := reached.object
  have empty : save.wrote = [] := reached.wrote
  have record : (⟨save.found + 1, (sys.clients d).object.payload⟩ : Versioned α) =
      save.base.next := by
    rw [found, object]
    rfl
  rw [record, empty]
  have moves : Moves sys d { sys.put d ⟨(sys.clients d).object,
      some { save with wrote := [(sys.stored, save.base.next)] }⟩ with
        stored := some save.base.next
        commits := (sys.stored, save.base.next) :: sys.commits } :=
    ⟨(moves_put sys d _).others, fun _ _ => Iff.rfl, .inr own, List.subset_cons_self _ _⟩
  have running := congrArg Client.save (put_clients sys d
    ⟨(sys.clients d).object, some { save with wrote := [(sys.stored, save.base.next)] }⟩)
  refine inv.next moves running leads ?_ ?_ ?_
  · exact ⟨reached.held, by simpa [Stage.hasAssigned] using object, fun _ => found, by simp,
      ⟨sys.stored, rfl, current⟩, by simp⟩
  · intro e member
    obtain ⟨faithful, listed⟩ := inv.ended e member
    exact ⟨faithful, fun w inside => List.mem_cons_of_mem _ (listed inside)⟩
  · refine ⟨rfl, ?_, inv.linked⟩
    rw [current]
    rfl

theorem inv_assign (inv : Inv initial sys) (leads : next.leads save.rest = true)
    (reached : Reached sys d save stage)
    (moved : stage = .committed ∧ next = .assigned ∨ stage = .released ∧ next = .done) :
    Inv initial
      (sys.put d ⟨{ (sys.clients d).object with revision := save.found + 1 }, some save⟩) := by
  have found : save.found = save.base.revision :=
    reached.found (by rcases moved with ⟨rfl, -⟩ | ⟨rfl, -⟩ <;> rfl)
  have object : (sys.clients d).object = save.base := by
    rcases moved with ⟨rfl, -⟩ | ⟨rfl, -⟩ <;> exact reached.object
  refine inv.next (moves_put sys d _) (by simp) leads ?_ inv.ended inv.linked
  rcases moved with ⟨rfl, rfl⟩ | ⟨rfl, rfl⟩
  · exact ⟨reached.held, by simp [Stage.hasAssigned, Versioned.next, object, found],
      fun _ => found, by simp, reached.wrote, reached.listed⟩
  · exact ⟨reached.held, by simp [Stage.hasAssigned, Versioned.next, object, found],
      fun _ => found, by simp, reached.wrote, reached.listed⟩

theorem inv_unlock (inv : Inv initial sys) (leads : next.leads save.rest = true)
    (reached : Reached sys d save stage)
    (moved : stage = .committed ∧ next = .released ∨ stage = .assigned ∧ next = .done) :
    Inv initial { sys.put d ⟨(sys.clients d).object, some save⟩ with
      lock := if sys.lock = some d then none else sys.lock } := by
  have own : sys.lock = some d :=
    reached.held.mpr (by rcases moved with ⟨rfl, -⟩ | ⟨rfl, -⟩ <;> rfl)
  rw [if_pos own]
  have moves : Moves sys d { sys.put d ⟨(sys.clients d).object, some save⟩ with lock := none } :=
    ⟨(moves_put sys d _).others, fun c other => by simp [own, Ne.symm other], .inl rfl,
      List.Subset.refl _⟩
  refine inv.next moves (by simp) leads ?_ inv.ended inv.linked
  rcases moved with ⟨rfl, rfl⟩ | ⟨rfl, rfl⟩
  · exact ⟨by simp [Stage.holds], by simpa [Stage.hasAssigned] using reached.object, reached.found,
      by simp, reached.wrote, reached.listed⟩
  · exact ⟨by simp [Stage.holds], by simpa [Stage.hasAssigned] using reached.object, reached.found,
      by simp, reached.wrote, reached.listed⟩

theorem inv_perform (sound : b.Sound) (inv : Inv initial sys)
    (moved : stage.after access = some next) (leads : next.leads save.rest = true)
    (reached : Reached sys d save stage) :
    Inv initial (sys.perform b finite d save access) := by
  cases access with
  | validate =>
    obtain ⟨early, rfl⟩ : stage.hasCommitted = false ∧ stage = next := by
      simpa [Stage.after] using moved
    exact inv_check inv early leads reached
  | render =>
    obtain ⟨early, rfl⟩ : stage.hasCommitted = false ∧ stage = next := by
      simpa [Stage.after] using moved
    exact inv_check inv early leads reached
  | call name =>
    have same : stage = next := by simpa [Stage.after] using moved
    subst same
    exact inv_pass inv leads reached
  | lock =>
    obtain ⟨rfl, rfl⟩ : stage = .start ∧ .locked = next := by simpa [Stage.after] using moved
    simp only [System.perform]
    split
    · rename_i free
      exact inv_lock inv free leads reached
    · exact inv
  | compare =>
    obtain ⟨rfl, rfl⟩ : stage = .locked ∧ .compared = next := by simpa [Stage.after] using moved
    simp only [System.perform]
    split
    · exact inv_raise inv reached rfl _
    · rename_i agrees
      exact inv_compare sound inv leads reached agrees
  | commit =>
    obtain ⟨rfl, rfl⟩ : stage = .compared ∧ .committed = next := by
      simpa [Stage.after] using moved
    exact inv_commit inv leads reached
  | assign =>
    refine inv_assign inv leads reached ?_
    simp only [Stage.after] at moved
    split at moved
    · exact .inl ⟨‹_›, (Option.some.inj moved).symm⟩
    · split at moved
      · exact .inr ⟨‹_›, (Option.some.inj moved).symm⟩
      · cases moved
  | unlock =>
    refine inv_unlock inv leads reached ?_
    simp only [Stage.after] at moved
    split at moved
    · exact .inl ⟨‹_›, (Option.some.inj moved).symm⟩
    · split at moved
      · exact .inr ⟨‹_›, (Option.some.inj moved).symm⟩
      · cases moved

def Allowed (sys : System α) : Event α → Prop
  | .access c (some _) => ∀ save, (sys.clients c).save = some save → save.wrote = []
  | _ => True

theorem hasCommitted_of_wrote (reached : Reached sys d save stage) (empty : save.wrote = []) :
    stage.hasCommitted = false := by
  by_contra committed
  have wrote := reached.wrote
  rw [if_pos (by simpa using committed), empty] at wrote
  obtain ⟨before, impossible, -⟩ := wrote
  cases impossible

theorem inv_modify (inv : Inv initial sys) (resting : (sys.clients d).save = none)
    (object : Versioned α) : Inv initial (sys.put d ⟨object, none⟩) := by
  refine inv.moves (moves_put sys d _) ?_ (fun _ => inv.idle resting) inv.ended inv.linked
  intro save running
  simp at running

theorem inv_begin (sound : b.Sound) (inv : Inv initial sys)
    (resting : (sys.clients d).save = none) :
    Inv initial (sys.put d ⟨(sys.clients d).object,
      some ⟨(sys.clients d).object, b.program, 0, []⟩⟩) := by
  have running := congrArg Client.save (put_clients sys d
    ⟨(sys.clients d).object, some ⟨(sys.clients d).object, b.program, 0, []⟩⟩)
  refine inv.next (moves_put sys d _) running sound.leads ?_ inv.ended inv.linked
  have free : sys.lock ≠ some d := inv.idle resting
  exact ⟨by simpa [System.put, Stage.holds] using free, by simp [Stage.hasAssigned],
    by simp [Stage.hasCompared], by simp, rfl, by simp⟩

theorem inv_access (sound : b.Sound) (inv : Inv initial sys) {fault : Option Fault}
    (allowed : Allowed sys (.access d fault)) :
    Inv initial (sys.step b finite (.access d fault)) := by
  simp only [System.step]
  split
  · exact inv
  · rename_i save running
    obtain ⟨stage, leads, reached⟩ := inv.busy running
    split
    · rename_i finished
      have done : stage = .done := by simpa [finished, Stage.leads] using leads
      subst done
      exact inv_return inv reached
    · rename_i rest next
      rw [next] at leads
      obtain ⟨after, moved, leads⟩ := Stage.leads_cons leads
      have reached : Reached sys d { save with rest := rest } stage :=
        ⟨reached.held, reached.object, reached.found, reached.current, reached.wrote,
          reached.listed⟩
      exact inv_perform sound inv moved leads reached
    · exact inv_raise inv reached (hasCommitted_of_wrote reached (allowed save running)) _
    · rename_i access rest _ next
      rw [next] at leads
      obtain ⟨after, moved, leads⟩ := Stage.leads_cons leads
      have reached : Reached sys d { save with rest := rest } stage :=
        ⟨reached.held, reached.object, reached.found, reached.current, reached.wrote,
          reached.listed⟩
      exact inv_perform sound inv moved leads reached

theorem inv_step (sound : b.Sound) (inv : Inv initial sys) {event : Event α}
    (allowed : Allowed sys event) : Inv initial (sys.step b finite event) := by
  cases event with
  | load c =>
    simp only [System.step]
    split
    · rename_i resting stored
      exact inv_modify inv resting _
    · exact inv
  | modify c object =>
    simp only [System.step]
    split
    · rename_i resting
      exact inv_modify inv resting object
    · exact inv
  | save c =>
    simp only [System.step]
    split
    · rename_i resting
      exact inv_begin sound inv resting
    · exact inv
  | access c fault => exact inv_access sound inv allowed

end Steps

def AllAllowed (b : Backend α) (finite : α → Bool) (sys : System α) : List (Event α) → Prop
  | [] => True
  | event :: rest => Allowed sys event ∧ AllAllowed b finite (sys.step b finite event) rest

theorem inv_run {b : Backend α} {finite : α → Bool} {initial : Option (Versioned α)}
    {sys : System α} (sound : b.Sound) (inv : Inv initial sys) (events : List (Event α))
    (allowed : AllAllowed b finite sys events) : Inv initial (sys.run b finite events) := by
  induction events generalizing sys with
  | nil => exact inv
  | cons event rest ih => exact ih (inv_step sound inv allowed.1) allowed.2

theorem inv_start (stored : Option (Versioned α)) (objects : Nat → Versioned α) :
    Inv stored (System.start stored objects) where
  busy running := by simp [System.start] at running
  idle _ := by simp [System.start]
  ended := by simp [System.start]
  linked := rfl

inductive Kind where
  | file
  | sqlite

def backend (kind : Kind) (id : String) : Backend α :=
  match kind with
  | .file => fileStore id
  | .sqlite => sqliteStore id

theorem backend_sound (kind : Kind) (id : String) : (backend kind id : Backend α).Sound := by
  cases kind with
  | file => exact fileStore_sound id
  | sqlite => exact sqliteStore_sound id

/-- In every interleaving in which no access fails after a commit, a save that returns has
replaced its revision by the next, one that raises has changed nothing, and the commits follow
one another. -/
theorem saves_linearizable (kind : Kind) (id : String) (finite : α → Bool)
    (stored : Option (Versioned α)) (objects : Nat → Versioned α) (events : List (Event α))
    (allowed : AllAllowed (backend kind id) finite (System.start stored objects) events) :
    let sys := (System.start stored objects).run (backend kind id) finite events
    (∀ e ∈ sys.ended, Faithful e ∧ e.wrote ⊆ sys.commits) ∧
      Linked stored sys.commits sys.stored := by
  have inv := inv_run (backend_sound kind id) (inv_start stored objects) events allowed
  exact ⟨inv.ended, inv.linked⟩

def Event.isCalm : Event α → Bool
  | .access _ (some _) => false
  | _ => true

theorem allAllowed_of_isCalm {b : Backend α} {finite : α → Bool} {sys : System α}
    {events : List (Event α)} (calm : events.all Event.isCalm = true) :
    AllAllowed b finite sys events := by
  induction events generalizing sys with
  | nil => trivial
  | cons event rest ih =>
    rw [List.all_cons, Bool.and_eq_true] at calm
    refine ⟨?_, ih calm.2⟩
    cases event with
    | access c fault =>
      cases fault with
      | none => trivial
      | some fault => simp [Event.isCalm] at calm
    | _ => trivial

def saveEvents (c accesses : Nat) : List (Event α) :=
  .save c :: List.replicate accesses (.access c none)

def freshObjects (c : Nat) : Versioned Nat := ⟨0, c⟩

/-- Two clients save the first revision; the second finds that of the first. -/
theorem secondSave_conflicts :
    let sys := (System.start none freshObjects).run (backend .file "op") (fun _ => true)
      (saveEvents 0 17 ++ saveEvents 1 6)
    (∀ e ∈ sys.ended, Faithful e ∧ e.wrote ⊆ sys.commits) ∧
      sys.ended.map (fun e => (e.client, e.outcome.isOk)) = [(1, false), (0, true)] ∧
      sys.stored = some ⟨1, 0⟩ :=
  ⟨(saves_linearizable .file "op" (fun _ => true) none freshObjects
      (saveEvents 0 17 ++ saveEvents 1 6) (allAllowed_of_isCalm (by decide))).1,
    by decide +kernel, by decide +kernel⟩

def accessFault : Fault := .exception "OSError"

/-- The mode cannot be set after the commit: the save raises and the record is stored. -/
theorem lateFailure_keeps_record :
    let file := (System.start none freshObjects).run (backend .file "op") (fun _ => true)
      (saveEvents 0 11 ++ [.access 0 (some accessFault)])
    let sqlite := (System.start none freshObjects).run (backend .sqlite "op") (fun _ => true)
      (saveEvents 0 14 ++ [.access 0 (some accessFault)])
    (file.ended.map (fun e => (e.outcome.isOk, e.final.revision)) = [(false, 0)] ∧
        file.stored = some ⟨1, 0⟩) ∧
      sqlite.ended.map (fun e => (e.outcome.isOk, e.final.revision)) = [(false, 0)] ∧
        sqlite.stored = some ⟨1, 0⟩ := by
  decide +kernel

def versioned (op : Operation) : Versioned Operation := ⟨op.revision, { op with revision := 0 }⟩

theorem fileStore_alone (id : String) (stored : Option (Versioned α)) (object : Versioned α) :
    let sys := (System.start stored fun _ => object).run (fileStore id) (fun _ => true)
      (saveEvents 0 17)
    match (fileStore id).conflict object stored with
    | some fault => sys.stored = stored ∧ sys.ended = [⟨0, object, object, [], .error fault⟩]
    | none => sys.stored = some object.next ∧
      sys.ended = [⟨0, object, object.next, [(stored, object.next)], .ok ()⟩] := by
  have agrees := (fileStore_sound id : (fileStore id : Backend α).Sound).conflict object stored
  have program : (fileStore id : Backend α).program = (fileStore "" : Backend α).program := rfl
  generalize (fileStore id : Backend α) = b at agrees program ⊢
  dsimp only
  cases found : b.conflict object stored with
  | some fault =>
    simp [System.run, saveEvents, System.step, System.start, System.put, System.perform,
      System.finish, program, fileStore, found]
  | none =>
    simp [System.run, saveEvents, System.step, System.start, System.put, System.perform,
      System.finish, program, fileStore, found, agrees found, Versioned.next]

theorem versioned_next (op : Operation) :
    (versioned op).next = versioned { op with revision := op.revision + 1 } := rfl

/-- What the runtime root takes as one atomic write is such a save. -/
theorem saveOperation_alone (w : World) (op : Operation) :
    let sys := (System.start ((w.operations.get op.id).map versioned) fun _ => versioned op).run
      (fileStore op.id) (fun _ => true) (saveEvents 0 17)
    sys.stored = ((w.saveOperation op).2.operations.get op.id).map versioned ∧
      sys.ended.map (·.outcome) = [(w.saveOperation op).1.map fun _ => ()] := by
  have alone := fileStore_alone op.id ((w.operations.get op.id).map versioned) (versioned op)
  have revision : ∀ other : Operation, (versioned other).revision = other.revision := fun _ => rfl
  dsimp only at alone ⊢
  unfold World.saveOperation
  cases found : w.operations.get op.id with
  | some current =>
    rw [found, Option.map_some] at alone
    by_cases same : current.revision = op.revision
    · have agrees :
          (fileStore op.id).conflict (versioned op) (some (versioned current)) = none := by
        simp [fileStore, revision, same]
      rw [agrees] at alone
      rw [Option.map_some, alone.1, alone.2]
      simp [same, versioned_next, Except.map]
    · have differs : (fileStore op.id).conflict (versioned op) (some (versioned current)) =
          some (World.staleRevision op current.revision) := by
        simp [fileStore, revision, same]
        rfl
      rw [differs] at alone
      rw [Option.map_some, alone.1, alone.2]
      simp [same, found, Except.map]
  | none =>
    rw [found, Option.map_none] at alone
    by_cases fresh : op.revision = 0
    · have agrees : (fileStore op.id).conflict (versioned op) none = none := by
        simp [fileStore, revision, fresh]
      rw [agrees] at alone
      rw [Option.map_none, alone.1, alone.2]
      simp [fresh, versioned_next, Except.map]
    · have differs : (fileStore op.id).conflict (versioned op) none =
          some (World.vanished op) := by
        simp [fileStore, revision, fresh]
        rfl
      rw [differs] at alone
      rw [Option.map_none, alone.1, alone.2]
      simp [fresh, found, Except.map]

end RExecOp.OperationStore
