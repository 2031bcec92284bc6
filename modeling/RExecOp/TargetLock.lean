import RExecOp.Store
import RExecOp.Value

/-! Target locks as files (`runtime_ops/target_lock.py`). A lock directory may hold anything
under a lock's name. -/

namespace RExecOp.TargetLock

open World (lockFilename)

inductive LockFile where
  | directory
  | unparsable
  | json (value : Value)

abbrev LockDir := Dict String LockFile

abbrev Loader := String → Except Fault (Option OperationState)

section Calls

variable (text : Value → String)

def str : Value → String
  | .str s => s
  | value => text value

def operationIdOf (record : Entries) : String :=
  let id := Value.get record "operation_id"
  if id.truthy then str text id else ""

def decodeFault : Fault := .exception "JSONDecodeError"

def writeFault : Fault := .exception "IsADirectoryError"

def read (dir : LockDir) (environment target : String) : Except Fault (Option Entries) :=
  match dir.get (lockFilename environment target) with
  | none => .ok none
  | some .directory => .ok none
  | some .unparsable => .error decodeFault
  | some (.json (.dict record)) => .ok (some record)
  | some (.json _) => .ok none

def holderOperationId (dir : LockDir) (environment target : String) :
    Except Fault (Option String) :=
  match read dir environment target with
  | .error fault => .error fault
  | .ok none => .ok none
  | .ok (some record) =>
    let id := operationIdOf text record
    .ok (if id = "" then none else some id)

def isStale (load : Loader) (record : Entries) : Except Fault Bool :=
  let id := operationIdOf text record
  if id = "" then .ok true
  else match load id with
    | .ok (some state) => .ok (!state.holdsLock)
    | .ok none => .ok true
    | .error fault => if fault.isValidation then .ok true else .error fault

def lockRecord (environment target operationId acquiredAt : String) : Entries :=
  [("acquired_at", .str acquiredAt), ("environment", .str environment),
    ("operation_id", .str operationId), ("target", .str target)]

/-- `atomic_write_text`: a file cannot replace a directory. -/
def write (dir : LockDir) (file : String) (record : Entries) : Except Fault Bool × LockDir :=
  match dir.get file with
  | some .directory => (.error writeFault, dir)
  | _ => (.ok true, dir.set file (.json (.dict record)))

def acquire (load : Loader) (acquiredAt : String) (dir : LockDir)
    (environment target operationId : String) : Except Fault Bool × LockDir :=
  let taken := write dir (lockFilename environment target)
    (lockRecord environment target operationId acquiredAt)
  match read dir environment target with
  | .error fault => (.error fault, dir)
  | .ok none => taken
  | .ok (some existing) =>
    -- an empty mapping is falsy, as if there were no record
    if existing.isEmpty then taken
    else match isStale text load existing with
      | .error fault => (.error fault, dir)
      | .ok true => taken
      | .ok false => (.ok (str text (Value.get existing "operation_id") == operationId), dir)

def release (dir : LockDir) (environment target operationId : String) :
    Except Fault Unit × LockDir :=
  match read dir environment target with
  | .error fault => (.error fault, dir)
  | .ok none => (.ok (), dir)
  | .ok (some existing) =>
    if existing.isEmpty then (.ok (), dir)
    else if operationIdOf text existing ≠ "" ∧ operationIdOf text existing ≠ operationId then
      (.ok (), dir)
    else (.ok (), dir.remove (lockFilename environment target))

end Calls

inductive Action where
  | acquire (load : Loader) (acquiredAt operationId : String)
  | release (operationId : String)
  | read
  | holder

inductive Reply where
  | acquired (result : Except Fault Bool)
  | released (result : Except Fault Unit)
  | record (result : Except Fault (Option Entries))
  | holder (result : Except Fault (Option String))

abbrev Place := String × String

def Place.file (place : Place) : String := lockFilename place.1 place.2

structure Call where
  place : Place
  action : Action

section Run

variable (text : Value → String)

def Call.perform (call : Call) (dir : LockDir) : Reply × LockDir :=
  let ⟨environment, target⟩ := call.place
  match call.action with
  | .acquire load acquiredAt operationId =>
    let (result, after) :=
      TargetLock.acquire text load acquiredAt dir environment target operationId
    (.acquired result, after)
  | .release operationId =>
    let (result, after) := TargetLock.release text dir environment target operationId
    (.released result, after)
  | .read => (.record (TargetLock.read dir environment target), dir)
  | .holder => (.holder (holderOperationId text dir environment target), dir)

def repliesAt (place : Place) : LockDir → List Call → List Reply
  | _, [] => []
  | dir, call :: rest =>
    let (reply, after) := call.perform text dir
    if call.place = place then reply :: repliesAt place after rest
    else repliesAt place after rest

/-- Leaving out the calls for `first` changes no reply to one for `second`. -/
def Independent (first second : Place) : Prop :=
  ∀ (dir : LockDir) (calls : List Call),
    repliesAt text second dir calls =
      repliesAt text second dir (calls.filter fun call => call.place ≠ first)

end Run

section Footprint

variable {text : Value → String} {dir other : LockDir} {call : Call} {file : String}

theorem write_get_ne {record : Entries} {at_ : String} (apart : file ≠ at_) :
    (write dir at_ record).2.get file = dir.get file := by
  unfold write
  split
  · rfl
  · exact Dict.get_set_ne _ _ apart

theorem perform_get_ne (apart : file ≠ call.place.file) :
    (call.perform text dir).2.get file = dir.get file := by
  obtain ⟨⟨environment, target⟩, action⟩ := call
  have apart : file ≠ lockFilename environment target := apart
  cases action with
  | acquire load acquiredAt operationId =>
    simp only [Call.perform, acquire]
    split
    · rfl
    · exact write_get_ne apart
    · split
      · exact write_get_ne apart
      · split
        · rfl
        · exact write_get_ne apart
        · rfl
  | release operationId =>
    simp only [Call.perform, release]
    split
    · rfl
    · rfl
    · split
      · rfl
      · split
        · rfl
        · exact Dict.get_remove_ne _ apart
  | read => rfl
  | holder => rfl

theorem read_congr {environment target : String}
    (same : dir.get (lockFilename environment target) =
      other.get (lockFilename environment target)) :
    read dir environment target = read other environment target := by
  rw [read, read, same]

theorem write_congr {record : Entries} (same : dir.get file = other.get file) :
    (write dir file record).1 = (write other file record).1 ∧
      (write dir file record).2.get file = (write other file record).2.get file := by
  unfold write
  rw [same]
  split
  · exact ⟨rfl, same⟩
  · rw [Dict.get_set_self, Dict.get_set_self]
    exact ⟨rfl, rfl⟩

theorem perform_congr (same : dir.get call.place.file = other.get call.place.file) :
    (call.perform text dir).1 = (call.perform text other).1 ∧
      (call.perform text dir).2.get call.place.file =
        (call.perform text other).2.get call.place.file := by
  obtain ⟨⟨environment, target⟩, action⟩ := call
  have same : dir.get (lockFilename environment target) =
    other.get (lockFilename environment target) := same
  cases action with
  | acquire load acquiredAt operationId =>
    have written := @write_congr dir other (lockFilename environment target)
      (lockRecord environment target operationId acquiredAt) same
    have taken := And.intro (congrArg Reply.acquired written.1) written.2
    simp only [Call.perform, acquire, read_congr same]
    split
    · exact ⟨rfl, same⟩
    · exact taken
    · split
      · exact taken
      · split
        · exact ⟨rfl, same⟩
        · exact taken
        · exact ⟨rfl, same⟩
  | release operationId =>
    simp only [Call.perform, release, read_congr same]
    split
    · exact ⟨rfl, same⟩
    · exact ⟨rfl, same⟩
    · split
      · exact ⟨rfl, same⟩
      · split
        · exact ⟨rfl, same⟩
        · refine ⟨rfl, ?_⟩
          rw [Place.file, Dict.get_remove_self, Dict.get_remove_self]
  | read =>
    simp only [Call.perform, read_congr same]
    exact ⟨trivial, same⟩
  | holder =>
    simp only [Call.perform, holderOperationId, read_congr same]
    exact ⟨trivial, same⟩

theorem repliesAt_filter {first second : Place} (apart : first.file ≠ second.file)
    (calls : List Call) (same : dir.get second.file = other.get second.file) :
    repliesAt text second dir calls =
      repliesAt text second other (calls.filter fun call => call.place ≠ first) := by
  induction calls generalizing dir other with
  | nil => rfl
  | cons call rest ih =>
    by_cases left : call.place = first
    · have elsewhere : call.place ≠ second := fun here => apart (by rw [← left, here])
      have kept : (call.perform text dir).2.get second.file = other.get second.file := by
        rw [perform_get_ne (by rw [left]; exact apart.symm), same]
      rw [List.filter_cons_of_neg (by simpa using left), repliesAt]
      dsimp only
      rw [if_neg elsewhere]
      exact ih kept
    · rw [List.filter_cons_of_pos (by simpa using left), repliesAt, repliesAt]
      dsimp only
      by_cases shared : call.place.file = second.file
      · obtain ⟨reply, after⟩ := @perform_congr text dir other call (by rw [shared]; exact same)
        rw [shared] at after
        rw [reply, ih after]
      · have elsewhere : call.place ≠ second := fun here => shared (by rw [here])
        rw [if_neg elsewhere, if_neg elsewhere]
        apply ih
        rw [perform_get_ne (Ne.symm shared), perform_get_ne (Ne.symm shared), same]

end Footprint

def sharedCalls (first second : Place) : List Call :=
  [⟨first, .acquire (fun _ => .ok none) "" "op"⟩, ⟨second, .read⟩]

theorem repliesAt_sharedCalls {text : Value → String} {first second : Place}
    (differ : first ≠ second) (shared : first.file = second.file) :
    repliesAt text second ∅ (sharedCalls first second) =
      [.record (.ok (some (lockRecord first.1 first.2 "op" "")))] := by
  obtain ⟨environment, target⟩ := first
  have shared : lockFilename environment target = lockFilename second.1 second.2 := shared
  simp [sharedCalls, repliesAt, Call.perform, acquire, read, write, differ, shared]

theorem not_independent_of_shared {text : Value → String} {first second : Place}
    (differ : first ≠ second) (shared : first.file = second.file) :
    ¬Independent text first second := by
  intro independent
  have replies := independent ∅ (sharedCalls first second)
  have left : (sharedCalls first second).filter (fun call => call.place ≠ first) =
      [⟨second, .read⟩] := by
    simp [sharedCalls, Ne.symm differ]
  rw [repliesAt_sharedCalls differ shared, left] at replies
  simp [repliesAt, Call.perform, read] at replies

/-- Calls for one target never change a reply to a call for another, exactly if the two have
different file names. -/
theorem independent_iff (text : Value → String) (first second : Place) (differ : first ≠ second) :
    Independent text first second ↔ first.file ≠ second.file := by
  constructor
  · intro independent shared
    exact not_independent_of_shared differ shared independent
  · intro apart dir calls
    exact repliesAt_filter apart calls rfl

theorem twoHosts_independent :
    (("lab", "a") : Place) ≠ ("lab", "b") ∧ Independent (fun _ => "") ("lab", "a") ("lab", "b") :=
  ⟨by decide, (independent_iff _ _ _ (by decide)).mpr (by decide)⟩

/-- A holder of `a/b` keeps `a_b` locked. -/
theorem slash_shares_lock :
    let running : Loader := fun _ => .ok (some .running)
    let taken := (acquire (fun _ => "") running "" ∅ "lab" "a/b" "op-1").2
    (acquire (fun _ => "") running "" taken "lab" "a_b" "op-2").1 = .ok false ∧
      (acquire (fun _ => "") running "" ∅ "lab" "a_b" "op-2").1 = .ok true ∧
      ¬Independent (fun _ => "") ("lab", "a/b") ("lab", "a_b") ∧
      ¬Independent (fun _ => "") ("lab__a", "b") ("lab", "a__b") :=
  ⟨by decide +kernel, by decide +kernel, not_independent_of_shared (by decide) (by decide),
    not_independent_of_shared (by decide) (by decide)⟩

inductive Keeps : Option LockRecord → Option LockFile → Prop
  | free : Keeps none none
  | held (record : LockRecord) (acquiredAt : String) : Keeps (some record)
      (some (.json (.dict
        (lockRecord record.environment record.target record.operationId acquiredAt))))

def Represents (dir : LockDir) (w : World) : Prop :=
  ∀ file, Keeps (w.locks.get file) (dir.get file)

def loaderOf (w : World) : Loader := fun id =>
  match w.loadOperation id with
  | .ok op => .ok (some op.state)
  | .error fault => .error fault

section Root

variable {text : Value → String} {dir : LockDir} {w : World}

theorem operationIdOf_lockRecord (environment target operationId acquiredAt : String) :
    operationIdOf text (lockRecord environment target operationId acquiredAt) = operationId := by
  have id : Value.get (lockRecord environment target operationId acquiredAt) "operation_id" =
      .str operationId := rfl
  rw [operationIdOf, id]
  by_cases blank : operationId = ""
  · simp [Value.truthy, blank]
  · simp [Value.truthy, str, blank]

theorem isStale_lockRecord (held : LockRecord) (acquiredAt : String) :
    isStale text (loaderOf w)
      (lockRecord held.environment held.target held.operationId acquiredAt) =
      .ok (w.isLockStale held) := by
  unfold isStale World.isLockStale
  rw [operationIdOf_lockRecord]
  dsimp only
  split
  · rename_i blank
    simp [blank]
  · rename_i named
    cases found : w.operations.get held.operationId with
    | none => simp [loaderOf, World.loadOperation, found, Fault.isValidation, Fault.invalid]
    | some op => simp [loaderOf, World.loadOperation, found, named]

theorem represents_set (represents : Represents dir w) (held : LockRecord)
    (file acquiredAt : String) :
    Represents (dir.set file
        (.json (.dict (lockRecord held.environment held.target held.operationId acquiredAt))))
      { w with locks := w.locks.set file held } := by
  intro name
  have here := represents name
  dsimp only
  rw [Dict.get_set, Dict.get_set]
  by_cases same : name = file
  · rw [if_pos same, if_pos same]
    exact .held held acquiredAt
  · rw [if_neg same, if_neg same]
    exact here

theorem represents_remove (represents : Represents dir w) (file : String) :
    Represents (dir.remove file) { w with locks := w.locks.remove file } := by
  intro name
  have here := represents name
  dsimp only
  rw [Dict.get_remove, Dict.get_remove]
  by_cases same : name = file
  · rw [if_pos same, if_pos same]
    exact .free
  · rw [if_neg same, if_neg same]
    exact here

theorem acquire_represents (represents : Represents dir w)
    (acquiredAt environment target operationId : String) :
    let result := acquire text (loaderOf w) acquiredAt dir environment target operationId
    let root := w.acquireLock environment target operationId
    result.1 = .ok root.1 ∧ Represents result.2 root.2 := by
  have here := represents (lockFilename environment target)
  have taken := represents_set represents ⟨operationId, environment, target⟩
    (lockFilename environment target) acquiredAt
  unfold acquire read write World.acquireLock World.readLock
  generalize w.locks.get (lockFilename environment target) = lock at here ⊢
  generalize dir.get (lockFilename environment target) = entry at here ⊢
  cases here with
  | free => exact ⟨rfl, taken⟩
  | held record time =>
    dsimp only
    rw [isStale_lockRecord]
    cases w.isLockStale record with
    | true => exact ⟨rfl, taken⟩
    | false => exact ⟨rfl, represents⟩

theorem release_represents (represents : Represents dir w)
    (environment target operationId : String) :
    let result := release text dir environment target operationId
    result.1 = .ok () ∧ Represents result.2 (w.releaseLock environment target operationId) := by
  have here := represents (lockFilename environment target)
  have gone := represents_remove represents (lockFilename environment target)
  unfold release read World.releaseLock World.readLock
  generalize w.locks.get (lockFilename environment target) = lock at here ⊢
  generalize dir.get (lockFilename environment target) = entry at here ⊢
  cases here with
  | free => exact ⟨rfl, represents⟩
  | held record time =>
    dsimp only
    rw [operationIdOf_lockRecord]
    by_cases other : record.operationId ≠ "" ∧ record.operationId ≠ operationId
    · have kept : (record.operationId == "" || record.operationId == operationId) = false := by
        simpa using other
      rw [if_pos other, kept]
      exact ⟨rfl, represents⟩
    · have own : (record.operationId == "" || record.operationId == operationId) = true := by
        simpa [or_iff_not_imp_left] using other
      rw [if_neg other, own]
      exact ⟨rfl, gone⟩

end Root

end RExecOp.TargetLock
