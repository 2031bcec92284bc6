import RExecOp.Operation
import RExecOp.RunNowQueue

/-! The runtime root (`storage/file_store.py`) and the records kept beside it. Every function
here is one atomic read or write. -/

namespace RExecOp

open Attempts (Attempt)
open Lease (Instant LeaseFiles LeaseRecord Credential)
open RunNowQueue (Queue)

def Dict.fileOrder {α : Type} (d : Dict String α) (suffix : String) : List String :=
  d.keys.insertionSort fun a b => a ++ suffix ≤ b ++ suffix

theorem Dict.mem_fileOrder {α : Type} (d : Dict String α) (suffix key : String) :
    key ∈ d.fileOrder suffix ↔ ∃ a, d.get key = some a := by
  rw [Dict.fileOrder, List.mem_insertionSort, Dict.mem_keys_iff]

theorem Dict.fileOrder_nodup {α : Type} (d : Dict String α) (suffix : String) :
    (d.fileOrder suffix).Nodup :=
  (List.perm_insertionSort _ d.keys).nodup_iff.mpr d.keys_nodup

theorem Dict.mem_filterMap_fileOrder {α : Type} (d : Dict String α) (suffix : String) (a : α) :
    a ∈ (d.fileOrder suffix).filterMap d.get ↔ ∃ key, d.get key = some a := by
  simp only [List.mem_filterMap, Dict.mem_fileOrder]
  constructor
  · rintro ⟨key, -, found⟩
    exact ⟨key, found⟩
  · rintro ⟨key, found⟩
    exact ⟨key, ⟨a, found⟩, found⟩

structure LockRecord where
  operationId : String
  environment : String
  target : String
  deriving DecidableEq, Repr

structure World where
  operations : Dict String Operation
  plans : Dict String OperationPlan
  approvals : List String
  attempts : Dict String (Dict String Attempt)
  locks : Dict String LockRecord
  queue : Queue
  lease : LeaseFiles
  /-- By operation, the record that its receipt was last exported from. -/
  receipts : Dict String Operation
  /-- Connector invocations made so far, newest first. -/
  dispatched : List (String × String)

namespace World

def empty : World := ⟨∅, ∅, [], ∅, ∅, .empty, .empty, ∅, []⟩

variable (w : World)

def loadOperation (id : String) : Except Fault Operation :=
  match w.operations.get id with
  | some op => .ok op
  | none => .error (.invalid ("operation not found: " ++ id))

def listOperations : List Operation :=
  (w.operations.fileOrder ".json").filterMap w.operations.get

def loadPlan (id : String) : Except Fault OperationPlan :=
  match w.plans.get id with
  | some plan => .ok plan
  | none => .error (.invalid ("operation plan not found: " ++ id))

theorem loadOperation_ok {w : World} {id : String} {op : Operation}
    (loaded : w.loadOperation id = .ok op) : w.operations.get id = some op := by
  unfold loadOperation at loaded
  split at loaded
  · cases loaded
    assumption
  · cases loaded

theorem loadPlan_ok {w : World} {id : String} {plan : OperationPlan}
    (loaded : w.loadPlan id = .ok plan) : w.plans.get id = some plan := by
  unfold loadPlan at loaded
  split at loaded
  · cases loaded
    assumption
  · cases loaded

def staleRevision (op : Operation) (found : Nat) : Fault :=
  .conflict ("concurrency_conflict: operation " ++ op.id ++ " expected revision " ++
    toString op.revision ++ ", found " ++ toString found)

def vanished (op : Operation) : Fault :=
  .conflict ("concurrency_conflict: operation " ++ op.id ++ " no longer exists")

/-- Compare-and-swap on the revision. -/
def saveOperation (op : Operation) : Except Fault Operation × World :=
  let stored := { op with revision := op.revision + 1 }
  match w.operations.get op.id with
  | some current =>
    if current.revision ≠ op.revision then (.error (staleRevision op current.revision), w)
    else (.ok stored, { w with operations := w.operations.set op.id stored })
  | none =>
    if op.revision ≠ 0 then (.error (vanished op), w)
    else (.ok stored, { w with operations := w.operations.set op.id stored })

def isProjectionPending (op : Operation) : Bool :=
  match op.projection with
  | some marker => !marker.projected
  | none => false

def listPendingProjectionOperations : List Operation :=
  w.listOperations.filter isProjectionPending

def needsReceipt (op : Operation) : Bool :=
  op.state.isTerminalReceipt && (w.receipts.get op.id).isNone && op.recoveryBlocker.isNone

def countActiveOperations (exclude : String) : Nat :=
  w.listOperations.countP fun op => !(exclude != "" && op.id == exclude) && op.state.isActive

def attemptsOf (id : String) : Dict String Attempt := (w.attempts.get id).getD ∅

def attempt (operationId attemptId : String) : Option Attempt :=
  (w.attemptsOf operationId).get attemptId

def putAttempt (record : Attempt) : World :=
  { w with
    attempts := w.attempts.set record.operationId
      ((w.attemptsOf record.operationId).set record.attemptId record) }

def listExecutionAttempts (id : String) : List Attempt :=
  ((w.attemptsOf id).fileOrder ".json").filterMap (w.attemptsOf id).get

def allAttempts : List Attempt :=
  w.attempts.sortedKeys.flatMap w.listExecutionAttempts

def isIndeterminateSideEffect (record : Attempt) : Bool :=
  record.status == .indeterminate && record.sideEffectful

def hasIndeterminateSideEffect (id : String) : Bool :=
  (w.listExecutionAttempts id).any isIndeterminateSideEffect

def refinish (operationId attemptId : String) (finish : Attempt → Except Fault Attempt) :
    Except Fault Attempt × World :=
  match w.attempt operationId attemptId with
  | none => (.error (.exception "attempt file missing"), w)
  | some current => match finish current with
    | .error fault => (.error fault, w)
    | .ok finished => (.ok finished, w.putAttempt finished)

def lost (record : Attempt) (now : Instant) : Attempt :=
  { record with
    status := .indeterminate
    finishedAt := some now
    errorClass := "outcome_indeterminate" }

def isLockStale (record : LockRecord) : Bool :=
  record.operationId == "" ||
    match w.operations.get record.operationId with
    | some op => !op.state.holdsLock
    | none => true

def fileSafe (s : String) : String :=
  String.ofList (s.toList.map fun c => if c = '/' then '_' else c)

def lockFilename (environment target : String) : String :=
  fileSafe environment ++ "__" ++ fileSafe target ++ ".lock"

def readLock (environment target : String) : Option LockRecord :=
  w.locks.get (lockFilename environment target)

def acquireLock (environment target operationId : String) : Bool × World :=
  let taken := { w with
    locks := w.locks.set (lockFilename environment target) ⟨operationId, environment, target⟩ }
  match w.readLock environment target with
  | some existing =>
    if w.isLockStale existing then (true, taken) else (existing.operationId == operationId, w)
  | none => (true, taken)

def releaseLock (environment target operationId : String) : World :=
  match w.readLock environment target with
  | some existing =>
    if existing.operationId == "" || existing.operationId == operationId then
      { w with locks := w.locks.remove (lockFilename environment target) }
    else w
  | none => w

def attemptFacts (record : Attempt) : RunNowQueue.AttemptFacts :=
  ⟨record.schema, record.attemptId, record.operationId, some record.status⟩

def queueClaimFacts (id : String) : RunNowQueue.Loaded :=
  match w.operations.get id with
  | some op => .loaded (some op.state) ((w.listExecutionAttempts id).map attemptFacts)
  | none => .raised

end World

theorem attempt_putAttempt (w : World) (record : Attempt) (id attemptId : String) :
    (w.putAttempt record).attempt id attemptId =
      if id = record.operationId ∧ attemptId = record.attemptId then some record
      else w.attempt id attemptId := by
  unfold World.attempt World.attemptsOf World.putAttempt
  dsimp only
  by_cases same : id = record.operationId
  · subst same
    rw [Dict.get_set_self, Option.getD_some, Dict.get_set]
    by_cases key : attemptId = record.attemptId
    · rw [if_pos key, if_pos ⟨rfl, key⟩]
    · rw [if_neg key, if_neg fun both => key both.2]
      rfl
  · rw [Dict.get_set_ne _ _ same, if_neg fun both => same both.1]

end RExecOp
