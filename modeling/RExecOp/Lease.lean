import RExecOp.Errors
import RExecOp.Value

/-! The fenced worker lease (`runtime_ops/lease.py`), and any number of workers on its two
files, one access at a time. Instants are in microseconds. -/

namespace RExecOp.Lease

variable {Worker : Type} {worker : Worker}

abbrev Instant := Int

def workerLeaseSchema : String := "rexecop.worker_lease.v0.2"

structure LeaseRecord where
  schema : String
  workerId : String
  processInstanceId : String
  leaseEpoch : Int
  ownerToken : String
  acquiredAt : Instant
  heartbeatAt : Instant
  expiresAt : Option Instant
  monotonicSeconds : Int
  deriving DecidableEq, Repr

structure LeaseFiles where
  epoch : Option Int
  lease : Option LeaseRecord
  deriving DecidableEq, Repr

variable {now : Instant} {record : LeaseRecord} {files : LeaseFiles}

def LeaseFiles.empty : LeaseFiles := ⟨none, none⟩

structure AcquireRequest where
  workerId : String
  processInstanceId : Option String
  now : Instant
  maxAge : Int
  freshProcessId : String
  freshToken : String
  monotonic : Int

/-- The fields that are read of a presented lease. -/
structure Credential where
  ownerToken : String
  leaseEpoch : Int
  processInstanceId : String
  deriving DecidableEq, Repr

def LeaseRecord.credential (record : LeaseRecord) : Credential :=
  ⟨record.ownerToken, record.leaseEpoch, record.processInstanceId⟩

def isStale (record : LeaseRecord) (now : Instant) : Bool :=
  record.schema != workerLeaseSchema ||
    match record.expiresAt with
    | none => true
    | some expiry => decide (expiry ≤ now)

def previousEpoch (files : LeaseFiles) : Int :=
  max (files.epoch.getD 0) ((files.lease.map (·.leaseEpoch)).getD 0)

def grant (files : LeaseFiles) (request : AcquireRequest) : LeaseRecord where
  schema := workerLeaseSchema
  workerId := request.workerId
  processInstanceId := match request.processInstanceId with
    | some id => if id = "" then request.freshProcessId else id
    | none => request.freshProcessId
  leaseEpoch := previousEpoch files + 1
  ownerToken := request.freshToken
  acquiredAt := request.now
  heartbeatAt := request.now
  expiresAt := some (request.now + request.maxAge)
  monotonicSeconds := request.monotonic

/-- Everything `acquire` decides before its first write. -/
def acquire (files : LeaseFiles) (request : AcquireRequest) : Except Fault LeaseRecord :=
  if strip request.workerId = "" then .error (.invalid "worker_id must not be empty")
  else match files.lease with
    | some existing =>
      if isStale existing request.now then .ok (grant files request)
      else .error (.leaseLost ("worker lease held by '" ++ existing.workerId ++ "'"))
    | none => .ok (grant files request)

def requireOwner (files : LeaseFiles) (credential : Credential) : Except Fault LeaseRecord :=
  match files.lease with
  | none => .error (.leaseLost "worker lease ownership conflict")
  | some existing =>
    if existing.ownerToken ≠ credential.ownerToken ∨
        existing.leaseEpoch ≠ credential.leaseEpoch ∨
        existing.processInstanceId ≠ credential.processInstanceId then
      .error (.leaseLost "worker lease ownership conflict")
    else .ok existing

def renewed (existing : LeaseRecord) (now : Instant) (monotonic maxAge : Int) :
    Except Fault LeaseRecord :=
  if monotonic < existing.monotonicSeconds then
    .error (.invalid "worker lease monotonic clock moved backwards")
  else .ok { existing with
    heartbeatAt := now
    expiresAt := some (now + maxAge)
    monotonicSeconds := monotonic }

/-- `validate`, and the check `guard` makes on entry. -/
def validate (files : LeaseFiles) (credential : Credential) (now : Instant) :
    Except Fault Unit :=
  match requireOwner files credential with
  | .error fault => .error fault
  | .ok existing =>
    if isStale existing now then .error (.leaseLost "execution lease expired") else .ok ()

theorem requireOwner_ok {credential : Credential}
    (owned : requireOwner files credential = .ok record) :
    files.lease = some record ∧ record.credential = credential := by
  unfold requireOwner at owned
  split at owned
  · simp at owned
  · rename_i existing present
    split at owned
    · simp at owned
    · rename_i same
      push Not at same
      cases owned
      exact ⟨present, by rw [LeaseRecord.credential, same.1, same.2.1, same.2.2]⟩

theorem validate_ok {credential : Credential} (valid : validate files credential now = .ok ()) :
    ∃ record, files.lease = some record ∧ record.credential = credential := by
  unfold validate at valid
  split at valid
  · simp at valid
  · rename_i record owned
    exact ⟨record, requireOwner_ok owned⟩

theorem acquire_ok {request : AcquireRequest} (granted : acquire files request = .ok record) :
    record = grant files request := by
  unfold acquire at granted
  split at granted
  · simp at granted
  · split at granted
    · split at granted
      · cases granted; rfl
      · simp at granted
    · cases granted; rfl

theorem renewed_ok {existing record : LeaseRecord} {monotonic maxAge : Int}
    (kept : renewed existing now monotonic maxAge = .ok record) :
    record.credential = existing.credential := by
  unfold renewed at kept
  split at kept
  · simp at kept
  · cases kept; rfl

inductive Call where
  | acquire (request : AcquireRequest)
  | renew (credential : Credential) (now : Instant) (monotonic maxAge : Int)
  | release (credential : Credential)
  | validate (credential : Credential) (now : Instant)
  | enterGuard (credential : Credential) (now : Instant)
  | clearIfStale (now : Instant)

inductive Pc where
  | enter (call : Call)
  | writeEpoch (record : LeaseRecord)
  | writeLease (record : LeaseRecord)
  | rewriteLease (record : LeaseRecord)
  | unlinkOwned (credential : Credential)
  | unlinkStale
  | guarding (credential : Credential)
  | leave

inductive Use where
  | renewed
  | released
  | validated
  | guarded
  deriving DecidableEq

inductive Entry where
  | acquired (record : LeaseRecord)
  | used (use : Use) (credential : Credential)

variable {pc : Pc} {use : Use} {log : List Entry} {h : Option (Worker × Pc)}

structure LeaseSystem (Worker : Type) where
  files : LeaseFiles
  holder : Option (Worker × Pc)
  log : List Entry

def LeaseSystem.init {Worker : Type} : LeaseSystem Worker := ⟨.empty, none, []⟩

def advance (files : LeaseFiles) (log : List Entry) : Pc → LeaseFiles × List Entry × Pc
  | .enter (.acquire request) => match acquire files request with
    | .ok record => (files, log, .writeEpoch record)
    | .error _ => (files, log, .leave)
  | .writeEpoch record => ({ files with epoch := some record.leaseEpoch }, log, .writeLease record)
  | .writeLease record =>
    ({ files with lease := some record }, .acquired record :: log, .leave)
  | .enter (.renew credential now monotonic maxAge) => match requireOwner files credential with
    | .ok existing => match renewed existing now monotonic maxAge with
      | .ok record => (files, log, .rewriteLease record)
      | .error _ => (files, log, .leave)
    | .error _ => (files, log, .leave)
  | .rewriteLease record =>
    ({ files with lease := some record }, .used .renewed record.credential :: log, .leave)
  | .enter (.release credential) => match requireOwner files credential with
    | .ok _ => (files, log, .unlinkOwned credential)
    | .error _ => (files, log, .leave)
  | .unlinkOwned credential =>
    ({ files with lease := none }, .used .released credential :: log, .leave)
  | .enter (.validate credential now) => match validate files credential now with
    | .ok _ => (files, .used .validated credential :: log, .leave)
    | .error _ => (files, log, .leave)
  | .enter (.enterGuard credential now) => match validate files credential now with
    | .ok _ => (files, .used .guarded credential :: log, .guarding credential)
    | .error _ => (files, log, .leave)
  | .guarding _ => (files, log, .leave)
  | .enter (.clearIfStale now) => match files.lease with
    | some existing =>
      if isStale existing now then (files, log, .unlinkStale) else (files, log, .leave)
    | none => (files, log, .leave)
  | .unlinkStale => ({ files with lease := none }, log, .leave)
  | .leave => (files, log, .leave)

inductive Event (Worker : Type) where
  | lock (worker : Worker) (call : Call)
  | access
  | crash

/-- A worker waits while another one holds the lock. -/
def step {Worker : Type} (s : LeaseSystem Worker) : Event Worker → LeaseSystem Worker
  | .lock worker call => match s.holder with
    | none => { s with holder := some (worker, .enter call) }
    | some _ => s
  | .access => match s.holder with
    | none => s
    | some (_, .leave) => { s with holder := none }
    | some (worker, pc) =>
      ⟨(advance s.files s.log pc).1, some (worker, (advance s.files s.log pc).2.2),
        (advance s.files s.log pc).2.1⟩
  | .crash => { s with holder := none }

def run {Worker : Type} (events : List (Event Worker)) : LeaseSystem Worker :=
  events.foldl step .init

def LeaseFiles.leaseEpoch (files : LeaseFiles) : Option Int := files.lease.map (·.leaseEpoch)

def GrantedUpTo (log : List Entry) (bound : Int) : Prop :=
  ∀ record, .acquired record ∈ log → record.leaseEpoch ≤ bound

/-- A new grant has a larger epoch, and an accepted lease at least that epoch. -/
def Fenced : Entry → Entry → Prop
  | .acquired later, .acquired earlier => earlier.leaseEpoch < later.leaseEpoch
  | .used _ credential, .acquired earlier => earlier.leaseEpoch ≤ credential.leaseEpoch
  | _, .used _ _ => True

def PcInv (files : LeaseFiles) (log : List Entry) : Pc → Prop
  | .writeEpoch record =>
    files.epoch.getD 0 < record.leaseEpoch ∧ ∀ e, files.leaseEpoch = some e → e < record.leaseEpoch
  | .writeLease record =>
    files.epoch = some record.leaseEpoch ∧
      ∀ earlier, .acquired earlier ∈ log → earlier.leaseEpoch < record.leaseEpoch
  | .rewriteLease record => files.leaseEpoch = some record.leaseEpoch
  | .unlinkOwned credential => files.leaseEpoch = some credential.leaseEpoch
  | _ => True

structure Inv {Worker : Type} (s : LeaseSystem Worker) : Prop where
  granted : GrantedUpTo s.log (s.files.epoch.getD 0)
  current : ∀ e, s.files.leaseEpoch = some e → GrantedUpTo s.log e ∧ e ≤ s.files.epoch.getD 0
  fenced : s.log.Pairwise Fenced
  holder : ∀ worker pc, s.holder = some (worker, pc) → PcInv s.files s.log pc

theorem inv_init : Inv (LeaseSystem.init : LeaseSystem Worker) where
  granted _ member := by cases member
  current e present := by cases present
  fenced := .nil
  holder _ _ held := by cases held

theorem fenced_used {credential : Credential} (bound : GrantedUpTo log credential.leaseEpoch) :
    ∀ entry ∈ log, Fenced (.used use credential) entry := by
  intro entry member
  cases entry with
  | acquired earlier => exact bound earlier member
  | used => trivial

theorem grantedUpTo_used {credential : Credential} {bound : Int} (upTo : GrantedUpTo log bound) :
    GrantedUpTo (.used use credential :: log) bound := by
  intro record member
  simp only [List.mem_cons, reduceCtorEq, false_or] at member
  exact upTo record member

theorem inv_use {credential : Credential} (inv : Inv ⟨files, h, log⟩)
    (present : files.leaseEpoch = some credential.leaseEpoch)
    (pcInv : PcInv files (.used use credential :: log) pc) :
    Inv ⟨files, some (worker, pc), .used use credential :: log⟩ where
  granted := grantedUpTo_used inv.granted
  current e stored := ⟨grantedUpTo_used (inv.current e stored).1, (inv.current e stored).2⟩
  fenced := List.pairwise_cons.mpr
    ⟨fenced_used (inv.current _ present).1, inv.fenced⟩
  holder _ _ held := by cases held; exact pcInv

theorem inv_pc (inv : Inv ⟨files, h, log⟩) (pcInv : PcInv files log pc) :
    Inv ⟨files, some (worker, pc), log⟩ where
  granted := inv.granted
  current := inv.current
  fenced := inv.fenced
  holder _ _ held := by cases held; exact pcInv

theorem inv_unlock (inv : Inv ⟨files, h, log⟩) : Inv (⟨files, none, log⟩ : LeaseSystem Worker) where
  granted := inv.granted
  current := inv.current
  fenced := inv.fenced
  holder _ _ held := by cases held

theorem validate_leaseEpoch {credential : Credential}
    (valid : validate files credential now = .ok ()) :
    files.leaseEpoch = some credential.leaseEpoch := by
  obtain ⟨record, present, same⟩ := validate_ok valid
  simp [LeaseFiles.leaseEpoch, present, ← same, LeaseRecord.credential]

theorem requireOwner_leaseEpoch {credential : Credential}
    (owned : requireOwner files credential = .ok record) :
    files.leaseEpoch = some credential.leaseEpoch ∧
      files.leaseEpoch = some record.leaseEpoch := by
  obtain ⟨present, same⟩ := requireOwner_ok owned
  simp [LeaseFiles.leaseEpoch, present, ← same, LeaseRecord.credential]

theorem grant_exceeds (files : LeaseFiles) (request : AcquireRequest) :
    files.epoch.getD 0 < (grant files request).leaseEpoch ∧
      ∀ e, files.leaseEpoch = some e → e < (grant files request).leaseEpoch := by
  simp only [grant, previousEpoch, LeaseFiles.leaseEpoch]
  refine ⟨by omega, fun e present => ?_⟩
  rw [present]
  simp only [Option.getD_some]
  omega

theorem inv_advance (inv : Inv ⟨files, some (worker, pc), log⟩) :
    Inv (⟨(advance files log pc).1, some (worker, (advance files log pc).2.2),
      (advance files log pc).2.1⟩ : LeaseSystem Worker) := by
  have here := inv.holder worker pc rfl
  cases pc with
  | enter call =>
    cases call with
    | acquire request =>
      simp only [advance]
      split
      · rename_i record granted
        have exceeds := grant_exceeds files request
        rw [← acquire_ok granted] at exceeds
        exact inv_pc inv exceeds
      · exact inv_pc inv trivial
    | renew credential now monotonic maxAge =>
      simp only [advance]
      split
      · rename_i existing owned
        split
        · rename_i record kept
          have same := congrArg Credential.leaseEpoch (renewed_ok kept)
          exact inv_pc inv ((requireOwner_leaseEpoch owned).2.trans (congrArg some same.symm))
        · exact inv_pc inv trivial
      · exact inv_pc inv trivial
    | release credential =>
      simp only [advance]
      split
      · rename_i owned
        exact inv_pc inv (requireOwner_leaseEpoch owned).1
      · exact inv_pc inv trivial
    | validate credential now =>
      simp only [advance]
      split
      · rename_i valid
        exact inv_use inv (validate_leaseEpoch valid) trivial
      · exact inv_pc inv trivial
    | enterGuard credential now =>
      simp only [advance]
      split
      · rename_i valid
        exact inv_use inv (validate_leaseEpoch valid) trivial
      · exact inv_pc inv trivial
    | clearIfStale now =>
      simp only [advance]
      split
      · split <;> exact inv_pc inv trivial
      · exact inv_pc inv trivial
  | writeEpoch record =>
    obtain ⟨above, overLease⟩ := here
    have below : ∀ earlier, .acquired earlier ∈ log → earlier.leaseEpoch < record.leaseEpoch :=
      fun earlier member => Int.lt_of_le_of_lt (inv.granted earlier member) above
    exact
      { granted := fun earlier member => Int.le_of_lt (below earlier member)
        current := fun e present => ⟨(inv.current e present).1, Int.le_of_lt (overLease e present)⟩
        fenced := inv.fenced
        holder := fun _ _ held => by cases held; exact ⟨rfl, below⟩ }
  | writeLease record =>
    obtain ⟨persisted, below⟩ := here
    simp only at persisted below
    have upTo : GrantedUpTo (.acquired record :: log) record.leaseEpoch := by
      intro earlier member
      rcases List.mem_cons.mp member with same | member
      · cases same; exact Int.le_refl _
      · exact Int.le_of_lt (below earlier member)
    exact
      { granted := by simpa only [persisted, advance, Option.getD_some] using upTo
        current := fun e present => by
          simp only [advance, LeaseFiles.leaseEpoch, Option.map_some, Option.some.injEq] at present
          subst present
          exact ⟨upTo, by simp [advance, persisted]⟩
        fenced := List.pairwise_cons.mpr ⟨fun entry member => by
          cases entry with
          | acquired earlier => exact below earlier member
          | used => trivial, inv.fenced⟩
        holder := fun _ _ held => by cases held; trivial }
  | rewriteLease record =>
    have sameEpoch : ({ files with lease := some record } : LeaseFiles).leaseEpoch =
        files.leaseEpoch := here.symm
    exact inv_use (h := some (worker, .leave))
      { granted := inv.granted
        current := fun e present => inv.current e (sameEpoch ▸ present)
        fenced := inv.fenced
        holder := fun _ _ held => by cases held; trivial } rfl trivial
  | unlinkOwned credential =>
    exact
      { granted := grantedUpTo_used inv.granted
        current := fun e present => by cases present
        fenced := List.pairwise_cons.mpr ⟨fenced_used (inv.current _ here).1, inv.fenced⟩
        holder := fun _ _ held => by cases held; trivial }
  | unlinkStale =>
    exact
      { granted := inv.granted
        current := fun e present => by cases present
        fenced := inv.fenced
        holder := fun _ _ held => by cases held; trivial }
  | guarding => exact inv_pc inv trivial
  | leave => exact inv_pc inv trivial

theorem inv_step {s : LeaseSystem Worker} (inv : Inv s) (event : Event Worker) :
    Inv (step s event) := by
  obtain ⟨files, holder, log⟩ := s
  cases event with
  | lock worker call =>
    cases holder with
    | none => exact inv_pc inv trivial
    | some held => exact inv
  | access =>
    cases holder with
    | none => exact inv
    | some held =>
      obtain ⟨worker, pc⟩ := held
      cases pc with
      | leave => exact inv_unlock inv
      | _ => exact inv_advance inv
  | crash => exact inv_unlock inv

theorem inv_foldl (events : List (Event Worker)) {s : LeaseSystem Worker} (inv : Inv s) :
    Inv (events.foldl step s) := by
  induction events generalizing s with
  | nil => exact inv
  | cons event events ih => exact ih (inv_step inv event)

/-- In every interleaving a later grant has a larger epoch, and no call with a smaller one
succeeds after it. -/
theorem acquired_epoch_fences {Worker : Type} (events : List (Event Worker))
    (newer older : List Entry) (record : LeaseRecord)
    (logged : (run events).log = newer ++ .acquired record :: older) :
    (∀ later, .acquired later ∈ newer → record.leaseEpoch < later.leaseEpoch) ∧
      ∀ use credential, credential.leaseEpoch < record.leaseEpoch →
        .used use credential ∉ newer := by
  have fenced : (run events).log.Pairwise Fenced := (inv_foldl events inv_init).fenced
  rw [logged, List.pairwise_append] at fenced
  obtain ⟨-, -, across⟩ := fenced
  refine ⟨fun later member => across _ member _ List.mem_cons_self, ?_⟩
  intro use credential behind member
  have bound : record.leaseEpoch ≤ credential.leaseEpoch :=
    across _ member _ List.mem_cons_self
  omega

def request (worker token : String) (now : Instant) : AcquireRequest :=
  ⟨worker, none, now, 120, worker ++ "-process", token, now⟩

/-- The second worker dies between its two writes and acquires in its next life. -/
def handover : List (Event Bool) :=
  [.lock false (.acquire (request "a" "t1" 0)), .access, .access, .access, .access,
    .lock true (.acquire (request "b" "t2" 200)), .access, .access, .crash,
    .lock true (.acquire (request "b" "t3" 300)), .access, .access, .access]

def firstGrant : LeaseRecord := grant .empty (request "a" "t1" 0)

def thirdGrant : LeaseRecord := grant ⟨some 2, some firstGrant⟩ (request "b" "t3" 300)

theorem handover_epoch_fences :
    (run handover).log = [.acquired thirdGrant] ++ .acquired firstGrant :: [] ∧
      firstGrant.leaseEpoch < thirdGrant.leaseEpoch ∧
      ∀ use credential, credential.leaseEpoch < firstGrant.leaseEpoch →
        .used use credential ∉ [Entry.acquired thirdGrant] := by
  have fences := acquired_epoch_fences handover [.acquired thirdGrant] [] firstGrant rfl
  exact ⟨rfl, fences.1 thirdGrant List.mem_cons_self, fences.2⟩

end RExecOp.Lease
