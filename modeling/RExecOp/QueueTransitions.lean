import Mathlib.Algebra.Order.BigOperators.Group.List
import RExecOp.QueueFailsClosed

/-! The transition records in the queue file: over runs from a missing file the checks of the
loader never refuse what an earlier call wrote. -/

namespace RExecOp.QueueFile

open Lease (Instant Credential)
open Assoc (assign lookup_assign mem_assign)
open RunNowQueue (Ttl ValidLease boundedInteger maxTransitionAttemptCount maxTransitionEpoch
  validBoundedIdentity transitionSchema boundedInteger_iff)

theorem get_assign_ne (entries : Entries) {key other : String} (value : Json)
    (different : other ≠ key) : Json.get
      (assign key value entries) other = Json.get entries other := by
  rw [Json.get, lookup_assign, if_neg different, ← Json.get]

theorem hasKeys_of_keys {entries : Entries} {names : List String}
    (keys : entries.map Prod.fst = names) : hasKeys entries names = true := by
  subst keys
  rw [hasKeys, Bool.and_eq_true, List.all_eq_true, List.all_eq_true]
  constructor
  · intro name inside
    rw [Option.isSome_iff_ne_none, Ne, List.lookup_eq_none_iff]
    obtain ⟨entry, member, rfl⟩ := List.mem_map.mp inside
    intro absent
    simpa using absent entry member
  · intro entry inside
    simpa using ⟨entry.2, inside⟩

/-- What `isoformat` writes, `fromisoformat` reads back. -/
structure Language.Dated (language : Language) : Prop where
  text : ∀ time, time.aware = true → language.isoformat time ≠ ""
  short : ∀ time, time.aware = true → (language.isoformat time).length ≤ 64
  offset : ∀ time, time.aware = true → (language.isoformat time).toList.getLast? ≠ some 'Z'
  reads : ∀ time, time.aware = true →
    ∃ parsed, language.fromIso (language.isoformat time) = some parsed ∧ parsed.aware = true

def sumOfCounts (counts : Entries) : Int :=
  (counts.map fun count => match count.2 with
    | .int n => n
    | _ => 0).sum

section Language

variable (language : Language)

def ownerOf (claim : Entries) : String := strOrEmpty language (Json.get claim "owner_token")

/-- A record that passes the loader's check and names no owner token. -/
structure Written (lease : Credential) (owner : String) (record : Json) : Prop where
  accepted : validTransitionRecord language record = .ok true
  counted : ∃ fields counts, record = .dict fields ∧
    Json.get fields "attempt_status_counts" = .dict counts ∧
    Json.get fields "attempt_count" = .int (sumOfCounts counts)
  redacted : ∃ fields prior current, record = .dict fields ∧
    Json.get fields "prior_process_instance_id" = .str prior ∧
    Json.get fields "current_process_instance_id" = .str current ∧
    prior ∉ [owner, lease.ownerToken] ∧ current ∉ [owner, lease.ownerToken]

theorem validTransitionTimestamp_isoformat {language : Language} (dated : language.Dated)
    {time : Moment} (aware : time.aware = true) :
    validTransitionTimestamp language (language.isoformat time) = true := by
  obtain ⟨parsed, read, zoned⟩ := dated.reads time aware
  have unchanged : withoutZ (language.isoformat time) = language.isoformat time := by
    unfold withoutZ
    split
    · rename_i last
      exact absurd last (dated.offset time aware)
    · rfl
  simp [validTransitionTimestamp, unchanged, read, zoned, dated.text time aware,
    dated.short time aware]

theorem statusCounts_keys (attempts : List Entries) (statuses : List String) (remaining : Nat) :
    (statusCounts attempts statuses remaining).map Prod.fst = statuses := by
  induction statuses generalizing remaining with
  | nil => rfl
  | cons status rest ih => simp [statusCounts, ih]

theorem statusCounts_sum_le (attempts : List Entries) (statuses : List String)
    (remaining : Nat) :
    ((statusCounts attempts statuses remaining).map Prod.snd).sum ≤ remaining := by
  induction statuses generalizing remaining with
  | nil => simp [statusCounts]
  | cons status rest ih =>
    simp only [statusCounts, List.map_cons, List.sum_cons]
    have here := Nat.min_le_right
      (attempts.countP fun attempt => isText (Json.get attempt "status") status) remaining
    generalize min _ remaining = count at here ⊢
    have later := ih (remaining - count)
    omega

theorem sumOfCounts_map (counts : List (String × Nat)) :
    sumOfCounts (counts.map fun count => (count.1, .int count.2)) =
      ((counts.map Prod.snd).sum : Nat) := by
  induction counts with
  | nil => rfl
  | cons count rest ih =>
    have step : sumOfCounts ((count :: rest).map fun count => (count.1, .int count.2)) =
        count.2 + sumOfCounts (rest.map fun count => (count.1, .int count.2)) := by
      simp [sumOfCounts]
    rw [step, ih, List.map_cons, List.sum_cons]
    push_cast
    rfl

theorem validStatusCounts_statusCounts (attempts : List Entries) :
    let counts := statusCounts attempts attemptStatuses maxTransitionAttemptCount
    validStatusCounts (.int ((counts.map Prod.snd).sum : Nat))
      (.dict (counts.map fun count => (count.1, .int count.2))) = true := by
  intro counts
  have total : (counts.map Prod.snd).sum ≤ maxTransitionAttemptCount :=
    statusCounts_sum_le attempts attemptStatuses maxTransitionAttemptCount
  have keys : (counts.map fun count => (count.1, Json.int count.2)).map Prod.fst =
      attemptStatuses := by
    rw [List.map_map]
    exact statusCounts_keys attempts attemptStatuses maxTransitionAttemptCount
  have bounded : ∀ count ∈ counts, count.2 ≤ maxTransitionAttemptCount := by
    intro count inside
    exact (List.single_le_sum (by simp) _ (List.mem_map_of_mem inside)).trans total
  simp only [validStatusCounts, hasKeys_of_keys keys, Bool.and_true, Bool.and_eq_true]
  refine ⟨⟨boundedInteger_iff.mpr ⟨by omega, by exact_mod_cast total⟩, ?_⟩, ?_⟩
  · rw [List.all_eq_true]
    intro entry inside
    obtain ⟨count, member, rfl⟩ := List.mem_map.mp inside
    exact boundedInteger_iff.mpr ⟨by omega, by exact_mod_cast bounded count member⟩
  · rw [beq_iff_eq]
    exact sumOfCounts_map counts

theorem projectProcessIdentity_not_mem (value prior current : String) :
    RunNowQueue.projectProcessIdentity value prior current ∉ [prior, current] := by
  unfold RunNowQueue.projectProcessIdentity
  dsimp only
  split
  · rename_i free
    simpa using free
  · obtain ⟨marker, _, found⟩ := RunNowQueue.redactionMarkers_find [prior, current] (by simp)
    rw [found, Option.getD_some]
    simpa using List.find?_some found

theorem and_of_true {x : Checked Bool} (holds : x = .ok true) (y : Checked Bool) :
    (x <&&> y) = y := by
  rw [holds]
  rfl

theorem identity_of_validClaimIdentity {claim : Entries} (valid : validClaimIdentity claim = true) :
    boundedInteger (boundedEpoch (Json.get claim "lease_epoch")) 1 maxTransitionEpoch = true ∧
      boundedInteger (boundedEpoch (Json.get claim "attempt")) 1 maxTransitionEpoch = true := by
  have bounded (value : Json) (inside : validBoundedInteger value 1 maxTransitionEpoch = true) :
      boundedInteger (boundedEpoch value) 1 maxTransitionEpoch = true := by
    cases value with
    | int n => exact RunNowQueue.boundedEpoch_bounded (boundedInteger_iff.mp inside)
    | _ => cases inside
  simp only [validClaimIdentity, Bool.and_eq_true] at valid
  obtain ⟨⟨⟨epoch, attempt⟩, _⟩, _⟩ := valid
  exact ⟨bounded _ epoch, bounded _ attempt⟩

theorem validTransitionRecord_of_texts {record : Entries}
    (keys : record.map Prod.fst = transitionFields)
    (schema : Json.get record "private_schema" = .str transitionSchema)
    {disposition reason state : String} (known : disposition ∈ transitionDispositions)
    (knownReason : reason ∈ transitionReasons) (knownState : state ∈ transitionOperationStates)
    (hasDisposition : Json.get record "disposition" = .str disposition)
    (hasReason : Json.get record "reason" = .str reason)
    (hasState : Json.get record "operation_state" = .str state) :
    validTransitionRecord language (.dict record) =
      .ok (validTransitionValues language record) := by
  have shape : (hasKeys record transitionFields &&
      isText (Json.get record "private_schema") transitionSchema) = true := by
    rw [hasKeys_of_keys keys, schema]
    rfl
  simp only [validTransitionRecord, shape, if_true, hasDisposition, hasReason, hasState]
  rw [and_of_true (isIn_ok_true.mpr ⟨disposition, known, rfl⟩),
    and_of_true (isIn_ok_true.mpr ⟨reason, knownReason, rfl⟩),
    and_of_true (isIn_ok_true.mpr ⟨state, knownState, rfl⟩)]
  rfl

theorem validTransitionValues_of_values {record : Entries} {count statusCounts : Json}
    {attempt prior current : Int} {priorProcess currentProcess recordedAt : String}
    (counts : validStatusCounts count statusCounts = true)
    (attemptBound : boundedInteger attempt 1 maxTransitionEpoch = true)
    (priorBound : boundedInteger prior 1 maxTransitionEpoch = true)
    (currentBound : boundedInteger current 1 maxTransitionEpoch = true)
    (priorText : validBoundedIdentity priorProcess = true)
    (currentText : validBoundedIdentity currentProcess = true)
    (timestamp : validTransitionTimestamp language recordedAt = true)
    (hasCount : Json.get record "attempt_count" = count)
    (hasCounts : Json.get record "attempt_status_counts" = statusCounts)
    (hasAttempt : Json.get record "claim_attempt" = .int attempt)
    (hasPrior : Json.get record "prior_lease_epoch" = .int prior)
    (hasCurrent : Json.get record "current_lease_epoch" = .int current)
    (hasPriorProcess : Json.get record "prior_process_instance_id" = .str priorProcess)
    (hasCurrentProcess : Json.get record "current_process_instance_id" = .str currentProcess)
    (hasTime : Json.get record "recorded_at" = .str recordedAt) :
    validTransitionValues language record = true := by
  simp only [validTransitionValues, hasCount, hasCounts, counts, List.all_cons, List.all_nil,
    hasAttempt, hasPrior, hasCurrent, validBoundedInteger, attemptBound, priorBound, currentBound,
    hasPriorProcess, hasCurrentProcess, textOf, priorText, currentText, hasTime, timestamp,
    Bool.and_self]

theorem written_transitionRecord {language : Language} (dated : language.Dated) {scan : Scan}
    (lease : ValidLease scan.lease) (aware : scan.observedAt.aware = true) {claim : Entries}
    (valid : validClaimIdentity claim = true) {disposition reason state : String}
    (known : disposition ∈ transitionDispositions) (knownReason : reason ∈ transitionReasons)
    (knownState : state ∈ transitionOperationStates) (attempts : List Entries) :
    ∃ record, transitionRecord language scan claim disposition reason state attempts =
      .ok record ∧ Written language scan.lease (ownerOf language claim) record := by
  obtain ⟨epoch, attempt⟩ := identity_of_validClaimIdentity valid
  unfold transitionRecord
  simp only [projectProcessIdentity_eq]
  refine ⟨_, rfl, ?_, ⟨_, _, rfl, rfl, ?_⟩, ⟨_, _, _, rfl, rfl, rfl,
    projectProcessIdentity_not_mem _ _ _, projectProcessIdentity_not_mem _ _ _⟩⟩
  · rw [validTransitionRecord_of_texts language rfl rfl known knownReason knownState rfl rfl rfl]
    rw [validTransitionValues_of_values language (validStatusCounts_statusCounts attempts) attempt
      epoch (RunNowQueue.boundedEpoch_bounded lease.epoch)
      (RunNowQueue.validBoundedIdentity_project _ _ _)
      (RunNowQueue.validBoundedIdentity_project _ _ _)
      (validTransitionTimestamp_isoformat dated aware) rfl rfl rfl rfl rfl rfl rfl rfl]
  · rw [sumOfCounts_map]
    rfl

end Language

section Ends

variable {α β : Type}

/-- `P` of what the stage returns, `Q` of what it saved if it raises. -/
structure Ends (x : Checked α) (P : α → Prop) (Q : Data → Prop) : Prop where
  returns : ∀ a, x = .ok a → P a
  saves : ∀ raised saved, x = .error raised → raised.saved = some saved → Q saved

/-- The stage saves nothing before it raises. -/
def Quiet (x : Checked α) : Prop := ∀ raised, x = .error raised → raised.saved = none

@[simp] theorem quiet_ok (a : α) : Quiet (.ok a) := by
  intro raised same
  cases same

@[simp] theorem quiet_pure (a : α) : Quiet (pure a) := quiet_ok a

@[simp] theorem quiet_raise (fault : Fault) : Quiet (raise fault : Checked α) := by
  intro raised same
  cases same
  rfl

@[simp] theorem quiet_bind (x : Checked α) (f : α → Checked β) :
    Quiet (x >>= f) ↔ Quiet x ∧ ∀ a, x = .ok a → Quiet (f a) := by
  cases x with
  | error raised => simp [Quiet, bind, Except.bind]
  | ok a => simp [Quiet, bind, Except.bind]

@[simp] theorem quiet_map (x : Checked α) (f : α → β) : Quiet (f <$> x) ↔ Quiet x := by
  cases x with
  | error raised => simp [Quiet, Functor.map, Except.map]
  | ok a => simp [Quiet, Functor.map, Except.map]

variable {P : α → Prop} {P' : β → Prop} {Q : Data → Prop}

theorem ends_ok {a : α} (holds : P a) : Ends (.ok a) P Q where
  returns _ same := by
    cases same
    exact holds
  saves _ _ raised := by cases raised

theorem ends_error {raised : Raise} (holds : ∀ saved, raised.saved = some saved → Q saved) :
    Ends (.error raised : Checked α) P Q where
  returns _ returned := by cases returned
  saves _ saved same := by
    cases same
    exact holds saved

theorem ends_raise (fault : Fault) : Ends (raise fault : Checked α) P Q :=
  ends_error fun _ none => by cases none

theorem ends_bind {x : Checked α} {f : α → Checked β} (first : Ends x P Q)
    (next : ∀ a, P a → Ends (f a) P' Q) : Ends (x >>= f) P' Q := by
  cases x with
  | error raised => exact ends_error fun saved some => first.saves raised saved rfl some
  | ok a => exact next a (first.returns a rfl)

theorem ends_quiet {x : Checked α} {f : α → Checked β} (quiet : Quiet x)
    (next : ∀ a, x = .ok a → Ends (f a) P' Q) : Ends (x >>= f) P' Q := by
  cases x with
  | error raised => exact ends_error fun saved some => by cases (quiet raised rfl).symm.trans some
  | ok a => exact next a rfl

theorem Ends.mono {x : Checked α} {Q' : Data → Prop} {P' : α → Prop} (ends : Ends x P Q)
    (returns : ∀ a, P a → P' a) (saves : ∀ saved, Q saved → Q' saved) : Ends x P' Q' where
  returns a same := returns a (ends.returns a same)
  saves raised saved same some := saves saved (ends.saves raised saved same some)

end Ends

section Quiet

variable (language : Language)

@[simp] theorem quiet_ite (c : Prop) [Decidable c] (x y : Checked α) :
    Quiet (if c then x else y) ↔ (c → Quiet x) ∧ (¬c → Quiet y) := by
  split <;> simp [*]

@[simp] theorem quiet_isIn (value : Json) (names : List String) : Quiet (isIn value names) := by
  cases value <;> simp [isIn]

@[simp] theorem quiet_toInt (value : Json) : Quiet (toInt language value) := by
  fun_cases toInt language value <;> simp

@[simp] theorem quiet_parseTime (text : String) : Quiet (parseTime language text) := by
  fun_cases parseTime language text <;> simp

@[simp] theorem quiet_misplacedClaim (data : Data) (claims : Entries) :
    Quiet (misplacedClaim language data claims) := by
  fun_induction misplacedClaim language data claims <;> simp [*]

@[simp] theorem quiet_validateTopology (data : Data) : Quiet (validateTopology language data) := by
  simp [validateTopology]

@[simp] theorem quiet_requireTopology (data : Data) : Quiet (requireTopology language data) := by
  simp [requireTopology]

@[simp] theorem quiet_validateStrictMutationTopology (data : Data) :
    Quiet (validateStrictMutationTopology language data) := by
  simp [validateStrictMutationTopology]

@[simp] theorem quiet_refuseActiveClaims (data : Data) (ids : List String) :
    Quiet (refuseActiveClaims data ids) := by
  fun_induction refuseActiveClaims data ids <;> simp [*]

@[simp] theorem quiet_validatePublicMutation (data : Data) :
    Quiet (validatePublicMutation language data) := by
  simp [validatePublicMutation]

@[simp] theorem quiet_enterLeaseGuard (ctx : Context) (lease : Credential) (refused : Fault) :
    Quiet (enterLeaseGuard ctx lease refused) := by
  fun_cases enterLeaseGuard ctx lease refused <;> simp

@[simp] theorem quiet_claimExpiry (ttl : Ttl) (now : Instant) : Quiet (claimExpiry ttl now) := by
  intro raised same
  unfold claimExpiry at same
  cases checked : RunNowQueue.validatedClaimExpiry ttl now with
  | ok expiresAt => simp [checked, Except.mapError] at same
  | error fault =>
    simp only [checked, Except.mapError, Except.error.injEq] at same
    rw [← same]

@[simp] theorem quiet_malformedInventory (id : String) (seen : List String)
    (attempts : List Entries) : Quiet (malformedInventory language id seen attempts) := by
  fun_induction malformedInventory language id seen attempts <;> simp [*]

@[simp] theorem quiet_loadRecoveryFacts (ctx : Context) (id : String) :
    Quiet (loadRecoveryFacts language ctx id) := by
  fun_cases loadRecoveryFacts language ctx id <;> simp

@[simp] theorem quiet_anyUnfinished (attempts : List Entries) : Quiet (anyUnfinished attempts) := by
  fun_induction anyUnfinished attempts <;> simp [*]

@[simp] theorem quiet_anyUnfinishedItem (attempts : List Entries) :
    Quiet (anyUnfinishedItem attempts) := by
  fun_induction anyUnfinishedItem attempts <;> simp [*]

@[simp] theorem quiet_specificClaimPurpose (facts : Facts) :
    Quiet (specificClaimPurpose facts) := by
  fun_cases specificClaimPurpose facts <;> simp

@[simp] theorem quiet_exactCurrentClaim (current : Json) (id : String) (lease : Credential)
    (snapshot : Option Entries) :
    Quiet (exactCurrentClaim language current id lease snapshot) := by
  fun_cases exactCurrentClaim language current id lease snapshot <;> simp [intOrZero]

@[simp] theorem quiet_nextAttempt (previous : Json) : Quiet (nextAttempt previous) := by
  fun_cases nextAttempt previous <;> simp

end Quiet

section Records

variable (language : Language)

def recordOf (claim : Entries) : Option Json := claim.lookup "last_transition"

def Sound (data : Data) : Prop :=
  ∀ entry ∈ data.claims, ∃ claim, entry.2 = .dict claim ∧ validClaimIdentity claim = true ∧
    ∀ record, recordOf claim = some record → validTransitionRecord language record = .ok true

def FromClaim (lease : Option Credential) (before : Entries) (record : Json) : Prop :=
  recordOf before = some record ∨
    ∃ credential, lease = some credential ∧
      Written language credential (ownerOf language before) record

/-- A claim that goes back to one of `data` with its owner. -/
def Keeps (lease : Option Credential) (data : Data) (entry : String × Json) : Prop :=
  ∃ claim before, entry.2 = .dict claim ∧ (entry.1, .dict before) ∈ data.claims ∧
    validClaimIdentity claim = true ∧ ownerOf language claim = ownerOf language before ∧
    ∀ record, recordOf claim = some record → FromClaim language lease before record

/-- A claim whose record goes back to a claim of `data`. -/
def Descends (lease : Option Credential) (data : Data) (entry : String × Json) : Prop :=
  ∃ claim, entry.2 = .dict claim ∧ validClaimIdentity claim = true ∧
    ∀ record, recordOf claim = some record →
      ∃ before, (entry.1, .dict before) ∈ data.claims ∧ FromClaim language lease before record

def KeepsAll (lease : Option Credential) (data saved : Data) : Prop :=
  ∀ entry ∈ saved.claims, Keeps language lease data entry

def DescendsAll (lease : Option Credential) (data saved : Data) : Prop :=
  ∀ entry ∈ saved.claims, Descends language lease data entry

variable {language} {lease : Option Credential} {data : Data}

theorem Keeps.descends {entry : String × Json} (keeps : Keeps language lease data entry) :
    Descends language lease data entry := by
  obtain ⟨claim, before, stored, member, valid, _, records⟩ := keeps
  exact ⟨claim, stored, valid, fun record found => ⟨before, member, records record found⟩⟩

theorem Sound.keeps (sound : Sound language data) {entry : String × Json}
    (inside : entry ∈ data.claims) : Keeps language lease data entry := by
  obtain ⟨claim, stored, valid, _⟩ := sound entry inside
  refine ⟨claim, claim, stored, ?_, valid, rfl, fun record found => .inl found⟩
  rw [← stored]
  exact inside

theorem Sound.keepsAll (sound : Sound language data) : KeepsAll language lease data data :=
  fun _ inside => sound.keeps inside

theorem Keeps.trans {middle : Data} {entry : String × Json}
    (first : KeepsAll language lease data middle) (second : Keeps language lease middle entry) :
    Keeps language lease data entry := by
  obtain ⟨claim, between, stored, member, valid, owner, records⟩ := second
  obtain ⟨same, before, equal, old, _, oldOwner, oldRecords⟩ := first _ member
  cases equal
  refine ⟨claim, before, stored, old, valid, owner.trans oldOwner, fun record found => ?_⟩
  rcases records record found with kept | ⟨credential, held, written⟩
  · exact oldRecords record kept
  · rw [oldOwner] at written
    exact .inr ⟨credential, held, written⟩

theorem KeepsAll.sound {saved : Data} (keeps : DescendsAll language lease data saved)
    (sound : Sound language data) : Sound language saved := by
  intro entry inside
  obtain ⟨claim, stored, valid, records⟩ := keeps entry inside
  refine ⟨claim, stored, valid, fun record found => ?_⟩
  obtain ⟨before, member, kept | ⟨_, _, written⟩⟩ := records record found
  · obtain ⟨_, same, _, accepted⟩ := sound _ member
    cases same
    exact accepted record kept
  · exact written.accepted

/-- The fields that validity and `identity` depend on. -/
def identityFields : List String := ["lease_epoch", "attempt", "owner_token", "process_instance_id"]

theorem validClaimIdentity_congr {claim before : Entries}
    (same : ∀ field ∈ identityFields, Json.get claim field = Json.get before field) :
    validClaimIdentity claim = validClaimIdentity before := by
  unfold validClaimIdentity
  rw [same "lease_epoch" (by decide), same "attempt" (by decide), same "owner_token" (by decide),
    same "process_instance_id" (by decide)]

theorem get_assign_identity {key : String} (other : key ∉ identityFields) (value : Json)
    (claim : Entries) :
    ∀ field ∈ identityFields, Json.get (assign key value claim) field = Json.get claim field := by
  intro field inside
  exact get_assign_ne claim value fun same => other (same ▸ inside)

theorem get_settled (time : Json) (claim : Entries) : ∀ field ∈ identityFields,
    Json.get (assign "completed_at" time (assign "status" (.str "completed") claim)) field =
      Json.get claim field := by
  intro field inside
  rw [get_assign_identity (by decide) _ _ field inside,
    get_assign_identity (by decide) _ _ field inside]

theorem KeepsAll.setClaim {id : String} {claim : Entries} (sound : Sound language data)
    (keeps : Keeps language lease data (id, .dict claim)) :
    KeepsAll language lease data (setClaim data id claim) := by
  intro entry inside
  rcases mem_assign inside with rfl | inside
  · exact keeps
  · exact sound.keeps inside

end Records

section Stages

variable {language : Language} (dated : language.Dated) {scan : Scan}
  (lease : ValidLease scan.lease) (aware : scan.observedAt.aware = true) {data : Data}
  (sound : Sound language data) {id : String} {before claim : Entries}
  (stored : (id, .dict before) ∈ data.claims)
  (same : ∀ field ∈ identityFields, Json.get claim field = Json.get before field)

include dated lease aware sound stored same in
theorem ends_noted {disposition reason state : String}
    (known : disposition ∈ transitionDispositions) (knownReason : reason ∈ transitionReasons)
    (knownState : state ∈ transitionOperationStates) (attempts : List Entries)
    (Q : Data → Prop) :
    Ends (noted language scan claim disposition reason state attempts)
      (fun after => Keeps language (some scan.lease) data (id, .dict after)) Q := by
  obtain ⟨_, dict, valid, _⟩ := sound _ stored
  cases dict
  have identity : validClaimIdentity claim = true := by rw [validClaimIdentity_congr same, valid]
  have owner : ownerOf language claim = ownerOf language before := by
    rw [ownerOf, ownerOf, same "owner_token" (by decide)]
  obtain ⟨record, built, written⟩ := written_transitionRecord dated lease aware identity known
    knownReason knownState attempts
  have result : noted language scan claim disposition reason state attempts =
      .ok (assign "last_transition" record claim) := by
    rw [noted, built]
    rfl
  have kept := get_assign_identity (show "last_transition" ∉ identityFields by decide) record claim
  rw [result]
  refine ends_ok ⟨_, before, rfl, stored, ?_, ?_, fun found read => ?_⟩
  · rw [validClaimIdentity_congr kept, identity]
  · rw [← owner, ownerOf, ownerOf, kept "owner_token" (by decide)]
  · rw [recordOf, lookup_assign, if_pos rfl] at read
    cases read
    rw [owner] at written
    exact .inr ⟨scan.lease, rfl, written⟩

include dated lease aware sound stored in
theorem ends_blockClaim {α : Type} {reason state : String}
    (knownReason : reason ∈ transitionReasons)
    (knownState : state ∈ transitionOperationStates) (attempts : List Entries) (P : α → Prop) :
    Ends (blockClaim language scan data id before reason state attempts : Checked α) P
      (KeepsAll language (some scan.lease) data) := by
  refine ends_bind (ends_noted dated lease aware sound stored (fun _ _ => rfl) (by decide)
    knownReason knownState attempts _) fun after keeps => ?_
  refine ends_error fun saved same => ?_
  cases same
  exact KeepsAll.setClaim sound keeps

include dated lease aware sound stored in
theorem ends_requeueClaim {reason state : String} (knownReason : reason ∈ transitionReasons)
    (knownState : state ∈ transitionOperationStates) (attempts : List Entries)
    (Q : Data → Prop) :
    Ends (requeueClaim language scan data id before reason state attempts)
      (KeepsAll language (some scan.lease) data) Q := by
  refine ends_bind (ends_noted dated lease aware sound stored
    (get_assign_identity (by decide) _ _) (by decide) knownReason knownState attempts _)
    fun after keeps => ends_ok ?_
  have all := KeepsAll.setClaim sound keeps
  split
  · exact all
  · exact all

include dated lease aware sound stored in
theorem ends_completeClaimRecord {reason state : String}
    (knownReason : reason ∈ transitionReasons) (knownState : state ∈ transitionOperationStates)
    (attempts : List Entries) (Q : Data → Prop) :
    Ends (completeClaimRecord language scan data id before reason state attempts)
      (KeepsAll language (some scan.lease) data) Q := by
  have kept := get_settled (.str (language.isoformat scan.observedAt)) before
  exact ends_bind (ends_noted dated lease aware sound stored kept (by decide) knownReason
    knownState attempts _) fun after keeps => ends_ok (KeepsAll.setClaim sound keeps)

theorem loadRecoveryFacts_known {ctx : Context} {facts : Facts}
    (loaded : loadRecoveryFacts language ctx id = .ok facts) :
    facts.state ∈ transitionOperationStates ∧
      (facts.loadReason ≠ "" → facts.loadReason ∈ transitionReasons) := by
  unfold loadRecoveryFacts at loaded
  split at loaded
  · cases loaded
    exact ⟨by decide, fun _ => by decide⟩
  · cases loaded
    exact ⟨by decide, fun _ => by decide⟩
  · split at loaded
    · rename_i known
      rename_i state attempts _
      have inside : state ∈ transitionOperationStates :=
        List.mem_append_left _ (by simpa using known)
      cases checked : malformedInventory language id [] attempts with
      | error raised => simp [checked, bind, Except.bind] at loaded
      | ok malformed =>
        simp only [checked, bind, Except.bind, pure, Except.pure, Except.ok.injEq] at loaded
        subst loaded
        cases malformed with
        | true => exact ⟨inside, fun _ => by simp [transitionReasons]⟩
        | false => exact ⟨inside, fun reason => absurd rfl reason⟩
    · cases loaded
      exact ⟨by decide, fun _ => by decide⟩

include dated lease aware sound stored in
theorem ends_recoverExpiredClaim (ctx : Context) :
    Ends (recoverExpiredClaim language ctx scan data id before)
      (fun result => KeepsAll language (some scan.lease) data result.2)
      (KeepsAll language (some scan.lease) data) := by
  refine ends_quiet (by simp) fun facts loaded => ?_
  obtain ⟨knownState, knownReason⟩ := loadRecoveryFacts_known loaded
  have blocks {reason : String} (known : reason ∈ transitionReasons) :=
    ends_blockClaim dated lease aware sound stored known knownState facts.attempts
      fun result : Bool × Data => KeepsAll language (some scan.lease) data result.2
  dsimp only
  split
  · rename_i refused
    exact blocks (knownReason refused)
  split
  · exact ends_bind (ends_requeueClaim dated lease aware sound stored (by decide) knownState
      facts.attempts _) fun saved keeps => ends_ok keeps
  split
  · exact blocks (by decide)
  split
  · exact blocks (by decide)
  split
  · exact blocks (by decide)
  split
  · refine ends_quiet (by simp) fun unfinished _ => ?_
    split
    · exact blocks (by decide)
    · exact ends_bind (ends_completeClaimRecord dated lease aware sound stored (by decide)
        knownState facts.attempts _) fun saved keeps => ends_ok keeps
  · exact blocks (by decide)

include dated lease aware sound in
theorem ends_recoverClaim (ctx : Context) (id : String) :
    Ends (recoverClaim language ctx scan data id)
      (fun result => KeepsAll language (some scan.lease) data result.2)
      (KeepsAll language (some scan.lease) data) := by
  unfold recoverClaim
  split
  · rename_i claim found
    have stored := mem_of_claimOf found
    have unavailable : "unavailable" ∈ transitionOperationStates := by decide
    have blocks {reason : String} (known : reason ∈ transitionReasons) :=
      ends_blockClaim dated lease aware sound stored known unavailable []
        fun result : Bool × Data => KeepsAll language (some scan.lease) data result.2
    dsimp only
    split
    · exact ends_ok sound.keepsAll
    · refine ends_quiet (by simp) fun expiry _ => ?_
      cases expiry with
      | none => exact blocks (by decide)
      | some expiry =>
        refine ends_quiet (by simp [isBefore]) fun early _ => ?_
        split
        · split
          · exact blocks (by decide)
          · exact ends_ok sound.keepsAll
        · split
          · exact ends_raise _
          · refine ends_quiet (by simp) fun epoch _ => ?_
            split
            · exact blocks (by decide)
            · exact ends_recoverExpiredClaim dated lease aware sound stored ctx
  · exact ends_raise _

include dated lease aware in
theorem ends_recoverClaims (ctx : Context) (ids : List String) {changed : Bool} {start data : Data}
    (keeps : KeepsAll language (some scan.lease) start data) (sound : Sound language start) :
    Ends (recoverClaims language ctx scan ids (changed, data))
      (fun result => KeepsAll language (some scan.lease) start result.2)
      (KeepsAll language (some scan.lease) start) := by
  induction ids generalizing changed data with
  | nil => exact ends_ok keeps
  | cons id rest ih =>
    have middle : Sound language data :=
      KeepsAll.sound (fun entry inside => (keeps entry inside).descends) sound
    have onward {saved : Data} (later : KeepsAll language (some scan.lease) data saved) :
        KeepsAll language (some scan.lease) start saved :=
      fun entry inside => Keeps.trans keeps (later entry inside)
    have step := (ends_recoverClaim dated lease aware middle ctx id).mono
      (fun _ later => onward later) fun _ later => onward later
    exact ends_bind step fun result kept => ih kept

include dated lease aware sound in
theorem ends_recoverExpiredUnlocked (ctx : Context) :
    Ends (recoverExpiredUnlocked language ctx scan data)
      (fun result => KeepsAll language (some scan.lease) data result.2)
      (KeepsAll language (some scan.lease) data) := by
  refine ends_quiet (by simp) fun misplaced _ => ?_
  cases misplaced with
  | none => exact ends_recoverClaims dated lease aware ctx _ sound.keepsAll sound
  | some id =>
    dsimp only
    unfold persistBlocker
    split
    · rename_i claim found
      split
      · exact ends_blockClaim dated lease aware sound (mem_of_claimOf found) (by decide) (by decide)
          [] _
      · exact ends_raise _
    · exact ends_raise _

end Stages

section Claiming

variable {language : Language} {lease : Option Credential} {start data : Data}

theorem validClaimIdentity_newClaim {credential : Credential} (valid : ValidLease credential)
    {attempt : Int} (bounds : 1 ≤ attempt ∧ attempt ≤ maxTransitionEpoch) (id : String)
    (expiresAt observedAt : Instant) (previous : Json) :
    validClaimIdentity (newClaim language id credential attempt expiresAt observedAt previous) =
      true := by
  have epoch : Json.get (newClaim language id credential attempt expiresAt observedAt previous)
      "lease_epoch" = .int credential.leaseEpoch := rfl
  have number : Json.get (newClaim language id credential attempt expiresAt observedAt previous)
      "attempt" = .int attempt := rfl
  have token : Json.get (newClaim language id credential attempt expiresAt observedAt previous)
      "owner_token" = .str credential.ownerToken := rfl
  have process : Json.get (newClaim language id credential attempt expiresAt observedAt previous)
      "process_instance_id" = .str credential.processInstanceId := rfl
  simp [validClaimIdentity, epoch, number, token, process, validBoundedInteger, textOf,
    boundedInteger_iff.mpr valid.epoch, boundedInteger_iff.mpr bounds, valid.token, valid.process]

theorem recordOf_newClaim (id : String) (credential : Credential) (attempt : Int)
    (expiresAt observedAt : Instant) (previous : Json) :
    recordOf (newClaim language id credential attempt expiresAt observedAt previous) =
      (inherited previous).lookup "last_transition" := rfl

theorem inherited_lookup {previous record : Json}
    (found : (inherited previous).lookup "last_transition" = some record) :
    ∃ before, previous = .dict before ∧ recordOf before = some record := by
  unfold inherited at found
  split at found
  · rename_i before
    split at found
    · rename_i transition read
      simp only [List.lookup_cons_self, Option.some.injEq] at found
      refine ⟨before, rfl, ?_⟩
      unfold recordOf
      cases looked : before.lookup "last_transition" with
      | none => simp [Json.get, looked] at read
      | some value => simp_all [Json.get]
    · cases found
  · cases found

theorem nextAttempt_bounds {previous : Json} {attempt : Int}
    (next : nextAttempt previous = .ok attempt) : 1 ≤ attempt ∧ attempt ≤ maxTransitionEpoch := by
  revert next
  fun_cases nextAttempt previous with
  | case1 _ _ _ bounded =>
    rintro ⟨⟩
    have bounds := boundedInteger_iff.mp bounded
    omega
  | case4 => rintro ⟨⟩; decide
  | _ => rintro ⟨⟩

theorem ends_claimPending {credential : Credential} (valid : ValidLease credential)
    (keeps : KeepsAll language lease start data) (id : String) (expiresAt observedAt : Instant)
    (Q : Data → Prop) :
    Ends (claimPending language data id credential expiresAt observedAt)
      (fun result => DescendsAll language lease start result.2) Q := by
  refine ends_quiet (by simp) fun attempt next => ?_
  refine ends_ok fun entry inside => ?_
  rcases mem_assign inside with rfl | inside
  · refine ⟨_, rfl, validClaimIdentity_newClaim valid (nextAttempt_bounds next) _ _ _ _,
      fun record found => ?_⟩
    rw [recordOf_newClaim] at found
    obtain ⟨before, stored, read⟩ := inherited_lookup found
    obtain ⟨_, old, same, member, _, _, records⟩ := keeps _ (mem_of_claimOf stored)
    cases same
    exact ⟨old, member, records record read⟩
  · exact (keeps entry inside).descends

theorem ends_claimUnlocked {credential : Credential} (valid : ValidLease credential)
    (keeps : KeepsAll language lease start data) (expiresAt observedAt : Instant)
    (Q : Data → Prop) :
    Ends (claimUnlocked language data credential expiresAt observedAt)
      (fun result => DescendsAll language lease start result.2) Q := by
  unfold claimUnlocked
  split
  · exact ends_ok fun entry inside => (keeps entry inside).descends
  · split
    · exact ends_raise _
    · exact ends_bind (ends_claimPending valid keeps _ _ _ _)
        fun result descends => ends_ok descends
  · exact ends_raise _

end Claiming

namespace Call

/-- The lease under which a call writes transition records. -/
def lease : Call → Option Credential
  | .claimFromLease lease _ => some lease
  | .claimSpecificFromLease _ lease => some lease
  | .completeClaimFromLease _ lease _ => some lease
  | .completeAndRemoveClaimFromLease _ lease _ => some lease
  | .deferClaimFromLease _ _ lease _ => some lease
  | .removeCancelledFromLease _ lease => some lease
  | .recoverExpiredClaimsFromLease lease _ => some lease
  | _ => none

/-- The call's lease was acquired and its time has a zone. -/
structure Fitting (call : Call) : Prop where
  granted : ∀ lease, call.lease = some lease → ValidLease lease
  aware : ∀ lease time, call = .recoverExpiredClaimsFromLease lease (some time) → time.aware = true

end Call

theorem validLease_of_acquire {files : Lease.LeaseFiles} {request : Lease.AcquireRequest}
    {record : Lease.LeaseRecord} (acquired : Lease.acquire files request = .ok record)
    (token : request.freshToken ≠ "") (process : request.freshProcessId ≠ "")
    (counted : 0 ≤ Lease.previousEpoch files) (bounded : record.leaseEpoch ≤ maxTransitionEpoch) :
    ValidLease record.credential := by
  have granted : record = Lease.grant files request := by
    unfold Lease.acquire at acquired
    split at acquired
    · cases acquired
    · split at acquired
      · split at acquired
        · exact (Except.ok.inj acquired).symm
        · cases acquired
      · exact (Except.ok.inj acquired).symm
  subst granted
  refine ⟨⟨?_, bounded⟩, token, ?_⟩
  · simp only [Lease.LeaseRecord.credential, Lease.grant]
    omega
  · simp only [Lease.LeaseRecord.credential, Lease.grant]
    split
    · split
      · exact process
      · assumption
    · exact process

section Run

variable {language : Language} (dated : language.Dated) (isOther : Char → Bool) (ctx : Context)
  {content : Content} {data : Data} (loaded : loadUnlocked language content = .ok data)
  (sound : Sound language data) {lease : Option Credential}
  {credential : Credential} {saved : Data}

/-- Every record of what is saved descends from `data`. -/
def Accounts (language : Language) (lease : Option Credential) (data : Data) (outcome : Outcome) :
    Prop :=
  Ends outcome (fun result => ∀ saved, result.2 = some saved →
      DescendsAll language lease data saved)
    (DescendsAll language lease data)

theorem KeepsAll.descends
    (keeps : KeepsAll language lease data saved) : DescendsAll language lease data saved :=
  fun entry inside => (keeps entry inside).descends

include sound in
theorem descendsAll_of_subset
    (fewer : ∀ entry ∈ saved.claims, entry ∈ data.claims) : DescendsAll language lease data saved :=
  fun entry inside => (sound.keeps (fewer entry inside)).descends

theorem accounts_none (reply : Reply) :
    Accounts language lease data (pure (reply, none)) :=
  ends_ok fun _ none => by cases none

theorem accounts_some {reply : Reply} (descends : DescendsAll language lease data saved) :
    Accounts language lease data (pure (reply, some saved)) := by
  refine ends_ok fun other same => ?_
  cases same
  exact descends

theorem accounts_ite {reply : Reply} {c : Prop} [Decidable c]
    (descends : DescendsAll language lease data saved) :
    Accounts language lease data (pure (reply, if c then some saved else none)) := by
  split
  · exact accounts_some descends
  · exact accounts_none reply

theorem accounts_raise (fault : Fault) :
    Accounts language lease data (raise fault) := ends_raise fault

include loaded in
theorem accounts_load {rest : Data → Outcome}
    (next : Accounts language lease data (rest data)) :
    Accounts language lease data (loadUnlocked language content >>= rest) := by
  rw [loaded]
  exact next

include loaded in
theorem accounts_guarded {refused : Fault} {rest : Data → Outcome}
    (next : Accounts language lease data (rest data)) :
    Accounts language lease data (enterLeaseGuard ctx credential refused >>= fun _ =>
      loadUnlocked language content >>= rest) :=
  ends_quiet (by simp) fun _ _ => accounts_load loaded next

include loaded sound in
theorem accounts_enqueue (id : String) :
    Accounts language none data (enqueue language id content) := by
  refine accounts_load loaded (ends_quiet (by simp) fun _ _ => ?_)
  split
  · exact accounts_raise _
  · split
    · exact accounts_none _
    · exact accounts_some (descendsAll_of_subset sound fun _ inside => inside)

theorem mem_forgetClaim {id : String} {entry : String × Json}
    (inside : entry ∈ (forgetClaim data id).claims) : entry ∈ data.claims :=
  (List.mem_filter.mp inside).1

include loaded sound in
theorem accounts_remove (id : String) :
    Accounts language none data (remove language id content) := by
  refine accounts_load loaded (ends_quiet (by simp) fun _ _ => ?_)
  exact accounts_ite (descendsAll_of_subset sound fun _ inside => mem_forgetClaim inside)

include loaded sound in
theorem accounts_discardPending (id : String) :
    Accounts language none data (discardPending language id content) := by
  refine accounts_load loaded (ends_quiet (by simp) fun _ _ => ?_)
  exact accounts_ite (descendsAll_of_subset sound fun _ inside => inside)

include loaded sound in
theorem accounts_dequeue : Accounts language none data (dequeue language content) := by
  refine accounts_load loaded (ends_quiet (by simp) fun _ _ => ?_)
  split
  · exact accounts_none _
  · exact accounts_some (descendsAll_of_subset sound fun _ inside => inside)

include loaded sound in
theorem accounts_claim (credential : Credential) (ttl : Ttl) :
    Accounts language none data (claim language isOther ctx credential ttl content) := by
  unfold claim
  split
  · rename_i checked
    simp only [Bool.and_eq_true] at checked
    obtain ⟨⟨token, process⟩, epoch⟩ := checked
    have named {text : String}
        (valid : RunNowQueue.validPublicClaimIdentity isOther text = true) : text ≠ "" := by
      rintro rfl
      simp [RunNowQueue.validPublicClaimIdentity] at valid
    have valid : ValidLease credential :=
      ⟨boundedInteger_iff.mp epoch, named token, named process⟩
    refine ends_quiet (by simp) fun expiresAt _ => ?_
    refine accounts_load loaded (ends_quiet (by simp) fun _ _ => ?_)
    have keeps : KeepsAll language none data data := sound.keepsAll
    exact ends_bind (ends_claimUnlocked valid keeps expiresAt ctx.now _)
      fun _ descends => accounts_ite descends
  · exact accounts_raise _

include dated loaded sound in
theorem accounts_claimFromLease (valid : ValidLease credential) (ttl : Ttl) :
    Accounts language (some credential) data
      (claimFromLease language ctx credential ttl content) := by
  refine ends_quiet (by simp) fun expiresAt _ => ?_
  refine accounts_guarded ctx loaded ?_
  have scanned := @ends_recoverExpiredUnlocked language dated ⟨credential, ctx.moment⟩ valid rfl
    data sound ctx
  refine ends_bind (scanned.mono (fun _ keeps => keeps) fun _ keeps => keeps.descends)
    fun result keeps => ?_
  exact ends_bind (ends_claimUnlocked valid keeps expiresAt ctx.now _)
    fun _ descends => accounts_ite descends

include loaded sound in
theorem accounts_claimSpecificFromLease (id : String) (valid : ValidLease credential) :
    Accounts language (some credential) data
      (claimSpecificFromLease language ctx id credential content) := by
  refine ends_quiet (by simp) fun expiresAt _ => ?_
  refine accounts_guarded ctx loaded ?_
  refine ends_quiet (by simp) fun _ _ => ?_
  split
  · exact accounts_raise _
  · split
    · refine ends_quiet (by simp) fun facts _ => ?_
      refine ends_quiet (by simp) fun purpose _ => ?_
      have keeps : KeepsAll language (some credential) data data := sound.keepsAll
      exact ends_bind (ends_claimPending valid keeps id expiresAt ctx.now _)
        fun result descends => accounts_some descends
    · exact accounts_none _

include loaded sound in
theorem accounts_completeClaim (id ownerToken : String) (leaseEpoch : Int) :
    Accounts language none data
      (completeClaim language ctx id ownerToken leaseEpoch content) := by
  refine accounts_load loaded ?_
  split
  · rename_i current found
    split
    · refine ends_quiet (quiet_toInt language _) fun epoch _ => ?_
      split
      · have member := mem_of_claimOf found
        obtain ⟨_, same, valid, _⟩ := sound _ member
        cases same
        have fields := get_settled (.str (language.isoformat ctx.moment)) current
        refine accounts_some (KeepsAll.setClaim sound
          ⟨_, current, rfl, member, ?_, ?_, ?_⟩).descends
        · rw [validClaimIdentity_congr fields, valid]
        · rw [ownerOf, ownerOf, fields "owner_token" (by decide)]
        · intro record read
          rw [recordOf, lookup_assign, if_neg (by decide), lookup_assign,
            if_neg (by decide)] at read
          exact .inl read
      · exact accounts_raise _
    · exact accounts_raise _
  · exact accounts_raise _

include dated loaded sound in
theorem accounts_completeClaimFromLease (id : String) (valid : ValidLease credential)
    (snapshot : Option Entries) :
    Accounts language (some credential) data
      (completeClaimFromLease language ctx id credential snapshot content) := by
  refine accounts_guarded ctx loaded ?_
  refine ends_quiet (by simp) fun exactly _ => ?_
  split
  · rename_i current found _
    have saves := @ends_completeClaimRecord language dated ⟨credential, ctx.moment⟩ valid rfl data
      sound id current (mem_of_claimOf found)
    exact ends_bind (saves (by decide) (by decide) [] _)
      fun saved keeps => accounts_some keeps.descends
  · exact accounts_raise _

include loaded sound in
theorem accounts_completeAndRemoveClaimFromLease (id : String) (credential : Credential)
    (snapshot : Entries) :
    Accounts language (some credential) data
      (completeAndRemoveClaimFromLease language ctx id credential snapshot content) := by
  refine accounts_guarded ctx loaded ?_
  refine ends_quiet (by simp) fun _ _ => ?_
  split
  · exact accounts_raise _
  · split
    · refine ends_quiet (by simp) fun exactly _ => ?_
      split
      · exact accounts_some (descendsAll_of_subset sound fun _ inside => mem_forgetClaim inside)
      · exact accounts_raise _
    · exact accounts_raise _

include dated loaded sound in
theorem accounts_deferClaimFromLease (id : String) (snapshot : Entries)
    (valid : ValidLease credential) (reason : String) :
    Accounts language (some credential) data
      (deferClaimFromLease language ctx id snapshot credential reason content) := by
  unfold deferClaimFromLease
  split
  · rename_i supported
    have known : reason ∈ transitionReasons := by
      have either : reason = "max_concurrent_reached" ∨ reason = "target_locked" := by
        simpa using supported
      rcases either with rfl | rfl <;> decide
    refine accounts_guarded ctx loaded ?_
    obtain ⟨complete, same⟩ :=
      sameDeferIsComplete_ok language data id (claimOf data id) snapshot credential reason
    refine ends_quiet (by rw [same]; exact quiet_ok _) fun complete _ => ?_
    split
    · exact accounts_none _
    · refine ends_quiet (by simp) fun exactly _ => ?_
      split
      · rename_i current found _
        refine ends_quiet (by simp) fun facts loadedFacts => ?_
        have saves := @ends_requeueClaim language dated ⟨credential, ctx.moment⟩ valid rfl data
          sound id current (mem_of_claimOf found)
        split
        · exact accounts_raise _
        · split
          · exact accounts_raise _
          · exact ends_bind (saves known (loadRecoveryFacts_known loadedFacts).1 facts.attempts _)
              fun saved keeps => accounts_some keeps.descends
      · exact accounts_raise _
  · exact accounts_raise _

include loaded sound in
theorem accounts_removeCancelledFromLease (id : String) (credential : Credential) :
    Accounts language (some credential) data
      (removeCancelledFromLease language ctx id credential content) := by
  refine accounts_guarded ctx loaded ?_
  refine ends_quiet (by simp) fun _ _ => ?_
  refine ends_quiet (by simp) fun facts _ => ?_
  split
  · exact accounts_raise _
  · refine ends_quiet (by simp) fun unfinished _ => ?_
    split
    · exact accounts_raise _
    · exact accounts_ite (descendsAll_of_subset sound fun _ inside => mem_forgetClaim inside)

include dated loaded sound in
theorem accounts_recoverExpiredClaimsFromLease (valid : ValidLease credential)
    {observedAt : Option Moment} (aware : ∀ time, observedAt = some time → time.aware = true) :
    Accounts language (some credential) data
      (recoverExpiredClaimsFromLease language ctx credential observedAt content) := by
  refine accounts_guarded ctx loaded ?_
  have zoned : (observedAt.getD ctx.moment).aware = true := by
    cases observedAt with
    | none => rfl
    | some time => exact aware time rfl
  have scanned := @ends_recoverExpiredUnlocked language dated
    ⟨credential, observedAt.getD ctx.moment⟩ valid zoned data sound ctx
  exact ends_bind (scanned.mono (fun _ keeps => keeps) fun _ keeps => keeps.descends)
    fun _ keeps => accounts_ite keeps.descends

include dated loaded sound in
theorem accounts_run {call : Call} (fitting : call.Fitting) :
    Accounts language call.lease data (call.run language isOther ctx content) := by
  cases call with
  | listPending => exact accounts_load loaded (accounts_none _)
  | position id => exact accounts_load loaded (accounts_none _)
  | peek => exact accounts_load loaded (accounts_none _)
  | enqueue id => exact accounts_enqueue loaded sound id
  | remove id => exact accounts_remove loaded sound id
  | discardPending id => exact accounts_discardPending loaded sound id
  | dequeue => exact accounts_dequeue loaded sound
  | claim lease ttl => exact accounts_claim isOther ctx loaded sound lease ttl
  | claimFromLease lease ttl =>
    exact accounts_claimFromLease dated ctx loaded sound (fitting.granted lease rfl) ttl
  | claimSpecificFromLease id lease =>
    exact accounts_claimSpecificFromLease ctx loaded sound id (fitting.granted lease rfl)
  | completeClaim id ownerToken leaseEpoch =>
    exact accounts_completeClaim ctx loaded sound id ownerToken leaseEpoch
  | completeClaimFromLease id lease snapshot =>
    exact accounts_completeClaimFromLease dated ctx loaded sound id (fitting.granted lease rfl)
      snapshot
  | completeAndRemoveClaimFromLease id lease snapshot =>
    exact accounts_completeAndRemoveClaimFromLease ctx loaded sound id lease snapshot
  | deferClaimFromLease id snapshot lease reason =>
    exact accounts_deferClaimFromLease dated ctx loaded sound id snapshot
      (fitting.granted lease rfl) reason
  | removeCancelledFromLease id lease =>
    exact accounts_removeCancelledFromLease ctx loaded sound id lease
  | recoverExpiredClaimsFromLease lease observedAt =>
    exact accounts_recoverExpiredClaimsFromLease dated ctx loaded sound
      (fitting.granted lease rfl) fun time same => fitting.aware lease time (by rw [same])

end Run

/-- What a call leaves in the file, if it saves. -/
def savedBy : Outcome → Option Data
  | .ok (_, saved) => saved
  | .error raised => raised.saved

theorem Accounts.saved {language : Language} {lease : Option Credential} {data saved : Data}
    {outcome : Outcome} (accounts : Accounts language lease data outcome)
    (saves : savedBy outcome = some saved) : DescendsAll language lease data saved := by
  cases outcome with
  | ok result => exact accounts.returns result rfl saved saves
  | error raised => exact accounts.saves raised saved rfl saves

/-- The file after a save, as the next load reads it. -/
def stored (data : Data) : Content :=
  .parsed (.dict [("claims", .dict data.claims), ("pending", .list data.pending)])

def after (content : Content) (outcome : Outcome) : Content :=
  match savedBy outcome with
  | some saved => stored saved
  | none => content

def runCalls (language : Language) (isOther : Char → Bool) (content : Content) :
    List (Call × Context) → Content
  | [] => content
  | (call, ctx) :: rest =>
    runCalls language isOther (after content (call.run language isOther ctx content)) rest

theorem checkTransitions_of_sound {language : Language} {claims : Entries}
    (sound : ∀ entry ∈ claims, ∃ claim, entry.2 = .dict claim ∧ ∀ record,
      recordOf claim = some record → validTransitionRecord language record = .ok true) :
    checkTransitions language claims = .ok () := by
  induction claims with
  | nil => rfl
  | cons entry rest ih =>
    obtain ⟨id, value⟩ := entry
    obtain ⟨claim, rfl, accepted⟩ := sound (id, value) (by simp)
    have later := ih fun other inside => sound other (by simp [inside])
    simp only [checkTransitions]
    split
    · rename_i record found
      rw [accepted record found]
      exact later
    · exact later

theorem load_stored {language : Language} {data : Data} (sound : Sound language data) :
    loadUnlocked language (stored data) = .ok data := by
  have checked : checkTransitions language data.claims = .ok () :=
    checkTransitions_of_sound fun entry inside => by
      obtain ⟨claim, same, _, accepted⟩ := sound entry inside
      exact ⟨claim, same, accepted⟩
  have pending : Json.get [("claims", .dict data.claims), ("pending", .list data.pending)]
      "pending" = .list data.pending := rfl
  have claims : Json.get [("claims", .dict data.claims), ("pending", .list data.pending)]
      "claims" = .dict data.claims := rfl
  simp only [loadUnlocked, stored, pending, claims, checked]
  rfl

/-- The file loads, and every claim in it is in order. -/
def Loads (language : Language) (content : Content) : Prop :=
  ∃ data, loadUnlocked language content = .ok data ∧ Sound language data

theorem loads_missing (language : Language) : Loads language .missing :=
  ⟨⟨[], []⟩, rfl, fun _ inside => absurd inside List.not_mem_nil⟩

theorem loads_after {language : Language} (dated : language.Dated) (isOther : Char → Bool)
    (ctx : Context) {content : Content} (loads : Loads language content) {call : Call}
    (fitting : call.Fitting) :
    Loads language (after content (call.run language isOther ctx content)) := by
  obtain ⟨data, loaded, sound⟩ := loads
  unfold after
  split
  · rename_i saved saves
    have next := KeepsAll.sound
      ((accounts_run dated isOther ctx loaded sound fitting).saved saves) sound
    exact ⟨saved, load_stored next, next⟩
  · exact ⟨data, loaded, sound⟩

theorem loads_runCalls {language : Language} (dated : language.Dated) (isOther : Char → Bool)
    (calls : List (Call × Context)) (fitting : ∀ call ∈ calls, call.1.Fitting) {content : Content}
    (loads : Loads language content) :
    Loads language (runCalls language isOther content calls) := by
  induction calls generalizing content with
  | nil => exact loads
  | cons call rest ih =>
    exact ih (fun other inside => fitting other (by simp [inside]))
      (loads_after dated isOther call.2 loads (fitting call (by simp)))

/-- After any run from a missing file, what a call saves loads again, and each transition record
in it was there before or is the call's own. -/
theorem transitions_accepted {language : Language} (dated : language.Dated)
    (isOther : Char → Bool) (calls : List (Call × Context))
    (fitting : ∀ call ∈ calls, call.1.Fitting) (call : Call) (next : call.Fitting) (ctx : Context)
    (saved : Data)
    (saves : savedBy (call.run language isOther ctx
      (runCalls language isOther .missing calls)) = some saved) :
    loadUnlocked language (stored saved) = .ok saved ∧
      ∃ data, loadUnlocked language (runCalls language isOther .missing calls) = .ok data ∧
        ∀ id claim record, (id, .dict claim) ∈ saved.claims → recordOf claim = some record →
          ∃ before, (id, .dict before) ∈ data.claims ∧ (recordOf before = some record ∨
            ∃ lease, call.lease = some lease ∧
              Written language lease (ownerOf language before) record) := by
  obtain ⟨data, loaded, sound⟩ := loads_runCalls dated isOther calls fitting
    (loads_missing language)
  have descends := (accounts_run dated isOther ctx loaded sound next).saved saves
  refine ⟨load_stored (KeepsAll.sound descends sound), data, loaded, ?_⟩
  intro id claim record inside found
  obtain ⟨_, same, _, records⟩ := descends _ inside
  cases same
  exact records record found

def approvedContext : Context :=
  { sampleContext with loader := fun _ => .loaded "approved" [] }

def sampleClaimed : List (Call × Context) :=
  [(.enqueue "op", approvedContext), (.claimSpecificFromLease "op" sampleLease, approvedContext)]

theorem sample_fitting (call : Call) (lease : call.lease = none ∨ call.lease = some sampleLease)
    (now : ∀ lease time, call ≠ .recoverExpiredClaimsFromLease lease (some time)) :
    call.Fitting := by
  refine ⟨fun other found => ?_, fun lease time same => absurd same (now lease time)⟩
  rcases lease with none | some
  · rw [none] at found
    cases found
  · rw [some] at found
    cases found
    exact ⟨by decide, by decide, by decide⟩

theorem sampleTime_dated : ∀ second, sampleTime second ≠ "" ∧ (sampleTime second).length ≤ 64 ∧
    (sampleTime second).toList.getLast? ≠ some 'Z' ∧
    ((sampleLanguage.fromIso (sampleTime second)).any (·.aware)) = true := by
  decide +kernel

theorem sampleLanguage_dated : sampleLanguage.Dated where
  text _ _ := (sampleTime_dated _).1
  short _ _ := (sampleTime_dated _).2.1
  offset _ _ := (sampleTime_dated _).2.2.1
  reads _ _ := (Option.any_eq_true _ _).mp (sampleTime_dated _).2.2.2

def carriesRecord (entry : String × Json) : Bool :=
  match entry.2 with
  | .dict claim => (recordOf claim).isSome
  | _ => false

def sampleDefer : Call := .deferClaimFromLease "op" [] sampleLease "target_locked"

def laterContext : Context := { approvedContext with now := 1000000 }

def sampleDeferral : Outcome :=
  sampleDefer.run sampleLanguage (fun _ => false) laterContext
    (runCalls sampleLanguage (fun _ => false) .missing sampleClaimed)

theorem sampleDeferral_saves : (savedBy sampleDeferral).isSome = true := by decide +kernel

/-- A deferral writes a record, and the queue with it loads. -/
theorem sampleDeferral_accepted :
    ∃ saved, savedBy sampleDeferral = some saved ∧ saved.claims.any carriesRecord = true ∧
      loadUnlocked sampleLanguage (stored saved) = .ok saved := by
  have found := (Option.some_get sampleDeferral_saves).symm
  refine ⟨_, found, by decide +kernel, ?_⟩
  refine (transitions_accepted sampleLanguage_dated (fun _ => false) sampleClaimed ?_
    sampleDefer ?_ laterContext _ found).1
  · intro call inside
    rcases List.mem_cons.mp inside with rfl | inside
    · exact sample_fitting _ (.inl rfl) (fun _ _ same => by cases same)
    · cases List.mem_singleton.mp inside
      exact sample_fitting _ (.inr rfl) (fun _ _ same => by cases same)
  · exact sample_fitting _ (.inr rfl) (fun _ _ same => by cases same)

end RExecOp.QueueFile
