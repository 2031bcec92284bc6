import Mathlib.Data.List.Dedup
import RExecOp.Lib.Results
import RExecOp.QueueFile
import RExecOp.QueueRecovery

/-! Which exceptions leave a call on the queue file: every stage gets one lemma that says on
which input it lets an exception escape. -/

namespace RExecOp.QueueFile

open Lease (Instant Credential)
open Assoc (assign lookup_assign)
open RunNowQueue (Ttl Purpose blockedFault claimConflict activeClaimConflict boundedInteger
  transitionSchema maxTransitionEpoch validPublicClaimIdentity validatedClaimExpiry defaultTtl)

variable {data after : Data} {id : String} {ctx : Context} {fields : Entries} {α : Type}
  {scan : Scan} {changed : Bool}

/-- `RExecOpValidationError` or `RExecOpConcurrencyConflict` -/
def failsClosed : Fault → Bool
  | .validation _ _ => true
  | .conflict _ => true
  | _ => false

@[simp] theorem failsClosed_invalid (message : String) :
    failsClosed (.invalid message) = true := rfl

@[simp] theorem failsClosed_blockedFault : failsClosed blockedFault = true := rfl

@[simp] theorem failsClosed_claimConflict (id : String) : failsClosed (claimConflict id) = true :=
  rfl

@[simp] theorem failsClosed_activeClaimConflict (id : String) :
    failsClosed (activeClaimConflict id) = true := rfl

def Escapes {α : Type} (x : Checked α) : Prop :=
  ∃ raised, x = .error raised ∧ failsClosed raised.fault = false

section Rules

variable {α β : Type}

@[simp] theorem not_escapes_ok (a : α) : ¬ Escapes (.ok a) := by
  intro ⟨_, raised, _⟩
  cases raised

@[simp] theorem not_escapes_pure (a : α) : ¬ Escapes (pure a) := not_escapes_ok a

@[simp] theorem escapes_error (raised : Raise) :
    Escapes (.error raised : Checked α) ↔ failsClosed raised.fault = false := by
  simp [Escapes]

@[simp] theorem escapes_raise (fault : Fault) :
    Escapes (raise fault : Checked α) ↔ failsClosed fault = false :=
  escapes_error ⟨fault, none⟩

@[simp] theorem escapes_bind (x : Checked α) (f : α → Checked β) :
    Escapes (x >>= f) ↔ Escapes x ∨ ∃ a, x = .ok a ∧ Escapes (f a) := by
  cases x with
  | error raised => simp [Escapes, bind, Except.bind]
  | ok a => simp [Escapes, bind, Except.bind]

@[simp] theorem escapes_map (x : Checked α) (f : α → β) : Escapes (f <$> x) ↔ Escapes x := by
  cases x with
  | error raised => simp [Escapes, Functor.map, Except.map]
  | ok a => simp [Escapes, Functor.map, Except.map]

@[simp] theorem escapes_ite (c : Prop) [Decidable c] (x y : Checked α) :
    Escapes (if c then x else y) ↔ (c ∧ Escapes x) ∨ (¬c ∧ Escapes y) := by
  split <;> simp [*]

theorem escapes_and (x y : Checked Bool) :
    Escapes (x <&&> y) ↔ Escapes x ∨ x = .ok true ∧ Escapes y := by
  cases x with
  | error raised => simp [Escapes, andM, bind, Except.bind]
  | ok b => cases b <;> simp [Escapes, andM, bind, Except.bind, toBool, pure, Except.pure]

end Rules

/-- A loop over `l` gets to an item where it trips. -/
def Reaches {α : Type} (goes trips : α → Prop) (l : List α) : Prop :=
  ∃ before item after, l = before ++ item :: after ∧ (∀ other ∈ before, goes other) ∧ trips item

section Reaches

variable {α : Type} {goes trips : α → Prop}

theorem not_reaches_nil : ¬ Reaches goes trips [] := by
  intro ⟨before, item, after, split, _⟩
  cases before <;> cases split

theorem reaches_cons (item : α) (l : List α) :
    Reaches goes trips (item :: l) ↔ trips item ∨ goes item ∧ Reaches goes trips l := by
  constructor
  · intro ⟨before, found, after, split, passed, tripped⟩
    cases before with
    | nil =>
      cases split
      exact .inl tripped
    | cons first before =>
      cases split
      exact .inr ⟨passed item (by simp), before, found, after, rfl,
        fun other inside => passed other (by simp [inside]), tripped⟩
  · rintro (tripped | ⟨goesOn, before, found, after, rfl, passed, tripped⟩)
    · exact ⟨[], item, l, rfl, by simp, tripped⟩
    · exact ⟨item :: before, found, after, rfl, by simpa using ⟨goesOn, passed⟩, tripped⟩

end Reaches

def unhashable : Json → Bool
  | .list _ => true
  | .dict _ => true
  | _ => false

@[simp] theorem escapes_isIn (value : Json) (names : List String) :
    Escapes (isIn value names) ↔ unhashable value = true := by
  cases value <;> simp [isIn, unhashable, typeError, failsClosed]

theorem isIn_ok_true {value : Json} {names : List String} :
    isIn value names = .ok true ↔ ∃ s ∈ names, value = .str s := by
  cases value <;> simp [isIn, raise]

section Language

variable (language : Language)

def convertible (value : Json) : Bool :=
  !value.truthy || match value with
    | .float (.infinite _) => false
    | .float .nan => false
    | .str s => (language.parseInt s).isSome
    | .list _ => false
    | .dict _ => false
    | _ => true

theorem escapes_intOrZero (value : Json) :
    Escapes (intOrZero language value) ↔ convertible language value = false := by
  unfold intOrZero Json.orElse convertible
  cases truth : value.truthy with
  | false => simp [toInt]
  | true =>
    cases value with
    | null => cases truth
    | bool b => simp [toInt]
    | int n => simp [toInt]
    | float x => cases x <;> simp [toInt, overflowError, valueError, failsClosed]
    | str s => cases parsed : language.parseInt s <;> simp [toInt, parsed, valueError, failsClosed]
    | list items => simp [toInt, typeError, failsClosed]
    | dict entries => simp [toInt, typeError, failsClosed]

/-- `fromisoformat` reads the time and `astimezone` cannot convert it. -/
def OutsideCalendar (text : String) : Prop :=
  strip text ≠ "" ∧
    ∃ time, language.fromIso (withoutZ (strip text)) = some time ∧ time.utc = none

theorem escapes_parseTime (text : String) :
    Escapes (parseTime language text) ↔ OutsideCalendar language text := by
  unfold parseTime OutsideCalendar
  by_cases empty : strip text = ""
  · simp [empty]
  · cases read : language.fromIso (withoutZ (strip text)) with
    | none => simp [empty, read]
    | some time => cases utc : time.utc <;> simp [empty, read, utc, overflowError, failsClosed]

theorem projectProcessIdentity_eq (value prior current : String) :
    projectProcessIdentity value prior current =
      .ok (RunNowQueue.projectProcessIdentity value prior current) := by
  obtain ⟨marker, _, found⟩ := RunNowQueue.redactionMarkers_find [prior, current] (by simp)
  unfold projectProcessIdentity RunNowQueue.projectProcessIdentity
  dsimp only
  rw [found]
  split <;> rfl

theorem noted_ok (scan : Scan) (claim : Entries) (disposition reason operationState : String)
    (attempts : List Entries) :
    ∃ after, noted language scan claim disposition reason operationState attempts = .ok after := by
  unfold noted transitionRecord
  simp only [projectProcessIdentity_eq]
  exact ⟨_, rfl⟩

@[simp] theorem not_escapes_noted (scan : Scan) (claim : Entries)
    (disposition reason operationState : String) (attempts : List Entries) :
    ¬ Escapes (noted language scan claim disposition reason operationState attempts) := by
  obtain ⟨after, built⟩ :=
    noted_ok language scan claim disposition reason operationState attempts
  rw [built]
  exact not_escapes_ok after

def TripsRecord (value : Json) : Prop :=
  ∃ record, value = .dict record ∧
    (hasKeys record transitionFields &&
      isText (Json.get record "private_schema") transitionSchema) = true ∧
    (unhashable (Json.get record "disposition") = true ∨
      (∃ s ∈ transitionDispositions, Json.get record "disposition" = .str s) ∧
        (unhashable (Json.get record "reason") = true ∨
          (∃ s ∈ transitionReasons, Json.get record "reason" = .str s) ∧
            unhashable (Json.get record "operation_state") = true))

theorem escapes_validTransitionRecord (value : Json) :
    Escapes (validTransitionRecord language value) ↔ TripsRecord value := by
  cases value with
  | dict record =>
    simp only [validTransitionRecord, TripsRecord, Json.dict.injEq, exists_eq_left', escapes_ite,
      escapes_and, escapes_isIn, isIn_ok_true, not_escapes_pure, not_escapes_ok, and_false,
      or_false]
  | _ => simp [validTransitionRecord, TripsRecord]

def TripsTransition (entry : String × Json) : Prop :=
  ∃ fields record, entry.2 = .dict fields ∧ fields.lookup "last_transition" = some record ∧
    TripsRecord record

theorem escapes_checkTransitions (claims : Entries) :
    Escapes (checkTransitions language claims) ↔
      Reaches (fun entry => checkTransitions language [entry] = .ok ()) TripsTransition claims := by
  induction claims with
  | nil => simp [checkTransitions, not_reaches_nil]
  | cons entry rest ih =>
    obtain ⟨id, claim⟩ := entry
    rw [reaches_cons, ← ih]
    cases claim with
    | dict fields =>
      cases found : fields.lookup "last_transition" with
      | none => simp [checkTransitions, TripsTransition, found]
      | some record =>
        have trips : TripsTransition (id, .dict fields) ↔
            Escapes (validTransitionRecord language record) := by
          rw [escapes_validTransitionRecord]
          simp [TripsTransition, found]
        rw [trips]
        simp only [checkTransitions, found, escapes_bind]
        refine or_congr_right ?_
        cases valid : validTransitionRecord language record with
        | error raised => simp [bind, Except.bind]
        | ok accepted => cases accepted <;> simp [bind, Except.bind, raise]
    | _ => simp [checkTransitions, TripsTransition]

def storedClaims (content : Content) : Entries :=
  match content with
  | .parsed (.dict data) =>
    match Json.get data "pending", Json.get data "claims" with
    | .list _, .dict claims => claims
    | _, _ => []
  | _ => []

def TripsLoad (content : Content) : Prop :=
  Reaches (fun entry => checkTransitions language [entry] = .ok ()) TripsTransition
    (storedClaims content)

theorem escapes_loadUnlocked (content : Content) :
    Escapes (loadUnlocked language content) ↔ TripsLoad language content := by
  unfold TripsLoad
  rw [← escapes_checkTransitions]
  unfold loadUnlocked storedClaims
  cases content with
  | missing => simp [checkTransitions]
  | undecodable => simp [checkTransitions]
  | parsed value =>
    cases value with
    | dict data =>
      dsimp only
      cases Json.get data "pending" with
      | list pending =>
        cases Json.get data "claims" with
        | dict claims =>
          simp only [escapes_bind, not_escapes_pure, and_false, exists_const, or_false]
        | _ => simp [checkTransitions]
      | _ => simp [checkTransitions]
    | _ => simp [checkTransitions]

def TripsStatus (entry : String × Json) : Prop :=
  entry.1 ≠ "" ∧ ∃ fields, entry.2 = .dict fields ∧ unhashable (Json.get fields "status") = true

theorem escapes_misplacedClaim (data : Data) (claims : Entries) :
    Escapes (misplacedClaim language data claims) ↔
      Reaches (fun entry => misplacedClaim language data [entry] = .ok none)
        TripsStatus claims := by
  induction claims with
  | nil => simp [misplacedClaim, not_reaches_nil]
  | cons entry rest ih =>
    obtain ⟨id, claim⟩ := entry
    rw [reaches_cons, ← ih]
    cases claim with
    | dict fields =>
      by_cases named : id = ""
      · simp [misplacedClaim, TripsStatus, named]
      · have trips : TripsStatus (id, .dict fields) ↔
            Escapes (isIn (Json.get fields "status") claimStatuses) := by
          simp [TripsStatus, named]
        rw [trips]
        simp only [misplacedClaim, named, if_false, escapes_bind]
        refine or_congr_right ?_
        cases looked : isIn (Json.get fields "status") claimStatuses with
        | error raised => simp [bind, Except.bind]
        | ok known =>
          simp only [Except.ok.injEq, exists_eq_left', bind, Except.bind]
          split <;> simp [pure, Except.pure]
    | _ => simp [misplacedClaim, TripsStatus]

def TripsTopology (data : Data) : Prop :=
  (data.pending.any (fun item => textOf item == "") = false ∧ (data.pending.map textOf).Nodup) ∧
    Reaches (fun entry => misplacedClaim language data [entry] = .ok none) TripsStatus data.claims

theorem escapes_validateTopology (data : Data) :
    Escapes (validateTopology language data) ↔ TripsTopology language data := by
  unfold validateTopology TripsTopology
  rw [← escapes_misplacedClaim]
  simp
  tauto

theorem escapes_requireTopology (data : Data) :
    Escapes (requireTopology language data) ↔ TripsTopology language data := by
  unfold requireTopology
  rw [escapes_bind, escapes_validateTopology, or_iff_left]
  rintro ⟨misplaced, _, escaped⟩
  cases misplaced <;> simp at escaped

structure Placed (data : Data) : Prop where
  pending : ∀ item ∈ data.pending, ∃ id, item = .str id
  claims : ∀ entry ∈ data.claims, ∃ fields, entry.2 = .dict fields ∧
    (∃ status ∈ claimStatuses, Json.get fields "status" = .str status) ∧
      validClaimIdentity fields = true

theorem misplacedClaim_none {claims : Entries}
    (passed : misplacedClaim language data claims = .ok none) :
    ∀ entry ∈ claims, ∃ fields, entry.2 = .dict fields ∧
      (∃ status ∈ claimStatuses, Json.get fields "status" = .str status) ∧
        validClaimIdentity fields = true := by
  induction claims with
  | nil => simp
  | cons entry rest ih =>
    obtain ⟨id, claim⟩ := entry
    cases claim with
    | dict fields =>
      simp only [misplacedClaim] at passed
      split at passed
      · cases passed
      · obtain ⟨known, looked, passed⟩ := Results.bind_eq_ok.mp passed
        split at passed
        · rename_i good
          simp only [Bool.and_eq_true] at good
          obtain ⟨⟨⟨rfl, _⟩, identity⟩, _⟩ := good
          exact List.forall_mem_cons.mpr
            ⟨⟨fields, rfl, isIn_ok_true.mp looked, identity⟩, ih passed⟩
        · cases passed
    | _ => cases passed

theorem placed_of_validateTopology (passed : validateTopology language data = .ok none) :
    Placed data := by
  revert passed
  fun_cases validateTopology language data with
  | case3 texts =>
    refine fun passed => ⟨fun item inside => ?_, misplacedClaim_none language passed⟩
    simp only [List.any_eq_true, beq_iff_eq, not_exists, not_and] at texts
    cases item with
    | str id => exact ⟨id, rfl⟩
    | _ => exact absurd rfl (texts _ inside)
  | _ => exact nofun

theorem placed_of_requireTopology (passed : requireTopology language data = .ok ()) :
    Placed data := by
  obtain ⟨misplaced, checked, passed⟩ := Results.bind_eq_ok.mp passed
  cases misplaced with
  | none => exact placed_of_validateTopology language checked
  | some id => cases passed

theorem escapes_validateStrictMutationTopology (data : Data) :
    Escapes (validateStrictMutationTopology language data) ↔ TripsTopology language data := by
  unfold validateStrictMutationTopology
  rw [escapes_bind, escapes_requireTopology, or_iff_left]
  simp

theorem placed_of_validateStrictMutationTopology
    (passed : validateStrictMutationTopology language data = .ok ()) : Placed data := by
  obtain ⟨_, checked, _⟩ := Results.bind_eq_ok.mp passed
  exact placed_of_requireTopology language checked

theorem mem_of_key {claims : Entries} (inside : id ∈ claims.map Prod.fst) :
    (id, Json.get claims id) ∈ claims := by
  unfold Json.get
  induction claims with
  | nil => simp at inside
  | cons entry rest ih =>
    obtain ⟨other, claim⟩ := entry
    by_cases same : id = other
    · simp [same]
    · rw [List.lookup_cons, beq_false_of_ne same]
      exact List.mem_cons_of_mem _ (ih (by simpa [same] using inside))

theorem mem_of_claimOf {claim : Entries} (stored : claimOf data id = .dict claim) :
    (id, .dict claim) ∈ data.claims := by
  have inside : id ∈ data.claims.map Prod.fst := by
    by_contra absent
    have none : data.claims.lookup id = none := by
      rw [List.lookup_eq_none_iff]
      intro entry member
      simp only [List.mem_map, not_exists, not_and] at absent
      exact bne_iff_ne.mpr (Ne.symm (absent entry member))
    simp [claimOf, Json.get, none] at stored
  rw [← stored]
  exact mem_of_key inside

theorem Placed.claimOf {data : Data} (placed : Placed data) {id : String}
    (inside : id ∈ sortedIds data) :
    ∃ fields, claimOf data id = .dict fields ∧
      (∃ status ∈ claimStatuses, Json.get fields "status" = .str status) ∧
        validClaimIdentity fields = true := by
  simp only [sortedIds, List.mem_insertionSort, List.mem_dedup] at inside
  exact placed.claims _ (mem_of_key inside)

theorem not_escapes_refuseActiveClaims (ids : List String)
    (valid : ∀ id ∈ ids, ∃ fields status, claimOf data id = .dict fields ∧
      Json.get fields "status" = .str status) :
    ¬ Escapes (refuseActiveClaims data ids) := by
  induction ids with
  | nil => simp [refuseActiveClaims]
  | cons id rest ih =>
    obtain ⟨fields, status, claim, text⟩ := valid id (by simp)
    have later := ih fun other inside => valid other (by simp [inside])
    simp [refuseActiveClaims, claim, text, unhashable, later]

theorem escapes_validatePublicMutation (data : Data) :
    Escapes (validatePublicMutation language data) ↔ TripsTopology language data := by
  unfold validatePublicMutation
  rw [escapes_bind, escapes_validateStrictMutationTopology, or_iff_left]
  rintro ⟨_, strict, escaped⟩
  refine not_escapes_refuseActiveClaims (sortedIds data) (fun id inside => ?_) escaped
  obtain ⟨fields, claim, ⟨status, _, text⟩, _⟩ :=
    (placed_of_validateStrictMutationTopology language strict).claimOf inside
  exact ⟨fields, status, claim, text⟩

def attemptId (attempt : Entries) : String := textOf (Json.get attempt "attempt_id")

def KnownStatus (attempt : Entries) : Prop :=
  ∃ status ∈ attemptStatuses, Json.get attempt "status" = .str status

/-- The check gets to a record whose status cannot be hashed. -/
def TripsInventory (id : String) (seen : List String) (attempts : List Entries) : Prop :=
  ∃ before attempt after, attempts = before ++ attempt :: after ∧
    (∀ other ∈ before ++ [attempt], fitsInventory language id seen other = true) ∧
    ((before ++ [attempt]).map attemptId).Nodup ∧
    (∀ other ∈ before, KnownStatus other) ∧ unhashable (Json.get attempt "status") = true

theorem fitsInventory_cons (id : String) (seen : List String) (first attempt : Entries) :
    fitsInventory language id (attemptId first :: seen) attempt = true ↔
      fitsInventory language id seen attempt = true ∧ attemptId attempt ≠ attemptId first := by
  simp only [fitsInventory, attemptId, Bool.and_eq_true, List.contains_cons, Bool.not_eq_true',
    Bool.or_eq_false_iff, beq_eq_false_iff_ne, ne_eq]
  tauto

theorem tripsInventory_cons (id : String) (seen : List String) (first : Entries)
    (rest : List Entries) :
    TripsInventory language id seen (first :: rest) ↔
      fitsInventory language id seen first = true ∧
        (unhashable (Json.get first "status") = true ∨
          KnownStatus first ∧ TripsInventory language id (attemptId first :: seen) rest) := by
  constructor
  · intro ⟨before, attempt, after, split, fits, distinct, known, tripped⟩
    cases before with
    | nil =>
      cases split
      exact ⟨fits _ (by simp), .inl tripped⟩
    | cons head before =>
      cases split
      rw [List.cons_append, List.map_cons, List.nodup_cons] at distinct
      refine ⟨fits _ (by simp), .inr ⟨known _ (by simp), before, attempt, after, rfl,
        fun other inside => ?_, distinct.2, fun other inside => known other (by simp [inside]),
        tripped⟩⟩
      rw [fitsInventory_cons]
      refine ⟨fits other (List.mem_cons_of_mem _ inside), fun same => distinct.1 ?_⟩
      rw [← same]
      exact List.mem_map_of_mem inside
  · rintro ⟨fits, tripped | ⟨known, before, attempt, after, rfl, later, distinct, others, tripped⟩⟩
    · exact ⟨[], first, rest, rfl, by simpa using fits, by simp, by simp, tripped⟩
    · refine ⟨first :: before, attempt, after, rfl, fun other inside => ?_, ?_, ?_, tripped⟩
      · rcases List.mem_cons.mp inside with rfl | inside
        · exact fits
        · exact ((fitsInventory_cons language id seen first other).mp (later other inside)).1
      · rw [List.cons_append, List.map_cons, List.nodup_cons]
        refine ⟨fun inside => ?_, distinct⟩
        obtain ⟨other, inside, same⟩ := List.mem_map.mp inside
        exact ((fitsInventory_cons language id seen first other).mp (later other inside)).2 same
      · simpa using ⟨known, others⟩

theorem escapes_malformedInventory (id : String) (seen : List String) (attempts : List Entries) :
    Escapes (malformedInventory language id seen attempts) ↔
      TripsInventory language id seen attempts := by
  induction attempts generalizing seen with
  | nil =>
    simp only [malformedInventory, not_escapes_ok, false_iff]
    rintro ⟨before, attempt, after, split, _⟩
    cases before <;> cases split
  | cons first rest ih =>
    rw [tripsInventory_cons, ← ih, KnownStatus, ← isIn_ok_true]
    simp only [malformedInventory, escapes_ite, escapes_bind, escapes_isIn, not_escapes_ok,
      and_false, or_false]
    refine and_congr_right fun _ => or_congr_right ?_
    cases looked : isIn (Json.get first "status") attemptStatuses with
    | error raised => simp
    | ok known => cases known <;> simp [attemptId]

theorem malformedInventory_false (id : String) (seen : List String) {attempts : List Entries}
    (fine : malformedInventory language id seen attempts = .ok false) :
    ∀ attempt ∈ attempts, KnownStatus attempt := by
  induction attempts generalizing seen with
  | nil => simp
  | cons first rest ih =>
    simp only [malformedInventory] at fine
    split at fine
    · obtain ⟨known, looked, fine⟩ := Results.bind_eq_ok.mp fine
      cases known with
      | false => cases fine
      | true => exact List.forall_mem_cons.mpr ⟨isIn_ok_true.mp looked, ih _ fine⟩
    · cases fine

/-- Loading the facts of `id` gets to a record that trips. -/
def TripsFacts (ctx : Context) (id : String) : Prop :=
  ∃ state attempts, ctx.loader id = .loaded state attempts ∧
    operationStates.contains state = true ∧ TripsInventory language id [] attempts

theorem escapes_loadRecoveryFacts (ctx : Context) (id : String) :
    Escapes (loadRecoveryFacts language ctx id) ↔ TripsFacts language ctx id := by
  unfold loadRecoveryFacts TripsFacts
  cases ctx.loader id with
  | notCallable => simp
  | raised => simp
  | loaded state attempts =>
    simp only [escapes_ite, escapes_bind, escapes_malformedInventory, not_escapes_pure,
      not_escapes_ok, and_false, exists_const, or_false, Loaded.loaded.injEq]
    constructor
    · rintro ⟨known, tripped⟩
      exact ⟨state, attempts, ⟨rfl, rfl⟩, known, tripped⟩
    · rintro ⟨_, _, ⟨rfl, rfl⟩, known, tripped⟩
      exact ⟨known, tripped⟩

theorem loadRecoveryFacts_clear {facts : Facts}
    (loaded : loadRecoveryFacts language ctx id = .ok facts) (clear : facts.loadReason = "") :
    ctx.loader id = .loaded facts.state facts.attempts ∧
      operationStates.contains facts.state = true ∧
      malformedInventory language id [] facts.attempts = .ok false := by
  revert loaded
  fun_cases loadRecoveryFacts language ctx id with
  | case3 state attempts read known =>
    intro loaded
    obtain ⟨malformed, checked, same⟩ := Results.bind_eq_ok.mp loaded
    cases same
    cases malformed with
    | true => simp at clear
    | false => exact ⟨read, known, checked⟩
  | _ =>
    rintro ⟨⟩
    exact absurd clear (by decide)

theorem anyUnfinished_ok {attempts : List Entries}
    (known : ∀ attempt ∈ attempts, KnownStatus attempt) :
    ∃ unfinished, anyUnfinished attempts = .ok unfinished ∧
      anyUnfinishedItem attempts = .ok unfinished := by
  induction attempts with
  | nil => exact ⟨false, rfl, rfl⟩
  | cons attempt rest ih =>
    obtain ⟨status, _, text⟩ := known attempt (by simp)
    obtain ⟨unfinished, later, laterItem⟩ := ih fun other inside => known other (by simp [inside])
    have found : attempt.lookup "status" = some (.str status) := by
      cases here : attempt.lookup "status" with
      | none => simp [Json.get, here] at text
      | some value => simpa [Json.get, here] using text
    simp only [anyUnfinished, anyUnfinishedItem, text, found, isIn, bind, Except.bind]
    split
    · exact ⟨true, rfl, rfl⟩
    · exact ⟨unfinished, later, laterItem⟩

theorem not_escapes_specificClaimPurpose {facts : Facts}
    (loaded : loadRecoveryFacts language ctx id = .ok facts) :
    ¬ Escapes (specificClaimPurpose facts) := by
  fun_cases specificClaimPurpose facts with
  | case3 clear =>
    have fine := (loadRecoveryFacts_clear language loaded (not_not.mp clear)).2.2
    obtain ⟨unfinished, done, _⟩ := anyUnfinished_ok (malformedInventory_false language id [] fine)
    simp [done]
  | _ => simp

def TripsEpoch (current : Json) (id : String) (lease : Credential) (snapshot : Option Entries) :
    Prop :=
  ∃ fields, current = .dict fields ∧ claimMatches language fields id lease snapshot = true ∧
    convertible language (Json.get fields "lease_epoch") = false

theorem escapes_exactCurrentClaim (current : Json) (id : String) (lease : Credential)
    (snapshot : Option Entries) :
    Escapes (exactCurrentClaim language current id lease snapshot) ↔
      TripsEpoch language current id lease snapshot := by
  unfold TripsEpoch
  cases current with
  | dict fields => simp [exactCurrentClaim, escapes_intOrZero]
  | _ => simp [exactCurrentClaim]

theorem epoch_of_validClaimIdentity (valid : validClaimIdentity fields = true) :
    ∃ epoch, fields.lookup "lease_epoch" = some (.int epoch) := by
  simp only [validClaimIdentity, Bool.and_eq_true] at valid
  obtain ⟨⟨⟨bounded, _⟩, _⟩, _⟩ := valid
  unfold Json.get at bounded
  cases found : fields.lookup "lease_epoch" with
  | none => simp [found, validBoundedInteger] at bounded
  | some value =>
    cases value with
    | int epoch => exact ⟨epoch, rfl⟩
    | _ => simp [found, validBoundedInteger] at bounded

theorem not_tripsEpoch_of_placed (placed : Placed data) (id : String) (lease : Credential)
    (snapshot : Option Entries) : ¬ TripsEpoch language (claimOf data id) id lease snapshot := by
  rintro ⟨fields, stored, _, unconvertible⟩
  obtain ⟨_, same, _, valid⟩ := placed.claims _ (mem_of_claimOf stored)
  cases same
  obtain ⟨epoch, stored⟩ := epoch_of_validClaimIdentity valid
  simp [Json.get, stored, convertible] at unconvertible

theorem sameDeferIsComplete_ok (data : Data) (id : String) (current : Json)
    (snapshot : Entries) (lease : Credential) (reason : String) :
    ∃ complete,
      sameDeferIsComplete language data id current snapshot lease reason = .ok complete := by
  fun_cases sameDeferIsComplete language data id current snapshot lease reason with
  | case1 =>
    simp only [projectProcessIdentity_eq, bind, Except.bind]
    exact ⟨_, rfl⟩
  | _ => exact ⟨false, rfl⟩

theorem not_escapes_nextAttempt (previous : Json) : ¬ Escapes (nextAttempt previous) := by
  fun_cases nextAttempt previous <;> simp

theorem not_escapes_claimPending (data : Data) (id : String) (lease : Credential)
    (expiresAt observedAt : Instant) :
    ¬ Escapes (claimPending language data id lease expiresAt observedAt) := by
  simp [claimPending, not_escapes_nextAttempt]

theorem not_escapes_claimUnlocked (texts : ∀ item ∈ data.pending, ∃ id, item = .str id)
    (lease : Credential) (expiresAt observedAt : Instant) :
    ¬ Escapes (claimUnlocked language data lease expiresAt observedAt) := by
  unfold claimUnlocked
  cases pending : data.pending with
  | nil => simp
  | cons item rest =>
    obtain ⟨id, rfl⟩ := texts item (by simp [pending])
    simp [not_escapes_claimPending]

@[simp] theorem not_escapes_blockClaim (scan : Scan) (data : Data) (id : String) (claim : Entries)
    (reason operationState : String) (attempts : List Entries) :
    ¬ Escapes (blockClaim language scan data id claim reason operationState attempts :
      Checked α) := by
  simp [blockClaim]

theorem requeueClaim_ok (scan : Scan) (data : Data) (id : String) (claim : Entries)
    (reason operationState : String) (attempts : List Entries) :
    ∃ after saved, saved = setClaim data id after ∧
      requeueClaim language scan data id claim reason operationState attempts =
        .ok (if isPending data id then saved
          else { saved with pending := data.pending ++ [.str id] }) := by
  obtain ⟨after, built⟩ := noted_ok language scan (assign "status" (.str "requeued") claim)
    "requeued" reason operationState attempts
  exact ⟨after, _, rfl, by simp [requeueClaim, built, bind, Except.bind, pure, Except.pure]⟩

theorem completeClaimRecord_ok (scan : Scan) (data : Data) (id : String) (claim : Entries)
    (reason operationState : String) (attempts : List Entries) :
    ∃ after, completeClaimRecord language scan data id claim reason operationState attempts =
      .ok (setClaim data id after) := by
  obtain ⟨after, built⟩ := noted_ok language scan
    (assign "completed_at" (.str (language.isoformat scan.observedAt))
      (assign "status" (.str "completed") claim)) "completed" reason operationState attempts
  exact ⟨after, by simp [completeClaimRecord, built, bind, Except.bind, pure, Except.pure]⟩

def settled (fields : Entries) : Bool :=
  ["completed", "requeued"].contains (strOrEmpty language (Json.get fields "status"))

def expiryOf (fields : Entries) : Checked (Option Instant) :=
  parseTime language (strOrEmpty language (Json.get fields "expires_at"))

def Overtaken (scan : Scan) (fields : Entries) (expiry : Instant) : Prop :=
  expiry ≤ scan.observedAt.instant ∧
    ∃ epoch, fields.lookup "lease_epoch" = some (.int epoch) ∧ epoch < scan.lease.leaseEpoch

/-- The durable facts let the scan settle an expired claim. -/
def Recoverable (ctx : Context) (data : Data) (id : String) : Prop :=
  ∃ facts, loadRecoveryFacts language ctx id = .ok facts ∧ facts.loadReason = "" ∧
    (facts.state = "approved" ∧ facts.attempts.isEmpty ∨
      isPending data id = false ∧ terminalRecoveryStates.contains facts.state = true ∧
        anyUnfinished facts.attempts = .ok false)

def Passes (ctx : Context) (scan : Scan) (data : Data) (id : String) : Prop :=
  ∃ fields, claimOf data id = .dict fields ∧ (settled language fields = true ∨
    ∃ expiry, expiryOf language fields = .ok (some expiry) ∧ scan.observedAt.aware = true ∧
      (scan.observedAt.instant < expiry ∧ isPending data id = false ∨
        Overtaken scan fields expiry ∧ Recoverable language ctx data id))

def TripsScan (ctx : Context) (scan : Scan) (data : Data) (id : String) : Prop :=
  ∃ fields, claimOf data id = .dict fields ∧ settled language fields = false ∧
    (OutsideCalendar language (strOrEmpty language (Json.get fields "expires_at")) ∨
      ∃ expiry, expiryOf language fields = .ok (some expiry) ∧ (scan.observedAt.aware = false ∨
        Overtaken scan fields expiry ∧ TripsFacts language ctx id))

def Moves (data : Data) (id : String) (after : Data) : Prop :=
  after = data ∨ ∃ claim, after = setClaim data id claim ∨
    after = { setClaim data id claim with pending := data.pending ++ [.str id] }

/-- A step of the scan goes on if `passes` and raises if `trips`. -/
def Judged (step : Checked (Bool × Data)) (moves : Data → Prop) (passes trips : Prop) : Prop :=
  match step with
  | .ok result => moves result.2 ∧ passes ∧ ¬trips
  | .error raised => ¬passes ∧ (failsClosed raised.fault = false ↔ trips)

theorem judged_blockClaim (scan : Scan) (data : Data) (id : String) (claim : Entries)
    (reason operationState : String) (attempts : List Entries) {moves : Data → Prop}
    {passes trips : Prop} (stops : ¬passes) (closed : ¬trips) :
    Judged (blockClaim language scan data id claim reason operationState attempts) moves passes
      trips := by
  obtain ⟨after, built⟩ :=
    noted_ok language scan claim "blocked" reason operationState attempts
  simp [Judged, blockClaim, built, bind, Except.bind, stops, closed]

theorem judged_recoverExpiredClaim (ctx : Context) (scan : Scan) (data : Data) (id : String)
    (claim : Entries) :
    Judged (recoverExpiredClaim language ctx scan data id claim) (Moves data id)
      (Recoverable language ctx data id) (TripsFacts language ctx id) := by
  unfold recoverExpiredClaim
  rw [← escapes_loadRecoveryFacts]
  cases loaded : loadRecoveryFacts language ctx id with
  | error raised => simp [Judged, Recoverable, loaded, bind, Except.bind]
  | ok facts =>
    -- The facts decide; what does not settle the claim blocks it.
    have decided : Recoverable language ctx data id ↔ facts.loadReason = "" ∧
        (facts.state = "approved" ∧ facts.attempts.isEmpty ∨
          isPending data id = false ∧ terminalRecoveryStates.contains facts.state = true ∧
            anyUnfinished facts.attempts = .ok false) := by
      simp [Recoverable, loaded]
    have others : ∀ state ∈ terminalRecoveryStates,
        state ≠ "approved" ∧ activeStates.contains state = false := by decide
    have blocks (reason : String) (unsettled : ¬Recoverable language ctx data id) :
        Judged (blockClaim language scan data id claim reason facts.state facts.attempts)
          (Moves data id) (Recoverable language ctx data id) (Escapes (.ok facts)) :=
      judged_blockClaim language scan data id claim reason _ _ unsettled (not_escapes_ok facts)
    rw [decided] at blocks ⊢
    simp only [bind, Except.bind]
    split
    · next blocked => exact blocks _ fun settled => blocked settled.1
    next clear =>
    split
    · next approved =>
      obtain ⟨noted, saved, rfl, requeued⟩ := requeueClaim_ok language scan data id claim
        "expired_pre_execution_claim" facts.state facts.attempts
      rw [requeued]
      refine ⟨.inr ⟨noted, ?_⟩, ⟨not_not.mp clear, .inl approved⟩, not_escapes_ok facts⟩
      dsimp only
      split
      · exact .inl rfl
      · exact .inr rfl
    next unapproved =>
    split
    · next approved =>
      refine blocks _ fun ⟨_, settled⟩ => ?_
      obtain ⟨_, terminal, _⟩ := settled.resolve_left unapproved
      exact (others _ (by simpa using terminal)).1 approved
    split
    · next waiting => exact blocks _ fun settled => by simp_all
    next absent =>
    split
    · next active =>
      refine blocks _ fun ⟨_, settled⟩ => ?_
      obtain ⟨_, terminal, _⟩ := settled.resolve_left unapproved
      rw [(others _ (by simpa using terminal)).2] at active
      cases active
    split
    · next terminal =>
      have fine := (loadRecoveryFacts_clear language loaded (not_not.mp clear)).2.2
      obtain ⟨unfinished, done, doneItem⟩ :=
        anyUnfinished_ok (malformedInventory_false language id [] fine)
      rw [doneItem]
      cases unfinished with
      | true => exact blocks _ fun settled => by simp_all
      | false =>
        obtain ⟨noted, completed⟩ := completeClaimRecord_ok language scan data id claim
          "terminal_operation" facts.state facts.attempts
        simp only [completed, Bool.false_eq_true, if_false]
        exact ⟨.inr ⟨noted, .inl rfl⟩,
          ⟨not_not.mp clear, .inr ⟨eq_false_of_ne_true absent, terminal, done⟩⟩,
          not_escapes_ok facts⟩
    · next unfinished => exact blocks _ fun settled => by simp_all

theorem judged_recoverClaim (ctx : Context) (scan : Scan) (stored : claimOf data id = .dict fields)
    (valid : validClaimIdentity fields = true) :
    Judged (recoverClaim language ctx scan data id) (Moves data id)
      (Passes language ctx scan data id) (TripsScan language ctx scan data id) := by
  obtain ⟨epoch, found⟩ := epoch_of_validClaimIdentity valid
  unfold recoverClaim Passes TripsScan
  simp only [stored, Json.dict.injEq, exists_eq_left']
  split
  · next done =>
    have skipped : settled language fields = true := done
    simp [Judged, skipped, Moves]
  next unsettled =>
  have active : settled language fields = false := eq_false_of_ne_true unsettled
  rw [← escapes_parseTime, ← expiryOf, active]
  cases expires : expiryOf language fields with
  | error raised => simp [Judged, bind, Except.bind]
  | ok expiry =>
    have blocks (reason : String) {passes trips : Prop} :=
      @judged_blockClaim language scan data id fields reason "unavailable" [] (Moves data id)
        passes trips
    cases expiry with
    | none => exact blocks _ (by simp) (by simp)
    | some expiry =>
      cases zone : scan.observedAt.aware with
      | false => simp [Judged, isBefore, zone, typeError, failsClosed, raise, bind, Except.bind]
      | true =>
        simp only [bind, Except.bind, isBefore, zone, if_true, found, toInt, decide_eq_true_eq]
        by_cases early : scan.observedAt.instant < expiry
        · have notLate : ¬expiry ≤ scan.observedAt.instant := not_le.mpr early
          by_cases waiting : isPending data id = true
          · rw [if_pos early, if_pos waiting]
            exact blocks _ (by simp [waiting, Overtaken, notLate]) (by simp [Overtaken, notLate])
          · simp [Judged, early, waiting, Overtaken, Moves, notLate]
        · by_cases advanced : scan.lease.leaseEpoch ≤ epoch
          · rw [if_neg early, if_pos advanced]
            exact blocks _ (by simp [early, Overtaken, found, advanced])
              (by simp [Overtaken, found, advanced])
          · simpa [early, advanced, Overtaken, found, not_lt.mp early, not_le.mp advanced] using
              judged_recoverExpiredClaim language ctx scan data id fields

theorem Moves.others (moves : Moves data id after) {other : String} (different : other ≠ id) :
    claimOf after other = claimOf data other ∧ isPending after other = isPending data other := by
  have kept (claim : Entries) : claimOf (setClaim data id claim) other = claimOf data other := by
    simp [claimOf, setClaim, Json.get, lookup_assign, different]
  obtain rfl | ⟨claim, rfl | rfl⟩ := moves
  · exact ⟨rfl, rfl⟩
  · exact ⟨kept claim, rfl⟩
  · refine ⟨kept claim, ?_⟩
    simp [isPending, isText, Ne.symm different]

theorem Moves.texts {data after : Data} {id : String} (moves : Moves data id after)
    (texts : ∀ item ∈ data.pending, ∃ id, item = .str id) :
    ∀ item ∈ after.pending, ∃ id, item = .str id := by
  obtain rfl | ⟨claim, rfl | rfl⟩ := moves
  · exact texts
  · exact texts
  · intro item inside
    rcases List.mem_append.mp inside with inside | inside
    · exact texts item inside
    · exact ⟨id, List.mem_singleton.mp inside⟩

theorem escapes_recoverClaims (ctx : Context) (scan : Scan) (data : Data) (ids : List String)
    (distinct : ids.Nodup)
    (valid : ∀ id ∈ ids, ∃ fields, claimOf data id = .dict fields ∧
      validClaimIdentity fields = true) (changed : Bool) (reached : Data)
    (same : ∀ id ∈ ids, claimOf reached id = claimOf data id ∧
      isPending reached id = isPending data id) :
    Escapes (recoverClaims language ctx scan ids (changed, reached)) ↔
      Reaches (Passes language ctx scan data) (TripsScan language ctx scan data) ids := by
  induction ids generalizing changed reached with
  | nil => simp [recoverClaims, not_reaches_nil]
  | cons id rest ih =>
    obtain ⟨fields, stored, identity⟩ := valid id (by simp)
    obtain ⟨sameClaim, samePending⟩ := same id (by simp)
    rw [← sameClaim] at stored
    have trips : TripsScan language ctx scan data id ↔ TripsScan language ctx scan reached id := by
      simp only [TripsScan, sameClaim]
    have passes : Passes language ctx scan data id ↔ Passes language ctx scan reached id := by
      simp only [Passes, Recoverable, sameClaim, samePending]
    have judged := judged_recoverClaim language ctx scan stored identity
    rw [reaches_cons, trips, passes, recoverClaims]
    have later (changed : Bool) (after : Data) (moves : Moves reached id after) :=
      ih (List.nodup_cons.mp distinct).2 (fun other inside => valid other (by simp [inside]))
        changed after fun other inside => by
          have different : other ≠ id :=
            fun equal => (List.nodup_cons.mp distinct).1 (equal ▸ inside)
          obtain ⟨sameClaim, samePending⟩ := same other (by simp [inside])
          rw [(moves.others different).1, (moves.others different).2]
          exact ⟨sameClaim, samePending⟩
    cases stepped : recoverClaim language ctx scan reached id with
    | error raised =>
      rw [stepped] at judged
      simp [judged.1, bind, Except.bind, judged.2]
    | ok result =>
      rw [stepped] at judged
      obtain ⟨moves, goesOn, fine⟩ := judged
      simp [goesOn, fine, bind, Except.bind, later _ _ moves]

theorem texts_of_recoverClaims (ids : List String) (distinct : ids.Nodup)
    (valid : ∀ id ∈ ids, ∃ fields,
      claimOf data id = .dict fields ∧ validClaimIdentity fields = true)
    (texts : ∀ item ∈ data.pending, ∃ id, item = .str id) {changed result : Bool}
    (passed : recoverClaims language ctx scan ids (changed, data) = .ok (result, after)) :
    ∀ item ∈ after.pending, ∃ id, item = .str id := by
  induction ids generalizing changed data with
  | nil =>
    cases passed
    exact texts
  | cons id rest ih =>
    obtain ⟨fields, stored, identity⟩ := valid id (by simp)
    obtain ⟨result, stepped, passed⟩ := Results.bind_eq_ok.mp passed
    have judged := judged_recoverClaim language ctx scan stored identity
    rw [stepped] at judged
    obtain ⟨moves, _, _⟩ := judged
    refine ih (List.nodup_cons.mp distinct).2 (fun other inside => ?_) (moves.texts texts) passed
    have different : other ≠ id := fun equal => (List.nodup_cons.mp distinct).1 (equal ▸ inside)
    rw [(moves.others different).1]
    exact valid other (by simp [inside])

theorem sortedIds_nodup (data : Data) : (sortedIds data).Nodup :=
  (List.perm_insertionSort _ _).nodup_iff.mpr (List.nodup_dedup _)

theorem not_escapes_persistBlocker (scan : Scan) (data : Data) (id : String) :
    ¬ Escapes (persistBlocker language scan data id : Checked α) := by
  fun_cases persistBlocker language scan data id <;> simp

def TripsRecovery (ctx : Context) (scan : Scan) (data : Data) : Prop :=
  TripsTopology language data ∨ validateTopology language data = .ok none ∧
    Reaches (Passes language ctx scan data) (TripsScan language ctx scan data) (sortedIds data)

theorem Placed.identity (placed : Placed data) :
    ∀ id ∈ sortedIds data, ∃ fields, QueueFile.claimOf data id = .dict fields ∧
      validClaimIdentity fields = true := by
  intro id inside
  obtain ⟨fields, stored, _, valid⟩ := placed.claimOf inside
  exact ⟨fields, stored, valid⟩

theorem escapes_recoverExpiredUnlocked (ctx : Context) (scan : Scan) (data : Data) :
    Escapes (recoverExpiredUnlocked language ctx scan data) ↔
      TripsRecovery language ctx scan data := by
  unfold recoverExpiredUnlocked TripsRecovery
  rw [escapes_bind, escapes_validateTopology]
  refine or_congr_right ?_
  cases checked : validateTopology language data with
  | error raised => simp
  | ok misplaced =>
    cases misplaced with
    | some id => simp [not_escapes_persistBlocker]
    | none =>
      have placed := placed_of_validateTopology language checked
      simp only [Except.ok.injEq, exists_eq_left', true_and]
      exact escapes_recoverClaims language ctx scan data (sortedIds data) (sortedIds_nodup data)
        placed.identity false data fun _ _ => ⟨rfl, rfl⟩

theorem texts_of_recoverExpiredUnlocked
    (passed : recoverExpiredUnlocked language ctx scan data = .ok (changed, after)) :
    ∀ item ∈ after.pending, ∃ id, item = .str id := by
  obtain ⟨misplaced, checked, passed⟩ := Results.bind_eq_ok.mp passed
  cases misplaced with
  | some id =>
    simp only [persistBlocker] at passed
    split at passed
    · split at passed
      · obtain ⟨_, _, passed⟩ := Results.bind_eq_ok.mp passed
        cases passed
      · cases passed
    · cases passed
  | none =>
    have placed := placed_of_validateTopology language checked
    exact texts_of_recoverClaims language (sortedIds data) (sortedIds_nodup data)
      placed.identity placed.pending passed

def Guarded (ctx : Context) (lease : Credential) : Prop :=
  Lease.validate ctx.files lease ctx.guardNow = .ok ()

theorem enterLeaseGuard_ok (ctx : Context) (lease : Credential) (refused : Fault) :
    enterLeaseGuard ctx lease refused = .ok () ↔ Guarded ctx lease := by
  unfold enterLeaseGuard Guarded
  cases Lease.validate ctx.files lease ctx.guardNow <;> simp [raise]

theorem escapes_guarded (ctx : Context) (lease : Credential) {refused : Fault}
    (closed : failsClosed refused = true) (rest : Checked α) :
    Escapes (enterLeaseGuard ctx lease refused >>= fun _ => rest) ↔
      Guarded ctx lease ∧ Escapes rest := by
  have guard : ¬ Escapes (enterLeaseGuard ctx lease refused) := by
    fun_cases enterLeaseGuard ctx lease refused <;> simp [closed]
  rw [escapes_bind, or_iff_right guard, ← enterLeaseGuard_ok ctx lease refused]
  constructor
  · rintro ⟨_, passed, escaped⟩
    exact ⟨passed, escaped⟩
  · rintro ⟨passed, escaped⟩
    exact ⟨(), passed, escaped⟩

theorem escapes_loaded (content : Content) (rest : Data → Checked α) :
    Escapes (loadUnlocked language content >>= rest) ↔ TripsLoad language content ∨
      ∃ data, loadUnlocked language content = .ok data ∧ Escapes (rest data) := by
  rw [escapes_bind, escapes_loadUnlocked]

theorem escapes_expiring (ttl : Ttl) (now : Instant) {rest : Instant → Checked α} {trips : Prop}
    (later : ∀ expiresAt, Escapes (rest expiresAt) ↔ trips) :
    Escapes (claimExpiry ttl now >>= rest) ↔
      (∃ expiresAt, claimExpiry ttl now = .ok expiresAt) ∧ trips := by
  have expiry : ¬ Escapes (claimExpiry ttl now) := by
    unfold claimExpiry
    fun_cases validatedClaimExpiry ttl now <;> simp [Except.mapError]
  simp only [escapes_bind, expiry, false_or, later, exists_and_right]

end Language

inductive Call where
  | listPending
  | position (id : String)
  | peek
  | enqueue (id : String)
  | remove (id : String)
  | discardPending (id : String)
  | dequeue
  | claim (lease : Credential) (ttl : Ttl)
  | claimFromLease (lease : Credential) (ttl : Ttl)
  | claimSpecificFromLease (id : String) (lease : Credential)
  | completeClaim (id ownerToken : String) (leaseEpoch : Int)
  | completeClaimFromLease (id : String) (lease : Credential) (snapshot : Option Entries)
  | completeAndRemoveClaimFromLease (id : String) (lease : Credential) (snapshot : Entries)
  | deferClaimFromLease (id : String) (snapshot : Entries) (lease : Credential) (reason : String)
  | removeCancelledFromLease (id : String) (lease : Credential)
  | recoverExpiredClaimsFromLease (lease : Credential) (observedAt : Option Moment)

namespace Call

section Call

variable (language : Language) (isOther : Char → Bool) (ctx : Context)

def run (content : Content) : Call → Outcome
  | .listPending => QueueFile.listPending language content
  | .position id => QueueFile.position language id content
  | .peek => QueueFile.peek language content
  | .enqueue id => QueueFile.enqueue language id content
  | .remove id => QueueFile.remove language id content
  | .discardPending id => QueueFile.discardPending language id content
  | .dequeue => QueueFile.dequeue language content
  | .claim lease ttl => QueueFile.claim language isOther ctx lease ttl content
  | .claimFromLease lease ttl => QueueFile.claimFromLease language ctx lease ttl content
  | .claimSpecificFromLease id lease =>
    QueueFile.claimSpecificFromLease language ctx id lease content
  | .completeClaim id ownerToken leaseEpoch =>
    QueueFile.completeClaim language ctx id ownerToken leaseEpoch content
  | .completeClaimFromLease id lease snapshot =>
    QueueFile.completeClaimFromLease language ctx id lease snapshot content
  | .completeAndRemoveClaimFromLease id lease snapshot =>
    QueueFile.completeAndRemoveClaimFromLease language ctx id lease snapshot content
  | .deferClaimFromLease id snapshot lease reason =>
    QueueFile.deferClaimFromLease language ctx id snapshot lease reason content
  | .removeCancelledFromLease id lease =>
    QueueFile.removeCancelledFromLease language ctx id lease content
  | .recoverExpiredClaimsFromLease lease observedAt =>
    QueueFile.recoverExpiredClaimsFromLease language ctx lease observedAt content

def Admitted : Call → Prop
  | .claim lease ttl =>
    (validPublicClaimIdentity isOther lease.ownerToken &&
      validPublicClaimIdentity isOther lease.processInstanceId &&
      boundedInteger lease.leaseEpoch 1 maxTransitionEpoch) = true ∧
      ∃ expiresAt, claimExpiry ttl ctx.now = .ok expiresAt
  | .claimFromLease lease ttl =>
    (∃ expiresAt, claimExpiry ttl ctx.now = .ok expiresAt) ∧ Guarded ctx lease
  | .claimSpecificFromLease _ lease =>
    (∃ expiresAt, claimExpiry defaultTtl ctx.now = .ok expiresAt) ∧ Guarded ctx lease
  | .completeClaimFromLease _ lease _ => Guarded ctx lease
  | .completeAndRemoveClaimFromLease _ lease _ => Guarded ctx lease
  | .deferClaimFromLease _ _ lease reason =>
    ["max_concurrent_reached", "target_locked"].contains reason = true ∧ Guarded ctx lease
  | .removeCancelledFromLease _ lease => Guarded ctx lease
  | .recoverExpiredClaimsFromLease lease _ => Guarded ctx lease
  | _ => True

def TripsOn (data : Data) : Call → Prop
  | .listPending => False
  | .position _ => False
  | .peek => False
  | .claimFromLease lease _ => TripsRecovery language ctx ⟨lease, ctx.moment⟩ data
  | .recoverExpiredClaimsFromLease lease observedAt =>
    TripsRecovery language ctx ⟨lease, observedAt.getD ctx.moment⟩ data
  | .claimSpecificFromLease id _ => TripsTopology language data ∨
    validateStrictMutationTopology language data = .ok () ∧
      hasStatus (claimOf data id) "claimed" = false ∧ isPending data id = true ∧
      TripsFacts language ctx id
  | .completeClaim id ownerToken _ => ∃ fields, claimOf data id = .dict fields ∧
    (isText (Json.get fields "status") "claimed" &&
      strOrEmpty language (Json.get fields "owner_token") == ownerToken) = true ∧
    convertible language (Json.get fields "lease_epoch") = false
  | .completeClaimFromLease id lease snapshot =>
    TripsEpoch language (claimOf data id) id lease snapshot
  | .deferClaimFromLease id snapshot lease _ =>
    TripsEpoch language (claimOf data id) id lease (some snapshot) ∨
      exactCurrentClaim language (claimOf data id) id lease (some snapshot) = .ok true ∧
        TripsFacts language ctx id
  | .removeCancelledFromLease id _ => TripsTopology language data ∨
    validateStrictMutationTopology language data = .ok () ∧ TripsFacts language ctx id
  | _ => TripsTopology language data

/-- The call gets to a value that it cannot handle. -/
def Trips (content : Content) (call : Call) : Prop :=
  call.Admitted isOther ctx ∧ (TripsLoad language content ∨
    ∃ data, loadUnlocked language content = .ok data ∧ call.TripsOn language ctx data)

end Call

end Call

section Calls

variable (language : Language) (isOther : Char → Bool) (ctx : Context) (content : Content)

theorem escapes_checked {α β : Type} {check : Data → Checked α} {trips : Data → Prop}
    (checks : ∀ data, Escapes (check data) ↔ trips data) {rest : Data → α → Checked β}
    (closes : ∀ data a, check data = .ok a → ¬ Escapes (rest data a)) :
    Escapes (loadUnlocked language content >>= fun data => check data >>= rest data) ↔
      TripsLoad language content ∨
        ∃ data, loadUnlocked language content = .ok data ∧ trips data := by
  rw [escapes_loaded]
  refine or_congr_right (exists_congr fun data => and_congr_right fun _ => ?_)
  rw [escapes_bind, checks, or_iff_left]
  rintro ⟨a, passed, escaped⟩
  exact closes data a passed escaped

theorem escapes_claim (lease : Credential) (ttl : Ttl) :
    Escapes (claim language isOther ctx lease ttl content) ↔
      (Call.claim lease ttl).Trips language isOther ctx content := by
  simp only [claim, Call.Trips, Call.Admitted, escapes_ite, escapes_raise, failsClosed_invalid,
    Bool.true_eq_false, and_false, or_false, and_assoc]
  refine and_congr_right fun _ => escapes_expiring ttl ctx.now fun expiresAt => ?_
  refine escapes_checked language content (escapes_requireTopology language) fun data _ passed => ?_
  have closed := not_escapes_claimUnlocked language
    (placed_of_requireTopology language passed).pending lease expiresAt ctx.now
  simp [closed]

theorem escapes_claimFromLease (lease : Credential) (ttl : Ttl) :
    Escapes (claimFromLease language ctx lease ttl content) ↔
      (Call.claimFromLease lease ttl).Trips language isOther ctx content := by
  unfold claimFromLease Call.Trips Call.Admitted
  rw [and_assoc]
  refine escapes_expiring ttl ctx.now fun expiresAt => ?_
  rw [escapes_guarded ctx lease failsClosed_blockedFault]
  refine and_congr_right fun _ => ?_
  refine escapes_checked language content
    (escapes_recoverExpiredUnlocked language ctx ⟨lease, ctx.moment⟩) fun data result passed => ?_
  have closed := not_escapes_claimUnlocked language
    (texts_of_recoverExpiredUnlocked language passed) lease expiresAt ctx.now
  simp [closed]

theorem escapes_claimSpecificFromLease (id : String) (lease : Credential) :
    Escapes (claimSpecificFromLease language ctx id lease content) ↔
      (Call.claimSpecificFromLease id lease).Trips language isOther ctx content := by
  unfold claimSpecificFromLease Call.Trips Call.Admitted
  rw [and_assoc]
  refine escapes_expiring defaultTtl ctx.now fun expiresAt => ?_
  rw [escapes_guarded ctx lease failsClosed_blockedFault, escapes_loaded]
  refine and_congr_right fun _ => or_congr_right
    (exists_congr fun data => and_congr_right fun _ => ?_)
  rw [escapes_bind, escapes_validateStrictMutationTopology]
  refine or_congr_right ?_
  cases hasStatus (claimOf data id) "claimed" with
  | true => simp
  | false =>
    cases isPending data id with
    | false => simp
    | true =>
      have purposes (facts : Facts) (loaded : loadRecoveryFacts language ctx id = .ok facts) :=
        not_escapes_specificClaimPurpose language loaded
      simp only [Bool.false_eq_true, if_false, if_true, escapes_bind, escapes_loadRecoveryFacts,
        not_escapes_claimPending, not_escapes_pure, and_false, exists_false, or_false, true_and]
      constructor
      · rintro ⟨_, passed, tripped | ⟨facts, loaded, escaped⟩⟩
        · exact ⟨passed, tripped⟩
        · exact absurd escaped (purposes facts loaded)
      · rintro ⟨passed, tripped⟩
        exact ⟨(), passed, .inl tripped⟩

theorem escapes_completeClaim (id ownerToken : String) (leaseEpoch : Int) :
    Escapes (completeClaim language ctx id ownerToken leaseEpoch content) ↔
      (Call.completeClaim id ownerToken leaseEpoch).Trips language isOther ctx content := by
  unfold completeClaim
  simp only [Call.Trips, Call.Admitted, Call.TripsOn, true_and]
  rw [escapes_loaded]
  refine or_congr_right (exists_congr fun data => and_congr_right fun _ => ?_)
  cases claimOf data id with
  | dict current => simp [escapes_intOrZero]
  | _ => simp

theorem escapes_completeClaimFromLease (id : String) (lease : Credential)
    (snapshot : Option Entries) :
    Escapes (completeClaimFromLease language ctx id lease snapshot content) ↔
      (Call.completeClaimFromLease id lease snapshot).Trips language isOther ctx content := by
  unfold completeClaimFromLease Call.Trips Call.Admitted
  rw [escapes_guarded ctx lease (failsClosed_claimConflict id)]
  refine and_congr_right fun _ => ?_
  refine escapes_checked language content
    (fun data => escapes_exactCurrentClaim language (claimOf data id) id lease snapshot)
    fun data exactly _ => ?_
  split
  · rename_i current _ _
    obtain ⟨after, completed⟩ := completeClaimRecord_ok language ⟨lease, ctx.moment⟩ data id
      current "claim_completed" "unavailable" []
    simp [completed]
  · simp

theorem escapes_completeAndRemoveClaimFromLease (id : String) (lease : Credential)
    (snapshot : Entries) :
    Escapes (completeAndRemoveClaimFromLease language ctx id lease snapshot content) ↔
      (Call.completeAndRemoveClaimFromLease id lease snapshot).Trips language isOther ctx
        content := by
  unfold completeAndRemoveClaimFromLease Call.Trips Call.Admitted
  rw [escapes_guarded ctx lease (failsClosed_claimConflict id)]
  refine and_congr_right fun _ => ?_
  refine escapes_checked language content (escapes_validateStrictMutationTopology language)
    fun data _ passed => ?_
  have placed := placed_of_validateStrictMutationTopology language passed
  have closed := not_tripsEpoch_of_placed language placed id lease (some snapshot)
  simp [escapes_exactCurrentClaim, closed]

theorem claimMatches_of_sameDefer {fields snapshot : Entries} {lease : Credential} {reason : String}
    (complete : sameDeferIsComplete language data id (.dict fields) snapshot lease reason =
      .ok true)
    (expected : Option Entries) : claimMatches language fields id lease expected = false := by
  simp only [sameDeferIsComplete] at complete
  split at complete
  · rename_i requeued
    have text : Json.get fields "status" = .str "requeued" := by
      revert requeued
      cases Json.get fields "status" <;> simp [isText]
    simp [claimMatches, text, isText]
  · cases complete

theorem escapes_deferClaimFromLease (id : String) (snapshot : Entries) (lease : Credential)
    (reason : String) :
    Escapes (deferClaimFromLease language ctx id snapshot lease reason content) ↔
      (Call.deferClaimFromLease id snapshot lease reason).Trips language isOther ctx content := by
  unfold deferClaimFromLease
  simp only [Call.Trips, Call.Admitted, Call.TripsOn]
  split
  · rename_i supported
    simp only [supported, true_and]
    rw [escapes_guarded ctx lease (failsClosed_claimConflict id), escapes_loaded]
    refine and_congr_right fun _ =>
      or_congr_right (exists_congr fun data => and_congr_right fun _ => ?_)
    cases claimOf data id with
    | dict current =>
      obtain ⟨complete, same⟩ :=
        sameDeferIsComplete_ok language data id (.dict current) snapshot lease reason
      cases complete with
      | true =>
        have other := claimMatches_of_sameDefer language same (some snapshot)
        simp [same, TripsEpoch, exactCurrentClaim, other]
      | false =>
        simp only [same, escapes_bind, not_escapes_ok, false_or, Except.ok.injEq, exists_eq_left',
          Bool.false_eq_true, if_false, escapes_exactCurrentClaim]
        refine or_congr_right ?_
        constructor
        · rintro ⟨exactly, compared, escaped⟩
          cases exactly with
          | false => simp at escaped
          | true =>
            rw [escapes_bind, escapes_loadRecoveryFacts] at escaped
            refine ⟨compared, escaped.resolve_right ?_⟩
            rintro ⟨facts, _, escaped⟩
            split at escaped
            · simp at escaped
            · split at escaped
              · simp at escaped
              · obtain ⟨after, saved, _, requeued⟩ := requeueClaim_ok language
                  ⟨lease, ctx.moment⟩ data id current reason facts.state facts.attempts
                simp [requeued] at escaped
        · rintro ⟨compared, tripped⟩
          refine ⟨true, compared, ?_⟩
          rw [escapes_bind, escapes_loadRecoveryFacts]
          exact .inl tripped
    | _ => simp [sameDeferIsComplete, exactCurrentClaim, TripsEpoch]
  · rename_i unsupported
    simp only [unsupported, Bool.false_eq_true, false_and, escapes_raise, failsClosed_invalid,
      Bool.true_eq_false]

theorem escapes_removeCancelledFromLease (id : String) (lease : Credential) :
    Escapes (removeCancelledFromLease language ctx id lease content) ↔
      (Call.removeCancelledFromLease id lease).Trips language isOther ctx content := by
  unfold removeCancelledFromLease Call.Trips Call.Admitted
  rw [escapes_guarded ctx lease failsClosed_blockedFault, escapes_loaded]
  refine and_congr_right fun _ => or_congr_right
    (exists_congr fun data => and_congr_right fun _ => ?_)
  rw [escapes_bind, escapes_validateStrictMutationTopology]
  refine or_congr_right ?_
  constructor
  · rintro ⟨_, passed, escaped⟩
    rw [escapes_bind, escapes_loadRecoveryFacts] at escaped
    refine ⟨passed, escaped.resolve_right ?_⟩
    rintro ⟨facts, loaded, escaped⟩
    split at escaped
    · simp at escaped
    · rename_i clear
      have fine := loadRecoveryFacts_clear language loaded (by tauto)
      obtain ⟨unfinished, done, _⟩ :=
        anyUnfinished_ok (malformedInventory_false language id [] fine.2.2)
      cases unfinished <;> simp [done] at escaped
  · rintro ⟨passed, tripped⟩
    refine ⟨(), passed, ?_⟩
    rw [escapes_bind, escapes_loadRecoveryFacts]
    exact .inl tripped

theorem escapes_recoverExpiredClaimsFromLease (lease : Credential) (observedAt : Option Moment) :
    Escapes (recoverExpiredClaimsFromLease language ctx lease observedAt content) ↔
      (Call.recoverExpiredClaimsFromLease lease observedAt).Trips language isOther ctx
        content := by
  unfold recoverExpiredClaimsFromLease Call.Trips Call.Admitted
  rw [escapes_guarded ctx lease failsClosed_blockedFault]
  refine and_congr_right fun _ => ?_
  exact escapes_checked language content
    (escapes_recoverExpiredUnlocked language ctx ⟨lease, observedAt.getD ctx.moment⟩)
    fun data result _ => not_escapes_pure _

theorem escapes_run (call : Call) :
    Escapes (call.run language isOther ctx content) ↔ call.Trips language isOther ctx content := by
  cases call with
  | listPending =>
    simp [Call.run, Call.Trips, Call.Admitted, Call.TripsOn, listPending, escapes_loadUnlocked]
  | position id =>
    simp [Call.run, Call.Trips, Call.Admitted, Call.TripsOn, position, escapes_loadUnlocked]
  | peek =>
    simp [Call.run, Call.Trips, Call.Admitted, Call.TripsOn, peek, escapes_loadUnlocked]
  | enqueue id =>
    simp only [Call.Trips, Call.Admitted, true_and]
    refine escapes_checked language content (escapes_requireTopology language) fun data _ _ => ?_
    split
    · simp
    · split <;> simp
  | remove id =>
    simp only [Call.Trips, Call.Admitted, true_and]
    exact escapes_checked language content (escapes_validatePublicMutation language)
      fun data _ _ => not_escapes_pure _
  | discardPending id =>
    simp only [Call.Trips, Call.Admitted, true_and]
    exact escapes_checked language content (escapes_validatePublicMutation language)
      fun data _ _ => not_escapes_pure _
  | dequeue =>
    simp only [Call.Trips, Call.Admitted, true_and]
    exact escapes_checked language content (escapes_validatePublicMutation language)
      fun data _ _ => not_escapes_pure _
  | claim lease ttl => exact escapes_claim language isOther ctx content lease ttl
  | claimFromLease lease ttl => exact escapes_claimFromLease language isOther ctx content lease ttl
  | claimSpecificFromLease id lease =>
    exact escapes_claimSpecificFromLease language isOther ctx content id lease
  | completeClaim id ownerToken leaseEpoch =>
    exact escapes_completeClaim language isOther ctx content id ownerToken leaseEpoch
  | completeClaimFromLease id lease snapshot =>
    exact escapes_completeClaimFromLease language isOther ctx content id lease snapshot
  | completeAndRemoveClaimFromLease id lease snapshot =>
    exact escapes_completeAndRemoveClaimFromLease language isOther ctx content id lease snapshot
  | deferClaimFromLease id snapshot lease reason =>
    exact escapes_deferClaimFromLease language isOther ctx content id snapshot lease reason
  | removeCancelledFromLease id lease =>
    exact escapes_removeCancelledFromLease language isOther ctx content id lease
  | recoverExpiredClaimsFromLease lease observedAt =>
    exact escapes_recoverExpiredClaimsFromLease language isOther ctx content lease observedAt

/-- A call fails closed exactly if it gets to no value that it cannot hash, convert or compare. -/
theorem call_failsClosed_iff (call : Call) :
    (∀ raised, call.run language isOther ctx content = .error raised →
      failsClosed raised.fault = true) ↔ ¬ call.Trips language isOther ctx content := by
  rw [← escapes_run, Escapes]
  push Not
  refine forall_congr' fun raised => imp_congr_right fun _ => ?_
  rw [Ne, Bool.not_eq_false]

end Calls

def faultOf : Outcome → Option Fault
  | .ok _ => none
  | .error raised => some raised.fault

def sampleTime (second : Fin 60) : String :=
  s!"2026-01-01T00:00:{second.val / 10}{second.val % 10}+00:00"

/-- The seconds of one minute, and a time beyond the calendar. -/
def sampleLanguage : Language where
  equal := Json.eq
  text _ := ""
  parseInt _ := none
  fromIso text :=
    if text = "9999-12-31T23:59:59-23:59" then some ⟨true, none⟩
    else ((List.finRange 60).find? (sampleTime · = text)).map fun second =>
      ⟨true, some (1000000 * second.val : Int)⟩
  isoformat time := sampleTime (Fin.ofNat 60 (time.instant / 1000000).toNat)

def sampleLease : Credential := ⟨"token", 2, "process"⟩

def sampleContext : Context where
  files := ⟨some 2, some ⟨Lease.workerLeaseSchema, "worker", "process", 2, "token", 0, 0,
    some 120, 0⟩⟩
  guardNow := 0
  now := 0
  loader id := .loaded "approved"
    [[("schema", .str Attempts.attemptSchema), ("attempt_id", .str "a"), ("operation_id", .str id),
      ("status", .list [])]]

def sampleClaim (changes : Entries) : Json :=
  .dict (changes ++ [("operation_id", .str "op"), ("status", .str "claimed"),
    ("owner_token", .str "token"), ("process_instance_id", .str "process"),
    ("lease_epoch", .int 1), ("attempt", .int 1),
    ("expires_at", .str "2026-01-01T00:00:00+00:00")])

def sampleFile (changes : Entries) : Content :=
  .parsed (.dict [("pending", .list []), ("claims", .dict [("op", sampleClaim changes)])])

/-- A transition record whose disposition is a list. -/
def listDisposition : Json :=
  .dict (transitionFields.map fun field =>
    (field, if field = "private_schema" then .str transitionSchema else .list []))

theorem calls_escape :
    faultOf (Call.peek.run sampleLanguage (fun _ => false) sampleContext
        (sampleFile [("last_transition", listDisposition)])) = some typeError ∧
      faultOf ((Call.enqueue "other").run sampleLanguage (fun _ => false) sampleContext
        (sampleFile [("status", .list [])])) = some typeError ∧
      faultOf ((Call.completeClaim "op" "token" 1).run sampleLanguage (fun _ => false)
        sampleContext (sampleFile [("lease_epoch", .str "one")])) = some valueError ∧
      faultOf ((Call.recoverExpiredClaimsFromLease sampleLease none).run sampleLanguage
        (fun _ => false) sampleContext
        (sampleFile [("expires_at", .str "9999-12-31T23:59:59-23:59")])) = some overflowError ∧
      faultOf ((Call.recoverExpiredClaimsFromLease sampleLease none).run sampleLanguage
        (fun _ => false) sampleContext (sampleFile [])) = some typeError ∧
      faultOf ((Call.recoverExpiredClaimsFromLease sampleLease (some ⟨false, 0⟩)).run
        sampleLanguage (fun _ => false) sampleContext (sampleFile [])) = some typeError ∧
      failsClosed typeError = false ∧ failsClosed valueError = false ∧
      failsClosed overflowError = false := by
  decide +kernel

end RExecOp.QueueFile
