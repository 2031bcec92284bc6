import Mathlib.Logic.Relation
import RExecOp.RunNowQueue

/-! Every call of the run-now queue is one of a few changes of the stored queue, and each of
them keeps its topology. -/

namespace RExecOp.RunNowQueue

open Lease (Instant Credential LeaseFiles)

structure ValidIdentity (claim : Claim) : Prop where
  epoch : 1 ≤ claim.leaseEpoch ∧ claim.leaseEpoch ≤ maxTransitionEpoch
  attempt : 1 ≤ claim.attempt ∧ claim.attempt ≤ maxTransitionEpoch
  token : claim.ownerToken ≠ ""
  process : claim.processInstanceId ≠ ""

structure Placed (pending : List String) (id : String) (c : Claim) : Prop where
  named : id ≠ ""
  key : c.operationId = id
  valid : ValidIdentity c
  requeued : c.status = .requeued → id ∈ pending
  claimed : c.status = .claimed → id ∉ pending

structure Topology (q : Queue) : Prop where
  nodup : q.pending.Nodup
  named : "" ∉ q.pending
  placed : ∀ id c, q.claims.get id = some c → Placed q.pending id c

/-- The identity of a lease, as `acquire` returns it. -/
structure ValidLease (lease : Credential) : Prop where
  epoch : 1 ≤ lease.leaseEpoch ∧ lease.leaseEpoch ≤ maxTransitionEpoch
  token : lease.ownerToken ≠ ""
  process : lease.processInstanceId ≠ ""

def Claim.tuple (c : Claim) : String × String × String × Int × Int :=
  (c.operationId, c.ownerToken, c.processInstanceId, c.leaseEpoch, c.attempt)

/-- A claimed record changed in place by the scan or a completion. -/
inductive Touch (q : Queue) : Queue → Prop where
  | note (id : String) (c c' : Claim) (stored : q.claims.get id = some c)
      (claimed : c.status = .claimed) (same : c'.tuple = c.tuple)
      (kept : c'.status ≠ .requeued) :
      Touch q { q with claims := q.claims.set id c' }
  | requeue (id : String) (c c' : Claim) (stored : q.claims.get id = some c)
      (claimed : c.status = .claimed) (same : c'.tuple = c.tuple)
      (again : c'.status = .requeued) :
      Touch q ⟨q.pending ++ [id], q.claims.set id c'⟩

structure Fresh (q : Queue) (c : Claim) : Prop where
  pending : c.operationId ∈ q.pending
  status : c.status = .claimed
  valid : ValidIdentity c
  attempt : nextAttempt (q.claims.get c.operationId) = .ok c.attempt

inductive Change where
  | keep
  | append (id : String)
  | drop (id : String)
  | forget (id : String)
  | settle (id : String)
  | requeue (id : String)
  | scan
  | claim (c : Claim)
  | scanClaim (c : Claim)

inductive Effect (q : Queue) : Change → Queue → Prop where
  | keep : Effect q .keep q
  | append (id : String) (named : id ≠ "") (absent : id ∉ q.pending)
      (unclaimed : ∀ c, q.claims.get id = some c → c.status ≠ .claimed) :
      Effect q (.append id) { q with pending := q.pending ++ [id] }
  | drop (id : String) (rest : List String) (sub : rest.Sublist q.pending)
      (only : ∀ x ∈ q.pending, x ≠ id → x ∈ rest)
      (settled : ∀ c, q.claims.get id = some c → c.status = .completed) :
      Effect q (.drop id) { q with pending := rest }
  | forget (id : String) (rest : List String) (sub : rest.Sublist q.pending)
      (only : ∀ x ∈ q.pending, x ≠ id → x ∈ rest) :
      Effect q (.forget id) ⟨rest, q.claims.remove id⟩
  | settle (id : String) (c c' : Claim) (stored : q.claims.get id = some c)
      (claimed : c.status = .claimed) (same : c'.tuple = c.tuple)
      (kept : c'.status ≠ .requeued) :
      Effect q (.settle id) { q with claims := q.claims.set id c' }
  | requeue (id : String) (c c' : Claim) (stored : q.claims.get id = some c)
      (claimed : c.status = .claimed) (same : c'.tuple = c.tuple)
      (again : c'.status = .requeued) :
      Effect q (.requeue id) ⟨q.pending ++ [id], q.claims.set id c'⟩
  | scan {q' : Queue} (scanned : Relation.ReflTransGen Touch q q') : Effect q .scan q'
  | claim (c : Claim) (fresh : Fresh q c) :
      Effect q (.claim c) ⟨q.pending.erase c.operationId, q.claims.set c.operationId c⟩
  | scanClaim {q' : Queue} (c : Claim) (scanned : Relation.ReflTransGen Touch q q')
      (fresh : Fresh q' c) :
      Effect q (.scanClaim c) ⟨q'.pending.erase c.operationId, q'.claims.set c.operationId c⟩

variable {id : String} {pending : List String} {c : Claim} {q : Queue} {lease : Credential}

theorem validIdentity_of_tuple {c c' : Claim} (valid : ValidIdentity c)
    (same : c'.tuple = c.tuple) : ValidIdentity c' := by
  simp only [Claim.tuple, Prod.mk.injEq] at same
  obtain ⟨-, token, process, epoch, attempt⟩ := same
  exact ⟨epoch ▸ valid.epoch, attempt ▸ valid.attempt, token ▸ valid.token,
    process ▸ valid.process⟩

theorem Placed.of_pending {pending pending' : List String} (placed : Placed pending id c)
    (same : id ∈ pending' ↔ id ∈ pending) :
    Placed pending' id c where
  named := placed.named
  key := placed.key
  valid := placed.valid
  requeued again := same.mpr (placed.requeued again)
  claimed held member := placed.claimed held (same.mp member)

theorem placed_set {claims : Dict String Claim} (here : Placed pending id c)
    (others : ∀ j d, j ≠ id → claims.get j = some d → Placed pending j d) :
    ∀ j d, (claims.set id c).get j = some d → Placed pending j d := by
  intro j d found
  rw [Dict.get_set] at found
  by_cases same : j = id
  · rw [if_pos same] at found
    cases found
    rw [same]
    exact here
  · rw [if_neg same] at found
    exact others j d same found

theorem mem_append_singleton_ne {id j : String} (other : j ≠ id) :
    j ∈ pending ++ [id] ↔ j ∈ pending := by
  simp [other]

theorem nodup_append_singleton (nodup : pending.Nodup)
    (absent : id ∉ pending) : (pending ++ [id]).Nodup := by
  rw [← List.concat_eq_append]
  exact nodup.concat absent

theorem not_mem_append_singleton (named : "" ∉ pending)
    (nonempty : id ≠ "") : "" ∉ pending ++ [id] := by
  rw [mem_append_singleton_ne (Ne.symm nonempty)]
  exact named

theorem topology_touch {q q' : Queue} (topology : Topology q) (touch : Touch q q') :
    Topology q' := by
  cases touch with
  | note id c c' stored claimed same kept =>
    have place := topology.placed id c stored
    refine ⟨topology.nodup, topology.named, placed_set ?_ fun j d _ => topology.placed j d⟩
    exact ⟨place.named, (congrArg Prod.fst same).trans place.key,
      validIdentity_of_tuple place.valid same, fun again => absurd again kept,
      fun _ => place.claimed claimed⟩
  | requeue id c c' stored claimed same again =>
    have place := topology.placed id c stored
    refine ⟨nodup_append_singleton topology.nodup (place.claimed claimed),
      not_mem_append_singleton topology.named place.named, placed_set ?_ ?_⟩
    · refine ⟨place.named, (congrArg Prod.fst same).trans place.key,
        validIdentity_of_tuple place.valid same, fun _ => by simp, fun held => ?_⟩
      rw [again] at held
      cases held
    · intro j d other found
      exact (topology.placed j d found).of_pending (mem_append_singleton_ne other)

theorem topology_scanned {q q' : Queue} (topology : Topology q)
    (scanned : Relation.ReflTransGen Touch q q') : Topology q' := by
  induction scanned with
  | refl => exact topology
  | tail _ touch ih => exact topology_touch ih touch

theorem topology_claim (topology : Topology q) (fresh : Fresh q c) :
    Topology ⟨q.pending.erase c.operationId, q.claims.set c.operationId c⟩ := by
  have nonempty : c.operationId ≠ "" := fun empty => topology.named (empty ▸ fresh.pending)
  have gone : c.operationId ∉ q.pending.erase c.operationId := topology.nodup.not_mem_erase
  refine ⟨topology.nodup.erase _, fun member => topology.named (List.mem_of_mem_erase member),
    placed_set ?_ ?_⟩
  · refine ⟨nonempty, rfl, fresh.valid, fun again => ?_, fun _ => gone⟩
    rw [fresh.status] at again
    cases again
  · intro j d other found
    exact (topology.placed j d found).of_pending (List.mem_erase_of_ne other)

theorem topology_effect {q q' : Queue} {change : Change} (topology : Topology q)
    (effect : Effect q change q') : Topology q' := by
  cases effect with
  | keep => exact topology
  | append id named absent unclaimed =>
    refine ⟨nodup_append_singleton topology.nodup absent,
      not_mem_append_singleton topology.named named, ?_⟩
    intro j d found
    have place := topology.placed j d found
    refine ⟨place.named, place.key, place.valid,
      fun again => List.mem_append_left _ (place.requeued again), fun held member => ?_⟩
    rcases List.mem_append.mp member with member | member
    · exact place.claimed held member
    · rw [List.mem_singleton.mp member] at found
      exact unclaimed d found held
  | drop id rest sub only settled =>
    refine ⟨topology.nodup.sublist sub, fun member => topology.named (sub.mem member), ?_⟩
    intro j d found
    have place := topology.placed j d found
    refine ⟨place.named, place.key, place.valid, fun again => ?_,
      fun held member => place.claimed held (sub.mem member)⟩
    refine only j (place.requeued again) fun same => ?_
    rw [settled d (same ▸ found)] at again
    cases again
  | forget id rest sub only =>
    refine ⟨topology.nodup.sublist sub, fun member => topology.named (sub.mem member), ?_⟩
    intro j d found
    rw [Dict.get_remove] at found
    by_cases same : j = id
    · simp [same] at found
    · rw [if_neg same] at found
      have place := topology.placed j d found
      exact ⟨place.named, place.key, place.valid,
        fun again => only j (place.requeued again) same,
        fun held member => place.claimed held (sub.mem member)⟩
  | settle id c c' stored claimed same kept =>
    exact topology_touch topology (.note id c c' stored claimed same kept)
  | requeue id c c' stored claimed same again =>
    exact topology_touch topology (.requeue id c c' stored claimed same again)
  | scan scanned => exact topology_scanned topology scanned
  | claim c fresh => exact topology_claim topology fresh
  | scanClaim c scanned fresh => exact topology_claim (topology_scanned topology scanned) fresh

def Live (q : Queue) (id : String) : Prop :=
  id ∈ q.pending ∨ ∃ c, q.claims.get id = some c ∧ c.status = .claimed

def Completed (q : Queue) (id : String) : Prop :=
  ∃ c, q.claims.get id = some c ∧ c.status = .completed

theorem live_or_completed_touch {q q' : Queue} (touch : Touch q q')
    (here : Live q id ∨ Completed q id) : Live q' id ∨ Completed q' id := by
  cases touch with
  | note j c c' stored claimed same kept =>
    by_cases at_j : id = j
    · subst at_j
      cases status : c'.status with
      | claimed => exact .inl (.inr ⟨c', by simp, status⟩)
      | completed => exact .inr ⟨c', by simp, status⟩
      | requeued => exact absurd status kept
    · simpa only [Live, Completed, Dict.get_set_ne _ _ at_j] using here
  | requeue j c c' stored claimed same again =>
    by_cases at_j : id = j
    · exact .inl (.inl (by simp [at_j]))
    · simpa only [Live, Completed, Dict.get_set_ne _ _ at_j, mem_append_singleton_ne at_j]
        using here

theorem live_or_completed_scanned {q q' : Queue} (scanned : Relation.ReflTransGen Touch q q')
    (here : Live q id ∨ Completed q id) : Live q' id ∨ Completed q' id := by
  induction scanned with
  | refl => exact here
  | tail _ touch ih => exact live_or_completed_touch touch ih

theorem live_claim (fresh : Fresh q c) (live : Live q id) :
    Live ⟨q.pending.erase c.operationId, q.claims.set c.operationId c⟩ id := by
  by_cases at_c : id = c.operationId
  · exact .inr ⟨c, by rw [at_c, Dict.get_set_self], fresh.status⟩
  · simpa only [Live, Dict.get_set_ne _ _ at_c, List.mem_erase_of_ne at_c] using live

theorem live_effect {q q' : Queue} {change : Change} (effect : Effect q change q')
    (live : Live q id) :
    Live q' id ∨ change = .drop id ∨ change = .forget id ∨ change = .settle id ∨
      ((change = .scan ∨ ∃ c, change = .scanClaim c) ∧ Completed q' id) := by
  cases effect with
  | keep => exact .inl live
  | append j named absent unclaimed =>
    exact .inl (live.imp (List.mem_append_left _) fun held => held)
  | drop j rest sub only settled =>
    by_cases at_j : id = j
    · exact .inr (.inl (by rw [at_j]))
    · exact .inl (live.imp (fun member => only id member at_j) fun held => held)
  | forget j rest sub only =>
    by_cases at_j : id = j
    · exact .inr (.inr (.inl (by rw [at_j])))
    · refine .inl (live.imp (fun member => only id member at_j) fun held => ?_)
      simpa only [Dict.get_remove_ne _ at_j] using held
  | settle j c c' stored claimed same kept =>
    by_cases at_j : id = j
    · exact .inr (.inr (.inr (.inl (by rw [at_j]))))
    · refine .inl ?_
      simpa only [Live, Dict.get_set_ne _ _ at_j] using live
  | requeue j c c' stored claimed same again =>
    by_cases at_j : id = j
    · exact .inl (.inl (by simp [at_j]))
    · refine .inl ?_
      simpa only [Live, Dict.get_set_ne _ _ at_j, mem_append_singleton_ne at_j] using live
  | scan scanned =>
    rcases live_or_completed_scanned scanned (.inl live) with stays | done
    · exact .inl stays
    · exact .inr (.inr (.inr (.inr ⟨.inl rfl, done⟩)))
  | claim c fresh => exact .inl (live_claim fresh live)
  | scanClaim c scanned fresh =>
    by_cases at_c : id = c.operationId
    · exact .inl (.inr ⟨c, by rw [at_c, Dict.get_set_self], fresh.status⟩)
    · rcases live_or_completed_scanned scanned (.inl live) with stays | done
      · exact .inl (live_claim fresh stays)
      · refine .inr (.inr (.inr (.inr ⟨.inr ⟨c, rfl⟩, ?_⟩)))
        simpa only [Completed, Dict.get_set_ne _ _ at_c] using done

theorem loadUnlocked_ok {stored data : Queue} (loaded : loadUnlocked stored = .ok data) :
    data = stored := by
  unfold loadUnlocked at loaded
  split at loaded
  · cases loaded; rfl
  · cases loaded

theorem loadForTopology_ok {stored data : Queue} (loaded : loadForTopology stored = .ok data) :
    data = stored := by
  unfold loadForTopology at loaded
  split at loaded
  · cases loaded
  · rename_i data' inner
    split at loaded
    · cases loaded
    · cases loaded
      exact loadUnlocked_ok inner

theorem loadForStrictMutation_ok {stored data : Queue}
    (loaded : loadForStrictMutation stored = .ok data) : data = stored := by
  unfold loadForStrictMutation at loaded
  split at loaded
  · cases loaded
  · rename_i data' inner
    cases strict : validateStrictMutationTopology data' with
    | error fault => simp [strict, Except.map] at loaded
    | ok u =>
      simp only [strict, Except.map, Except.ok.injEq] at loaded
      rw [← loaded, loadUnlocked_ok inner]

theorem hasStatus_iff {data : Queue} {status : ClaimStatus} :
    hasStatus data id status = true ↔
      ∃ c, data.claims.get id = some c ∧ c.status = status := by
  unfold hasStatus
  split
  · rename_i c found
    simp [found]
  · rename_i missing
    simp [missing]

theorem validatePublicMutation_ok {data : Queue} (valid : validatePublicMutation data = .ok ()) :
    ∀ id c, data.claims.get id = some c → c.status = .completed := by
  intro id c found
  unfold validatePublicMutation at valid
  split at valid
  · cases valid
  · split at valid
    · cases valid
    · rename_i none_found
      have member := (Dict.mem_sortedKeys_iff data.claims id).mpr ⟨c, found⟩
      have quiet := List.find?_eq_none.mp none_found id member
      simp only [Bool.or_eq_true, not_or, hasStatus_iff, not_exists, not_and] at quiet
      cases status : c.status with
      | claimed => exact absurd status (quiet.1 c found)
      | requeued => exact absurd status (quiet.2 c found)
      | completed => rfl

theorem loadForPublicMutation_ok {stored data : Queue}
    (loaded : loadForPublicMutation stored = .ok data) :
    data = stored ∧ ∀ id c, stored.claims.get id = some c → c.status = .completed := by
  unfold loadForPublicMutation at loaded
  split at loaded
  · cases loaded
  · rename_i data' inner
    cases valid : validatePublicMutation data' with
    | error fault => simp [valid, Except.map] at loaded
    | ok u =>
      simp only [valid, Except.map, Except.ok.injEq] at loaded
      have same := loadUnlocked_ok inner
      exact ⟨loaded.symm.trans same, same ▸ validatePublicMutation_ok valid⟩

theorem boundedInteger_iff {value minimum maximum : Int} :
    boundedInteger value minimum maximum = true ↔ minimum ≤ value ∧ value ≤ maximum := by
  simp [boundedInteger]

theorem validClaimIdentity_iff : validClaimIdentity c = true ↔ ValidIdentity c := by
  simp only [validClaimIdentity, Bool.and_eq_true, boundedInteger_iff, bne_iff_ne, ne_eq]
  constructor
  · rintro ⟨⟨⟨epoch, attempt⟩, token⟩, process⟩
    exact ⟨epoch, attempt, token, process⟩
  · rintro ⟨epoch, attempt, token, process⟩
    exact ⟨⟨⟨epoch, attempt⟩, token⟩, process⟩

theorem misplacedClaim_eq_false
    (placed : Placed q.pending id c) : misplacedClaim q id c = false := by
  have valid := validClaimIdentity_iff.mpr placed.valid
  have requeued : c.status = .requeued → q.pending.contains id = true := fun again => by
    simpa using placed.requeued again
  simp only [misplacedClaim, valid, placed.key, placed.named, Bool.or_eq_false_iff,
    beq_eq_false_iff_ne, ne_eq, not_false_eq_true, bne_self_eq_false, Bool.not_true, true_and,
    Bool.and_eq_false_iff]
  by_cases again : c.status = .requeued
  · exact .inr (by rw [requeued again, Bool.not_true])
  · exact .inl again

theorem validateTopology_eq_none (topology : Topology q) :
    validateTopology q = none := by
  have named : q.pending.contains "" = false := by simpa using topology.named
  have nodup : decide q.pending.Nodup = true := decide_eq_true topology.nodup
  simp only [validateTopology, named, nodup, Bool.false_eq_true, if_false, Bool.not_true,
    List.find?_eq_none]
  intro id member
  obtain ⟨c, found⟩ := (Dict.mem_sortedKeys_iff q.claims id).mp member
  rw [found]
  simp only [misplacedClaim_eq_false (topology.placed id c found), Bool.false_eq_true,
    not_false_eq_true]

theorem validBoundedIdentity_boundedIdentity (value : String) :
    validBoundedIdentity (boundedIdentity value) = true := by
  unfold boundedIdentity
  split
  · assumption
  · decide

theorem redactionMarkers_find (tokens : List String) (few : tokens.length ≤ 2) :
    ∃ marker ∈ redactionMarkers,
      redactionMarkers.find? (fun marker => !tokens.contains marker) = some marker := by
  cases found : redactionMarkers.find? (fun marker => !tokens.contains marker) with
  | some marker => exact ⟨marker, List.mem_of_find?_eq_some found, rfl⟩
  | none =>
    have taken : redactionMarkers ⊆ tokens := fun marker member => by
      have here := List.find?_eq_none.mp found marker member
      simpa using here
    have distinct : redactionMarkers.Nodup := by decide
    have count := (List.subperm_of_subset distinct taken).length_le
    have three : redactionMarkers.length = 3 := rfl
    omega

theorem validBoundedIdentity_project (value prior current : String) :
    validBoundedIdentity (projectProcessIdentity value prior current) = true := by
  unfold projectProcessIdentity
  dsimp only
  split
  · exact validBoundedIdentity_boundedIdentity value
  · obtain ⟨marker, member, found⟩ := redactionMarkers_find [prior, current] (by simp)
    rw [found, Option.getD_some]
    have valid : ∀ marker ∈ redactionMarkers, validBoundedIdentity marker = true := by decide
    exact valid marker member

theorem countStatus_le (attempts : List AttemptFacts) (status : AttemptStatus) (remaining : Nat) :
    countStatus attempts status remaining ≤ remaining :=
  Nat.min_le_right _ _

theorem statusCounts_total_le (attempts : List AttemptFacts) :
    (statusCounts attempts).total ≤ maxTransitionAttemptCount := by
  unfold statusCounts StatusCounts.total
  dsimp only
  generalize maxTransitionAttemptCount = limit
  have first := countStatus_le attempts .completed limit
  generalize countStatus attempts .completed limit = completed at first ⊢
  have second := countStatus_le attempts .failed (limit - completed)
  generalize countStatus attempts .failed (limit - completed) = failed at second ⊢
  have third := countStatus_le attempts .indeterminate (limit - completed - failed)
  generalize countStatus attempts .indeterminate (limit - completed - failed) = lost at third ⊢
  have fourth := countStatus_le attempts .pending (limit - completed - failed - lost)
  generalize countStatus attempts .pending (limit - completed - failed - lost) = pending
    at fourth ⊢
  have fifth := countStatus_le attempts .started (limit - completed - failed - lost - pending)
  omega

theorem boundedEpoch_bounded {value : Int} (bounds : 1 ≤ value ∧ value ≤ maxTransitionEpoch) :
    boundedInteger (boundedEpoch value) 1 maxTransitionEpoch = true := by
  have bounded := boundedInteger_iff.mpr bounds
  rw [boundedEpoch, if_pos bounded]
  exact bounded

theorem validTransitionRecord_transitionRecord (valid : ValidIdentity c)
    (epoch : 1 ≤ lease.leaseEpoch ∧ lease.leaseEpoch ≤ maxTransitionEpoch) (observedAt : Instant)
    (disposition : Disposition) (reason : Reason) (state : RecordedState)
    (attempts : List AttemptFacts) : validTransitionRecord
      (transitionRecord c lease observedAt disposition reason state attempts) = true := by
  simp only [validTransitionRecord, transitionRecord, validBoundedIdentity_project,
    boundedEpoch_bounded valid.attempt, boundedEpoch_bounded valid.epoch,
    boundedEpoch_bounded epoch, statusCounts_total_le, decide_true, beq_self_eq_true, Bool.and_self]

/-- Every record has a valid identity and a last transition that loads. -/
def Intact (q : Queue) : Prop :=
  ∀ id c, q.claims.get id = some c → ValidIdentity c ∧ validLastTransition c = true

theorem intact_set (intact : Intact q) (pending : List String) (id : String)
    (valid : ValidIdentity c) (loads : validLastTransition c = true) :
    Intact ⟨pending, q.claims.set id c⟩ := by
  intro j d found
  rw [Dict.get_set] at found
  split at found
  · cases found
    exact ⟨valid, loads⟩
  · exact intact j d found

theorem intact_remove (intact : Intact q) (pending : List String) (id : String) :
    Intact ⟨pending, q.claims.remove id⟩ := by
  intro j d found
  rw [Dict.get_remove] at found
  split at found
  · cases found
  · exact intact j d found

def scanned : Except Queue (Bool × Queue) → Queue
  | .ok (_, q) => q
  | .error q => q

def Turns (q q' : Queue) : Prop := Touch q q' ∧ (Intact q → Intact q')

theorem touches {q q' : Queue} (turned : Relation.ReflTransGen Turns q q') :
    Relation.ReflTransGen Touch q q' :=
  Relation.ReflTransGen.mono (fun _ _ turns => And.left turns) _ _ turned

theorem intact_turned {q q' : Queue} (turned : Relation.ReflTransGen Turns q q')
    (intact : Intact q) : Intact q' := by
  induction turned with
  | refl => exact intact
  | tail _ turns ih => exact turns.2 ih

section Scan

variable (ctx : Context) {scan : Scan}
  (epoch : 1 ≤ scan.lease.leaseEpoch ∧ scan.lease.leaseEpoch ≤ maxTransitionEpoch)
  {q : Queue} {id : String} {c : Claim} (stored : q.claims.get id = some c)
  (held : c.status = .claimed)

include epoch stored in
theorem intact_noted {c' : Claim} {disposition : Disposition} {reason : Reason}
    {facts : RecordedState × List AttemptFacts} (same : c'.tuple = c.tuple)
    (record : c'.lastTransition = (noted scan c disposition reason facts).lastTransition) :
    Intact q → Intact ⟨pending, q.claims.set id c'⟩ := by
  intro intact
  have valid := (intact id c stored).1
  refine intact_set intact pending id (validIdentity_of_tuple valid same) ?_
  rw [validLastTransition, record]
  exact validTransitionRecord_transitionRecord valid epoch _ _ _ _ _

include epoch stored held

theorem turns_blockClaim (reason : Reason) (facts : RecordedState × List AttemptFacts) :
    Turns q (blockClaim scan q id c reason facts) :=
  ⟨.note id c _ stored held rfl (by simp [noted, held]), intact_noted epoch stored (by rfl)
    (by rfl)⟩

theorem turns_completeClaimRecord (reason : Reason)
    (facts : RecordedState × List AttemptFacts) :
    Turns q (completeClaimRecord scan q id c reason facts) :=
  ⟨.note id c _ stored held rfl (by simp), intact_noted epoch stored (by rfl) (by rfl)⟩

theorem turns_requeueClaim (topology : Topology q) (reason : Reason)
    (facts : RecordedState × List AttemptFacts) :
    Turns q (requeueClaim scan q id c reason facts) := by
  have absent := (topology.placed id c stored).claimed held
  refine ⟨?_, intact_noted epoch stored (by rfl) (by rfl)⟩
  simp only [requeueClaim, List.contains_iff_mem, absent, if_false]
  exact .requeue id c _ stored held rfl rfl

theorem turns_recoverExpiredClaim (topology : Topology q) :
    Turns q (scanned (recoverExpiredClaim ctx scan q id c)) := by
  have blocked := turns_blockClaim epoch stored held
  fun_cases recoverExpiredClaim ctx scan q id c with
  | case2 => exact turns_requeueClaim epoch stored held topology _ _
  | case7 => exact turns_completeClaimRecord epoch stored held _ _
  | _ => exact blocked _ _

omit stored held

theorem turned_recoverClaim (topology : Topology q) (id : String) :
    Relation.ReflTransGen Turns q (scanned (recoverClaim ctx scan q id)) := by
  have blocked {c : Claim} (stored : q.claims.get id = some c) (idle : ¬c.status ≠ .claimed) :=
    fun reason facts => Relation.ReflTransGen.single
      (turns_blockClaim epoch stored (not_not.mp idle) reason facts)
  fun_cases recoverClaim ctx scan q id with
  | case3 c stored idle => exact blocked stored idle _ _
  | case4 c stored idle => exact blocked stored idle _ _
  | case6 c stored idle => exact blocked stored idle _ _
  | case7 c stored idle =>
    exact .single (turns_recoverExpiredClaim ctx epoch stored (not_not.mp idle) topology)
  | _ => exact .refl

theorem turned_recoverClaims (ids : List String) (changed : Bool) (topology : Topology q) :
    Relation.ReflTransGen Turns q (scanned (recoverClaims ctx scan ids (changed, q))) := by
  induction ids generalizing changed q with
  | nil => exact .refl
  | cons id rest ih =>
    have first := turned_recoverClaim ctx epoch topology id
    simp only [recoverClaims]
    split
    · rename_i saved raised
      rw [raised] at first
      exact first
    · rename_i again data done
      rw [done] at first
      exact first.trans (ih _ (topology_scanned topology (touches first)))

theorem turned_recoverExpiredUnlocked (topology : Topology q) :
    Relation.ReflTransGen Turns q (scanned (recoverExpiredUnlocked ctx scan q)) := by
  rw [recoverExpiredUnlocked, validateTopology_eq_none topology]
  exact turned_recoverClaims ctx epoch _ false topology

end Scan

/-- A lease a worker holds or held. -/
abbrev GrantedLease := { lease : Credential // ValidLease lease }

inductive Call where
  | enqueue (id : String) (named : id ≠ "")
  | remove (id : String)
  | discardPending (id : String)
  | dequeue
  | claim (lease : Credential) (ttl : Ttl)
  | claimFromLease (lease : GrantedLease) (ttl : Ttl)
  | claimSpecificFromLease (id : String) (lease : GrantedLease)
  | completeClaim (id ownerToken : String) (leaseEpoch : Int)
  | completeClaimFromLease (id : String) (lease : GrantedLease) (snapshot : Option Claim)
  | completeAndRemoveClaimFromLease (id : String) (lease : GrantedLease) (snapshot : Claim)
  | deferClaimFromLease (id : String) (snapshot : Claim) (lease : GrantedLease) (reason : Reason)
  | removeCancelledFromLease (id : String) (lease : GrantedLease)
  | recoverExpiredClaimsFromLease (lease : GrantedLease) (observedAt : Instant)

inductive Reply where
  | done
  | popped (id : Option String)
  | claimed (claim : Option Claim)

def answer {α : Type} (reply : α → Reply) (r : Except Fault α × Queue) :
    Except Fault Reply × Queue := (r.1.map reply, r.2)

def Call.run (isOther : Char → Bool) (ctx : Context) : Call → Queue → Except Fault Reply × Queue
  | .enqueue id _, q => answer (fun _ => .done) (RunNowQueue.enqueue id q)
  | .remove id, q => answer (fun _ => .done) (RunNowQueue.remove id q)
  | .discardPending id, q => answer (fun _ => .done) (RunNowQueue.discardPending id q)
  | .dequeue, q => answer .popped (RunNowQueue.dequeue q)
  | .claim lease ttl, q => answer .claimed (RunNowQueue.claim isOther lease ttl ctx.now q)
  | .claimFromLease lease ttl, q =>
    answer .claimed (RunNowQueue.claimFromLease ctx lease.1 ttl q)
  | .claimSpecificFromLease id lease, q =>
    answer (fun selected => .claimed (selected.map (·.2)))
      (RunNowQueue.claimSpecificFromLease ctx id lease.1 q)
  | .completeClaim id token epoch, q =>
    answer (fun _ => .done) (RunNowQueue.completeClaim id token epoch ctx.now q)
  | .completeClaimFromLease id lease snapshot, q =>
    answer (fun _ => .done) (RunNowQueue.completeClaimFromLease ctx id lease.1 snapshot q)
  | .completeAndRemoveClaimFromLease id lease snapshot, q =>
    answer (fun _ => .done)
      (RunNowQueue.completeAndRemoveClaimFromLease ctx id lease.1 snapshot q)
  | .deferClaimFromLease id snapshot lease reason, q =>
    answer (fun _ => .done) (RunNowQueue.deferClaimFromLease ctx id snapshot lease.1 reason q)
  | .removeCancelledFromLease id lease, q =>
    answer (fun _ => .done) (RunNowQueue.removeCancelledFromLease ctx id lease.1 q)
  | .recoverExpiredClaimsFromLease lease observedAt, q =>
    answer (fun _ => .done)
      (RunNowQueue.recoverExpiredClaimsFromLease ctx lease.1 observedAt q)

/-- The calls that may store a blocker before they raise. -/
def Call.scans : Call → Bool
  | .claimFromLease _ _ => true
  | .recoverExpiredClaimsFromLease _ _ => true
  | _ => false

def Admits (q : Queue) (reply : Except Fault Reply) (call : Call) : Change → Prop
  | .keep => ∀ c, reply ≠ .ok (.claimed (some c))
  | .append id => (∃ named, call = .enqueue id named) ∧ reply = .ok .done
  | .drop id => (call = .discardPending id ∧ reply = .ok .done) ∨
      (call = .dequeue ∧ q.pending.head? = some id ∧ reply = .ok (.popped (some id)))
  | .forget id => (call = .remove id ∨ (∃ lease, call = .removeCancelledFromLease id lease) ∨
      ∃ lease snapshot, call = .completeAndRemoveClaimFromLease id lease snapshot) ∧
      reply = .ok .done
  | .settle id => ((∃ token epoch, call = .completeClaim id token epoch) ∨
      ∃ lease snapshot, call = .completeClaimFromLease id lease snapshot) ∧ reply = .ok .done
  | .requeue id => (∃ snapshot lease reason, call = .deferClaimFromLease id snapshot lease reason) ∧
      reply = .ok .done
  | .scan => call.scans = true ∧ ∀ c, reply ≠ .ok (.claimed (some c))
  | .claim c => reply = .ok (.claimed (some c))
  | .scanClaim c => call.scans = true ∧ reply = .ok (.claimed (some c))

/-- The queue and the reply of a call come from one admitted change. -/
def Does (q : Queue) (call : Call) (r : Except Fault Reply × Queue) : Prop :=
  ∃ change, Effect q change r.2 ∧ Admits q r.1 call change

def Makes (q : Queue) (call : Call) (r : Except Fault Reply × Queue) : Prop :=
  Does q call r ∧ (Intact q → Intact r.2)

theorem makes_error {α : Type} (reply : α → Reply) (fault : Fault) (q : Queue) (call : Call) :
    Makes q call (answer reply (.error fault, q)) :=
  ⟨⟨.keep, .keep, fun c => by simp [answer, Except.map]⟩, fun intact => intact⟩

theorem makes_same {α : Type} (reply : α → Reply) (a : α) (q : Queue) (call : Call)
    (unclaimed : ∀ c, reply a ≠ .claimed (some c)) : Makes q call (answer reply (.ok a, q)) :=
  ⟨⟨.keep, .keep, fun c same => unclaimed c (by simpa [answer, Except.map] using same)⟩,
    fun intact => intact⟩

theorem makes_scan {α : Type} {reply : α → Reply} {q after : Queue} {call : Call}
    {result : Except Fault α} (scans : call.scans = true)
    (walked : Relation.ReflTransGen Turns q after)
    (unclaimed : ∀ c, result.map reply ≠ .ok (.claimed (some c))) :
    Makes q call (answer reply (result, after)) :=
  ⟨⟨.scan, .scan (touches walked), scans, unclaimed⟩, intact_turned walked⟩

theorem filter_ne_only :
    ∀ x ∈ pending, x ≠ id → x ∈ pending.filter (· ≠ id) := by
  intro x member other
  simp [member, other]

theorem makes_enqueue (id : String) (named : id ≠ "") (q : Queue) :
    Makes q (.enqueue id named) (answer (fun _ => .done) (enqueue id q)) := by
  fun_cases enqueue id q with
  | case3 data loaded =>
    obtain rfl := loadForTopology_ok loaded
    exact makes_same _ _ _ _ (by simp)
  | case4 data loaded unclaimed absent =>
    obtain rfl := loadForTopology_ok loaded
    refine ⟨⟨.append id, .append id named (by simpa using absent) ?_, ⟨named, rfl⟩, rfl⟩,
      fun intact => intact⟩
    intro c found held
    exact unclaimed (hasStatus_iff.mpr ⟨c, found, held⟩)
  | _ => exact makes_error _ _ _ _

theorem makes_remove (id : String) (q : Queue) :
    Makes q (.remove id) (answer (fun _ => .done) (remove id q)) := by
  fun_cases remove id q with
  | case1 => exact makes_error _ _ _ _
  | case2 data loaded =>
    obtain rfl := (loadForPublicMutation_ok loaded).1
    exact ⟨⟨.forget id, .forget id _ List.filter_sublist filter_ne_only, .inl rfl, rfl⟩,
      fun intact => intact_remove intact _ id⟩
  | case3 => exact makes_same _ _ _ _ (by simp)

theorem makes_discardPending (id : String) (q : Queue) :
    Makes q (.discardPending id) (answer (fun _ => .done) (discardPending id q)) := by
  fun_cases discardPending id q with
  | case1 => exact makes_error _ _ _ _
  | case2 data loaded =>
    obtain ⟨rfl, settled⟩ := loadForPublicMutation_ok loaded
    exact ⟨⟨.drop id, .drop id _ List.filter_sublist filter_ne_only (settled id),
      .inl ⟨rfl, rfl⟩⟩, fun intact => intact⟩
  | case3 => exact makes_same _ _ _ _ (by simp)

theorem makes_dequeue (q : Queue) : Makes q .dequeue (answer .popped (dequeue q)) := by
  fun_cases dequeue q with
  | case1 => exact makes_error _ _ _ _
  | case2 => exact makes_same _ _ _ _ (by simp)
  | case3 data loaded id rest pending =>
    obtain ⟨rfl, settled⟩ := loadForPublicMutation_ok loaded
    refine ⟨⟨.drop id, .drop id rest ?_ ?_ (settled id), .inr ⟨rfl, by simp [pending], rfl⟩⟩,
      fun intact => intact⟩
    · rw [pending]
      exact List.sublist_cons_self id rest
    · intro x member other
      rw [pending] at member
      exact (List.mem_cons.mp member).resolve_left other

theorem nextAttempt_bounds {c : Option Claim} {attempt : Int}
    (next : nextAttempt c = .ok attempt) : 1 ≤ attempt ∧ attempt ≤ maxTransitionEpoch := by
  unfold nextAttempt at next
  split at next
  · cases next
    decide
  · split at next
    · rename_i bounded
      rw [boundedInteger_iff] at bounded
      cases next
      omega
    · cases next

theorem claimPending_ok {data saved : Queue} {expiresAt observedAt : Instant}
    (valid : ValidLease lease) (member : id ∈ data.pending)
    (taken : claimPending data id lease expiresAt observedAt = .ok (c, saved)) :
    Fresh data c ∧ c.operationId = id ∧
      saved = ⟨data.pending.erase c.operationId, data.claims.set c.operationId c⟩ ∧
      (Intact data → Intact saved) := by
  unfold claimPending at taken
  split at taken
  · cases taken
  · rename_i attempt next
    cases taken
    have identity := nextAttempt_bounds next
    refine ⟨⟨member, rfl, ⟨valid.epoch, identity, valid.token, valid.process⟩, next⟩, rfl, rfl,
      fun intact => ?_⟩
    refine intact_set intact _ id ⟨valid.epoch, identity, valid.token, valid.process⟩ ?_
    cases stored : data.claims.get id with
    | none => rfl
    | some previous => exact (intact id previous stored).2

theorem claimUnlocked_ok {data saved : Queue} {found : Option Claim}
    {expiresAt observedAt : Instant} (valid : ValidLease lease)
    (taken : claimUnlocked data lease expiresAt observedAt = .ok (found, saved)) :
    (found = none ∧ saved = data) ∨ ∃ c, found = some c ∧ Fresh data c ∧
      saved = ⟨data.pending.erase c.operationId, data.claims.set c.operationId c⟩ ∧
      (Intact data → Intact saved) := by
  unfold claimUnlocked at taken
  split at taken
  · cases taken
    exact .inl ⟨rfl, rfl⟩
  · rename_i id rest pending
    split at taken
    · cases taken
    · cases inner : claimPending data id lease expiresAt observedAt with
      | error fault => simp [inner, Except.map] at taken
      | ok pair =>
        obtain ⟨c, after⟩ := pair
        simp only [inner, Except.map, Except.ok.injEq, Prod.mk.injEq] at taken
        have member : id ∈ data.pending := by simp [pending]
        obtain ⟨fresh, -, explicit, loads⟩ := claimPending_ok valid member inner
        rw [← taken.1, ← taken.2]
        exact .inr ⟨c, rfl, fresh, explicit, loads⟩

theorem validLease_of_public {isOther : Char → Bool}
    (accepted : ¬(!validPublicClaimIdentity isOther lease.ownerToken ||
      !validPublicClaimIdentity isOther lease.processInstanceId ||
      !boundedInteger lease.leaseEpoch 1 maxTransitionEpoch) = true) : ValidLease lease := by
  simp only [validPublicClaimIdentity, Bool.or_eq_true, Bool.not_eq_true', not_or,
    Bool.not_eq_false, Bool.and_eq_true, decide_eq_true_eq, boundedInteger_iff] at accepted
  obtain ⟨⟨⟨⟨token, -⟩, -⟩, ⟨process, -⟩, -⟩, epoch⟩ := accepted
  refine ⟨epoch, ?_, ?_⟩
  · rintro empty
    simp [empty] at token
  · rintro empty
    simp [empty] at process

theorem makes_claim (isOther : Char → Bool) (lease : Credential) (ttl : Ttl) (now : Instant)
    (q : Queue) :
    Makes q (.claim lease ttl) (answer .claimed (claim isOther lease ttl now q)) := by
  fun_cases claim isOther lease ttl now q with
  | case5 => exact makes_same _ _ _ _ (by simp)
  | case6 accepted expiresAt _ data loaded c saved taken =>
    obtain rfl := loadForTopology_ok loaded
    rcases claimUnlocked_ok (validLease_of_public accepted) taken with
      ⟨missing, -⟩ | ⟨d, same, fresh, rfl, loads⟩
    · cases missing
    · cases same
      exact ⟨⟨.claim c, .claim c fresh, rfl⟩, loads⟩
  | _ => exact makes_error _ _ _ _

theorem makes_claimFromLease (ctx : Context) (lease : GrantedLease) (ttl : Ttl)
    (topology : Topology q) :
    Makes q (.claimFromLease lease ttl) (answer .claimed (claimFromLease ctx lease.1 ttl q)) := by
  have walked := @turned_recoverExpiredUnlocked ctx ⟨lease.1, ctx.now⟩ lease.2.epoch q topology
  fun_cases claimFromLease ctx lease.1 ttl q with
  | case4 _ _ _ data loaded saved raised =>
    obtain rfl := loadUnlocked_ok loaded
    rw [raised] at walked
    exact makes_scan rfl walked (by simp [Except.map])
  | case6 _ _ _ data loaded recovered after done found saved taken =>
    obtain rfl := loadUnlocked_ok loaded
    rw [done] at walked
    rcases claimUnlocked_ok lease.2 taken with ⟨rfl, rfl⟩ | ⟨c, rfl, fresh, rfl, loads⟩
    · exact makes_scan rfl walked (by simp [Except.map])
    · exact ⟨⟨.scanClaim c, .scanClaim c (touches walked) fresh, rfl, rfl⟩,
        fun intact => loads (intact_turned walked intact)⟩
  | case7 _ _ _ data loaded recovered after done found saved taken unchanged =>
    cases found with
    | none => exact makes_same _ _ _ _ (by simp)
    | some c => simp at unchanged
  | _ => exact makes_error _ _ _ _

theorem makes_claimSpecificFromLease (ctx : Context) (id : String) (lease : GrantedLease)
    (q : Queue) :
    Makes q (.claimSpecificFromLease id lease)
      (answer (fun selected => .claimed (selected.map (·.2)))
        (claimSpecificFromLease ctx id lease.1 q)) := by
  fun_cases claimSpecificFromLease ctx id lease.1 q with
  | case5 => exact makes_same _ _ _ _ (by simp)
  | case8 _ _ _ data loaded _ present _ _ c saved taken =>
    obtain rfl := loadForStrictMutation_ok loaded
    obtain ⟨fresh, -, rfl, loads⟩ := claimPending_ok lease.2 (by simpa using present) taken
    exact ⟨⟨.claim c, .claim c fresh, rfl⟩, loads⟩
  | _ => exact makes_error _ _ _ _

theorem makes_completeClaim (id token : String) (epoch : Int) (now : Instant) (q : Queue) :
    Makes q (.completeClaim id token epoch)
      (answer (fun _ => .done) (completeClaim id token epoch now q)) := by
  fun_cases completeClaim id token epoch now q with
  | case4 data loaded current stored exact_claim =>
    obtain rfl := loadUnlocked_ok loaded
    have held : current.status = .claimed := by
      by_contra idle
      exact exact_claim (.inl idle)
    refine ⟨⟨.settle id, .settle id current _ stored held rfl (by simp),
      .inl ⟨token, epoch, rfl⟩, rfl⟩, fun intact => ?_⟩
    obtain ⟨valid, loads⟩ := intact id current stored
    exact intact_set intact _ id (validIdentity_of_tuple valid rfl) loads
  | _ => exact makes_error _ _ _ _

theorem exactCurrentClaim_status {current : Claim} {snapshot : Option Claim}
    (matches_now : exactCurrentClaim current id lease snapshot = true) :
    current.status = .claimed := by
  simp only [exactCurrentClaim, Bool.and_eq_true, beq_iff_eq] at matches_now
  exact matches_now.1.1.1.1.1

theorem makes_completeClaimFromLease (ctx : Context) (id : String) (lease : GrantedLease)
    (snapshot : Option Claim) (q : Queue) :
    Makes q (.completeClaimFromLease id lease snapshot)
      (answer (fun _ => .done) (completeClaimFromLease ctx id lease.1 snapshot q)) := by
  fun_cases completeClaimFromLease ctx id lease.1 snapshot q with
  | case4 _ data loaded current stored now =>
    obtain rfl := loadUnlocked_ok loaded
    have held := exactCurrentClaim_status now
    have turns := @turns_completeClaimRecord ⟨lease.1, ctx.now⟩ lease.2.epoch data id current
      stored held
    exact ⟨⟨.settle id, .settle id current _ stored held rfl (by simp),
      .inr ⟨lease, snapshot, rfl⟩, rfl⟩, (turns _ _).2⟩
  | _ => exact makes_error _ _ _ _

theorem makes_completeAndRemoveClaimFromLease (ctx : Context) (id : String)
    (lease : GrantedLease) (snapshot : Claim) (q : Queue) :
    Makes q (.completeAndRemoveClaimFromLease id lease snapshot)
      (answer (fun _ => .done) (completeAndRemoveClaimFromLease ctx id lease.1 snapshot q)) := by
  fun_cases completeAndRemoveClaimFromLease ctx id lease.1 snapshot q with
  | case5 _ data loaded =>
    obtain rfl := loadForStrictMutation_ok loaded
    exact ⟨⟨.forget id, .forget id _ (List.Sublist.refl _) fun x member _ => member,
      .inr (.inr ⟨lease, snapshot, rfl⟩), rfl⟩, fun intact => intact_remove intact _ id⟩
  | _ => exact makes_error _ _ _ _

theorem makes_deferClaimFromLease (ctx : Context) (id : String) (snapshot : Claim)
    (lease : GrantedLease) (reason : Reason) (q : Queue) :
    Makes q (.deferClaimFromLease id snapshot lease reason)
      (answer (fun _ => .done) (deferClaimFromLease ctx id snapshot lease.1 reason q)) := by
  fun_cases deferClaimFromLease ctx id snapshot lease.1 reason q with
  | case5 => exact makes_same _ _ _ _ (by simp)
  | case9 _ _ data loaded current stored _ _ now _ absent =>
    obtain rfl := loadUnlocked_ok loaded
    have held := exactCurrentClaim_status (by simpa using now)
    simp only [requeueClaim, absent, Bool.false_eq_true, if_false]
    exact ⟨⟨.requeue id, .requeue id current _ stored held rfl rfl, ⟨snapshot, lease, reason, rfl⟩,
      rfl⟩, @intact_noted _ ⟨lease.1, ctx.now⟩ lease.2.epoch data id current stored _ _ _ _
        (by rfl) (by rfl)⟩
  | _ => exact makes_error _ _ _ _

theorem makes_removeCancelledFromLease (ctx : Context) (id : String) (lease : GrantedLease)
    (q : Queue) :
    Makes q (.removeCancelledFromLease id lease)
      (answer (fun _ => .done) (removeCancelledFromLease ctx id lease.1 q)) := by
  fun_cases removeCancelledFromLease ctx id lease.1 q with
  | case4 _ data loaded =>
    obtain rfl := loadForStrictMutation_ok loaded
    exact ⟨⟨.forget id, .forget id _ List.filter_sublist filter_ne_only,
      .inr (.inl ⟨lease, rfl⟩), rfl⟩, fun intact => intact_remove intact _ id⟩
  | case5 => exact makes_same _ _ _ _ (by simp)
  | _ => exact makes_error _ _ _ _

theorem makes_recoverExpiredClaimsFromLease (ctx : Context) (lease : GrantedLease)
    (observedAt : Instant) (topology : Topology q) :
    Makes q (.recoverExpiredClaimsFromLease lease observedAt)
      (answer (fun _ => .done) (recoverExpiredClaimsFromLease ctx lease.1 observedAt q)) := by
  have walked := @turned_recoverExpiredUnlocked ctx ⟨lease.1, observedAt⟩ lease.2.epoch q topology
  fun_cases recoverExpiredClaimsFromLease ctx lease.1 observedAt q with
  | case3 _ data loaded saved raised =>
    obtain rfl := loadUnlocked_ok loaded
    rw [raised] at walked
    exact makes_scan rfl walked (by simp [Except.map])
  | case4 _ data loaded saved done =>
    obtain rfl := loadUnlocked_ok loaded
    rw [done] at walked
    exact makes_scan rfl walked (by simp [Except.map])
  | case5 => exact makes_same _ _ _ _ (by simp)
  | _ => exact makes_error _ _ _ _

theorem call_makes (isOther : Char → Bool) (ctx : Context) (call : Call)
    (topology : Topology q) : Makes q call (call.run isOther ctx q) := by
  cases call with
  | enqueue id named => exact makes_enqueue id named q
  | remove id => exact makes_remove id q
  | discardPending id => exact makes_discardPending id q
  | dequeue => exact makes_dequeue q
  | claim lease ttl => exact makes_claim isOther lease ttl ctx.now q
  | claimFromLease lease ttl => exact makes_claimFromLease ctx lease ttl topology
  | claimSpecificFromLease id lease => exact makes_claimSpecificFromLease ctx id lease q
  | completeClaim id token epoch => exact makes_completeClaim id token epoch ctx.now q
  | completeClaimFromLease id lease snapshot =>
    exact makes_completeClaimFromLease ctx id lease snapshot q
  | completeAndRemoveClaimFromLease id lease snapshot =>
    exact makes_completeAndRemoveClaimFromLease ctx id lease snapshot q
  | deferClaimFromLease id snapshot lease reason =>
    exact makes_deferClaimFromLease ctx id snapshot lease reason q
  | removeCancelledFromLease id lease => exact makes_removeCancelledFromLease ctx id lease q
  | recoverExpiredClaimsFromLease lease observedAt =>
    exact makes_recoverExpiredClaimsFromLease ctx lease observedAt topology

theorem call_does (isOther : Char → Bool) (ctx : Context) (call : Call)
    (topology : Topology q) : Does q call (call.run isOther ctx q) :=
  (call_makes isOther ctx call topology).1

def runCalls (isOther : Char → Bool) (calls : List (Call × Context)) (q : Queue) : Queue :=
  calls.foldl (fun q next => (next.1.run isOther next.2 q).2) q

theorem topology_empty : Topology .empty :=
  ⟨List.nodup_nil, by simp [Queue.empty], fun id c found => by simp [Queue.empty] at found⟩

theorem topology_runCalls (isOther : Char → Bool) (calls : List (Call × Context))
    (topology : Topology q) : Topology (runCalls isOther calls q) := by
  induction calls generalizing q with
  | nil => exact topology
  | cons next rest ih =>
    obtain ⟨change, effect, -⟩ := call_does isOther next.2 next.1 topology
    exact ih (topology_effect topology effect)

theorem intact_runCalls (isOther : Char → Bool) (calls : List (Call × Context))
    (topology : Topology q) (intact : Intact q) : Intact (runCalls isOther calls q) := by
  induction calls generalizing q with
  | nil => exact intact
  | cons next rest ih =>
    obtain ⟨⟨change, effect, -⟩, keeps⟩ := call_makes isOther next.2 next.1 topology
    exact ih (topology_effect topology effect) (keeps intact)

theorem enqueue_pending {position : Nat}
    (accepted : (enqueue id q).1 = .ok position) : id ∈ (enqueue id q).2.pending := by
  unfold enqueue at accepted ⊢
  split at accepted
  · cases accepted
  · rename_i data loaded
    simp only [loadForTopology_ok loaded] at accepted ⊢
    split at accepted
    · cases accepted
    · rename_i unclaimed
      rw [if_neg unclaimed]
      split
      · rename_i present
        simpa using present
      · simp

/-- A completion, a removal, a dequeue or a scan that ends the stay of an id. -/
def Ends (q after : Queue) (id : String) : Call → Prop
  | .remove j | .discardPending j | .completeClaim j _ _ | .completeClaimFromLease j _ _ => j = id
  | .completeAndRemoveClaimFromLease j _ _ | .removeCancelledFromLease j _ => j = id
  | .dequeue => q.pending.head? = some id
  | .claimFromLease _ _ | .recoverExpiredClaimsFromLease _ _ => Completed after id
  | _ => False

theorem live_or_ends {call : Call} {r : Except Fault Reply × Queue} (does : Does q call r)
    (live : Live q id) :
    Live r.2 id ∨ Ends q r.2 id call := by
  obtain ⟨change, effect, admitted⟩ := does
  rcases live_effect effect live with stays | rfl | rfl | rfl | ⟨rfl | ⟨c, rfl⟩, completed⟩
  · exact .inl stays
  · obtain ⟨rfl, -⟩ | ⟨rfl, popped, -⟩ := admitted
    · exact .inr rfl
    · exact .inr popped
  · obtain ⟨rfl | ⟨lease, rfl⟩ | ⟨lease, snapshot, rfl⟩, -⟩ := admitted <;> exact .inr rfl
  · obtain ⟨⟨token, epoch, rfl⟩ | ⟨lease, snapshot, rfl⟩, -⟩ := admitted <;> exact .inr rfl
  all_goals
    obtain ⟨scans, -⟩ := admitted
    cases call <;> first | exact .inr completed | cases scans

theorem unchanged_of_raise {q after : Queue} {call : Call} {fault : Fault}
    (does : Does q call (.error fault, after)) (plain : call.scans = false) : after = q := by
  obtain ⟨change, effect, admitted⟩ := does
  cases effect with
  | keep => rfl
  | append id => cases admitted.2
  | drop id => obtain ⟨-, accepted⟩ | ⟨-, -, accepted⟩ := admitted <;> cases accepted
  | forget id => cases admitted.2
  | settle id => cases admitted.2
  | requeue id => cases admitted.2
  | scan => exact absurd (plain.symm.trans admitted.1) Bool.false_ne_true
  | claim c => cases admitted
  | scanClaim c => cases admitted.2

/-- After every run the topology holds, and a live id stays live unless the next call ends its
stay; a call that raises changes nothing unless it scans. -/
theorem runCalls_inductive (isOther : Char → Bool) (calls : List (Call × Context)) (call : Call)
    (ctx : Context) :
    let q := runCalls isOther calls .empty
    let after := call.run isOther ctx q
    Topology q ∧
      (∀ id named, call = .enqueue id named → (∃ reply, after.1 = .ok reply) → Live after.2 id) ∧
      (∀ id, Live q id → Live after.2 id ∨ Ends q after.2 id call) ∧
      ∀ fault, after.1 = .error fault → call.scans = false → after.2 = q := by
  intro q after
  have topology : Topology q := topology_runCalls isOther calls topology_empty
  have does : Does q call after := call_does isOther ctx call topology
  refine ⟨topology, ?_, fun id => live_or_ends does, ?_⟩
  · rintro id named rfl ⟨reply, accepted⟩
    left
    cases outcome : (enqueue id q).1 with
    | error fault => simp [after, Call.run, answer, outcome, Except.map] at accepted
    | ok position => exact enqueue_pending outcome
  · intro fault raised plain
    have same : after = (.error fault, after.2) := Prod.ext raised rfl
    rw [same] at does
    exact unchanged_of_raise does plain

end RExecOp.RunNowQueue
