import RExecOp.QueueTopology

/-! The recovery scan of the run-now queue: which queues it accepts, what it
leaves behind when it returns, and when it returns. -/

namespace RExecOp.RunNowQueue

open Lease (Instant Credential)

variable {c : Claim} {q q' : Queue} {scan : Scan} {ctx : Context} {again : Bool}

theorem loadUnlocked_of_valid
    (valid : ∀ id c, q.claims.get id = some c → validLastTransition c = true) :
    loadUnlocked q = .ok q := by
  unfold loadUnlocked
  rw [if_pos]
  rw [List.all_eq_true]
  intro c member
  obtain ⟨id, found⟩ := (Dict.mem_values_iff _ _).mp member
  exact valid id c found

theorem valid_of_loadUnlocked {q data : Queue} (loaded : loadUnlocked q = .ok data) {id : String}
    (found : q.claims.get id = some c) : validLastTransition c = true := by
  unfold loadUnlocked at loaded
  split at loaded
  · rename_i valid
    rw [List.all_eq_true] at valid
    exact valid c ((Dict.mem_values_iff _ _).mpr ⟨id, found⟩)
  · cases loaded

structure Settles (scan : Scan) (q : Queue) (id : String) (c c' : Claim) (q' : Queue) : Prop where
  stored : q.claims.get id = some c
  claimed : c.status = .claimed
  older : c.leaseEpoch < scan.lease.leaseEpoch
  same : c'.tuple = c.tuple
  settled : c'.status ≠ .claimed
  claims : q'.claims = q.claims.set id c'
  requeued : c'.status = .requeued → id ∈ q'.pending
  pending : q'.pending = q.pending ∨ id ∉ q.pending ∧ q'.pending = q.pending ++ [id]
  noted : ∃ disposition reason state attempts, c'.lastTransition =
    some (transitionRecord c scan.lease scan.observedAt disposition reason state attempts)

def Unexpired (observedAt : Instant) (q : Queue) (id : String) : Prop :=
  ∀ c, q.claims.get id = some c → c.status = .claimed →
    ∃ expiry, c.expiresAt = some expiry ∧ observedAt < expiry ∧ id ∉ q.pending

section Step

variable {ctx : Context} {scan : Scan} {q q' : Queue} {id : String} {c : Claim} {again : Bool}

theorem settles_requeueClaim (stored : q.claims.get id = some c) (held : c.status = .claimed)
    (older : c.leaseEpoch < scan.lease.leaseEpoch) (reason : Reason)
    (facts : RecordedState × List AttemptFacts) :
    ∃ c', Settles scan q id c c' (requeueClaim scan q id c reason facts) := by
  refine ⟨{ noted scan c .requeued reason facts with status := .requeued }, stored, held,
    older, rfl, by simp, rfl, fun _ => ?_, ?_, _, _, _, _, rfl⟩
  · simp only [requeueClaim, List.contains_iff_mem]
    split
    · assumption
    · simp
  · simp only [requeueClaim, List.contains_iff_mem]
    split
    · exact .inl rfl
    · rename_i absent
      exact .inr ⟨absent, rfl⟩

theorem settles_completeClaimRecord (stored : q.claims.get id = some c)
    (held : c.status = .claimed) (older : c.leaseEpoch < scan.lease.leaseEpoch) (reason : Reason)
    (facts : RecordedState × List AttemptFacts) :
    ∃ c', Settles scan q id c c' (completeClaimRecord scan q id c reason facts) := by
  refine ⟨{ noted scan c .completed reason facts with
      status := .completed
      completedAt := some scan.observedAt }, stored, held, older, rfl, by simp, rfl,
    fun again => ?_, .inl rfl, _, _, _, _, rfl⟩
  simp at again

theorem recoverExpiredClaim_ok (stored : q.claims.get id = some c) (held : c.status = .claimed)
    (older : c.leaseEpoch < scan.lease.leaseEpoch)
    (done : recoverExpiredClaim ctx scan q id c = .ok (again, q')) :
    again = true ∧ ∃ c', Settles scan q id c c' q' := by
  revert done
  fun_cases recoverExpiredClaim ctx scan q id c with
  | case2 =>
    rintro ⟨⟩
    exact ⟨rfl, settles_requeueClaim stored held older _ _⟩
  | case7 =>
    rintro ⟨⟩
    exact ⟨rfl, settles_completeClaimRecord stored held older _ _⟩
  | _ => rintro ⟨⟩

theorem recoverClaim_ok (done : recoverClaim ctx scan q id = .ok (again, q')) :
    (again = false ∧ q' = q ∧ Unexpired scan.observedAt q id) ∨
      (again = true ∧ ∃ c c', Settles scan q id c c' q') := by
  revert done
  fun_cases recoverClaim ctx scan q id with
  | case1 missing =>
    rintro ⟨⟩
    exact .inl ⟨rfl, rfl, fun c stored => by cases missing.symm.trans stored⟩
  | case2 c stored idle =>
    rintro ⟨⟩
    refine .inl ⟨rfl, rfl, fun other found held => ?_⟩
    cases stored.symm.trans found
    exact absurd held idle
  | case5 c stored _ expiry expires early absent =>
    rintro ⟨⟩
    refine .inl ⟨rfl, rfl, fun other found _ => ?_⟩
    cases stored.symm.trans found
    exact ⟨expiry, expires, early, by simpa using absent⟩
  | case7 c stored held _ _ _ newer =>
    intro done
    obtain ⟨rfl, c', settles⟩ :=
      recoverExpiredClaim_ok stored (not_not.mp held) (not_le.mp newer) done
    exact .inr ⟨rfl, c, c', settles⟩
  | _ => rintro ⟨⟩

end Step

structure Accepted (q : Queue) : Prop where
  named : "" ∉ q.pending
  nodup : q.pending.Nodup
  placed : ∀ {id c}, q.claims.get id = some c →
    id ≠ "" ∧ c.operationId = id ∧ ValidIdentity c ∧ (c.status = .requeued → id ∈ q.pending)

theorem misplacedClaim_eq_false_iff {id : String} :
    misplacedClaim q id c = false ↔ id ≠ "" ∧ c.operationId = id ∧ ValidIdentity c ∧
      (c.status = .requeued → id ∈ q.pending) := by
  rw [← validClaimIdentity_iff]
  simp only [misplacedClaim, Bool.or_eq_false_iff, beq_eq_false_iff_ne, bne_eq_false_iff_eq,
    Bool.not_eq_false', Bool.and_eq_false_iff, Bool.not_eq_false', List.contains_iff_mem, ne_eq,
    and_assoc]
  refine and_congr_right fun _ => and_congr_right fun _ => and_congr_right fun _ => ?_
  constructor
  · rintro (other | member) again
    · exact absurd again other
    · exact member
  · intro member
    by_cases again : c.status = .requeued
    · exact .inr (member again)
    · exact .inl again

theorem validateTopology_eq_none_iff : validateTopology q = none ↔ Accepted q := by
  constructor
  · fun_cases validateTopology q with
    | case3 named nodup =>
      refine fun valid => ⟨by simpa using named, by simpa using nodup, fun {id c} found => ?_⟩
      have member := (Dict.mem_sortedKeys_iff q.claims id).mpr ⟨c, found⟩
      have placed := List.find?_eq_none.mp valid id member
      rw [found] at placed
      exact misplacedClaim_eq_false_iff.mp (by simpa using placed)
    | _ => exact nofun
  · intro accepted
    have named : q.pending.contains "" = false := by simpa using accepted.named
    have nodup : decide q.pending.Nodup = true := decide_eq_true accepted.nodup
    simp only [validateTopology, named, nodup, Bool.false_eq_true, if_false, Bool.not_true,
      List.find?_eq_none]
    intro id member
    obtain ⟨c, found⟩ := (Dict.mem_sortedKeys_iff q.claims id).mp member
    rw [found]
    simp only [misplacedClaim_eq_false_iff.mpr (accepted.placed found), Bool.false_eq_true,
      not_false_eq_true]

def Loads (q : Queue) : Prop := ∀ id c, q.claims.get id = some c → validLastTransition c = true

structure Scans (scan : Scan) (q q' : Queue) : Prop where
  accepted : Accepted q → Accepted q'
  unexpired : ∀ {id}, Unexpired scan.observedAt q id → Unexpired scan.observedAt q' id
  loads : Accepted q → scan.lease.leaseEpoch ≤ maxTransitionEpoch → Loads q → Loads q'

theorem Scans.refl (scan : Scan) (q : Queue) : Scans scan q q := ⟨id, id, fun _ _ loads => loads⟩

theorem Scans.trans {q₁ q₂ q₃ : Queue} (first : Scans scan q₁ q₂) (second : Scans scan q₂ q₃) :
    Scans scan q₁ q₃ where
  accepted here := second.accepted (first.accepted here)
  unexpired here := second.unexpired (first.unexpired here)
  loads here bound valid := second.loads (first.accepted here) bound (first.loads here bound valid)

section Settles

variable {scan : Scan} {q q' : Queue} {id : String} {c c' : Claim}

theorem Settles.get (settles : Settles scan q id c c' q') (j : String) :
    q'.claims.get j = if j = id then some c' else q.claims.get j := by
  rw [settles.claims, Dict.get_set]

theorem Settles.mem_pending (settles : Settles scan q id c c' q') {j : String} (other : j ≠ id) :
    j ∈ q'.pending ↔ j ∈ q.pending := by
  rcases settles.pending with same | ⟨-, appended⟩
  · rw [same]
  · rw [appended]
    exact mem_append_singleton_ne other

theorem Settles.unexpired (settles : Settles scan q id c c' q') (observedAt : Instant) :
    Unexpired observedAt q' id := by
  intro other found held
  rw [settles.get, if_pos rfl] at found
  cases found
  exact absurd held settles.settled

theorem Settles.accepted (settles : Settles scan q id c c' q') (accepted : Accepted q) :
    Accepted q' := by
  obtain ⟨named, key, valid, -⟩ := accepted.placed settles.stored
  refine ⟨?_, ?_, fun {j d} found => ?_⟩
  · rcases settles.pending with same | ⟨-, appended⟩
    · exact same ▸ accepted.named
    · exact appended ▸ not_mem_append_singleton accepted.named named
  · rcases settles.pending with same | ⟨absent, appended⟩
    · exact same ▸ accepted.nodup
    · exact appended ▸ nodup_append_singleton accepted.nodup absent
  · rw [settles.get] at found
    by_cases same : j = id
    · rw [if_pos same] at found
      cases found
      subst same
      exact ⟨named, (congrArg Prod.fst settles.same).trans key,
        validIdentity_of_tuple valid settles.same, settles.requeued⟩
    · rw [if_neg same] at found
      rw [settles.mem_pending same]
      exact accepted.placed found

theorem Settles.loads (settles : Settles scan q id c c' q') (accepted : Accepted q)
    (bound : scan.lease.leaseEpoch ≤ maxTransitionEpoch) (loads : Loads q) : Loads q' := by
  obtain ⟨-, -, valid, -⟩ := accepted.placed settles.stored
  intro j d found
  rw [settles.get] at found
  split at found
  · cases found
    obtain ⟨disposition, reason, state, attempts, noted⟩ := settles.noted
    have older := settles.older
    have lower := valid.epoch.1
    rw [validLastTransition, noted]
    exact validTransitionRecord_transitionRecord valid ⟨by omega, bound⟩ _ _ _ _ _
  · exact loads j d found

theorem Settles.scans (settles : Settles scan q id c c' q') : Scans scan q q' where
  accepted := settles.accepted
  loads := settles.loads
  unexpired {j} here := by
    by_cases same : j = id
    · subst same
      exact settles.unexpired _
    · intro d found held
      rw [settles.get, if_neg same] at found
      rw [settles.mem_pending same]
      exact here d found held

end Settles

theorem recoverClaims_ok {ids : List String} {changed again : Bool}
    (done : recoverClaims ctx scan ids (changed, q) = .ok (again, q')) :
    Scans scan q q' ∧ (∀ id ∈ ids, Unexpired scan.observedAt q' id) ∧
      (again = false → changed = false ∧ q' = q) := by
  induction ids generalizing changed q with
  | nil =>
    cases done
    exact ⟨.refl scan _, by simp, fun same => ⟨same, rfl⟩⟩
  | cons id rest ih =>
    simp only [recoverClaims] at done
    split at done
    · cases done
    · rename_i settled data first
      obtain ⟨scans, others, quiet⟩ := ih done
      rw [List.forall_mem_cons]
      rcases recoverClaim_ok first with ⟨rfl, rfl, early⟩ | ⟨rfl, c, c', settles⟩
      · refine ⟨scans, ⟨scans.unexpired early, others⟩, fun same => ?_⟩
        obtain ⟨unchanged, kept⟩ := quiet same
        exact ⟨by simpa using unchanged, kept⟩
      · refine ⟨settles.scans.trans scans, ⟨scans.unexpired (settles.unexpired _), others⟩,
          fun same => ?_⟩
        have impossible := (quiet same).1
        simp at impossible

structure Calm (observedAt : Instant) (q : Queue) : Prop where
  accepted : Accepted q
  unexpired : ∀ id, Unexpired observedAt q id

theorem recoverExpiredUnlocked_ok (done : recoverExpiredUnlocked ctx scan q = .ok (again, q')) :
    Accepted q ∧ Scans scan q q' ∧ Calm scan.observedAt q' ∧ (again = false → q' = q) := by
  unfold recoverExpiredUnlocked at done
  split at done
  · cases done
  · rename_i valid
    have accepted := validateTopology_eq_none_iff.mp valid
    obtain ⟨scans, others, quiet⟩ := recoverClaims_ok done
    refine ⟨accepted, scans, ⟨scans.accepted accepted, fun id => ?_⟩, fun same => (quiet same).2⟩
    by_cases known : ∃ c, q.claims.get id = some c
    · exact others id ((Dict.mem_sortedKeys_iff _ _).mpr known)
    · refine scans.unexpired fun c found => ?_
      exact absurd ⟨c, found⟩ known

theorem recoverExpiredClaimsFromLease_ok {lease : Credential} {observedAt : Instant}
    (done : recoverExpiredClaimsFromLease ctx lease observedAt q = (.ok again, q')) :
    Calm observedAt q' ∧ (lease.leaseEpoch ≤ maxTransitionEpoch → Loads q') := by
  revert done
  fun_cases recoverExpiredClaimsFromLease ctx lease observedAt q with
  | case4 _ data loaded saved ran =>
    rintro ⟨⟩
    obtain rfl := loadUnlocked_ok loaded
    obtain ⟨accepted, scans, calm, -⟩ := recoverExpiredUnlocked_ok ran
    exact ⟨calm, fun bound => scans.loads accepted bound fun id c => valid_of_loadUnlocked loaded⟩
  | case5 _ data loaded saved ran =>
    rintro ⟨⟩
    obtain rfl := loadUnlocked_ok loaded
    obtain ⟨-, -, calm, quiet⟩ := recoverExpiredUnlocked_ok ran
    exact ⟨quiet rfl ▸ calm, fun _ id c => valid_of_loadUnlocked loaded⟩
  | _ => rintro ⟨⟩

theorem recoverClaim_calm (calm : Calm scan.observedAt q) (id : String) :
    recoverClaim ctx scan q id = .ok (false, q) := by
  unfold recoverClaim
  split
  · rfl
  · rename_i c stored
    split
    · rfl
    · rename_i held
      obtain ⟨expiry, expires, early, absent⟩ := calm.unexpired id c stored (not_not.mp held)
      have outside : q.pending.contains id = false := by simpa using absent
      simp only [expires, if_pos early, outside, Bool.false_eq_true, if_false]

theorem recoverClaims_calm (calm : Calm scan.observedAt q) (ids : List String) :
    recoverClaims ctx scan ids (false, q) = .ok (false, q) := by
  induction ids with
  | nil => rfl
  | cons id rest ih => simpa only [recoverClaims, recoverClaim_calm calm id, Bool.or_false] using ih

theorem recoverExpiredUnlocked_calm (calm : Calm scan.observedAt q) :
    recoverExpiredUnlocked ctx scan q = .ok (false, q) := by
  rw [recoverExpiredUnlocked, validateTopology_eq_none_iff.mpr calm.accepted]
  exact recoverClaims_calm calm _

theorem recoverExpiredClaimsFromLease_calm (ctx : Context) (lease : Credential)
    {observedAt : Instant} (calm : Calm observedAt q) :
    (recoverExpiredClaimsFromLease ctx lease observedAt q).2 = q ∧
      (Loads q → enterLeaseGuard ctx lease blockedFault = .ok () →
        (recoverExpiredClaimsFromLease ctx lease observedAt q).1 = .ok false) := by
  have calm : Calm (Scan.mk lease observedAt).observedAt q := calm
  unfold recoverExpiredClaimsFromLease
  split
  · next fault refused => exact ⟨rfl, fun _ entered => by cases refused.symm.trans entered⟩
  · split
    · next fault unloaded =>
      exact ⟨rfl, fun loads _ => by cases unloaded.symm.trans (loadUnlocked_of_valid loads)⟩
    · next data loaded =>
      obtain rfl := loadUnlocked_ok loaded
      rw [recoverExpiredUnlocked_calm calm]
      exact ⟨rfl, fun _ _ => rfl⟩

end RExecOp.RunNowQueue
