import RExecOp.QueueTopology

/-! Claim snapshots against the claim calls that issued them. Attempts are counted in the claim
record: once it is deleted the count starts again. -/

namespace RExecOp.RunNowQueue

open Lease (Instant Credential LeaseFiles)

variable {q q' : Queue} {c : Claim}

def Claim.lease (c : Claim) : Credential := ⟨c.ownerToken, c.leaseEpoch, c.processInstanceId⟩

/-- The queue with the snapshots issued so far and the leases of deleted records. -/
structure History where
  queue : Queue
  issued : List (Nat × Claim)
  retired : List (String × Credential)

variable {h : History}

def History.init : History := ⟨.empty, [], []⟩

def claimOf : Except Fault Reply → Option Claim
  | .ok (.claimed found) => found
  | _ => none

def issuedAfter (issued : List (Nat × Claim)) : Option Claim → List (Nat × Claim)
  | some c => (issued.length, c) :: issued
  | none => issued

def deletedLeases (q : Queue) (issued : List (Nat × Claim)) : List (String × Credential) :=
  (issued.filter fun e => (q.claims.get e.2.operationId).isNone).map
    fun e => (e.2.operationId, e.2.lease)

def History.step (isOther : Char → Bool) (h : History) (next : Call × Context) : History :=
  let r := next.1.run isOther next.2 h.queue
  let issued := issuedAfter h.issued (claimOf r.1)
  ⟨r.2, issued, deletedLeases r.2 issued ++ h.retired⟩

def History.run (isOther : Char → Bool) (calls : List (Call × Context)) : History :=
  calls.foldl (History.step isOther) .init

/-- The last claim call that claimed the operation. -/
def History.creator (h : History) (id : String) : Option Nat :=
  (h.issued.find? fun e => e.2.operationId == id).map (·.1)

def Renewed (isOther : Char → Bool) (h : History) (next : Call × Context) : Prop :=
  ∀ c, claimOf (next.1.run isOther next.2 h.queue).1 = some c →
    (c.operationId, c.lease) ∉ h.retired

def AllRenewed (isOther : Char → Bool) : History → List (Call × Context) → Prop
  | _, [] => True
  | h, next :: rest => Renewed isOther h next ∧ AllRenewed isOther (h.step isOther next) rest

/-- A call that presents a snapshot and changes its record. -/
inductive Disposes (ctx : Context) (q : Queue) (id : String) (snapshot : Claim) : Prop where
  | complete (lease : GrantedLease)
      (accepted : (completeClaimFromLease ctx id lease.1 (some snapshot) q).1 = .ok ())
  | defer (lease : GrantedLease) (reason : Reason)
      (accepted : (deferClaimFromLease ctx id snapshot lease.1 reason q).1 = .ok ())
      (changed : (deferClaimFromLease ctx id snapshot lease.1 reason q).2 ≠ q)
  | completeAndRemove (lease : GrantedLease)
      (accepted : (completeAndRemoveClaimFromLease ctx id lease.1 snapshot q).1 = .ok ())

def tuples (q : Queue) (id : String) : Option (String × String × String × Int × Int) :=
  (q.claims.get id).map Claim.tuple

theorem tuples_touch (touch : Touch q q') (id : String) : tuples q' id = tuples q id := by
  cases touch with
  | note j c c' stored claimed same kept =>
    by_cases at_j : id = j <;> simp [tuples, Dict.get_set, at_j, stored, same]
  | requeue j c c' stored claimed same again =>
    by_cases at_j : id = j <;> simp [tuples, Dict.get_set, at_j, stored, same]

theorem tuples_scanned (scanned : Relation.ReflTransGen Touch q q') (id : String) :
    tuples q' id = tuples q id := by
  induction scanned with
  | refl => rfl
  | tail _ touch ih => rw [tuples_touch touch, ih]

inductive Rewrites (q q' : Queue) : Option Claim → Prop where
  | same (kept : ∀ id, tuples q' id = tuples q id) : Rewrites q q' none
  | deleted (id : String) (gone : tuples q' id = none)
      (others : ∀ j, j ≠ id → tuples q' j = tuples q j) : Rewrites q q' none
  | created (c : Claim) (stored : tuples q' c.operationId = some c.tuple)
      (others : ∀ j, j ≠ c.operationId → tuples q' j = tuples q j)
      (above : ∀ t, tuples q c.operationId = some t → t.2.2.2.2 < c.attempt) :
      Rewrites q q' (some c)

theorem fresh_above (fresh : Fresh q' c) (kept : ∀ id, tuples q' id = tuples q id) :
    ∀ t, tuples q c.operationId = some t → t.2.2.2.2 < c.attempt := by
  intro t found
  have next := fresh.attempt
  rw [← kept, tuples] at found
  obtain ⟨d, stored, rfl⟩ := Option.map_eq_some_iff.mp found
  simp only [stored, nextAttempt] at next
  split at next
  · simp only [Except.ok.injEq] at next
    simp only [Claim.tuple]
    omega
  · cases next

theorem rewrites_claim (fresh : Fresh q' c) (kept : ∀ id, tuples q' id = tuples q id) :
    Rewrites q ⟨q'.pending.erase c.operationId, q'.claims.set c.operationId c⟩ (some c) := by
  refine .created c (by simp [tuples]) ?_ (fresh_above fresh kept)
  intro j other
  rw [← kept j]
  simp [tuples, Dict.get_set_ne _ _ other]

theorem claimOf_eq_none {reply : Except Fault Reply}
    (unclaimed : ∀ c, reply ≠ .ok (.claimed (some c))) : claimOf reply = none := by
  unfold claimOf
  split
  · rename_i found
    cases found with
    | none => rfl
    | some c => exact absurd rfl (unclaimed c)
  · rfl

theorem rewrites_forget (id : String) (rest : List String) :
    Rewrites q ⟨rest, q.claims.remove id⟩ none :=
  .deleted id (by simp [tuples]) fun j other => by simp [tuples, Dict.get_remove_ne _ other]

theorem rewrites_of_does {call : Call} {r : Except Fault Reply × Queue} (does : Does q call r) :
    Rewrites q r.2 (claimOf r.1) := by
  obtain ⟨reply, after⟩ := r
  obtain ⟨change, effect, admitted⟩ := does
  cases effect with
  | keep => rw [claimOf_eq_none admitted]; exact .same fun id => rfl
  | append id => rw [show reply = .ok .done from admitted.2]; exact .same fun id => rfl
  | drop id =>
    obtain ⟨-, rfl⟩ | ⟨-, -, rfl⟩ := admitted <;> exact .same fun id => rfl
  | forget id rest =>
    rw [show reply = .ok .done from admitted.2]
    exact rewrites_forget id rest
  | settle id c c' stored claimed same kept =>
    rw [show reply = .ok .done from admitted.2]
    exact .same (tuples_touch (.note id c c' stored claimed same kept))
  | requeue id c c' stored claimed same again =>
    rw [show reply = .ok .done from admitted.2]
    exact .same (tuples_touch (.requeue id c c' stored claimed same again))
  | scan scanned => rw [claimOf_eq_none admitted.2]; exact .same (tuples_scanned scanned)
  | claim c fresh =>
    rw [show reply = .ok (.claimed (some c)) from admitted]
    exact rewrites_claim fresh fun id => rfl
  | scanClaim c scanned fresh =>
    rw [show reply = .ok (.claimed (some c)) from admitted.2]
    exact rewrites_claim fresh (tuples_scanned scanned)

structure Fencing (h : History) : Prop where
  topology : Topology h.queue
  numbered : ∀ n c, (n, c) ∈ h.issued → n < h.issued.length
  newest : ∀ id t, tuples h.queue id = some t →
    ∃ n c, h.issued.find? (fun e => e.2.operationId == id) = some (n, c) ∧ c.tuple = t
  unique : ∀ n c m d, (n, c) ∈ h.issued → (m, d) ∈ h.issued → c.tuple = d.tuple → n = m
  current : ∀ n c, (n, c) ∈ h.issued → (c.operationId, c.lease) ∈ h.retired ∨
    ∃ t, tuples h.queue c.operationId = some t ∧ c.attempt ≤ t.2.2.2.2

theorem fencing_init : Fencing .init where
  topology := topology_empty
  numbered n c member := by cases member
  newest id t found := by simp [History.init, tuples, Queue.empty] at found
  unique n c m d member := by cases member
  current n c member := by cases member

theorem mem_deletedLeases {issued : List (Nat × Claim)} {n : Nat} (member : (n, c) ∈ issued)
    (gone : tuples q c.operationId = none) : (c.operationId, c.lease) ∈ deletedLeases q issued := by
  refine List.mem_map.mpr ⟨(n, c), List.mem_filter.mpr ⟨member, ?_⟩, rfl⟩
  simpa [tuples] using gone

theorem Fencing.unissued (fencing : Fencing h) (renewed : (c.operationId, c.lease) ∉ h.retired)
    (above : ∀ t, tuples h.queue c.operationId = some t → t.2.2.2.2 < c.attempt) {n : Nat}
    {d : Claim} (member : (n, d) ∈ h.issued) : d.tuple ≠ c.tuple := by
  intro same
  simp only [Claim.tuple, Prod.mk.injEq] at same
  obtain ⟨operation, token, process, epoch, attempt⟩ := same
  rcases fencing.current n d member with retired | ⟨t, found, bound⟩
  · rw [operation, Claim.lease, token, process, epoch] at retired
    exact renewed retired
  · have next := above t (operation ▸ found)
    omega

theorem fencing_none (fencing : Fencing h) (topology : Topology q)
    (rewrites : Rewrites h.queue q none) :
    Fencing ⟨q, h.issued, deletedLeases q h.issued ++ h.retired⟩ where
  topology := topology
  numbered := fencing.numbered
  newest id t found := by
    cases rewrites with
    | same kept => exact fencing.newest id t (kept id ▸ found)
    | deleted j gone others =>
      by_cases at_j : id = j
      · rw [at_j, gone] at found
        cases found
      · exact fencing.newest id t (others id at_j ▸ found)
  unique := fencing.unique
  current n c member := by
    cases left : tuples q c.operationId with
    | none => exact .inl (List.mem_append_left _ (mem_deletedLeases member left))
    | some t =>
      refine (fencing.current n c member).imp (List.mem_append_right _) ?_
      rintro ⟨t', found, bound⟩
      cases rewrites with
      | same kept => exact ⟨t', left ▸ kept c.operationId ▸ found, bound⟩
      | deleted j gone others =>
        have other : c.operationId ≠ j := fun at_j => by rw [at_j, gone] at left; cases left
        exact ⟨t', left ▸ others _ other ▸ found, bound⟩

theorem fencing_some (fencing : Fencing h) (topology : Topology q)
    (rewrites : Rewrites h.queue q (some c)) (renewed : (c.operationId, c.lease) ∉ h.retired) :
    Fencing ⟨q, (h.issued.length, c) :: h.issued,
      deletedLeases q ((h.issued.length, c) :: h.issued) ++ h.retired⟩ := by
  obtain ⟨-, -, -⟩ | ⟨-, -, -⟩ | ⟨_, stored, others, above⟩ := rewrites
  have unissued := fun {n d} => fencing.unissued renewed above (n := n) (d := d)
  constructor
  · exact topology
  · intro n d member
    simp only [List.length_cons]
    rcases List.mem_cons.mp member with same | member
    · cases same
      omega
    · have bound := fencing.numbered n d member
      omega
  · intro id t found
    by_cases at_c : id = c.operationId
    · rw [at_c, stored] at found
      cases found
      exact ⟨h.issued.length, c, by simp [at_c], rfl⟩
    · rw [others id at_c] at found
      obtain ⟨n, d, first, same⟩ := fencing.newest id t found
      exact ⟨n, d, by simp [Ne.symm at_c, first], same⟩
  · intro n d m e left right same
    rcases List.mem_cons.mp left with here | left <;>
      rcases List.mem_cons.mp right with there | right
    · cases here; cases there; rfl
    · cases here; exact absurd same.symm (unissued right)
    · cases there; exact absurd same (unissued left)
    · exact fencing.unique n d m e left right same
  · intro n d member
    rcases List.mem_cons.mp member with same | member
    · cases same
      exact .inr ⟨_, stored, Int.le_refl _⟩
    · refine (fencing.current n d member).imp (List.mem_append_right _) ?_
      rintro ⟨t, found, bound⟩
      by_cases at_c : d.operationId = c.operationId
      · have next := above t (at_c ▸ found)
        refine ⟨_, at_c ▸ stored, ?_⟩
        simp only [Claim.tuple]
        omega
      · exact ⟨t, (others _ at_c).trans found, bound⟩

theorem fencing_step (isOther : Char → Bool) (fencing : Fencing h) {next : Call × Context}
    (renewed : Renewed isOther h next) : Fencing (h.step isOther next) := by
  have rewrites := rewrites_of_does (call_does isOther next.2 next.1 fencing.topology)
  obtain ⟨change, effect, -⟩ := call_does isOther next.2 next.1 fencing.topology
  have topology := topology_effect fencing.topology effect
  cases issued : claimOf (next.1.run isOther next.2 h.queue).1 with
  | none =>
    rw [issued] at rewrites
    simp only [History.step, issued, issuedAfter]
    exact fencing_none fencing topology rewrites
  | some c =>
    rw [issued] at rewrites
    simp only [History.step, issued, issuedAfter]
    exact fencing_some fencing topology rewrites (renewed c issued)

theorem fencing_foldl (isOther : Char → Bool) (calls : List (Call × Context)) (fencing : Fencing h)
    (renewed : AllRenewed isOther h calls) : Fencing (calls.foldl (History.step isOther) h) := by
  induction calls generalizing h with
  | nil => exact fencing
  | cons next rest ih => exact ih (fencing_step isOther fencing renewed.1) renewed.2

theorem exactCurrentClaim_tuple {current snapshot : Claim} {id : String} {lease : Credential}
    (now : exactCurrentClaim current id lease (some snapshot) = true) :
    current.tuple = snapshot.tuple := by
  simp only [exactCurrentClaim, sameTuple, Option.getD_some, Bool.and_eq_true, beq_iff_eq] at now
  obtain ⟨⟨⟨⟨-, ⟨⟨⟨operation, token⟩, process⟩, epoch⟩, attempt⟩, -⟩, -⟩, -⟩ := now
  simp only [Claim.tuple, operation, token, process, epoch, attempt]

theorem deferClaimFromLease_ok (ctx : Context) (id : String) (snapshot : Claim)
    (lease : Credential) (reason : Reason) (q : Queue) :
    (deferClaimFromLease ctx id snapshot lease reason q).1 = .ok () →
      (deferClaimFromLease ctx id snapshot lease reason q).2 = q ∨
        ∃ current, q.claims.get id = some current ∧
          exactCurrentClaim current id lease (some snapshot) = true := by
  fun_cases deferClaimFromLease ctx id snapshot lease reason q with
  | case5 => exact fun _ => .inl rfl
  | case9 _ _ data loaded current stored _ _ now =>
    obtain rfl := loadUnlocked_ok loaded
    exact fun _ => .inr ⟨current, stored, by simpa using now⟩
  | _ => rintro ⟨⟩

theorem completeClaimFromLease_ok (ctx : Context) (id : String) (lease : Credential)
    (snapshot : Option Claim) (q : Queue) :
    (completeClaimFromLease ctx id lease snapshot q).1 = .ok () →
      ∃ current, q.claims.get id = some current ∧
        exactCurrentClaim current id lease snapshot = true := by
  fun_cases completeClaimFromLease ctx id lease snapshot q with
  | case4 _ data loaded current stored now =>
    obtain rfl := loadUnlocked_ok loaded
    exact fun _ => ⟨current, stored, now⟩
  | _ => rintro ⟨⟩

theorem completeAndRemoveClaimFromLease_ok (ctx : Context) (id : String) (lease : Credential)
    (snapshot : Claim) (q : Queue) :
    (completeAndRemoveClaimFromLease ctx id lease snapshot q).1 = .ok () →
      ∃ current, q.claims.get id = some current ∧
        exactCurrentClaim current id lease (some snapshot) = true := by
  fun_cases completeAndRemoveClaimFromLease ctx id lease snapshot q with
  | case5 _ data loaded _ current stored now =>
    obtain rfl := loadForStrictMutation_ok loaded
    rw [Bool.and_eq_true] at now
    exact fun _ => ⟨current, stored, now.2⟩
  | _ => rintro ⟨⟩

theorem disposes_tuple {ctx : Context} {id : String} {snapshot : Claim}
    (disposes : Disposes ctx q id snapshot) : tuples q id = some snapshot.tuple := by
  obtain ⟨lease, current, stored, now⟩ : ∃ (lease : Credential) (current : Claim),
      q.claims.get id = some current ∧
        exactCurrentClaim current id lease (some snapshot) = true := by
    cases disposes with
    | complete lease accepted => exact ⟨_, completeClaimFromLease_ok _ _ _ _ _ accepted⟩
    | defer lease reason accepted changed =>
      exact ⟨_, (deferClaimFromLease_ok _ _ _ _ _ _ accepted).resolve_left changed⟩
    | completeAndRemove lease accepted =>
      exact ⟨_, completeAndRemoveClaimFromLease_ok _ _ _ _ _ accepted⟩
  rw [tuples, stored, Option.map_some, exactCurrentClaim_tuple now]

/-- Unless a lease claims a deleted operation again, a snapshot is accepted only against the
record that its own claim call created. -/
theorem snapshot_fenced_of_renewed (isOther : Char → Bool) (calls : List (Call × Context))
    (renewed : AllRenewed isOther .init calls) (n : Nat) (snapshot : Claim)
    (issued : (n, snapshot) ∈ (History.run isOther calls).issued) (ctx : Context) (id : String)
    (disposes : Disposes ctx (History.run isOther calls).queue id snapshot) :
    (History.run isOther calls).creator id = some n := by
  have fencing : Fencing (History.run isOther calls) :=
    fencing_foldl isOther calls fencing_init renewed
  obtain ⟨m, d, first, same⟩ := fencing.newest id _ (disposes_tuple disposes)
  have member : (m, d) ∈ (History.run isOther calls).issued := List.mem_of_find?_eq_some first
  rw [History.creator, first, Option.map_some,
    fencing.unique m d n snapshot member issued same]

def drainLease : GrantedLease := ⟨⟨"token", 1, "process"⟩, ⟨by decide, by decide, by decide⟩⟩

def failedContext (now : Instant) : Context where
  files := ⟨some 1, some ⟨Lease.workerLeaseSchema, "worker", "process", 1, "token", 0, 0,
    some 120, 0⟩⟩
  guardNow := now
  now := now
  loader _ := .loaded (some .failed) []

def firstSnapshot : Claim :=
  newClaim "op" drainLease.1 1 120000000 0 none

theorem op_ne_blank : "op" ≠ "" := by decide

def claimOnce : List (Call × Context) :=
  [(.enqueue "op" op_ne_blank, failedContext 0),
    (.claimSpecificFromLease "op" drainLease, failedContext 0)]

def claimTwice : List (Call × Context) :=
  claimOnce ++
    [(.completeAndRemoveClaimFromLease "op" drainLease firstSnapshot, failedContext 0),
      (.enqueue "op" op_ne_blank, failedContext 1),
      (.claimSpecificFromLease "op" drainLease, failedContext 2)]

def nextLease : GrantedLease := ⟨⟨"token-2", 2, "process-2"⟩, ⟨by decide, by decide, by decide⟩⟩

def nextContext : Context :=
  { failedContext 2 with files := ⟨some 2, some ⟨Lease.workerLeaseSchema, "worker", "process-2", 2,
      "token-2", 0, 0, some 120, 0⟩⟩ }

def claimRenewed : List (Call × Context) :=
  claimTwice.dropLast ++ [(.claimSpecificFromLease "op" nextLease, nextContext)]

def secondSnapshot : Claim := newClaim "op" nextLease.1 1 120000002 2 none

instance (isOther : Char → Bool) (h : History) (next : Call × Context) :
    Decidable (Renewed isOther h next) :=
  inferInstanceAs (Decidable (∀ c ∈ claimOf (next.1.run isOther next.2 h.queue).1,
    (c.operationId, c.lease) ∉ h.retired))

theorem claimRenewed_snapshot_fenced :
    let reached := History.run (fun _ => false) claimRenewed
    AllRenewed (fun _ => false) .init claimRenewed ∧
      ("op", drainLease.1) ∈ reached.retired ∧ (1, secondSnapshot) ∈ reached.issued ∧
      reached.creator "op" = some 1 := by
  have renewed : AllRenewed (fun _ => false) .init claimRenewed := by
    refine ⟨?_, ?_, ?_, ?_, ?_, trivial⟩ <;> decide +kernel
  have issued : (1, secondSnapshot) ∈ (History.run (fun _ => false) claimRenewed).issued := by
    decide +kernel
  exact ⟨renewed, by decide +kernel, issued, snapshot_fenced_of_renewed _ claimRenewed renewed 1
    secondSnapshot issued nextContext "op" (.complete nextLease (by decide +kernel))⟩

theorem claimTwice_accepts_first_snapshot :
    (0, firstSnapshot) ∈ (History.run (fun _ => false) claimTwice).issued ∧
      Disposes (failedContext 3) (History.run (fun _ => false) claimTwice).queue "op"
        firstSnapshot ∧
      (History.run (fun _ => false) claimTwice).creator "op" = some 1 := by
  exact ⟨by decide +kernel, .complete drainLease (by decide +kernel), by decide +kernel⟩

end RExecOp.RunNowQueue
