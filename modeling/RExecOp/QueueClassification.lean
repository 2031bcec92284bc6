import RExecOp.QueueRecovery

/-! The recovery scan classifies the claimed records exactly; it walks the ids in order and
stops at the first claim of no class. -/

namespace RExecOp.RunNowQueue

open Lease (Instant Credential)
open Attempts (attemptSchema)

variable {attempts : List AttemptFacts} {state : OperationState}

structure WellFormed (operationId : String) (attempts : List AttemptFacts) : Prop where
  distinct : (attempts.map (·.attemptId)).Nodup
  each : ∀ attempt ∈ attempts, attempt.schema = attemptSchema ∧ attempt.attemptId ≠ "" ∧
    attempt.operationId = operationId ∧ ∃ status, attempt.status = some status

/-- An expired claim under a lease of a later epoch. -/
structure Abandoned (scan : Scan) (c : Claim) : Prop where
  claimed : c.status = .claimed
  expired : ∃ expiry, c.expiresAt = some expiry ∧ expiry ≤ scan.observedAt
  older : c.leaseEpoch < scan.lease.leaseEpoch

structure Requeues (ctx : Context) (scan : Scan) (id : String) (c : Claim) : Prop where
  abandoned : Abandoned scan c
  approved : ctx.loader id = .loaded (some .approved) []

structure Completes (ctx : Context) (scan : Scan) (pending : List String) (id : String)
    (c : Claim) (state : OperationState) (attempts : List AttemptFacts) : Prop where
  abandoned : Abandoned scan c
  absent : id ∉ pending
  loaded : ctx.loader id = .loaded (some state) attempts
  wellFormed : WellFormed id attempts
  terminal : state = .completed ∨ state = .failed ∨ state = .cancelled ∨ state = .escalated
  finished : ∀ attempt ∈ attempts,
    attempt.status ≠ some .pending ∧ attempt.status ≠ some .started

structure Leaves (scan : Scan) (pending : List String) (id : String) (c : Claim) : Prop where
  claimed : c.status = .claimed
  early : ∃ expiry, c.expiresAt = some expiry ∧ scan.observedAt < expiry
  absent : id ∉ pending

structure Blocks (ctx : Context) (scan : Scan) (q : Queue) (id : String) (c : Claim) : Prop where
  stored : q.claims.get id = some c
  claimed : c.status = .claimed
  requeues : ¬Requeues ctx scan id c
  completes : ∀ state attempts, ¬Completes ctx scan q.pending id c state attempts
  leaves : ¬Leaves scan q.pending id c

def requeuedRecord (scan : Scan) (c : Claim) : Claim :=
  { noted scan c .requeued .expiredPreExecutionClaim (.state .approved, []) with
    status := .requeued }

def completedRecord (scan : Scan) (c : Claim) (state : OperationState)
    (attempts : List AttemptFacts) : Claim :=
  { noted scan c .completed .terminalOperation (.state state, attempts) with
    status := .completed
    completedAt := some scan.observedAt }

theorem malformedInventory_eq_false_iff {operationId : String} {seen : List String} :
    malformedInventory operationId seen attempts = false ↔
      WellFormed operationId attempts ∧ ∀ attempt ∈ attempts, attempt.attemptId ∉ seen := by
  induction attempts generalizing seen with
  | nil =>
    simp only [malformedInventory, true_iff]
    exact ⟨⟨List.nodup_nil, by simp⟩, by simp⟩
  | cons attempt rest ih =>
    simp only [malformedInventory, Bool.or_eq_false_iff, ih, bne_eq_false_iff_eq,
      beq_eq_false_iff_ne, List.contains_eq_mem, decide_eq_false_iff_not,
      Option.isNone_eq_false_iff,
      Option.isSome_iff_exists]
    constructor
    · rintro ⟨⟨⟨⟨⟨schema, named⟩, fresh⟩, operation⟩, status⟩, formed, later⟩
      refine ⟨⟨?_, ?_⟩, ?_⟩
      · rw [List.map_cons, List.nodup_cons]
        refine ⟨fun member => ?_, formed.distinct⟩
        obtain ⟨other, inside, same⟩ := List.mem_map.mp member
        exact later other inside (List.mem_cons.mpr (.inl same))
      · intro other member
        rcases List.mem_cons.mp member with rfl | inside
        · exact ⟨schema, named, operation, status⟩
        · exact formed.each other inside
      · intro other member
        rcases List.mem_cons.mp member with rfl | inside
        · exact fresh
        · exact fun again => later other inside (List.mem_cons_of_mem _ again)
    · rintro ⟨formed, apart⟩
      obtain ⟨schema, named, operation, status⟩ := formed.each attempt List.mem_cons_self
      have distinct := formed.distinct
      rw [List.map_cons, List.nodup_cons] at distinct
      refine ⟨⟨⟨⟨⟨schema, named⟩, apart attempt List.mem_cons_self⟩, operation⟩, status⟩,
        ⟨distinct.2, fun other inside => formed.each other (List.mem_cons_of_mem _ inside)⟩, ?_⟩
      intro other inside again
      rcases List.mem_cons.mp again with same | again
      · exact distinct.1 (List.mem_map.mpr ⟨other, inside, same⟩)
      · exact apart other (List.mem_cons_of_mem _ inside) again

section Step

variable {ctx : Context} {scan : Scan} {q : Queue} {id : String} {c : Claim}

theorem recoverClaim_idle (idle : ∀ c, q.claims.get id = some c → c.status ≠ .claimed) :
    recoverClaim ctx scan q id = .ok (false, q) := by
  unfold recoverClaim
  split
  · rfl
  · rename_i c stored
    rw [if_pos (idle c stored)]

theorem recoverClaim_leaves (stored : q.claims.get id = some c)
    (leaves : Leaves scan q.pending id c) : recoverClaim ctx scan q id = .ok (false, q) := by
  obtain ⟨expiry, expires, early⟩ := leaves.early
  simp [recoverClaim, stored, leaves.claimed, expires, early, leaves.absent]

theorem recoverClaim_abandoned (stored : q.claims.get id = some c)
    (abandoned : Abandoned scan c) :
    recoverClaim ctx scan q id = recoverExpiredClaim ctx scan q id c := by
  obtain ⟨expiry, expires, late⟩ := abandoned.expired
  simp only [recoverClaim, stored, abandoned.claimed, ne_eq, not_true_eq_false, if_false, expires,
    if_neg (not_lt.mpr late), if_neg (not_le.mpr abandoned.older)]

theorem loadRecoveryFacts_wellFormed (loaded : ctx.loader id = .loaded (some state) attempts)
    (formed : WellFormed id attempts) :
    loadRecoveryFacts ctx id = ⟨.state state, attempts, none⟩ := by
  have valid : malformedInventory id [] attempts = false :=
    malformedInventory_eq_false_iff.mpr ⟨formed, by simp⟩
  simp [loadRecoveryFacts, loaded, valid]

theorem recoverClaim_requeues (stored : q.claims.get id = some c)
    (requeues : Requeues ctx scan id c) :
    recoverClaim ctx scan q id =
      .ok (true, requeueClaim scan q id c .expiredPreExecutionClaim (.state .approved, [])) := by
  have facts := loadRecoveryFacts_wellFormed requeues.approved ⟨List.nodup_nil, by simp⟩
  rw [recoverClaim_abandoned stored requeues.abandoned]
  simp [recoverExpiredClaim, facts]

theorem isTerminalRecovery_iff : state.isTerminalRecovery = true ↔
    state = .completed ∨ state = .failed ∨ state = .cancelled ∨ state = .escalated := by
  cases state <;> simp [OperationState.isTerminalRecovery]

theorem hasUnfinished_eq_false_iff : hasUnfinished attempts = false ↔ ∀ attempt ∈ attempts,
      attempt.status ≠ some .pending ∧ attempt.status ≠ some .started := by
  simp [hasUnfinished]

theorem recoverClaim_completes (stored : q.claims.get id = some c)
    (completes : Completes ctx scan q.pending id c state attempts) : recoverClaim ctx scan q id =
      .ok (true, completeClaimRecord scan q id c .terminalOperation (.state state, attempts)) := by
  have facts := loadRecoveryFacts_wellFormed completes.loaded completes.wellFormed
  have terminal := isTerminalRecovery_iff.mpr completes.terminal
  have finished := hasUnfinished_eq_false_iff.mpr completes.finished
  have launched : state ≠ .approved := by
    rintro rfl
    simp [OperationState.isTerminalRecovery] at terminal
  have idle : state.isActive = false := by
    cases state <;> simp_all [OperationState.isTerminalRecovery, OperationState.isActive]
  rw [recoverClaim_abandoned stored completes.abandoned]
  simp [recoverExpiredClaim, facts, launched, completes.absent, idle, terminal, finished]

theorem wellFormed_of_loadRecoveryFacts (loaded : (loadRecoveryFacts ctx id).loadReason = none) :
    ∃ state attempts, ctx.loader id = .loaded (some state) attempts ∧ WellFormed id attempts := by
  unfold loadRecoveryFacts at loaded
  split at loaded
  · cases loaded
  · cases loaded
  · cases loaded
  · rename_i state attempts found
    split at loaded
    · cases loaded
    · rename_i valid
      have formed := (malformedInventory_eq_false_iff.mp (Bool.not_eq_true _ ▸ valid)).1
      exact ⟨state, attempts, found, formed⟩

theorem recoverExpiredClaim_blocks (abandoned : Abandoned scan c)
    (requeues : ¬Requeues ctx scan id c)
    (completes : ∀ state attempts, ¬Completes ctx scan q.pending id c state attempts) :
    ∃ reason seen, recoverExpiredClaim ctx scan q id c =
      .error (blockClaim scan q id c reason seen) := by
  unfold recoverExpiredClaim
  dsimp only
  split
  · exact ⟨_, _, rfl⟩
  · rename_i loaded
    obtain ⟨state, attempts, found, formed⟩ := wellFormed_of_loadRecoveryFacts loaded
    rw [loadRecoveryFacts_wellFormed found formed]
    dsimp only
    split
    · rename_i fresh
      obtain ⟨approved, rfl⟩ := fresh
      have approved := RecordedState.state.inj approved
      exact absurd ⟨abandoned, approved ▸ found⟩ requeues
    · split
      · exact ⟨_, _, rfl⟩
      · split
        · exact ⟨_, _, rfl⟩
        · rename_i absent
          split
          · exact ⟨_, _, rfl⟩
          · split
            · rename_i terminal
              split
              · exact ⟨_, _, rfl⟩
              · rename_i finished
                refine absurd ⟨abandoned, by simpa using absent, found, formed, ?_, ?_⟩
                  (completes state attempts)
                · exact isTerminalRecovery_iff.mp terminal
                · exact hasUnfinished_eq_false_iff.mp (Bool.not_eq_true _ ▸ finished)
            · exact ⟨_, _, rfl⟩

theorem recoverClaim_blocks (blocks : Blocks ctx scan q id c) :
    ∃ reason seen, recoverClaim ctx scan q id = .error (blockClaim scan q id c reason seen) := by
  cases expires : c.expiresAt with
  | none =>
    refine ⟨.invalidClaimExpiry, (.unavailable, []), ?_⟩
    simp [recoverClaim, blocks.stored, blocks.claimed, expires]
  | some expiry =>
    by_cases early : scan.observedAt < expiry
    · by_cases member : id ∈ q.pending
      · refine ⟨.legacyClaimNotExpired, (.unavailable, []), ?_⟩
        simp [recoverClaim, blocks.stored, blocks.claimed, expires, early, member]
      · exact absurd ⟨blocks.claimed, ⟨expiry, expires, early⟩, member⟩ blocks.leaves
    · by_cases current : scan.lease.leaseEpoch ≤ c.leaseEpoch
      · refine ⟨.leaseEpochNotAdvanced, (.unavailable, []), ?_⟩
        simp [recoverClaim, blocks.stored, blocks.claimed, expires, early, current]
      · have abandoned : Abandoned scan c :=
          ⟨blocks.claimed, ⟨expiry, expires, not_lt.mp early⟩, not_le.mp current⟩
        rw [recoverClaim_abandoned blocks.stored abandoned]
        exact recoverExpiredClaim_blocks abandoned blocks.requeues blocks.completes

end Step

/-- The queue after the ids of `done` have been visited. -/
structure Handled (ctx : Context) (scan : Scan) (q : Queue) (done : String → Prop) (after : Queue) :
    Prop where
  missing : ∀ {id}, q.claims.get id = none → after.claims.get id = none
  requeued : ∀ {id c}, q.claims.get id = some c → done id → Requeues ctx scan id c →
    after.claims.get id = some (requeuedRecord scan c)
  completed : ∀ {id c state attempts}, q.claims.get id = some c → done id →
    Completes ctx scan q.pending id c state attempts →
    after.claims.get id = some (completedRecord scan c state attempts)
  untouched : ∀ {id c}, q.claims.get id = some c →
    (done id → ¬Requeues ctx scan id c ∧
      ∀ state attempts, ¬Completes ctx scan q.pending id c state attempts) →
    after.claims.get id = some c
  pending : ∃ added, after.pending = q.pending ++ added ∧ added.Pairwise (· < ·) ∧
    ∀ id, id ∈ added ↔ id ∉ q.pending ∧ done id ∧
      ∃ c, q.claims.get id = some c ∧ Requeues ctx scan id c

section Scan

variable {ctx : Context} {scan : Scan} {q after : Queue} {done : String → Prop} {id : String}
  {c : Claim}

theorem Abandoned.not_leaves {pending : List String} (abandoned : Abandoned scan c) :
    ¬Leaves scan pending id c := by
  intro leaves
  obtain ⟨expiry, expires, late⟩ := abandoned.expired
  obtain ⟨other, expires', early⟩ := leaves.early
  rw [expires] at expires'
  cases expires'
  exact absurd early (not_lt.mpr late)

theorem Completes.not_requeues {pending : List String}
    (completes : Completes ctx scan pending id c state attempts) : ¬Requeues ctx scan id c := by
  intro requeues
  have loaded := completes.loaded
  rw [requeues.approved] at loaded
  cases loaded
  simpa using completes.terminal

theorem Handled.start (q : Queue) : Handled ctx scan q (fun _ => False) q where
  missing absent := absent
  requeued _ visited := visited.elim
  completed _ visited := visited.elim
  untouched stored _ := stored
  pending := ⟨[], by simp, List.Pairwise.nil, by simp⟩

theorem Handled.get (handled : Handled ctx scan q done after) (fresh : ¬done id) :
    after.claims.get id = q.claims.get id := by
  cases stored : q.claims.get id with
  | none => exact handled.missing stored
  | some c => exact handled.untouched stored fun visited => absurd visited fresh

theorem Handled.mem_pending (handled : Handled ctx scan q done after) (fresh : ¬done id) :
    id ∈ after.pending ↔ id ∈ q.pending := by
  obtain ⟨added, grown, -, exactly⟩ := handled.pending
  rw [grown, List.mem_append, exactly]
  constructor
  · rintro (member | ⟨-, visited, -⟩)
    · exact member
    · exact absurd visited fresh
  · exact .inl

theorem Handled.skip (handled : Handled ctx scan q done after)
    (idle : ∀ c, q.claims.get id = some c → ¬Requeues ctx scan id c ∧
      ∀ state attempts, ¬Completes ctx scan q.pending id c state attempts) :
    Handled ctx scan q (fun j => done j ∨ j = id) after where
  missing := handled.missing
  requeued {j c} stored visited requeues := by
    rcases visited with visited | rfl
    · exact handled.requeued stored visited requeues
    · exact absurd requeues (idle c stored).1
  completed {j c state attempts} stored visited completes := by
    rcases visited with visited | rfl
    · exact handled.completed stored visited completes
    · exact absurd completes ((idle c stored).2 state attempts)
  untouched stored outside := handled.untouched stored fun visited => outside (.inl visited)
  pending := by
    obtain ⟨added, grown, ordered, exactly⟩ := handled.pending
    refine ⟨added, grown, ordered, fun j => ?_⟩
    rw [exactly]
    refine and_congr_right fun _ => ⟨fun ⟨visited, requeued⟩ => ⟨.inl visited, requeued⟩, ?_⟩
    rintro ⟨visited | rfl, c, stored, requeues⟩
    · exact ⟨visited, c, stored, requeues⟩
    · exact absurd requeues (idle c stored).1

theorem Handled.complete (handled : Handled ctx scan q done after) (fresh : ¬done id)
    (stored : q.claims.get id = some c)
    (completes : Completes ctx scan q.pending id c state attempts) :
    Handled ctx scan q (fun j => done j ∨ j = id)
      { after with claims := after.claims.set id (completedRecord scan c state attempts) } where
  missing {j} absent := by
    have other : j ≠ id := fun same => by simp [same, stored] at absent
    exact (Dict.get_set_ne _ _ other).trans (handled.missing absent)
  requeued {j d} found visited requeues := by
    have other : j ≠ id := by
      rintro rfl
      cases stored.symm.trans found
      exact completes.not_requeues requeues
    exact (Dict.get_set_ne _ _ other).trans
      (handled.requeued found (visited.resolve_right other) requeues)
  completed {j d _ _} found visited other := by
    by_cases same : j = id
    · subst same
      cases stored.symm.trans found
      cases completes.loaded.symm.trans other.loaded
      exact Dict.get_set_self _ _ _
    · exact (Dict.get_set_ne _ _ same).trans
        (handled.completed found (visited.resolve_right same) other)
  untouched {j d} found outside := by
    have other : j ≠ id := by
      rintro rfl
      cases stored.symm.trans found
      exact (outside (.inr rfl)).2 state attempts completes
    exact (Dict.get_set_ne _ _ other).trans
      (handled.untouched found fun visited => outside (.inl visited))
  pending := by
    obtain ⟨added, grown, ordered, exactly⟩ := handled.pending
    refine ⟨added, grown, ordered, fun j => ?_⟩
    rw [exactly]
    refine and_congr_right fun _ => ⟨And.imp_left .inl, ?_⟩
    rintro ⟨visited | rfl, d, found, requeues⟩
    · exact ⟨visited, d, found, requeues⟩
    · cases stored.symm.trans found
      exact absurd requeues completes.not_requeues

theorem Handled.requeue (handled : Handled ctx scan q done after) (fresh : ¬done id)
    (behind : ∀ j, done j → j < id) (stored : q.claims.get id = some c)
    (requeues : Requeues ctx scan id c) :
    Handled ctx scan q (fun j => done j ∨ j = id)
      ⟨if after.pending.contains id then after.pending else after.pending ++ [id],
        after.claims.set id (requeuedRecord scan c)⟩ where
  missing {j} absent := by
    have other : j ≠ id := fun same => by simp [same, stored] at absent
    exact (Dict.get_set_ne _ _ other).trans (handled.missing absent)
  requeued {j d} found visited again := by
    by_cases same : j = id
    · subst same
      cases stored.symm.trans found
      exact Dict.get_set_self _ _ _
    · exact (Dict.get_set_ne _ _ same).trans
        (handled.requeued found (visited.resolve_right same) again)
  completed {j d _ _} found visited completes := by
    have other : j ≠ id := by
      rintro rfl
      cases stored.symm.trans found
      exact completes.not_requeues requeues
    exact (Dict.get_set_ne _ _ other).trans
      (handled.completed found (visited.resolve_right other) completes)
  untouched {j d} found outside := by
    have other : j ≠ id := by
      rintro rfl
      cases stored.symm.trans found
      exact (outside (.inr rfl)).1 requeues
    exact (Dict.get_set_ne _ _ other).trans
      (handled.untouched found fun visited => outside (.inl visited))
  pending := by
    have known := handled.mem_pending fresh
    obtain ⟨added, grown, ordered, exactly⟩ := handled.pending
    by_cases member : id ∈ q.pending
    · refine ⟨added, ?_, ordered, fun j => ?_⟩
      · rw [if_pos (by simpa using known.mpr member)]
        exact grown
      · rw [exactly]
        refine and_congr_right fun absent => ⟨And.imp_left .inl, ?_⟩
        rintro ⟨visited | rfl, again⟩
        · exact ⟨visited, again⟩
        · exact absurd member absent
    · refine ⟨added ++ [id], ?_, ?_, fun j => ?_⟩
      · rw [if_neg (by simpa using fun again => member (known.mp again)), grown, List.append_assoc]
      · rw [List.pairwise_append]
        refine ⟨ordered, List.pairwise_singleton _ _, fun j inside k last => ?_⟩
        rw [List.mem_singleton.mp last]
        exact behind j ((exactly j).mp inside).2.1
      · rw [List.mem_append, exactly, List.mem_singleton]
        constructor
        · rintro (⟨absent, visited, again⟩ | rfl)
          · exact ⟨absent, .inl visited, again⟩
          · exact ⟨member, .inr rfl, c, stored, requeues⟩
        · rintro ⟨absent, visited | rfl, again⟩
          · exact .inl ⟨absent, visited, again⟩
          · exact .inr rfl

def Settled (ctx : Context) (scan : Scan) (q : Queue) (id : String) : Prop :=
  ∃ c, q.claims.get id = some c ∧ (Requeues ctx scan id c ∨
    ∃ state attempts, Completes ctx scan q.pending id c state attempts)

theorem Blocks.congr (blocks : Blocks ctx scan q id c)
    (same : after.claims.get id = q.claims.get id)
    (pending : id ∈ after.pending ↔ id ∈ q.pending) : Blocks ctx scan after id c where
  stored := same.trans blocks.stored
  claimed := blocks.claimed
  requeues := blocks.requeues
  completes state attempts completes := by
    refine blocks.completes state attempts ⟨completes.abandoned, ?_, completes.loaded,
      completes.wellFormed, completes.terminal, completes.finished⟩
    exact fun member => completes.absent (pending.mpr member)
  leaves leaves :=
    blocks.leaves ⟨leaves.claimed, leaves.early, fun member => leaves.absent (pending.mpr member)⟩

theorem recoverClaim_handled (handled : Handled ctx scan q done after) (fresh : ¬done id)
    (behind : ∀ j, done j → j < id) (free : ∀ c, ¬Blocks ctx scan q id c) :
    ∃ again last, recoverClaim ctx scan after id = .ok (again, last) ∧
      Handled ctx scan q (fun j => done j ∨ j = id) last ∧
      (again = true ↔ Settled ctx scan q id) := by
  have same := handled.get fresh
  have known := handled.mem_pending fresh
  by_cases claimed : ∃ c, q.claims.get id = some c ∧ c.status = .claimed
  · obtain ⟨c, stored, claimed⟩ := claimed
    have here : after.claims.get id = some c := same.trans stored
    by_cases requeues : Requeues ctx scan id c
    · refine ⟨true, _, recoverClaim_requeues here requeues, ?_, ?_⟩
      · exact handled.requeue fresh behind stored requeues
      · exact ⟨fun _ => ⟨c, stored, .inl requeues⟩, fun _ => rfl⟩
    · by_cases completes : ∃ state attempts, Completes ctx scan q.pending id c state attempts
      · obtain ⟨state, attempts, completes⟩ := completes
        have now : Completes ctx scan after.pending id c state attempts :=
          ⟨completes.abandoned, fun member => completes.absent (known.mp member),
            completes.loaded, completes.wellFormed, completes.terminal, completes.finished⟩
        refine ⟨true, _, recoverClaim_completes here now, ?_, ?_⟩
        · exact handled.complete fresh stored completes
        · exact ⟨fun _ => ⟨c, stored, .inr ⟨state, attempts, completes⟩⟩, fun _ => rfl⟩
      · have completes : ∀ state attempts, ¬Completes ctx scan q.pending id c state attempts :=
          fun state attempts here => completes ⟨state, attempts, here⟩
        have leaves : Leaves scan q.pending id c := by
          by_contra leaves
          exact free c ⟨stored, claimed, requeues, completes, leaves⟩
        have now : Leaves scan after.pending id c :=
          ⟨leaves.claimed, leaves.early, fun member => leaves.absent (known.mp member)⟩
        refine ⟨false, _, recoverClaim_leaves here now, handled.skip fun d found => ?_, ?_⟩
        · cases stored.symm.trans found
          exact ⟨requeues, completes⟩
        · refine ⟨fun impossible => by simp at impossible, ?_⟩
          rintro ⟨d, found, settles⟩
          cases stored.symm.trans found
          rcases settles with again | ⟨state, attempts, again⟩
          · exact absurd again requeues
          · exact absurd again (completes state attempts)
  · have idle : ∀ c, q.claims.get id = some c → c.status ≠ .claimed :=
      fun c stored held => claimed ⟨c, stored, held⟩
    refine ⟨false, _, recoverClaim_idle fun c here => idle c (same ▸ here),
      handled.skip fun c stored => ⟨?_, ?_⟩, ?_⟩
    · exact fun requeues => idle c stored requeues.abandoned.claimed
    · exact fun _ _ completes => idle c stored completes.abandoned.claimed
    · refine ⟨fun impossible => by simp at impossible, ?_⟩
      rintro ⟨c, stored, requeues | ⟨state, attempts, completes⟩⟩
      · exact absurd requeues.abandoned.claimed (idle c stored)
      · exact absurd completes.abandoned.claimed (idle c stored)

theorem Handled.congr {other : String → Prop} (handled : Handled ctx scan q done after)
    (same : ∀ id c, q.claims.get id = some c → (done id ↔ other id)) :
    Handled ctx scan q other after where
  missing := handled.missing
  requeued stored visited := handled.requeued stored ((same _ _ stored).mpr visited)
  completed stored visited := handled.completed stored ((same _ _ stored).mpr visited)
  untouched stored outside :=
    handled.untouched stored fun visited => outside ((same _ _ stored).mp visited)
  pending := by
    obtain ⟨added, grown, ordered, exactly⟩ := handled.pending
    refine ⟨added, grown, ordered, fun id => ?_⟩
    rw [exactly]
    refine and_congr_right fun _ => ⟨?_, ?_⟩
    · rintro ⟨visited, c, stored, requeues⟩
      exact ⟨(same id c stored).mp visited, c, stored, requeues⟩
    · rintro ⟨visited, c, stored, requeues⟩
      exact ⟨(same id c stored).mpr visited, c, stored, requeues⟩

theorem recoverClaims_handled {ids : List String} {changed : Bool}
    (handled : Handled ctx scan q done after) (ordered : ids.Pairwise (· < ·))
    (behind : ∀ id ∈ ids, ∀ j, done j → j < id)
    (free : ∀ id ∈ ids, ∀ c, ¬Blocks ctx scan q id c) :
    ∃ again last, recoverClaims ctx scan ids (changed, after) = .ok (again, last) ∧
      Handled ctx scan q (fun j => done j ∨ j ∈ ids) last ∧
      (again = true ↔ changed = true ∨ ∃ id ∈ ids, Settled ctx scan q id) := by
  induction ids generalizing done changed after with
  | nil =>
    refine ⟨changed, after, rfl, handled.congr fun _ _ _ => by simp, by simp⟩
  | cons id rest ih =>
    rw [List.pairwise_cons] at ordered
    have fresh : ¬done id := fun visited =>
      lt_irrefl id (behind id List.mem_cons_self id visited)
    obtain ⟨first, mid, ran, handled, settled⟩ := recoverClaim_handled handled fresh
      (behind id List.mem_cons_self) (free id List.mem_cons_self)
    have behind : ∀ k ∈ rest, ∀ j, done j ∨ j = id → j < k := by
      rintro k member j (visited | rfl)
      · exact behind k (List.mem_cons_of_mem _ member) j visited
      · exact ordered.1 k member
    obtain ⟨again, last, others, handled, changes⟩ :
        ∃ again last, recoverClaims ctx scan rest (changed || first, mid) = .ok (again, last) ∧ _ :=
      ih handled ordered.2 behind fun k member => free k (List.mem_cons_of_mem _ member)
    refine ⟨again, last, ?_, handled.congr fun _ _ _ => ?_, ?_⟩
    · simp only [recoverClaims, ran, others]
    · rw [List.mem_cons, or_assoc]
    · rw [changes, Bool.or_eq_true, settled, or_assoc]
      simp only [List.mem_cons, exists_eq_or_imp]

theorem recoverClaims_append (xs ys : List String) (start : Bool × Queue) :
    recoverClaims ctx scan (xs ++ ys) start =
      match recoverClaims ctx scan xs start with
      | .error saved => .error saved
      | .ok reached => recoverClaims ctx scan ys reached := by
  induction xs generalizing start with
  | nil => rfl
  | cons id rest ih =>
    simp only [List.cons_append, recoverClaims]
    split
    · rfl
    · exact ih _

end Scan

/-- What the scan does when it reaches a claim of no class. -/
structure Blocked (scan : Scan) (c : Claim) (reached : Queue) (id : String) (after : Queue) :
    Prop where
  pending : after.pending = reached.pending
  record : ∃ reason seen, after.claims.get id = some (noted scan c .blocked reason seen)
  others : ∀ {j}, j ≠ id → after.claims.get j = reached.claims.get j

section Whole

variable {ctx : Context} {scan : Scan} {q : Queue}

theorem recoverExpiredUnlocked_free (accepted : validateTopology q = none)
    (free : ∀ id c, ¬Blocks ctx scan q id c) :
    ∃ again after, recoverExpiredUnlocked ctx scan q = .ok (again, after) ∧
      Handled ctx scan q (fun _ => True) after ∧
      (again = true ↔ ∃ id, Settled ctx scan q id) := by
  obtain ⟨again, last, ran, handled, changes⟩ :=
    @recoverClaims_handled ctx scan q q (fun _ => False) q.claims.sortedKeys false (.start q)
      (Dict.sortedKeys_pairwise _) (by simp) fun id _ => free id
  refine ⟨again, last, ?_, handled.congr fun id c stored => ?_, ?_⟩
  · rw [recoverExpiredUnlocked, accepted]
    exact ran
  · rw [Dict.mem_sortedKeys_iff]
    exact ⟨fun _ => trivial, fun _ => .inr ⟨c, stored⟩⟩
  · rw [changes]
    constructor
    · rintro (impossible | ⟨id, -, settled⟩)
      · cases impossible
      · exact ⟨id, settled⟩
    · rintro ⟨id, settled⟩
      exact .inr ⟨id, (Dict.mem_sortedKeys_iff _ _).mpr (settled.imp fun _ => And.left), settled⟩

theorem recoverExpiredUnlocked_blocks {id : String} {c : Claim}
    (accepted : validateTopology q = none) (blocks : Blocks ctx scan q id c)
    (first : ∀ j d, j < id → ¬Blocks ctx scan q j d) :
    ∃ reached after, recoverExpiredUnlocked ctx scan q = .error after ∧
      Handled ctx scan q (· < id) reached ∧ Blocked scan c reached id after := by
  have member : id ∈ q.claims.sortedKeys := (Dict.mem_sortedKeys_iff _ _).mpr ⟨c, blocks.stored⟩
  obtain ⟨before, later, split⟩ := List.append_of_mem member
  have ordered := Dict.sortedKeys_pairwise q.claims
  rw [split, List.pairwise_append] at ordered
  obtain ⟨front, back, across⟩ := ordered
  have below : ∀ j ∈ before, j < id := fun j inside => across j inside id List.mem_cons_self
  obtain ⟨again, reached, ran, handled, -⟩ :=
    @recoverClaims_handled ctx scan q q (fun _ => False) before false (.start q) front (by simp)
      fun j inside d => first j d (below j inside)
  have visited : ∀ j d, q.claims.get j = some d → (False ∨ j ∈ before ↔ j < id) := by
    intro j d stored
    rw [false_or]
    refine ⟨below j, fun smaller => ?_⟩
    have listed : j ∈ before ++ id :: later :=
      split ▸ (Dict.mem_sortedKeys_iff _ _).mpr ⟨d, stored⟩
    rcases List.mem_append.mp listed with inside | outside
    · exact inside
    · rcases List.mem_cons.mp outside with rfl | outside
      · exact absurd smaller (lt_irrefl j)
      · exact absurd smaller (not_lt.mpr (le_of_lt ((List.pairwise_cons.mp back).1 j outside)))
  have handled : Handled ctx scan q (· < id) reached := handled.congr visited
  have fresh : ¬id < id := lt_irrefl id
  obtain ⟨reason, seen, stopped⟩ :=
    recoverClaim_blocks (blocks.congr (handled.get fresh) (handled.mem_pending fresh))
  refine ⟨reached, blockClaim scan reached id c reason seen, ?_, handled, rfl, ⟨reason, seen, ?_⟩,
    fun other => ?_⟩
  · rw [recoverExpiredUnlocked, accepted]
    dsimp only
    rw [split, recoverClaims_append, ran]
    simp only [recoverClaims, stopped]
  · exact Dict.get_set_self _ _ _
  · exact Dict.get_set_ne _ _ other

end Whole

/-- On a queue that loads the scan stops at the first claim of no class. -/
theorem recoverExpiredClaimsFromLease_classifies (ctx : Context) (lease : Credential)
    (observedAt : Instant) (q : Queue)
    (entered : enterLeaseGuard ctx lease blockedFault = .ok ())
    (accepted : validateTopology q = none) :
    (¬Loads q → recoverExpiredClaimsFromLease ctx lease observedAt q = (.error blockedFault, q)) ∧
    (Loads q → ∀ id c, Blocks ctx ⟨lease, observedAt⟩ q id c →
      (∀ j d, j < id → ¬Blocks ctx ⟨lease, observedAt⟩ q j d) →
      ∃ reached after,
        recoverExpiredClaimsFromLease ctx lease observedAt q = (.error blockedFault, after) ∧
        Handled ctx ⟨lease, observedAt⟩ q (· < id) reached ∧
        Blocked ⟨lease, observedAt⟩ c reached id after) ∧
    (Loads q → (∀ id c, ¬Blocks ctx ⟨lease, observedAt⟩ q id c) →
      ∃ again after,
        recoverExpiredClaimsFromLease ctx lease observedAt q = (.ok again, after) ∧
        Handled ctx ⟨lease, observedAt⟩ q (fun _ => True) after ∧
        (again = true ↔ ∃ id, Settled ctx ⟨lease, observedAt⟩ q id)) := by
  unfold recoverExpiredClaimsFromLease
  rw [entered]
  dsimp only
  refine ⟨fun unreadable => ?_, fun loads id c blocks first => ?_, fun loads free => ?_⟩
  · have refused : loadUnlocked q = .error blockedFault := by
      unfold loadUnlocked
      rw [if_neg]
      intro valid
      refine unreadable fun id c stored => ?_
      exact List.all_eq_true.mp valid c ((Dict.mem_values_iff _ _).mpr ⟨id, stored⟩)
    rw [refused]
  · obtain ⟨reached, after, ran, handled, blocked⟩ :=
      recoverExpiredUnlocked_blocks accepted blocks first
    refine ⟨reached, after, ?_, handled, blocked⟩
    rw [loadUnlocked_of_valid loads]
    dsimp only
    rw [ran]
  · obtain ⟨again, after, ran, handled, changes⟩ := recoverExpiredUnlocked_free accepted free
    rw [loadUnlocked_of_valid loads]
    dsimp only
    rw [ran]
    cases again with
    | true => exact ⟨true, after, rfl, handled, changes⟩
    | false =>
      obtain ⟨-, -, -, same⟩ := recoverExpiredUnlocked_ok ran
      exact ⟨false, q, rfl, same rfl ▸ handled, changes⟩

def secondLease : Credential := ⟨"second", 2, "process"⟩

def abandonedClaim (id : String) : Claim := newClaim id ⟨"first", 1, "process"⟩ 1 120000000 0 none

def secondContext (loader : String → Loaded) : Context where
  files := ⟨some 2, some ⟨Lease.workerLeaseSchema, "worker", "process", 2, "second", 0, 0,
    some 240000000, 0⟩⟩
  guardNow := 120000000
  now := 120000000
  loader := loader

def twoClaims : Queue where
  pending := []
  claims := (Dict.set ∅ "op-1" (abandonedClaim "op-1")).set "op-2" (abandonedClaim "op-2")

def approvedThenRunning (id : String) : Loaded :=
  .loaded (some (if id = "op-1" then .approved else .running)) []

theorem twoClaims_stops_at_running : ∃ after,
    recoverExpiredClaimsFromLease (secondContext approvedThenRunning) secondLease 120000000
      twoClaims = (.error blockedFault, after) ∧
    after.pending = ["op-1"] ∧ (after.claims.get "op-2").map (·.status) = some .claimed := by
  have stored : ∀ {id c}, twoClaims.claims.get id = some c →
      (id = "op-1" ∨ id = "op-2") ∧ c = abandonedClaim id := by
    intro id c found
    simp only [twoClaims, Dict.get_set, Dict.get_empty] at found
    split at found
    · rename_i same
      subst same
      exact ⟨.inr rfl, (Option.some.inj found).symm⟩
    · split at found
      · rename_i same
        subst same
        exact ⟨.inl rfl, (Option.some.inj found).symm⟩
      · cases found
  have abandoned : ∀ id, Abandoned ⟨secondLease, 120000000⟩ (abandonedClaim id) := fun id =>
    ⟨rfl, ⟨120000000, rfl, le_refl _⟩, show (1 : Int) < 2 by decide⟩
  have blocks : Blocks (secondContext approvedThenRunning) ⟨secondLease, 120000000⟩ twoClaims
      "op-2" (abandonedClaim "op-2") := by
    refine ⟨by decide, rfl, fun requeues => ?_, fun state attempts completes => ?_,
      (abandoned "op-2").not_leaves⟩
    · have loaded := requeues.approved
      simp [secondContext, approvedThenRunning] at loaded
    · have loaded := completes.loaded
      simp only [secondContext, approvedThenRunning] at loaded
      cases loaded
      simpa using completes.terminal
  obtain ⟨-, stops, -⟩ := recoverExpiredClaimsFromLease_classifies
    (secondContext approvedThenRunning) secondLease 120000000 twoClaims (by decide) (by decide)
  obtain ⟨reached, after, ran, handled, blocked⟩ := stops
    (fun id c found => by rw [(stored found).2]; rfl) "op-2" _ blocks fun j d smaller other => by
      obtain ⟨rfl | rfl, rfl⟩ := stored other.stored
      · exact other.requeues ⟨abandoned _, rfl⟩
      · exact absurd smaller (lt_irrefl _)
  refine ⟨after, ran, ?_, ?_⟩
  · rw [show after = (recoverExpiredClaimsFromLease (secondContext approvedThenRunning)
      secondLease 120000000 twoClaims).2 by rw [ran]]
    decide
  · obtain ⟨reason, seen, record⟩ := blocked.record
    rw [record]
    rfl

def failedAttempt : AttemptFacts := ⟨"other", "attempt-1", "op-1", some .failed⟩

def oneClaim : Queue := ⟨[], Dict.set ∅ "op-1" (abandonedClaim "op-1")⟩

theorem otherSchema_stops_scan :
    let ctx := secondContext fun _ => .loaded (some .failed) [failedAttempt]
    enterLeaseGuard ctx secondLease blockedFault = .ok () ∧ validateTopology oneClaim = none ∧
      loadUnlocked oneClaim = .ok oneClaim ∧
      oneClaim.claims.get "op-1" = some (abandonedClaim "op-1") ∧
      Abandoned ⟨secondLease, 120000000⟩ (abandonedClaim "op-1") ∧ "op-1" ∉ oneClaim.pending ∧
      hasUnfinished [failedAttempt] = false ∧
      (recoverExpiredClaimsFromLease ctx secondLease 120000000 oneClaim).1 =
        .error blockedFault :=
  ⟨by decide, by decide, rfl, by decide,
    ⟨rfl, ⟨120000000, rfl, le_refl _⟩, show (1 : Int) < 2 by decide⟩, by decide, by decide,
    by decide⟩

end RExecOp.RunNowQueue
