import RExecOp.Lib.Prog

/-! Programs that keep an invariant at every access, with a preorder in which the store only
grows; `Kept` is the triple of a program over it. -/

namespace RExecOp

open Setting

variable {ι σ κ ε α β χ : Type}

structure Upkeep (S : Setting ι σ κ χ) where
  inv : σ → Prop
  grows : σ → σ → Prop
  refl : ∀ s, grows s s
  trans : ∀ {a b c}, grows a b → grows b c → grows a c
  intrusion : ∀ {command x s}, inv s → S.allowsIntrusion command x s →
    inv (S.intrude x s) ∧ grows s (S.intrude x s)
  crash : ∀ {command s}, inv s → S.allowsCrash (some command) s → S.rest s

namespace Upkeep

variable {S : Setting ι σ κ χ} (U : Upkeep S)

/-- The program keeps the invariant, and what it returns meets `post`. -/
def Kept (p : Prog ι σ κ ε α) (post : α → σ → Prop) (s : σ) : Prop :=
  S.Safe p (fun outcome after =>
    U.inv after ∧ U.grows s after ∧ ∀ a, outcome = .ok a → post a after) s

variable {U}

theorem drift {command : Option κ} {s found : σ} (inv : U.inv s)
    (drift : S.Drift command s found) : U.inv found ∧ U.grows s found := by
  induction drift with
  | refl => exact ⟨inv, U.refl s⟩
  | tail _ last ih =>
    obtain ⟨x, allowed, rfl⟩ := last
    obtain ⟨kept, grown⟩ := U.intrusion ih.1 allowed
    exact ⟨kept, U.trans ih.2 grown⟩

namespace Kept

variable {p : Prog ι σ κ ε α} {post : α → σ → Prop} {s : σ}

theorem pure {a : α} (inv : U.inv s) (holds : post a s) :
    U.Kept (pure a : Prog ι σ κ ε α) post s := by
  refine ⟨inv, U.refl s, fun b same => ?_⟩
  cases same
  exact holds

theorem raise {fault : ε} (inv : U.inv s) :
    U.Kept (.raise fault : Prog ι σ κ ε α) post s :=
  ⟨inv, U.refl s, nofun⟩

theorem halt (rest : S.rest s) :
    U.Kept (.halt : Prog ι σ κ ε α) post s :=
  rest

theorem ofExcept {result : Except ε α} (inv : U.inv s) (holds : ∀ a, result = .ok a → post a s) :
    U.Kept (Prog.ofExcept result : Prog ι σ κ ε α) post s := by
  cases result with
  | ok a => exact pure inv (holds a rfl)
  | error fault => exact raise inv

theorem mono {post weaker : α → σ → Prop} (kept : U.Kept p post s)
    (weaken : ∀ a after, U.inv after → U.grows s after → post a after → weaker a after) :
    U.Kept p weaker s := by
  refine Safe.mono kept ?_
  rintro outcome after ⟨inv, grown, holds⟩
  exact ⟨inv, grown, fun a same => weaken a after inv grown (holds a same)⟩

theorem bind {next : α → Prog ι σ κ ε β} {mid : α → σ → Prop} {post : β → σ → Prop}
    (kept : U.Kept p mid s)
    (rest : ∀ a after, U.inv after → U.grows s after → mid a after → U.Kept (next a) post after) :
    U.Kept (p >>= next) post s := by
  apply Safe.bind
  refine Safe.mono kept ?_
  rintro (fault | a) after ⟨inv, grown, holds⟩
  · exact ⟨inv, grown, nofun⟩
  · refine Safe.mono (rest a after inv grown (holds a rfl)) ?_
    rintro outcome final ⟨inv, further, holds⟩
    exact ⟨inv, U.trans grown further, holds⟩

theorem attempt (kept : U.Kept p post s) :
    U.Kept p.attempt (fun outcome after => ∀ a, outcome = .ok a → post a after) s := by
  apply Safe.attempt
  refine Safe.mono kept ?_
  rintro outcome after ⟨inv, grown, holds⟩
  refine ⟨inv, grown, fun found same => ?_⟩
  cases same
  exact holds

theorem requestFrom {V : Upkeep S} {command : κ} {reply : ι → σ → Except ε α} (inv : V.inv s)
    (grows : ∀ {a b}, V.grows a b → U.grows a b)
    (step : ∀ i found, V.inv found → U.grows s found → S.allowsInput command i found →
      S.promise command i found ∧ U.inv (S.effect command i found) ∧
        U.grows found (S.effect command i found) ∧
          ∀ a, reply i found = .ok a → post a (S.effect command i found)) :
    U.Kept (.request command reply) post s := by
  intro found drifted
  obtain ⟨kept, grown⟩ := drift inv drifted
  refine ⟨V.crash kept, fun i allowed => ?_⟩
  obtain ⟨promise, after, further, holds⟩ := step i found kept (grows grown) allowed
  refine ⟨promise, ?_⟩
  refine Safe.mono (ofExcept after holds) ?_
  rintro outcome final ⟨inv, last, holds⟩
  exact ⟨inv, U.trans (U.trans (grows grown) further) last, holds⟩

theorem request {command : κ} {reply : ι → σ → Except ε α} (inv : U.inv s)
    (step : ∀ i found, U.inv found → U.grows s found → S.allowsInput command i found →
      S.promise command i found ∧ U.inv (S.effect command i found) ∧
        U.grows found (S.effect command i found) ∧
          ∀ a, reply i found = .ok a → post a (S.effect command i found)) :
    U.Kept (.request command reply) post s :=
  requestFrom inv (fun grown => grown) step

theorem ensuring {body : Prog ι σ κ ε α} {cleanup : Prog ι σ κ ε Unit}
    (kept : U.Kept body (fun _ _ => True) s)
    (cleaned : ∀ after, U.inv after → U.grows s after → U.Kept cleanup (fun _ _ => True) after)
    (holds : ∀ a after, post a after) :
    U.Kept (body.ensuring cleanup) post s := by
  refine bind (attempt kept) fun outcome after inv grown _ => ?_
  refine bind (cleaned after inv grown) fun _ last inv _ _ => ?_
  exact ofExcept inv fun a _ => holds a last

theorem forEach {items : List α} {body : α → Prog ι σ κ ε (Option β)} (inv : U.inv s)
    (each : ∀ item ∈ items, ∀ after, U.inv after → U.grows s after →
      U.Kept (body item) (fun _ _ => True) after) :
    U.Kept (Prog.forEach items body) (fun _ _ => True) s := by
  induction items generalizing s with
  | nil => exact pure inv trivial
  | cons item rest ih =>
    have first := each item List.mem_cons_self s inv (U.refl s)
    refine bind first fun _ after inv grown _ => ?_
    have others : U.Kept (Prog.forEach rest body) (fun _ _ => True) after := by
      refine ih inv fun item member last kept further => ?_
      exact each item (List.mem_cons_of_mem _ member) last kept (U.trans grown further)
    exact bind others fun _ _ inv _ _ => pure inv trivial

end Kept

theorem Kept.remember {U V : Upkeep S} {p : Prog ι σ κ ε α} {post : α → σ → Prop} {s : σ}
    (kept : V.Kept p post s) (inv : ∀ after, V.inv after → U.inv after)
    (grows : ∀ after, V.grows s after → U.grows s after) :
    U.Kept p (fun a after => post a after ∧ V.inv after) s := by
  refine Safe.mono kept ?_
  rintro outcome after ⟨strong, grown, holds⟩
  exact ⟨inv after strong, grows after grown, fun a same => ⟨holds a same, strong⟩⟩

end Upkeep

end RExecOp
