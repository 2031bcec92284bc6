import RExecOp.Storage

/-! When the three storage backends cannot be told apart: a store that copies stands between
`InMemoryStore` and the stores of texts. -/

namespace RExecOp.Storage

open Assoc

variable {J V W P Q : Type}

def InMemoryStore.map (f : V → W) (g : P → Q) (s : InMemoryStore V P) : InMemoryStore W Q where
  operations := s.operations.map fun entry => (entry.1, entry.2.map f)
  plans := s.plans.map g
  evidence id := (s.evidence id).map (Mapping.map f)

def Client.map (f : V → W) (g : P → Q) (client : Client V P) : Client W Q where
  operations := client.operations.map (·.map f)
  plans := client.plans.map g
  events := client.events.map (Mapping.map f)

abbrev MemorySession (V P : Type) := Session (InMemoryStore V P) V P

def Session.map (f : V → W) (g : P → Q) (s : MemorySession V P) : MemorySession W Q :=
  ⟨s.store.map f g, s.client.map f g⟩

theorem Mapping.map_set (f : V → W) (entries : Mapping V) (key : String) (value : Option V) :
    (entries.set key value).map f = (entries.map f).set key (value.map f) := by
  funext other
  by_cases same : other = key
  · subst same
    simp [Mapping.map, Mapping.set]
  · simp [Mapping.map, Mapping.set, Function.update_of_ne same]

theorem OperationObject.map_setEntry (f : V → W) (op : OperationObject V) (name : OperationMapping)
    (key : String) (value : Option V) :
    (op.setEntry name key value).map f = (op.map f).setEntry name key (value.map f) := by
  unfold OperationObject.setEntry OperationObject.map
  congr 1
  funext other
  by_cases same : other = name
  · subst same
    simp [Mapping.map_set]
  · simp [Function.update_of_ne same]

theorem map_modify {l : List V} {n : Nat} {f : V → W} {edit : V → V} {after : W → W}
    (same : ∀ a, f (edit a) = after (f a)) :
    (l.modify n edit).map f = (l.map f).modify n after := by
  apply List.ext_getElem?
  intro i
  simp only [List.getElem?_map, List.getElem?_modify, Option.map_eq_map, Option.map_map]
  congr 1
  funext a
  simp only [Function.comp_apply]
  split
  · exact same a
  · rfl

theorem modify_congr {l : List V} {n : Nat} {edit other : V → V}
    (same : ∀ a, l[n]? = some a → edit a = other a) : l.modify n edit = l.modify n other := by
  apply List.ext_getElem?
  intro i
  rw [List.getElem?_modify, List.getElem?_modify]
  cases found : l[i]? with
  | none => rfl
  | some a =>
    simp only [Option.map_eq_map, Option.map_some, Option.some.injEq]
    split
    · rename_i here
      exact same a (here ▸ found)
    · rfl

theorem saveOperation_map (f : V → W) (g : P → Q) (op : OperationObject V)
    (s : InMemoryStore V P) :
    inMemoryStore.saveOperation (op.map f) (s.map f g) =
      (inMemoryStore.saveOperation op s).map (InMemoryStore.map f g) := by
  have current : (((s.map f g).operations.lookup (op.map f).id).map (·.revision)).getD 0 =
      ((s.operations.lookup op.id).map (·.revision)).getD 0 := by
    change ((List.lookup op.id (s.operations.map fun entry =>
      (entry.1, OperationObject.map f entry.2))).map (·.revision)).getD 0 = _
    rw [lookup_map, Option.map_map]
    rfl
  have kept : (op.map f).revision = op.revision := rfl
  simp only [inMemoryStore, current, kept]
  by_cases stale : ((s.operations.lookup op.id).map (·.revision)).getD 0 ≠ op.revision
  · rw [if_pos stale, if_pos stale]
    rfl
  · rw [if_neg stale, if_neg stale]
    simp only [Except.map, InMemoryStore.map, assign_map]
    rfl

theorem call_map {f : V → W} {g : P → Q} {operationId : P → String} {id : Q → String}
    (same : ∀ plan, id (g plan) = operationId plan) (s : MemorySession V P) (call : Call) :
    (s.map f g).call inMemoryStore id call =
      ((s.call inMemoryStore operationId call).1.map (Reply.map f g),
        Session.map f g (s.call inMemoryStore operationId call).2) := by
  cases call with
  | saveOperation n =>
    simp only [Session.call, Session.map, Client.map, List.getElem?_map]
    cases s.client.operations[n]? with
    | none => rfl
    | some op =>
      simp only [Option.map_some, saveOperation_map]
      cases inMemoryStore.saveOperation op s.store with
      | error fault => rfl
      | ok store =>
        have saved : (s.client.operations.modify n (·.saved)).map (·.map f) =
            (s.client.operations.map (·.map f)).modify n (·.saved) := map_modify fun _ => rfl
        simp only [Except.map, saved, Reply.map]
  | loadOperation id =>
    have found : ((s.store.map f g).operations.lookup id) =
        (s.store.operations.lookup id).map (·.map f) := lookup_map _ _ _
    simp only [Session.call, Session.map, inMemoryStore, found]
    cases s.store.operations.lookup id with
    | none => rfl
    | some op =>
      simp only [Option.map_some, Client.map, List.map_append, List.map_cons, List.map_nil]
      rfl
  | listOperations =>
    have listed : inMemoryStore.listOperations (s.store.map f g) =
        (inMemoryStore.listOperations s.store).map (·.map f) := by
      simp only [inMemoryStore, InMemoryStore.map, List.map_map]
      rfl
    simp only [Session.call, Session.map, listed, Client.map, List.map_append]
    rfl
  | savePlan n =>
    simp only [Session.call, Session.map, Client.map, List.getElem?_map]
    cases s.client.plans[n]? with
    | none => rfl
    | some plan =>
      simp only [Option.map_some, same, inMemoryStore, InMemoryStore.map, Mapping.map_set]
      rfl
  | loadPlan id =>
    have found : (s.store.map f g).plans id = (s.store.plans id).map g := rfl
    simp only [Session.call, Session.map, inMemoryStore, found]
    cases s.store.plans id with
    | none => rfl
    | some plan =>
      simp only [Option.map_some, Client.map, List.map_append, List.map_cons, List.map_nil]
      rfl
  | saveEvidenceEvent id n =>
    simp only [Session.call, Session.map, Client.map, List.getElem?_map]
    cases s.client.events[n]? with
    | none => rfl
    | some event =>
      have appended : Function.update (s.store.map f g).evidence id
          ((s.store.map f g).evidence id ++ [Mapping.map f event]) =
          fun other => (Function.update s.store.evidence id
            (s.store.evidence id ++ [event]) other).map (Mapping.map f) := by
        funext other
        by_cases same : other = id
        · subst same
          simp [InMemoryStore.map]
        · simp [InMemoryStore.map, Function.update_of_ne same]
      simp only [Option.map_some, inMemoryStore, appended]
      rfl
  | listEvidenceEvents id =>
    simp only [Session.call, Session.map, Client.map, inMemoryStore, List.map_append]
    rfl

def Mapping.All (holds : V → Prop) (entries : Mapping V) : Prop :=
  ∀ key value, entries key = some value → holds value

def OperationObject.All (holds : V → Prop) (op : OperationObject V) : Prop :=
  ∀ name, Mapping.All holds (op.mappings name)

structure Session.All (holds : V → Prop) (ofPlan : P → Prop) (s : MemorySession V P) :
    Prop where
  operations : ∀ op ∈ s.client.operations, op.All holds
  plans : ∀ plan ∈ s.client.plans, ofPlan plan
  events : ∀ event ∈ s.client.events, Mapping.All holds event
  storedOperations : ∀ entry ∈ s.store.operations, entry.2.All holds
  storedPlans : Mapping.All ofPlan s.store.plans
  storedEvents : ∀ id, ∀ event ∈ s.store.evidence id, Mapping.All holds event

section

variable {holds : V → Prop} {ofPlan : P → Prop} {s : MemorySession V P}

theorem Mapping.All.mono {weaker : V → Prop} {entries : Mapping V}
    (all : Mapping.All holds entries) (weaken : ∀ value, holds value → weaker value) :
    Mapping.All weaker entries :=
  fun key value here => weaken value (all key value here)

theorem Session.All.mono {weaker : V → Prop} {ofWeaker : P → Prop}
    (all : s.All holds ofPlan) (weaken : ∀ value, holds value → weaker value)
    (weakenPlan : ∀ plan, ofPlan plan → ofWeaker plan) : s.All weaker ofWeaker where
  operations op member name := (all.operations op member name).mono weaken
  plans plan member := weakenPlan plan (all.plans plan member)
  events event member := (all.events event member).mono weaken
  storedOperations entry member name := (all.storedOperations entry member name).mono weaken
  storedPlans := all.storedPlans.mono weakenPlan
  storedEvents id event member := (all.storedEvents id event member).mono weaken

theorem Mapping.All.set {entries : Mapping V} (all : Mapping.All holds entries) {key : String}
    {value : Option V} (fresh : ∀ v, value = some v → holds v) :
    Mapping.All holds (entries.set key value) := by
  intro other found here
  by_cases same : other = key
  · subst same
    rw [Mapping.set, Function.update_self] at here
    exact fresh found here
  · rw [Mapping.set, Function.update_of_ne same] at here
    exact all other found here

theorem OperationObject.All.setEntry {op : OperationObject V} (all : op.All holds)
    {name : OperationMapping} {key : String} {value : Option V}
    (fresh : ∀ v, value = some v → holds v) : (op.setEntry name key value).All holds := by
  intro other
  change Mapping.All holds (Function.update op.mappings name _ other)
  by_cases same : other = name
  · subst same
    rw [Function.update_self]
    exact (all other).set fresh
  · rw [Function.update_of_ne same]
    exact all other

theorem forall_mem_modify {l : List V} {n : Nat} {edit : V → V} (all : ∀ a ∈ l, holds a)
    (kept : ∀ a, holds a → holds (edit a)) : ∀ a ∈ l.modify n edit, holds a := by
  intro a member
  obtain ⟨i, here⟩ := List.mem_iff_getElem?.mp member
  rw [List.getElem?_modify] at here
  obtain ⟨old, found, rfl⟩ := Option.map_eq_some_iff.mp here
  have before := all old (List.mem_of_getElem? found)
  split
  · exact kept old before
  · exact before

theorem forall_mem_append {l more : List V} (all : ∀ a ∈ l, holds a) (added : ∀ a ∈ more, holds a) :
    ∀ a ∈ l ++ more, holds a := by
  intro a member
  rcases List.mem_append.mp member with old | new
  · exact all a old
  · exact added a new

theorem Mapping.map_inj {f f' : V → W} {entries : Mapping V} :
    entries.map f = entries.map f' ↔ Mapping.All (fun v => f v = f' v) entries := by
  rw [funext_iff]
  refine forall_congr' fun key => ?_
  cases found : entries key with
  | none => simp [Mapping.map, found]
  | some value => simp [Mapping.map, found]

theorem OperationObject.map_inj {f f' : V → W} {op : OperationObject V} :
    op.map f = op.map f' ↔ op.All fun v => f v = f' v := by
  simp only [OperationObject.map, OperationObject.mk.injEq, true_and]
  rw [funext_iff]
  exact forall_congr' fun name => Mapping.map_inj

theorem map_inj {f f' : V → W} {g g' : P → Q} :
    s.map f g = s.map f' g' ↔ s.All (fun v => f v = f' v) fun plan => g plan = g' plan := by
  have entries : (s.store.operations.map fun entry => (entry.1, entry.2.map f)) =
      (s.store.operations.map fun entry => (entry.1, entry.2.map f')) ↔
      ∀ entry ∈ s.store.operations, entry.2.All fun v => f v = f' v := by
    simp only [List.map_inj_left, Prod.mk.injEq, true_and, OperationObject.map_inj]
  have events : (fun id => (s.store.evidence id).map (Mapping.map f)) =
      (fun id => (s.store.evidence id).map (Mapping.map f')) ↔
      ∀ id, ∀ event ∈ s.store.evidence id, Mapping.All (fun v => f v = f' v) event := by
    rw [funext_iff]
    simp only [List.map_inj_left, Mapping.map_inj]
  simp only [Session.map, InMemoryStore.map, Client.map, Session.mk.injEq, InMemoryStore.mk.injEq,
    Client.mk.injEq, entries, events, List.map_inj_left, OperationObject.map_inj, Mapping.map_inj]
  constructor
  · rintro ⟨⟨stored, plans, kept⟩, held, heldPlans, heldEvents⟩
    exact ⟨held, heldPlans, heldEvents, stored, plans, kept⟩
  · rintro ⟨held, heldPlans, heldEvents, stored, plans, kept⟩
    exact ⟨⟨stored, plans, kept⟩, held, heldPlans, heldEvents⟩

theorem all_call (all : s.All holds ofPlan) (operationId : P → String) (call : Call) :
    Session.All holds ofPlan (s.call inMemoryStore operationId call).2 := by
  have agree : s.map holds (fun plan => (ofPlan plan, operationId plan)) =
      s.map (fun _ => True) fun plan => (True, operationId plan) :=
    map_inj.mpr (all.mono (fun _ => eq_true) fun _ holds => by rw [eq_true holds])
  have through (f : V → Prop) (g : P → Prop) :
      ((s.map f fun plan => (g plan, operationId plan)).call inMemoryStore Prod.snd call).2 =
        Session.map f (fun plan => (g plan, operationId plan))
          (s.call inMemoryStore operationId call).2 :=
    congrArg Prod.snd (call_map (fun _ => rfl) s call)
  have after := through holds ofPlan
  rw [agree, through (fun _ => True) fun _ => True] at after
  exact (map_inj.mp after.symm).mono (fun _ => of_eq_true)
    fun _ same => of_eq_true (Prod.mk.inj same).1

end

def SharedSession.view (m : SharedSession J) : MemorySession J (PlanObject J) :=
  m.session.map m.heap.values m.heap.plans

def SharedSession.Allocated (m : SharedSession J) : Prop :=
  m.session.All (· < m.heap.next) (· < m.heap.nextPlan)

/-- What is modified in place is referred to from one place only. -/
def SharedSession.Separate (m : SharedSession J) : Edit J → Prop
  | .editEntry n name key _ => ∀ address, m.session.client.entry n name key = some address →
    (m.session.mapClient (Client.setEntry n name key none)).All (· ≠ address) fun _ => True
  | .editEventEntry n key _ => ∀ address, m.session.client.eventEntry n key = some address →
    (m.session.mapClient (Client.setEventEntry n key none)).All (· ≠ address) fun _ => True
  | .editPlan n _ => ∀ address, m.session.client.plans[n]? = some address →
    (∀ k, k ≠ n → m.session.client.plans[k]? ≠ some address) ∧
      ∀ id, m.session.store.plans id ≠ some address
  | _ => True

inductive Slot where
  | operation (n : Nat) (name : OperationMapping) (key : String)
  | event (n : Nat) (key : String)

namespace Slot

def get (client : Client V P) : Slot → Option V
  | .operation n name key => client.entry n name key
  | .event n key => client.eventEntry n key

def put (value : Option V) : Slot → Client V P → Client V P
  | .operation n name key => Client.setEntry n name key value
  | .event n key => Client.setEventEntry n key value

def modify (edit : J → J) : Slot → Edit J
  | .operation n name key => .editEntry n name key edit
  | .event n key => .editEventEntry n key edit

end Slot

theorem map_put (f : V → W) (g : P → Q) (s : MemorySession V P) (slot : Slot) (value : Option V) :
    Session.map f g (s.mapClient (slot.put value)) =
      (Session.map f g s).mapClient (slot.put (value.map f)) := by
  cases slot with
  | operation n name key =>
    have set : (s.client.operations.modify n (·.setEntry name key value)).map (·.map f) =
        (s.client.operations.map (·.map f)).modify n (·.setEntry name key (value.map f)) :=
      map_modify fun op => op.map_setEntry f name key value
    simp only [Session.map, Session.mapClient, Client.map, Slot.put, Client.setEntry, set]
  | event n key =>
    have set : (s.client.events.modify n (·.set key value)).map (Mapping.map f) =
        (s.client.events.map (Mapping.map f)).modify n (·.set key (value.map f)) :=
      map_modify fun event => Mapping.map_set f event key value
    simp only [Session.map, Session.mapClient, Client.map, Slot.put, Client.setEventEntry, set]

theorem all_put {holds : V → Prop} {ofPlan : P → Prop} {s : MemorySession V P}
    (all : s.All holds ofPlan) (slot : Slot) {value : Option V}
    (fresh : ∀ v, value = some v → holds v) :
    (s.mapClient (slot.put value)).All holds ofPlan := by
  cases slot with
  | operation n name key =>
    exact { all with
      operations := forall_mem_modify all.operations fun _ before => before.setEntry fresh }
  | event n key =>
    exact { all with
      events := forall_mem_modify all.events fun _ before => Mapping.All.set before fresh }

theorem map_update {s : MemorySession Nat P} {address : Nat} {ofPlan : P → Prop}
    (all : s.All (· ≠ address) ofPlan) (values : Nat → J) (value : J) (g : P → Q) :
    s.map (Function.update values address value) g = s.map values g :=
  map_inj.mpr (all.mono (fun _ other => Function.update_of_ne other _ _) fun _ _ => rfl)

theorem set_set (entries : Mapping V) (key : String) (value later : Option V) :
    (entries.set key value).set key later = entries.set key later :=
  Function.update_idem _ _ _

theorem setEntry_setEntry (op : OperationObject V) (name : OperationMapping) (key : String)
    (value later : Option V) :
    (op.setEntry name key value).setEntry name key later = op.setEntry name key later := by
  simp only [OperationObject.setEntry, Function.update_self, Function.update_idem, set_set]

theorem setEntry_self {op : OperationObject V} {name : OperationMapping} {key : String}
    {value : Option V} (here : op.mappings name key = value) :
    op.setEntry name key value = op := by
  subst here
  simp only [OperationObject.setEntry, Mapping.set, Function.update_eq_self]

theorem put_put {s : MemorySession V P} (slot : Slot) (value later : Option V) :
    (s.mapClient (slot.put value)).mapClient (slot.put later) = s.mapClient (slot.put later) := by
  cases slot with
  | operation n name key =>
    have twice : (s.client.operations.modify n (·.setEntry name key value)).modify n
        (·.setEntry name key later) = s.client.operations.modify n (·.setEntry name key later) := by
      rw [List.modify_modify_eq]
      exact modify_congr fun op _ => setEntry_setEntry op name key value later
    simp only [Session.mapClient, Slot.put, Client.setEntry, twice]
  | event n key =>
    have twice : (s.client.events.modify n (·.set key value)).modify n (·.set key later) =
        s.client.events.modify n (·.set key later) := by
      rw [List.modify_modify_eq]
      exact modify_congr fun event _ => set_set event key value later
    simp only [Session.mapClient, Slot.put, Client.setEventEntry, twice]

theorem put_self {s : MemorySession V P} {slot : Slot} {value : Option V}
    (here : slot.get s.client = value) : s.mapClient (slot.put value) = s := by
  cases slot with
  | operation n name key =>
    have same : s.client.operations.modify n (·.setEntry name key value) = s.client.operations := by
      refine (modify_congr fun op found => ?_).trans (List.modify_id n _)
      rw [Slot.get, Client.entry, found] at here
      exact setEntry_self here
    simp only [Session.mapClient, Slot.put, Client.setEntry, same]
  | event n key =>
    have same : s.client.events.modify n (·.set key value) = s.client.events := by
      refine (modify_congr fun event found => ?_).trans (List.modify_id n _)
      rw [Slot.get, Client.eventEntry, found] at here
      rw [← show event key = value from here]
      exact Function.update_eq_self key event
    simp only [Session.mapClient, Slot.put, Client.setEventEntry, same]

section

variable {isContainer : J → Bool} {m : SharedSession J}

theorem edit_modify (s : MemorySession J (PlanObject J)) (slot : Slot) (edit : J → J) :
    s.mapClient (·.edit isContainer (slot.modify edit)) =
      s.mapClient (slot.put ((slot.get s.client).map (inPlace isContainer edit))) := by
  cases slot with
  | operation n name key =>
    have same : s.client.operations.modify n (·.editEntry isContainer name key edit) =
        s.client.operations.modify n (·.setEntry name key
          ((s.client.entry n name key).map (inPlace isContainer edit))) := by
      refine modify_congr fun op found => ?_
      rw [Client.entry, found]
      rfl
    simp only [Session.mapClient, Slot.modify, Slot.put, Slot.get, Client.edit,
      Client.setEntry, same]
  | event n key =>
    have same : s.client.events.modify n (·.editEntry isContainer key edit) =
        s.client.events.modify n (·.set key
          ((s.client.eventEntry n key).map (inPlace isContainer edit))) := by
      refine modify_congr fun event found => ?_
      rw [Client.eventEntry, found]
      rfl
    simp only [Session.mapClient, Slot.modify, Slot.put, Slot.get, Client.edit,
      Client.setEventEntry, same]

theorem view_get (slot : Slot) :
    slot.get m.view.client = (slot.get m.session.client).map m.heap.values := by
  cases slot with
  | operation n name key =>
    simp only [SharedSession.view, Session.map, Client.map, Slot.get, Client.entry,
      List.getElem?_map]
    cases m.session.client.operations[n]? <;> rfl
  | event n key =>
    simp only [SharedSession.view, Session.map, Client.map, Slot.get, Client.eventEntry,
      List.getElem?_map]
    cases m.session.client.events[n]? <;> rfl

theorem view_modify (slot : Slot) {edit : J → J} (separate : m.Separate (slot.modify edit)) :
    (m.edit isContainer (slot.modify edit)).view =
      m.view.mapClient (·.edit isContainer (slot.modify edit)) := by
  have alone : ∀ address, slot.get m.session.client = some address →
      (m.session.mapClient (slot.put none)).All (· ≠ address) fun _ => True := by
    cases slot <;> exact separate
  rw [edit_modify, view_get]
  cases found : slot.get m.session.client with
  | none =>
    have edited : m.edit isContainer (slot.modify edit) = m := by
      cases slot <;> simp_all [SharedSession.edit, Slot.modify, Slot.get]
    have absent : slot.get m.view.client = none := by rw [view_get, found]; rfl
    rw [edited]
    exact (put_self absent).symm
  | some address =>
    have edited : m.edit isContainer (slot.modify edit) = { m with
        heap := m.heap.write address (inPlace isContainer edit (m.heap.values address)) } := by
      cases slot <;> simp_all [SharedSession.edit, Slot.modify, Slot.get]
    rw [edited]
    -- the entry taken out and put back: the rest of the session does not see the address
    let rest := m.session.mapClient (slot.put none)
    let value := inPlace isContainer edit (m.heap.values address)
    let values := Function.update m.heap.values address value
    have whole : m.session = rest.mapClient (slot.put (some address)) := by
      rw [put_put, put_self found]
    calc Session.map values m.heap.plans m.session
        = (Session.map values m.heap.plans rest).mapClient (slot.put (some (values address))) := by
          rw [whole, map_put]
          rfl
      _ = (Session.map m.heap.values m.heap.plans rest).mapClient (slot.put (some value)) := by
          rw [map_update (alone address found), show values address = value from
            Function.update_self _ _ _]
      _ = m.view.mapClient (slot.put (some value)) := by
          rw [map_put, put_put]
          rfl

theorem view_editPlan {n : Nat} {edit : PlanObject J → PlanObject J}
    (separate : m.Separate (.editPlan n edit)) :
    (m.edit isContainer (.editPlan n edit)).view =
      m.view.mapClient (·.edit isContainer (.editPlan n edit)) := by
  cases found : m.session.client.plans[n]? with
  | none =>
    have absent : (m.session.client.plans.map m.heap.plans).modify n edit =
        m.session.client.plans.map m.heap.plans := by
      refine (modify_congr fun plan here => ?_).trans (List.modify_id n _)
      rw [List.getElem?_map, found] at here
      cases here
    simp only [SharedSession.edit, found]
    simp only [SharedSession.view, Session.map, Session.mapClient, Client.map, Client.edit, absent]
  | some address =>
    obtain ⟨others, unstored⟩ := separate address found
    let plans := Function.update m.heap.plans address (edit (m.heap.plans address))
    have stored : Mapping.map plans m.session.store.plans =
        Mapping.map m.heap.plans m.session.store.plans := by
      refine Mapping.map_inj.mpr fun id plan here => Function.update_of_ne ?_ _ _
      rintro rfl
      exact unstored id here
    have held : m.session.client.plans.map plans =
        (m.session.client.plans.map m.heap.plans).modify n edit := by
      apply List.ext_getElem?
      intro i
      simp only [List.getElem?_modify, List.getElem?_map, Option.map_eq_map, Option.map_map]
      cases here : m.session.client.plans[i]? with
      | none => rfl
      | some plan =>
        simp only [Option.map_some, Function.comp_apply, Option.some.injEq]
        by_cases own : n = i
        · subst own
          cases found.symm.trans here
          rw [if_pos rfl]
          exact Function.update_self _ _ _
        · rw [if_neg own]
          refine Function.update_of_ne ?_ _ _
          rintro rfl
          exact others i (fun same => own same.symm) here
    simp only [SharedSession.edit, found]
    simp only [SharedSession.view, Session.map, Session.mapClient, Client.map, Client.edit,
      InMemoryStore.map, ← held, ← stored]
    rfl

theorem map_allocate (allocated : m.Allocated) (value : J) :
    Session.map (m.heap.allocate value).values m.heap.plans m.session = m.view :=
  map_update (allocated.mono (fun _ below => Nat.ne_of_lt below) fun _ _ => trivial) _ _ _

theorem view_edit (allocated : m.Allocated) {e : Edit J} (separate : m.Separate e) :
    (m.edit isContainer e).view = m.view.mapClient (·.edit isContainer e) := by
  have puts (slot : Slot) (value : Option J) {after : SharedSession J}
      (edited : after = value.elim { m with session := m.session.mapClient (slot.put none) }
        fun value => ⟨m.heap.allocate value,
          m.session.mapClient (slot.put (some m.heap.next))⟩) :
      after.view = m.view.mapClient (slot.put value) := by
    subst edited
    cases value with
    | none => exact map_put _ _ _ slot none
    | some value =>
      have fresh : (m.heap.allocate value).values m.heap.next = value := Function.update_self _ _ _
      refine (map_put _ _ _ slot (some m.heap.next)).trans ?_
      change (Session.map (m.heap.allocate value).values m.heap.plans m.session).mapClient
        (slot.put (some ((m.heap.allocate value).values m.heap.next))) = _
      rw [map_allocate allocated, fresh]
  cases e with
  | newOperation fields =>
    simp only [SharedSession.edit, SharedSession.view, Session.map, Session.mapClient, Client.map,
      Client.edit, List.map_append]
    rfl
  | newEvent =>
    simp only [SharedSession.edit, SharedSession.view, Session.map, Session.mapClient, Client.map,
      Client.edit, List.map_append]
    rfl
  | newPlan plan =>
    have same : Session.map m.heap.values (m.heap.allocatePlan plan).plans m.session = m.view :=
      map_inj.mpr (allocated.mono (fun _ _ => rfl)
        fun _ below => Function.update_of_ne (Nat.ne_of_lt below) _ _)
    have fresh : (m.heap.allocatePlan plan).plans m.heap.nextPlan = plan :=
      Function.update_self _ _ _
    calc (m.edit isContainer (.newPlan plan)).view
        = (Session.map m.heap.values (m.heap.allocatePlan plan).plans m.session).mapClient
            fun client => { client with plans := client.plans ++
              [(m.heap.allocatePlan plan).plans m.heap.nextPlan] } := by
          simp only [SharedSession.edit, SharedSession.view, Session.map, Session.mapClient,
            Client.map, List.map_append]
          rfl
      _ = m.view.mapClient (·.edit isContainer (.newPlan plan)) := by
          rw [same, fresh]
          rfl
  | editFields n edit =>
    have edited : (m.session.client.operations.modify n fun op => ⟨edit op.fields, op.mappings⟩).map
        (·.map m.heap.values) = (m.session.client.operations.map (·.map m.heap.values)).modify n
          fun op => ⟨edit op.fields, op.mappings⟩ := map_modify fun _ => rfl
    simp only [SharedSession.edit, SharedSession.view, Session.map, Session.mapClient, Client.map,
      Client.edit, edited]
  | setEntry n name key value => exact puts (.operation n name key) value (by cases value <;> rfl)
  | setEventEntry n key value => exact puts (.event n key) value (by cases value <;> rfl)
  | editEntry n name key edit => exact view_modify (.operation n name key) separate
  | editEventEntry n key edit => exact view_modify (.event n key) separate
  | editPlan n edit => exact view_editPlan separate

theorem separate_setEntry (allocated : m.Allocated) {n : Nat} {name : OperationMapping}
    {key : String} {value : J} {edit : J → J} :
    (m.edit isContainer (.setEntry n name key (some value))).Separate
      (.editEntry n name key edit) := by
  intro address found
  have fresh : address = m.heap.next := by
    obtain ⟨op, held, here⟩ := Option.bind_eq_some_iff.mp found
    change (m.session.client.operations.modify n _)[n]? = some op at held
    rw [List.getElem?_modify] at held
    obtain ⟨before, -, rfl⟩ := Option.map_eq_some_iff.mp held
    simp only [if_true, OperationObject.setEntry, Function.update_self, Mapping.set] at here
    exact (Option.some.inj here).symm
  subst fresh
  have below : Session.All (· < m.heap.next) (· < m.heap.nextPlan)
      (m.session.mapClient (Slot.put none (.operation n name key))) :=
    all_put allocated _ fun _ same => nomatch same
  rw [← put_put _ (some m.heap.next)] at below
  exact below.mono (fun _ => Nat.ne_of_lt) fun _ _ => trivial

theorem allocated_edit (allocated : m.Allocated) (e : Edit J) :
    (m.edit isContainer e).Allocated := by
  have grown : m.session.All (· < m.heap.next + 1) (· < m.heap.nextPlan) :=
    allocated.mono (fun _ below => Nat.lt_succ_of_lt below) fun _ below => below
  have fresh (slot : Slot) := @all_put _ _ _ _ _ grown slot (some m.heap.next)
    fun address same => by
    cases same
    exact Nat.lt_succ_self _
  cases e with
  | newOperation fields =>
    refine { allocated with
      operations := forall_mem_append allocated.operations fun op member => ?_ }
    rw [List.mem_singleton.mp member]
    exact fun _ _ _ here => nomatch here
  | newPlan plan =>
    have wider : m.session.All (· < m.heap.next) (· < m.heap.nextPlan + 1) :=
      allocated.mono (fun _ below => below) fun _ below => Nat.lt_succ_of_lt below
    refine { wider with plans := forall_mem_append wider.plans fun kept member => ?_ }
    rw [List.mem_singleton.mp member]
    exact Nat.lt_succ_self _
  | newEvent =>
    refine { allocated with events := forall_mem_append allocated.events fun event member => ?_ }
    rw [List.mem_singleton.mp member]
    exact fun _ _ here => nomatch here
  | editFields n edit =>
    exact { allocated with
      operations := forall_mem_modify allocated.operations fun _ before => before }
  | setEntry n name key value => cases value with
    | none => exact all_put allocated (.operation n name key) fun _ same => nomatch same
    | some value => exact fresh (.operation n name key)
  | setEventEntry n key value => cases value with
    | none => exact all_put allocated (.event n key) fun _ same => nomatch same
    | some value => exact fresh (.event n key)
  | editEntry n name key edit =>
    simp only [SharedSession.edit]
    split <;> exact allocated
  | editEventEntry n key edit =>
    simp only [SharedSession.edit]
    split <;> exact allocated
  | editPlan n edit =>
    simp only [SharedSession.edit]
    split <;> exact allocated

end

structure RefusesStale
    (conflict : OperationObject J → Option (OperationObject J) → Option Fault) : Prop where
  passes : ∀ op current, conflict op current = none ↔
    (current.map (·.revision)).getD 0 = op.revision
  refuses : ∀ op current fault, conflict op current = some fault → errorClass fault = .conflict

def eventId (str : J → String) (event : Mapping J) : Option String := (event "event_id").map str

def filedUnder (name : String → String) (str : J → String) (key : String)
    (events : List (Mapping J)) : List (Mapping J) :=
  events.filter fun event => (eventId str event).map name = some key

/-- A store of texts holds what a store of copies holds, each thing under its name. -/
structure Agrees (name : String → String) (str : J → String)
    (copies : InMemoryStore J (PlanObject J)) (texts : Texts J) : Prop where
  operations : ∀ id, (texts.operations.get (name id)).map (·.fromDict) =
    copies.operations.lookup id
  named : ∀ key op, texts.operations.get key = some op → ∃ id, key = name id
  plans : ∀ id, (texts.plans.get (name id)).map (·.fromDict) = copies.plans id
  identified : ∀ id, ∀ event ∈ copies.evidence id, ∃ text, eventId str event = some text
  evidence : ∀ id key, (texts.evidence id).get key =
    (filedUnder name str key (copies.evidence id)).getLast?

def isFileName (id : String) : Bool :=
  id != "" && id != "." && id != ".." && !id.toList.contains '/' && !id.toList.contains '\x00' &&
    id.utf8ByteSize ≤ 200

def Increasing (ids : List String) : Prop :=
  ids.Pairwise (· < ·) ∧ (ids.map jsonFile).Pairwise (· < ·)

instance (ids : List String) : Decidable (Increasing ids) :=
  inferInstanceAs (Decidable (_ ∧ _))

/-- What a call has to find for the listings to come out the same. -/
def Orderly (str : J → String) (s : MemorySession J (PlanObject J)) : Call → Prop
  | .saveOperation n => ∀ op, s.client.operations[n]? = some op → isFileName op.id = true
  | .loadOperation id => isFileName id = true
  | .listOperations => Increasing (s.store.operations.map Prod.fst)
  | .savePlan n => ∀ plan, s.client.plans[n]? = some plan →
    isFileName plan.operationId = true ∧ plan.risk ≠ ""
  | .loadPlan id => isFileName id = true
  | .saveEvidenceEvent id n => isFileName id = true ∧ ∀ event, s.client.events[n]? = some event →
    ∃ name, eventId str event = some name ∧ isFileName name = true
  | .listEvidenceEvents id => isFileName id = true ∧
    Increasing ((s.store.evidence id).filterMap (eventId str))

theorem filter_eq_singleton {l : List V} {key : V → Option W} [DecidableEq W] {a : V} {own : W}
    (distinct : (l.filterMap key).Nodup) (member : a ∈ l) (here : key a = some own) :
    l.filter (fun b => key b = some own) = [a] := by
  obtain ⟨before, after, rfl⟩ := List.append_of_mem member
  rw [List.filterMap_append, List.filterMap_cons_some here] at distinct
  obtain ⟨-, later, apart⟩ := List.nodup_append.mp distinct
  have none_before : before.filter (fun b => key b = some own) = [] := by
    refine List.filter_eq_nil_iff.mpr fun b earlier same => ?_
    have found := List.mem_filterMap.mpr ⟨b, earlier, of_decide_eq_true same⟩
    exact apart own found own List.mem_cons_self rfl
  have none_after : after.filter (fun b => key b = some own) = [] := by
    refine List.filter_eq_nil_iff.mpr fun b further same => ?_
    have found := List.mem_filterMap.mpr ⟨b, further, of_decide_eq_true same⟩
    exact (List.nodup_cons.mp later).1 found
  rw [List.filter_append, none_before, List.filter_cons_of_pos (by rwa [decide_eq_true_eq]),
    none_after]
  rfl

theorem fromDict_fromDict (op : OperationObject V) : op.fromDict.fromDict = op.fromDict := by
  have kept : ∀ text, orElse (orElse text "operator") "operator" = orElse text "operator" := by
    intro text
    unfold orElse
    split
    · decide
    · rfl
  simp only [OperationObject.fromDict, Function.update_self, Function.update_idem, kept]

theorem fromDict_of_risk {plan : PlanObject J} (given : plan.risk ≠ "") : plan.fromDict = plan := by
  have same : orElse plan.risk "unknown" = plan.texts .risk := if_neg given
  rw [PlanObject.fromDict, same, Function.update_eq_self]

section

variable {name : String → String} {str : J → String} {copies : InMemoryStore J (PlanObject J)}
  {texts : Texts J}

theorem Agrees.revision (agrees : Agrees name str copies texts) (id : String) :
    ((texts.operations.get (name id)).map (·.revision)).getD 0 =
      ((copies.operations.lookup id).map (·.revision)).getD 0 := by
  rw [← agrees.operations id, Option.map_map]
  rfl

theorem Agrees.save (agrees : Agrees name str copies texts) (injective : Function.Injective name)
    (op : OperationObject J) :
    Agrees name str { copies with operations := assign op.id op.saved.fromDict copies.operations }
      { texts with operations := texts.operations.set (name op.id) op.saved } := by
  refine { agrees with operations := fun id => ?_, named := fun key kept here => ?_ }
  · rw [lookup_assign, Dict.get_set]
    by_cases same : id = op.id
    · rw [if_pos same, if_pos (congrArg name same)]
      rfl
    · rw [if_neg same, if_neg fun named => same (injective named)]
      exact agrees.operations id
  · rw [Dict.get_set] at here
    split at here
    · rename_i same
      exact ⟨op.id, same⟩
    · exact agrees.named key kept here

theorem Agrees.savePlan (agrees : Agrees name str copies texts)
    (injective : Function.Injective name) {plan : PlanObject J} (given : plan.risk ≠ "") :
    Agrees name str
      { copies with plans := copies.plans.set plan.operationId (some plan) }
      { texts with plans := texts.plans.set (name plan.operationId) plan } := by
  refine { agrees with plans := fun id => ?_ }
  change _ = Function.update copies.plans plan.operationId (some plan) id
  rw [Dict.get_set]
  by_cases same : id = plan.operationId
  · subst same
    rw [if_pos rfl, Function.update_self, Option.map_some, fromDict_of_risk given]
  · rw [if_neg fun named => same (injective named), Function.update_of_ne same]
    exact agrees.plans id

theorem filedUnder_concat (key : String) (events : List (Mapping J)) {event : Mapping J} {id : J}
    (identified : event "event_id" = some id) :
    (filedUnder name str key (events ++ [event])).getLast? =
      if key = name (str id) then some event else (filedUnder name str key events).getLast? := by
  have named : (eventId str event).map name = some (name (str id)) := by
    rw [eventId, identified]
    rfl
  rw [filedUnder, List.filter_append]
  by_cases same : key = name (str id)
  · rw [if_pos same, List.filter_cons_of_pos (by rw [named, same]; exact decide_eq_true rfl),
      List.filter_nil, List.getLast?_concat]
  · have other : ¬ (eventId str event).map name = some key := by
      rw [named, Option.some.injEq]
      exact fun filed => same filed.symm
    rw [if_neg same, List.filter_cons_of_neg (by rwa [decide_eq_true_eq]), List.filter_nil,
      List.append_nil]
    rfl

theorem Agrees.saveEvent (agrees : Agrees name str copies texts) (operationId : String)
    {event : Mapping J} {id : J} (identified : event "event_id" = some id) :
    let appended := copies.evidence operationId ++ [event]
    let filed := (texts.evidence operationId).set (name (str id)) event
    Agrees name str
      { copies with evidence := Function.update copies.evidence operationId appended }
      { texts with evidence := Function.update texts.evidence operationId filed } := by
  intro appended filed
  refine { agrees with identified := fun other => ?_, evidence := fun other key => ?_ }
  · change ∀ kept ∈ Function.update copies.evidence operationId appended other, _
    by_cases same : other = operationId
    · subst same
      rw [Function.update_self]
      refine forall_mem_append (agrees.identified other) fun kept member => ?_
      rw [List.mem_singleton.mp member, eventId, identified]
      exact ⟨str id, rfl⟩
    · rw [Function.update_of_ne same]
      exact agrees.identified other
  · change (Function.update texts.evidence operationId filed other).get key =
      (filedUnder name str key
        (Function.update copies.evidence operationId appended other)).getLast?
    by_cases same : other = operationId
    · subst same
      rw [Function.update_self, Function.update_self, Dict.get_set,
        filedUnder_concat key _ identified, agrees.evidence]
    · rw [Function.update_of_ne same, Function.update_of_ne same]
      exact agrees.evidence other key

theorem Agrees.list (agrees : Agrees name str copies texts)
    (sorted : ((copies.operations.map Prod.fst).map name).Pairwise (· < ·)) :
    texts.operations.values.map (·.fromDict) = copies.operations.map (·.2.fromDict) := by
  have distinct : (copies.operations.map Prod.fst).Nodup :=
    List.Nodup.of_map name (sorted.imp ne_of_lt)
  have own : ∀ entry ∈ copies.operations,
      (texts.operations.get (name entry.1)).map (·.fromDict) = some entry.2 := by
    intro entry member
    rw [agrees.operations, lookup_of_mem distinct member]
  have keys : texts.operations.sortedKeys = (copies.operations.map Prod.fst).map name := by
    refine Dict.sortedKeys_eq sorted fun key => ?_
    rw [List.map_map]
    constructor
    · intro member
      obtain ⟨entry, here, rfl⟩ := List.mem_map.mp member
      obtain ⟨op, found, -⟩ := Option.map_eq_some_iff.mp (own entry here)
      exact ⟨op, found⟩
    · rintro ⟨op, found⟩
      obtain ⟨id, rfl⟩ := agrees.named key op found
      have looked := agrees.operations id
      rw [found] at looked
      exact List.mem_map.mpr ⟨_, mem_of_lookup looked.symm, rfl⟩
  rw [Dict.values, keys, List.map_map, List.filterMap_map, List.map_filterMap,
    ← List.filterMap_eq_map]
  refine List.filterMap_congr fun entry member => ?_
  have stored := own entry member
  obtain ⟨op, -, copied⟩ := Option.map_eq_some_iff.mp stored
  have fixed : entry.2.fromDict = entry.2 := by rw [← copied, fromDict_fromDict]
  simp only [Function.comp_apply, stored, fixed]

theorem Agrees.listEvents (agrees : Agrees name str copies texts) {id : String}
    (sorted : (((copies.evidence id).filterMap (eventId str)).map name).Pairwise (· < ·)) :
    (texts.evidence id).values = copies.evidence id := by
  rw [List.map_filterMap] at sorted
  have keys : (texts.evidence id).sortedKeys =
      (copies.evidence id).filterMap fun event => (eventId str event).map name := by
    refine Dict.sortedKeys_eq sorted fun key => ?_
    rw [agrees.evidence, ← Option.isSome_iff_exists, List.getLast?_isSome, filedUnder,
      List.mem_filterMap]
    simp only [ne_eq, List.filter_eq_nil_iff, decide_eq_true_eq, not_forall, not_not, exists_prop]
  rw [Dict.values, keys, List.filterMap_filterMap]
  refine (List.filterMap_congr fun event member => ?_).trans List.filterMap_some
  obtain ⟨text, identified⟩ := agrees.identified id event member
  have named : (eventId str event).map name = some (name text) := by rw [identified]; rfl
  have single := filter_eq_singleton (sorted.imp ne_of_lt) member named
  rw [named, Option.bind_some, agrees.evidence, filedUnder, single]
  rfl

theorem agrees_call {conflict : OperationObject J → Option (OperationObject J) → Option Fault}
    (injective : Function.Injective name) (refuses : RefusesStale conflict)
    (ordered : ∀ ids, Increasing ids → (ids.map name).Pairwise (· < ·))
    {s : MemorySession J (PlanObject J)} (agrees : Agrees name str s.store texts) {call : Call}
    (orderly : Orderly str s call) :
    let copied := s.call inMemoryStore PlanObject.operationId call
    let kept := (⟨texts, s.client⟩ : Session (Texts J) J (PlanObject J)).call
      (textStore name conflict str) PlanObject.operationId call
    observed kept.1 = observed copied.1 ∧ kept.2.client = copied.2.client ∧
      Agrees name str copied.2.store kept.2.store := by
  cases call with
  | saveOperation n =>
    simp only [Session.call]
    cases s.client.operations[n]? with
    | none => exact ⟨rfl, rfl, agrees⟩
    | some op =>
      have current := agrees.revision op.id
      cases refused : conflict op (texts.operations.get (name op.id)) with
      | none =>
        have fresh := (refuses.passes _ _).mp refused
        rw [current] at fresh
        simp only [textStore, inMemoryStore, refused, fresh, ne_eq, not_true_eq_false, if_false,
          true_and]
        exact agrees.save injective op
      | some fault =>
        have stale : ((s.store.operations.lookup op.id).map (·.revision)).getD 0 ≠ op.revision := by
          intro fresh
          rw [← current] at fresh
          rw [(refuses.passes _ _).mpr fresh] at refused
          cases refused
        simp only [textStore, inMemoryStore, refused, if_pos stale, observed,
          refuses.refuses _ _ _ refused, true_and]
        exact ⟨rfl, agrees⟩
  | loadOperation id =>
    have looked := agrees.operations id
    cases found : texts.operations.get (name id) with
    | none =>
      rw [found, Option.map_none] at looked
      simp only [Session.call, textStore, inMemoryStore, found, ← looked, true_and]
      exact agrees
    | some op =>
      rw [found, Option.map_some] at looked
      simp only [Session.call, textStore, inMemoryStore, found, ← looked,
        fromDict_fromDict, true_and]
      exact agrees
  | listOperations =>
    have listed := agrees.list (ordered _ orderly)
    simp only [Session.call, textStore, inMemoryStore, listed, true_and]
    exact agrees
  | savePlan n =>
    simp only [Session.call]
    cases found : s.client.plans[n]? with
    | none => exact ⟨rfl, rfl, agrees⟩
    | some plan => exact ⟨rfl, rfl, agrees.savePlan injective (orderly plan found).2⟩
  | loadPlan id =>
    have looked := agrees.plans id
    cases found : texts.plans.get (name id) with
    | none =>
      rw [found, Option.map_none] at looked
      simp only [Session.call, textStore, inMemoryStore, found, ← looked, true_and]
      exact ⟨rfl, agrees⟩
    | some plan =>
      rw [found, Option.map_some] at looked
      simp only [Session.call, textStore, inMemoryStore, found, ← looked, true_and]
      exact agrees
  | saveEvidenceEvent id n =>
    simp only [Session.call]
    cases found : s.client.events[n]? with
    | none => exact ⟨rfl, rfl, agrees⟩
    | some event =>
      obtain ⟨text, named, -⟩ := orderly.2 event found
      obtain ⟨value, identified, -⟩ := Option.map_eq_some_iff.mp named
      simp only [textStore, inMemoryStore, identified, true_and]
      exact agrees.saveEvent id identified
  | listEvidenceEvents id =>
    have listed := agrees.listEvents (ordered _ orderly.2)
    simp only [Session.call, textStore, inMemoryStore, listed, true_and]
    exact agrees

end

theorem view_call (m : SharedSession J) (call : Call) :
    m.view.call inMemoryStore PlanObject.operationId call =
      ((m.call call).1.map (Reply.map m.heap.values m.heap.plans), (m.call call).2.view) :=
  call_map (fun _ => rfl) m.session call

theorem allocated_call {m : SharedSession J} (allocated : m.Allocated) (call : Call) :
    (m.call call).2.Allocated :=
  all_call allocated _ call

def Steady (isContainer : J → Bool) (str : J → String) : SharedSession J → List (Event J) → Prop
  | _, [] => True
  | m, .call call :: rest =>
    Orderly str m.view call ∧ Steady isContainer str (m.step isContainer (.call call)).2 rest
  | m, .edit edit :: rest =>
    m.Separate edit ∧ Steady isContainer str (m.step isContainer (.edit edit)).2 rest

section

variable {isContainer : J → Bool} {name : String → String} {str : J → String}
  {conflict : OperationObject J → Option (OperationObject J) → Option Fault}

theorem observe_eq (injective : Function.Injective name) (refuses : RefusesStale conflict)
    (ordered : ∀ ids, Increasing ids → (ids.map name).Pairwise (· < ·)) (events : List (Event J))
    {m : SharedSession J} {texts : Texts J} (allocated : m.Allocated)
    (agrees : Agrees name str m.view.store texts) (steady : Steady isContainer str m events) :
    observe (Session.step isContainer (textStore name conflict str)) ⟨texts, m.view.client⟩ events =
      observe (SharedSession.step isContainer) m events := by
  induction events generalizing m texts with
  | nil => rfl
  | cons event rest ih =>
    cases event with
    | call call =>
      obtain ⟨orderly, later⟩ := steady
      obtain ⟨reply, client, after⟩ := agrees_call injective refuses ordered agrees orderly
      rw [view_call] at reply client after
      have next := ih (allocated_call allocated call) after later
      rw [← client] at next
      simp only [observe, Session.step, SharedSession.step, Option.map_some, Option.toList_some,
        reply]
      exact congrArg _ next
    | edit edit =>
      obtain ⟨separate, later⟩ := steady
      have seen : (m.edit isContainer edit).view = m.view.mapClient (·.edit isContainer edit) :=
        view_edit allocated separate
      have kept : Agrees name str (m.edit isContainer edit).view.store texts := by
        rw [seen]
        exact agrees
      have next := ih (allocated_edit allocated edit) kept later
      rw [seen] at next
      exact next

end

theorem jsonFile_injective : Function.Injective jsonFile := by
  intro id other same
  have texts : id.toList ++ ".json".toList = other.toList ++ ".json".toList := by
    rw [← String.toList_append, ← String.toList_append]
    exact congrArg String.toList same
  exact String.toList_injective (List.append_cancel_right texts)

theorem refusesStale_fileConflict : RefusesStale (fileConflict : OperationObject J → _) where
  passes op current := by
    cases current with
    | none => simp [fileConflict, eq_comm]
    | some payload => simp [fileConflict]
  refuses op current fault refused := by
    cases current with
    | none =>
      rw [fileConflict] at refused
      split at refused
      · cases refused
        rfl
      · cases refused
    | some payload =>
      rw [fileConflict] at refused
      split at refused
      · cases refused
        rfl
      · cases refused

theorem refusesStale_rowConflict : RefusesStale (rowConflict : OperationObject J → _) where
  passes op row := by simp [rowConflict]
  refuses op row fault refused := by
    simp only [rowConflict] at refused
    split at refused
    · cases refused
      rfl
    · cases refused

theorem agrees_empty (name : String → String) (str : J → String) :
    Agrees name str InMemoryStore.empty Texts.empty where
  operations _ := rfl
  named _ _ here := nomatch here
  plans _ := rfl
  identified _ _ member := nomatch member
  evidence _ _ := rfl

section

variable [Inhabited J]

def SharedSession.empty : SharedSession J := ⟨.empty, ⟨.empty, .empty⟩⟩

theorem allocated_empty : (SharedSession.empty : SharedSession J).Allocated where
  operations _ member := nomatch member
  plans _ member := nomatch member
  events _ member := nomatch member
  storedOperations _ member := nomatch member
  storedPlans _ _ here := nomatch here
  storedEvents _ _ member := nomatch member

/-- The three backends answer alike in every sequence whose listings come in the order of the
names and whose edits in place find nobody else at what they modify. -/
theorem observations_eq (isContainer : J → Bool) (str : J → String) (events : List (Event J))
    (steady : Steady isContainer str SharedSession.empty events) :
    fileObservations isContainer str events = memoryObservations isContainer events ∧
      sqliteObservations isContainer str events = memoryObservations isContainer events := by
  constructor
  · exact observe_eq jsonFile_injective refusesStale_fileConflict (fun _ sorted => sorted.2) events
      allocated_empty (agrees_empty _ _) steady
  · refine observe_eq Function.injective_id refusesStale_rowConflict (fun ids sorted => ?_) events
      allocated_empty (agrees_empty _ _) steady
    rw [List.map_id]
    exact sorted.1

end

/-- JSON values with a list of numbers as the only container. -/
inductive Sample where
  | text (s : String)
  | numbers (items : List Int)
  deriving DecidableEq, Inhabited

namespace Sample

def isContainer : Sample → Bool
  | .text _ => false
  | .numbers _ => true

def str : Sample → String
  | .text s => s
  | .numbers items => toString items

def add (n : Int) : Sample → Sample
  | .text s => .text s
  | .numbers items => .numbers (items ++ [n])

end Sample

def operationNamed (id : String) : OperationFields :=
  ⟨fun text => if text = .id then id else "", [], [], 0⟩

def planNamed (id target : String) : PlanObject Sample where
  texts
    | .operationId => id
    | .target => target
    | _ => "low"
  mappings _ _ := none
  plannedSteps := []
  lists _ := []
  rollbackAvailable := false
  catalogBinding _ := none

/-- Metadata is modified before and after it is saved; a plan and an event are left alone. -/
def carefulEvents : List (Event Sample) :=
  [.edit (.newOperation (operationNamed "op-1")),
    .edit (.setEntry 0 .metadata "marks" (some (.numbers []))),
    .edit (.editEntry 0 .metadata "marks" (Sample.add 7)),
    .call (.saveOperation 0),
    .call (.loadOperation "op-1"),
    .edit (.setEntry 1 .metadata "marks" none),
    .call (.saveOperation 1),
    .edit (.newPlan (planNamed "op-1" "host-1")),
    .call (.savePlan 0),
    .call (.loadPlan "op-1"),
    .edit .newEvent,
    .edit (.setEventEntry 0 "event_id" (some (.text "event-1"))),
    .call (.saveEvidenceEvent "op-1" 0),
    .call (.listEvidenceEvents "op-1"),
    .edit (.newOperation (operationNamed "op-2")),
    .call (.saveOperation 2),
    .call .listOperations]

theorem forall_of_all {found : Option V} {p : V → Bool} (all : found.all p = true) (a : V)
    (here : found = some a) : p a = true := by
  subst here
  exact all

theorem carefulEvents_steady :
    Steady Sample.isContainer Sample.str SharedSession.empty carefulEvents := by
  refine ⟨trivial, trivial, ?_, ?_, ?_, trivial, ?_, trivial, ?_, ?_, trivial, trivial, ?_, ?_,
    trivial, ?_, ?_, trivial⟩
  · exact @separate_setEntry _ Sample.isContainer _ (allocated_edit allocated_empty _) _ _ _ _ _
  · exact forall_of_all (p := fun op : OperationObject Sample => isFileName op.id)
      (by decide +kernel)
  · exact (by decide +kernel : isFileName "op-1" = true)
  · exact forall_of_all (p := fun op : OperationObject Sample => isFileName op.id)
      (by decide +kernel)
  · intro plan found
    have both := forall_of_all (p := fun plan => isFileName plan.operationId && plan.risk != "")
      (by decide +kernel) plan found
    simpa using both
  · exact (by decide +kernel : isFileName "op-1" = true)
  · refine ⟨by decide +kernel, fun event found => ?_⟩
    have named := forall_of_all
      (p := fun event => (eventId Sample.str event).any isFileName) (by decide +kernel) event found
    exact (Option.any_eq_true _ _).mp named
  · unfold Orderly
    decide +kernel
  · exact forall_of_all (p := fun op : OperationObject Sample => isFileName op.id)
      (by decide +kernel)
  · unfold Orderly
    decide +kernel

def replyIds : Observation Sample → List String
  | .ok (.operation op) => [op.id]
  | .ok (.operations objects) => objects.map (·.id)
  | .ok (.plan plan) => [plan.operationId, plan.texts .target]
  | .ok (.events events) => events.filterMap (eventId Sample.str)
  | _ => []

theorem carefulEvents_observations :
    fileObservations Sample.isContainer Sample.str carefulEvents =
        memoryObservations Sample.isContainer carefulEvents ∧
      sqliteObservations Sample.isContainer Sample.str carefulEvents =
        memoryObservations Sample.isContainer carefulEvents ∧
      (memoryObservations Sample.isContainer carefulEvents).map replyIds =
        [[], ["op-1"], [], [], ["op-1", "host-1"], [], ["event-1"], [], ["op-1", "op-2"]] := by
  have same := observations_eq Sample.isContainer Sample.str carefulEvents carefulEvents_steady
  exact ⟨same.1, same.2, by decide +kernel⟩

/-- An operation and the one that rolls it back, listed. -/
def rollbackEvents : List (Event Sample) :=
  [.edit (.newOperation (operationNamed "op-1")),
    .edit (.newOperation (operationNamed "op-1-rollback")),
    .call (.saveOperation 0),
    .call (.saveOperation 1),
    .call .listOperations]

def replannedEvents : List (Event Sample) :=
  [.edit (.newPlan (planNamed "op-1" "host-1")),
    .call (.savePlan 0),
    .edit (.editPlan 0 fun _ => planNamed "op-1" "host-2"),
    .call (.loadPlan "op-1")]

theorem observations_differ :
    ((fileObservations Sample.isContainer Sample.str rollbackEvents).map replyIds =
        [[], [], ["op-1-rollback", "op-1"]] ∧
      (sqliteObservations Sample.isContainer Sample.str rollbackEvents).map replyIds =
        [[], [], ["op-1", "op-1-rollback"]]) ∧
    ((sqliteObservations Sample.isContainer Sample.str replannedEvents).map replyIds =
        [[], ["op-1", "host-1"]] ∧
      (memoryObservations Sample.isContainer replannedEvents).map replyIds =
        [[], ["op-1", "host-2"]]) := by
  decide +kernel

end RExecOp.Storage
