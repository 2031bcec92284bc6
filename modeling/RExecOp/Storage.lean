import RExecOp.Errors
import RExecOp.Lib.Assoc
import RExecOp.Lib.Dict
import RExecOp.Value

/-! The storage port (`storage/port.py`) and its three backends. `InMemoryStore` keeps objects
that share containers with those its callers hold. -/

namespace RExecOp.Storage

open Assoc (assign)

variable {J V W P Q σ : Type}

/-- The order of the keys is no part of its value. -/
abbrev Mapping (V : Type) := String → Option V

def Mapping.set (entries : Mapping V) (key : String) (value : Option V) : Mapping V :=
  Function.update entries key value

def Mapping.map (f : V → W) (entries : Mapping V) : Mapping W := fun key => (entries key).map f

inductive OperationText where
  | id
  | profile
  | environment
  | intent
  | target
  | mode
  | requestedBy
  | state
  | createdAt
  | updatedAt
  | correlationId
  | currentStepId
  | govengineDecisionType
  | govengineDecisionSummary
  deriving DecidableEq, Repr

inductive OperationMapping where
  | scliteRefs
  | metadata
  deriving DecidableEq, Repr

structure StateTransition where
  fromState : String
  toState : String
  timestampUtc : String
  reason : String
  deriving DecidableEq, Repr

/-- The fields that `as_dict` and `from_dict` copy all the way down. -/
structure OperationFields where
  texts : OperationText → String
  history : List StateTransition
  evidenceEventIds : List String
  operationRevision : Int

structure OperationObject (V : Type) where
  fields : OperationFields
  mappings : OperationMapping → Mapping V

namespace OperationObject

def id (op : OperationObject V) : String := op.fields.texts .id

def revision (op : OperationObject V) : Int := op.fields.operationRevision

def map (f : V → W) (op : OperationObject V) : OperationObject W :=
  ⟨op.fields, fun name => (op.mappings name).map f⟩

def setEntry (name : OperationMapping) (key : String) (value : Option V)
    (op : OperationObject V) : OperationObject V :=
  ⟨op.fields, Function.update op.mappings name ((op.mappings name).set key value)⟩

def saved (op : OperationObject V) : OperationObject V :=
  ⟨{ op.fields with operationRevision := op.revision + 1 }, op.mappings⟩

/-- Both mappings are copied at their top level only. -/
def fromDict (op : OperationObject V) : OperationObject V :=
  let requestedBy := orElse (op.fields.texts .requestedBy) "operator"
  ⟨{ op.fields with texts := Function.update op.fields.texts .requestedBy requestedBy },
    op.mappings⟩

end OperationObject

inductive PlanText where
  | operationId
  | profile
  | environment
  | intent
  | target
  | mode
  | risk
  deriving DecidableEq, Repr

inductive PlanMapping where
  | workflow
  | govengineRequestPreview
  | retryPolicySummary
  deriving DecidableEq, Repr

inductive PlanList where
  | requiredConnectors
  | expectedEvidence
  | pauseSafePoints
  deriving DecidableEq, Repr

structure PlanObject (J : Type) where
  texts : PlanText → String
  mappings : PlanMapping → Mapping J
  plannedSteps : List (Mapping J)
  lists : PlanList → List String
  rollbackAvailable : Bool
  catalogBinding : Mapping String

namespace PlanObject

def operationId (plan : PlanObject J) : String := plan.texts .operationId

def risk (plan : PlanObject J) : String := plan.texts .risk

def fromDict (plan : PlanObject J) : PlanObject J :=
  { plan with texts := Function.update plan.texts .risk (orElse plan.risk "unknown") }

end PlanObject

structure StoragePort (σ V P : Type) where
  saveOperation : OperationObject V → σ → Except Fault σ
  loadOperation : String → σ → Except Fault (OperationObject V)
  listOperations : σ → List (OperationObject V)
  savePlan : String → P → σ → σ
  loadPlan : String → σ → Except Fault P
  saveEvidenceEvent : String → Mapping V → σ → Except Fault σ
  listEvidenceEvents : String → σ → List (Mapping V)

structure Texts (J : Type) where
  operations : Dict String (OperationObject J)
  plans : Dict String (PlanObject J)
  evidence : String → Dict String (Mapping J)

def Texts.empty : Texts J := ⟨∅, ∅, fun _ => ∅⟩

/-- A store of texts, by the name under which an id is filed. -/
def textStore (name : String → String)
    (conflict : OperationObject J → Option (OperationObject J) → Option Fault)
    (str : J → String) : StoragePort (Texts J) J (PlanObject J) where
  saveOperation op s := match conflict op (s.operations.get (name op.id)) with
    | some fault => .error fault
    | none => .ok { s with operations := s.operations.set (name op.id) op.saved }
  loadOperation operationId s := match s.operations.get (name operationId) with
    | some payload => .ok payload.fromDict
    | none => .error (.invalid ("operation not found: " ++ operationId))
  listOperations s := s.operations.values.map (·.fromDict)
  savePlan operationId plan s := { s with plans := s.plans.set (name operationId) plan }
  loadPlan operationId s := match s.plans.get (name operationId) with
    | some payload => .ok payload.fromDict
    | none => .error (.invalid ("operation plan not found: " ++ operationId))
  saveEvidenceEvent operationId event s := match event "event_id" with
    | some eventId =>
      let events := (s.evidence operationId).set (name (str eventId)) event
      .ok { s with evidence := Function.update s.evidence operationId events }
    | none => .error (.exception "event_id")
  listEvidenceEvents operationId s := (s.evidence operationId).values

def staleRevision (op : OperationObject V) (found : Int) : Fault :=
  .conflict ("concurrency_conflict: operation " ++ op.id ++ " expected revision " ++
    toString op.revision ++ ", found " ++ toString found)

def jsonFile (id : String) : String := id ++ ".json"

def fileConflict (op : OperationObject J) : Option (OperationObject J) → Option Fault
  | some payload =>
    if payload.revision ≠ op.revision then some (staleRevision op payload.revision) else none
  | none =>
    if op.revision ≠ 0 then
      some (.conflict ("concurrency_conflict: operation " ++ op.id ++ " no longer exists"))
    else none

def rowConflict (op : OperationObject J) (row : Option (OperationObject J)) : Option Fault :=
  let current := (row.map (·.revision)).getD 0
  if current ≠ op.revision then some (staleRevision op current) else none

/-- `FileStore`, listed in the order of the file names. -/
def fileStore (str : J → String) : StoragePort (Texts J) J (PlanObject J) :=
  textStore jsonFile fileConflict str

def sqliteStore (str : J → String) : StoragePort (Texts J) J (PlanObject J) :=
  textStore (fun id => id) rowConflict str

structure InMemoryStore (V P : Type) where
  operations : List (String × OperationObject V)
  plans : Mapping P
  evidence : String → List (Mapping V)

def InMemoryStore.empty : InMemoryStore V P := ⟨[], fun _ => none, fun _ => []⟩

/-- `InMemoryStore` copies operations at their top level, plans not at all. -/
def inMemoryStore : StoragePort (InMemoryStore V P) V P where
  saveOperation op s :=
    let current := ((s.operations.lookup op.id).map (·.revision)).getD 0
    if current ≠ op.revision then .error (staleRevision op current)
    else .ok { s with operations := assign op.id op.saved.fromDict s.operations }
  loadOperation operationId s := match s.operations.lookup operationId with
    | some op => .ok op.fromDict
    | none => .error (.invalid ("operation not found: " ++ operationId))
  listOperations s := s.operations.map (·.2.fromDict)
  savePlan operationId plan s := { s with plans := s.plans.set operationId (some plan) }
  loadPlan operationId s := match s.plans operationId with
    | some plan => .ok plan
    | none => .error (.invalid ("plan not found: " ++ operationId))
  saveEvidenceEvent operationId event s := .ok { s with
    evidence := Function.update s.evidence operationId (s.evidence operationId ++ [event]) }
  listEvidenceEvents operationId s := s.evidence operationId

structure Client (V P : Type) where
  operations : List (OperationObject V)
  plans : List P
  events : List (Mapping V)

def Client.empty : Client V P := ⟨[], [], []⟩

structure Session (σ V P : Type) where
  store : σ
  client : Client V P

inductive Call where
  | saveOperation (n : Nat)
  | loadOperation (operationId : String)
  | listOperations
  | savePlan (n : Nat)
  | loadPlan (operationId : String)
  | saveEvidenceEvent (operationId : String) (n : Nat)
  | listEvidenceEvents (operationId : String)

inductive Reply (V P : Type) where
  | done
  | operation (op : OperationObject V)
  | operations (ops : List (OperationObject V))
  | plan (plan : P)
  | events (events : List (Mapping V))

/-- What a call returns is added to the objects the caller holds. -/
def Session.call (port : StoragePort σ V P) (operationId : P → String) (s : Session σ V P) :
    Call → Except Fault (Reply V P) × Session σ V P
  | .saveOperation n => match s.client.operations[n]? with
    | none => (.ok .done, s)
    | some op => match port.saveOperation op s.store with
      | .error fault => (.error fault, s)
      | .ok store => (.ok .done, ⟨store, { s.client with
          operations := s.client.operations.modify n (·.saved) }⟩)
  | .loadOperation id => match port.loadOperation id s.store with
    | .error fault => (.error fault, s)
    | .ok op => (.ok (.operation op), { s with client := { s.client with
        operations := s.client.operations ++ [op] } })
  | .listOperations => (.ok (.operations (port.listOperations s.store)), { s with
      client := { s.client with
        operations := s.client.operations ++ port.listOperations s.store } })
  | .savePlan n => match s.client.plans[n]? with
    | none => (.ok .done, s)
    | some plan => (.ok .done, { s with store := port.savePlan (operationId plan) plan s.store })
  | .loadPlan id => match port.loadPlan id s.store with
    | .error fault => (.error fault, s)
    | .ok plan => (.ok (.plan plan), { s with client := { s.client with
        plans := s.client.plans ++ [plan] } })
  | .saveEvidenceEvent id n => match s.client.events[n]? with
    | none => (.ok .done, s)
    | some event => match port.saveEvidenceEvent id event s.store with
      | .error fault => (.error fault, s)
      | .ok store => (.ok .done, { s with store := store })
  | .listEvidenceEvents id => (.ok (.events (port.listEvidenceEvents id s.store)), { s with
      client := { s.client with events := s.client.events ++ port.listEvidenceEvents id s.store } })

/-- What a caller does by itself; `editEntry` modifies the container at a key. -/
inductive Edit (J : Type) where
  | newOperation (fields : OperationFields)
  | newPlan (plan : PlanObject J)
  | newEvent
  | editFields (n : Nat) (edit : OperationFields → OperationFields)
  | setEntry (n : Nat) (name : OperationMapping) (key : String) (value : Option J)
  | editEntry (n : Nat) (name : OperationMapping) (key : String) (edit : J → J)
  | editPlan (n : Nat) (edit : PlanObject J → PlanObject J)
  | setEventEntry (n : Nat) (key : String) (value : Option J)
  | editEventEntry (n : Nat) (key : String) (edit : J → J)

section Copies

variable (isContainer : J → Bool)

def inPlace (edit : J → J) (value : J) : J := if isContainer value then edit value else value

def Mapping.editEntry (key : String) (edit : J → J) (entries : Mapping J) : Mapping J :=
  entries.set key ((entries key).map (inPlace isContainer edit))

def OperationObject.editEntry (name : OperationMapping) (key : String) (edit : J → J)
    (op : OperationObject J) : OperationObject J :=
  op.setEntry name key ((op.mappings name key).map (inPlace isContainer edit))

def Client.edit (client : Client J (PlanObject J)) : Edit J → Client J (PlanObject J)
  | .newOperation fields => { client with
      operations := client.operations ++ [⟨fields, fun _ _ => none⟩] }
  | .newPlan plan => { client with plans := client.plans ++ [plan] }
  | .newEvent => { client with events := client.events ++ [fun _ => none] }
  | .editFields n edit => { client with
      operations := client.operations.modify n fun op => ⟨edit op.fields, op.mappings⟩ }
  | .setEntry n name key value => { client with
      operations := client.operations.modify n (·.setEntry name key value) }
  | .editEntry n name key edit => { client with
      operations := client.operations.modify n (·.editEntry isContainer name key edit) }
  | .editPlan n edit => { client with plans := client.plans.modify n edit }
  | .setEventEntry n key value => { client with
      events := client.events.modify n (·.set key value) }
  | .editEventEntry n key edit => { client with
      events := client.events.modify n (·.editEntry isContainer key edit) }

inductive Event (J : Type) where
  | call (call : Call)
  | edit (edit : Edit J)

def Session.step (port : StoragePort σ J (PlanObject J)) (s : Session σ J (PlanObject J)) :
    Event J → Option (Except Fault (Reply J (PlanObject J))) × Session σ J (PlanObject J)
  | .call call => ((s.call port PlanObject.operationId call).1,
      (s.call port PlanObject.operationId call).2)
  | .edit edit => (none, { s with client := s.client.edit isContainer edit })

end Copies

/-- What stands at a key of a mapping, and plans, by their addresses. -/
structure Heap (J : Type) where
  values : Nat → J
  next : Nat
  plans : Nat → PlanObject J
  nextPlan : Nat

/-- The objects of `InMemoryStore` and of the caller are on one heap. -/
structure SharedSession (J : Type) where
  heap : Heap J
  session : Session (InMemoryStore Nat Nat) Nat Nat

def Heap.allocate (heap : Heap J) (value : J) : Heap J :=
  { heap with values := Function.update heap.values heap.next value, next := heap.next + 1 }

def Heap.write (heap : Heap J) (address : Nat) (value : J) : Heap J :=
  { heap with values := Function.update heap.values address value }

def Heap.allocatePlan (heap : Heap J) (plan : PlanObject J) : Heap J :=
  { heap with
    plans := Function.update heap.plans heap.nextPlan plan
    nextPlan := heap.nextPlan + 1 }

def Heap.writePlan (heap : Heap J) (address : Nat) (plan : PlanObject J) : Heap J :=
  { heap with plans := Function.update heap.plans address plan }

def Session.mapClient (f : Client V P → Client V P) (s : Session σ V P) : Session σ V P :=
  { s with client := f s.client }

def Client.entry (client : Client V P) (n : Nat) (name : OperationMapping) (key : String) :
    Option V :=
  (client.operations[n]?).bind fun op => op.mappings name key

def Client.eventEntry (client : Client V P) (n : Nat) (key : String) : Option V :=
  (client.events[n]?).bind fun event => event key

def Client.setEntry (n : Nat) (name : OperationMapping) (key : String) (value : Option V)
    (client : Client V P) : Client V P :=
  { client with operations := client.operations.modify n (·.setEntry name key value) }

def Client.setEventEntry (n : Nat) (key : String) (value : Option V) (client : Client V P) :
    Client V P :=
  { client with events := client.events.modify n (·.set key value) }

namespace SharedSession

variable (isContainer : J → Bool)

/-- A container modified in place is seen wherever it is. -/
def edit (m : SharedSession J) : Edit J → SharedSession J
  | .newOperation fields => { m with session := m.session.mapClient fun client =>
      { client with operations := client.operations ++ [⟨fields, fun _ _ => none⟩] } }
  | .newPlan plan => ⟨m.heap.allocatePlan plan, m.session.mapClient fun client =>
      { client with plans := client.plans ++ [m.heap.nextPlan] }⟩
  | .newEvent => { m with session := m.session.mapClient fun client =>
      { client with events := client.events ++ [fun _ => none] } }
  | .editFields n edit => { m with session := m.session.mapClient fun client =>
      { client with
        operations := client.operations.modify n fun op => ⟨edit op.fields, op.mappings⟩ } }
  | .setEntry n name key none =>
    { m with session := m.session.mapClient (Client.setEntry n name key none) }
  | .setEntry n name key (some value) => ⟨m.heap.allocate value,
      m.session.mapClient (Client.setEntry n name key (some m.heap.next))⟩
  | .editEntry n name key edit => match m.session.client.entry n name key with
    | none => m
    | some address => { m with
        heap := m.heap.write address (inPlace isContainer edit (m.heap.values address)) }
  | .editPlan n edit => match m.session.client.plans[n]? with
    | none => m
    | some address => { m with heap := m.heap.writePlan address (edit (m.heap.plans address)) }
  | .setEventEntry n key none =>
    { m with session := m.session.mapClient (Client.setEventEntry n key none) }
  | .setEventEntry n key (some value) => ⟨m.heap.allocate value,
      m.session.mapClient (Client.setEventEntry n key (some m.heap.next))⟩
  | .editEventEntry n key edit => match m.session.client.eventEntry n key with
    | none => m
    | some address => { m with
        heap := m.heap.write address (inPlace isContainer edit (m.heap.values address)) }

def call (m : SharedSession J) (call : Call) :
    Except Fault (Reply Nat Nat) × SharedSession J :=
  let result := m.session.call inMemoryStore (fun address => (m.heap.plans address).operationId)
    call
  (result.1, { m with session := result.2 })

end SharedSession

def Reply.map (f : V → W) (g : P → Q) : Reply V P → Reply W Q
  | .done => .done
  | .operation op => .operation (op.map f)
  | .operations objects => .operations (objects.map (·.map f))
  | .plan object => .plan (g object)
  | .events objects => .events (objects.map (Mapping.map f))

def SharedSession.step (isContainer : J → Bool) (m : SharedSession J) :
    Event J → Option (Except Fault (Reply J (PlanObject J))) × SharedSession J
  | .call call => ((m.call call).1.map (Reply.map m.heap.values m.heap.plans), (m.call call).2)
  | .edit edit => (none, m.edit isContainer edit)

inductive ErrorClass where
  | validation
  | conflict
  | other
  deriving DecidableEq, Repr

def errorClass : Fault → ErrorClass
  | .validation _ _ => .validation
  | .conflict _ => .conflict
  | _ => .other

abbrev Observation (J : Type) := Except ErrorClass (Reply J (PlanObject J))

def observed : Except Fault (Reply J (PlanObject J)) → Observation J
  | .ok reply => .ok reply
  | .error fault => .error (errorClass fault)

def observe (step : σ → Event J → Option (Except Fault (Reply J (PlanObject J))) × σ) :
    σ → List (Event J) → List (Observation J)
  | _, [] => []
  | s, event :: rest => ((step s event).1.map observed).toList ++ observe step (step s event).2 rest

def fileObservations (isContainer : J → Bool) (str : J → String) (events : List (Event J)) :
    List (Observation J) :=
  observe (Session.step isContainer (fileStore str)) ⟨.empty, .empty⟩ events

def sqliteObservations (isContainer : J → Bool) (str : J → String) (events : List (Event J)) :
    List (Observation J) :=
  observe (Session.step isContainer (sqliteStore str)) ⟨.empty, .empty⟩ events

def Heap.empty [Inhabited J] : Heap J where
  values _ := default
  next := 0
  plans _ := ⟨fun _ => "", fun _ _ => none, [], fun _ => [], false, fun _ => none⟩
  nextPlan := 0

def memoryObservations [Inhabited J] (isContainer : J → Bool) (events : List (Event J)) :
    List (Observation J) :=
  observe (SharedSession.step isContainer) ⟨.empty, ⟨.empty, .empty⟩⟩ events

end RExecOp.Storage
