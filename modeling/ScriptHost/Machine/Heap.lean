import ScriptHost.Machine.Value
/-! The objects of all machines of a program. A place in the heap is never taken twice; which
objects have been released is told by counting who holds on to them. -/

namespace ScriptHost

structure Heap where
  lists : Array (Array Value)
  classes : Array ClassObject
  instances : Array Instance
  foreigns : Array ForeignObject

namespace Heap

def empty : Heap := ⟨#[], #[], #[], #[]⟩

/-! Reading. -/

def list (h : Heap) (id : ListId) : Array Value := h.lists[id]?.getD #[]

def class? (h : Heap) (id : ClassId) : Option ClassObject := h.classes[id]?

def className (h : Heap) (id : ClassId) : String := ((h.class? id).map (·.name)).getD ""

def instance? (h : Heap) (id : InstanceId) : Option Instance := h.instances[id]?

def foreign? (h : Heap) (id : ForeignId) : Option ForeignObject := h.foreigns[id]?

/-- The value of a field; one that was never set is null. -/
def field (h : Heap) (id : InstanceId) (name : String) : Value :=
  ((h.instance? id).bind (·.fields.get? name)).getD .null

/-- The class of a foreign object. -/
def foreignClass? (h : Heap) (id : ForeignId) : Option ClassObject :=
  (h.foreign? id).bind fun o => h.class? o.classId

/-! Writing. -/

def addList (h : Heap) (items : Array Value) : ListId × Heap :=
  (h.lists.size, { h with lists := h.lists.push items })

def addClass (h : Heap) (c : ClassObject) : ClassId × Heap :=
  (h.classes.size, { h with classes := h.classes.push c })

def addInstance (h : Heap) (classId : ClassId) : InstanceId × Heap :=
  (h.instances.size, { h with instances := h.instances.push ⟨classId, []⟩ })

def addForeign (h : Heap) (classId : ClassId) (payload : Payload) : ForeignId × Heap :=
  (h.foreigns.size, { h with foreigns := h.foreigns.push ⟨classId, payload⟩ })

/-- A value added at the end of a list. -/
def append (h : Heap) (id : ListId) (v : Value) : Heap :=
  { h with lists := h.lists.modify id (·.push v) }

def setField (h : Heap) (id : InstanceId) (name : String) (v : Value) : Heap :=
  { h with instances := h.instances.modify id fun i => { i with fields := i.fields.set name v } }

/-- A payload written over another of the same host type; one of another type is not written. -/
def setPayload (h : Heap) (id : ForeignId) (payload : Payload) : Heap :=
  { h with foreigns := h.foreigns.modify id fun o =>
      if o.payload.type = payload.type then { o with payload } else o }

/-! Release. An object is there as long as something that is there holds on to it, so that objects
in a ring, once nothing else holds on to them, stay for good. -/

/-- An object that goes when nothing holds on to it any more. Classes are not told from each other
by when they go. -/
inductive Object where
  | list (id : ListId)
  | instance (id : InstanceId)
  | foreign (id : ForeignId)
deriving Repr, DecidableEq

/-- The object that a value refers to. -/
def object? : Value → Option Object
  | .list id => some (.list id)
  | .object id => some (.instance id)
  | .foreign id => some (.foreign id)
  | _ => none

/-- The values that an object holds on to. -/
def contents (h : Heap) : Object → List Value
  | .list id => (h.list id).toList
  | .instance id => ((h.instance? id).map (·.fields.values)).getD []
  | .foreign _ => []

/-- Every object that was made. -/
def objects (h : Heap) : List Object :=
  (List.range h.lists.size).map .list ++ (List.range h.instances.size).map .instance ++
    (List.range h.foreigns.size).map .foreign

/-- Of some objects, those that the roots or these objects hold on to. -/
def held (h : Heap) (roots : List Value) (there : List Object) : List Object :=
  let references := (roots ++ there.flatMap h.contents).filterMap object?
  there.filter references.contains

/-- What is left of some objects when those that nothing holds on to go, and then those that
nothing holds on to without them, and so on. -/
def settle (h : Heap) (roots : List Value) : Nat → List Object → List Object
  | 0, there => there
  | rounds + 1, there =>
    let next := h.held roots there
    if next.length = there.length then there else settle h roots rounds next

/-- The objects that are still there. Each round but the last releases an object. -/
def present (h : Heap) (roots : List Value) : List Object :=
  h.settle roots h.objects.length h.objects

/-- The foreign objects that have gone, in the order in which they were made. -/
def gone (h : Heap) (roots : List Value) : List ForeignId :=
  let present := h.present roots
  (List.range h.foreigns.size).filter fun id => !present.contains (.foreign id)

/-- Whether the class of a foreign object was bound with a finalizer. It runs when the object goes,
and nothing else drops what the object carries. -/
def finalizes (h : Heap) (id : ForeignId) : Bool := (h.foreignClass? id).any (·.binding.finalize)

/-- The foreign objects that have gone and had their finalizers run. -/
def finalized (h : Heap) (roots : List Value) : List ForeignId :=
  (h.gone roots).filter h.finalizes

end Heap
end ScriptHost
