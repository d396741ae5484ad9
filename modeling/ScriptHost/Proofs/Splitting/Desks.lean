import ScriptHost.Embedding.Session
import ScriptHost.Proofs.Splitting.Methods

/-! The desk of an embedding program keeps what it is told about lines, and does not act on it: each
request is answered alike on machines that hold the same objects, some of them of moved code, and so
is each function of a plan. -/

namespace ScriptHost

variable {base : Position} {old : Nat}

/-! ### What a desk keeps -/

/-- Replies, up to the lines of moved code. -/
inductive Reply.Moved (base : Position) : Reply → Reply → Prop
  | same (r : Reply) : Moved base r r
  | error {e e' : RuntimeError} : e.Moved base e' →
    Moved base (.interpretError (.runtime e)) (.interpretError (.runtime e'))

/-- What an embedding program is told, up to the lines of moved code. -/
inductive Event.Moved (base : Position) : Event → Event → Prop
  | same (e : Event) : Moved base e e
  | report {r r' : Report} : r.Moved base r' → Moved base (.report r) (.report r')
  | reply {r r' : Reply} : r.Moved base r' → Moved base (.reply r) (.reply r')

/-- Desks that keep the same, and heard the same, up to the lines of moved code. -/
structure Desk.Moved (base : Position) (d e : Desk) : Prop where
  same : e = { d with events := e.events }
  events : List.Forall₂ (Event.Moved base) d.events e.events

/-- Embedding programs are compared by their desks. -/
def Split.desks (base : Position) : Split Desk := ⟨base, Desk.Moved base⟩

namespace Desk

theorem moved_refl (base : Position) (d : Desk) : d.Moved base d :=
  ⟨rfl, List.forall₂_same.mpr fun e _ => .same e⟩

theorem Moved.handles {d e : Desk} (h : d.Moved base e) : e.handles = d.handles := by
  rw [h.same]

theorem Moved.calls {d e : Desk} (h : d.Moved base e) : e.calls = d.calls := by
  rw [h.same]

theorem Moved.userData {d e : Desk} (h : d.Moved base e) : e.userData = d.userData := by
  rw [h.same]

theorem Moved.record {d e : Desk} (h : d.Moved base e) {a b : Event} (heard : a.Moved base b) :
    (d.record a).Moved base (e.record b) := by
  refine ⟨?_, .cons heard h.events⟩
  conv_lhs => rw [h.same]
  rfl

/-- A change that leaves the events alone. -/
theorem Moved.change {d e : Desk} (h : d.Moved base e) {f : Desk → Desk}
    (apart : ∀ d events, f { d with events } = { f d with events }) :
    (f d).Moved base (f e) := by
  have kept (d : Desk) : (f d).events = d.events := by
    have same := congrArg Desk.events (apart d d.events)
    exact same
  have same : f e = { f d with events := e.events } := by
    conv_lhs => rw [h.same, apart]
  refine ⟨?_, ?_⟩
  · rw [kept]
    exact same
  · rw [kept, kept]
    exact h.events

end Desk

/-! ### What the host sees of objects -/

namespace Heap.Moved

variable {h k : Heap}

theorem viewUpTo (hk : h.Moved base old k) (depth : Nat) (v : Value) :
    k.viewUpTo depth v = h.viewUpTo depth v := by
  have ofClass (id : ClassId) : k.viewUpTo depth (.classObject id) =
      h.viewUpTo depth (.classObject id) := by
    obtain ⟨b, -, -, there⟩ := hk.classes id
    simp only [Heap.viewUpTo, there]
    cases h.class? id <;> rfl
  induction depth generalizing v with
  | zero =>
    cases v with
    | classObject id => exact ofClass id
    | _ => simp only [Heap.viewUpTo, hk.instanceClassName, hk.foreignClassName]
  | succ depth ih =>
    cases v with
    | classObject id => exact ofClass id
    | list id =>
      have same : k.viewUpTo depth = h.viewUpTo depth := by
        funext v
        exact ih v fun id => by simpa only [Heap.viewUpTo] using ofClass id
      simp only [Heap.viewUpTo, hk.list, same]
    | _ => simp only [Heap.viewUpTo, hk.instanceClassName, hk.foreignClassName]

theorem view (hk : h.Moved base old k) : k.view = h.view := funext (hk.viewUpTo _)

theorem foreignRef (hk : h.Moved base old k) (id : ForeignId) :
    k.foreignRef id = h.foreignRef id := by
  have asMap (h : Heap) : h.foreignRef id = ((h.foreignClass? id).map fun c =>
      (⟨id, c.name, c.binding.hostType⟩ : ForeignRef)).getD ⟨id, "", none⟩ := by
    unfold Heap.foreignRef
    cases h.foreignClass? id <;> rfl
  rw [asMap, asMap, hk.ofForeignClass fun _ _ => rfl]

theorem crossing (hk : h.Moved base old k) (slot : Nat) (v : Value) (kind : Kind) :
    k.crossing slot v kind = h.crossing slot v kind := by
  induction kind with
  | optional inner ih => cases v <;> simp only [Heap.crossing, ih]
  | _ => cases v <;> simp only [Heap.crossing, hk.foreignRef]

end Heap.Moved

theorem Method.view_rebase (b : Position) (m : Method) : (m.rebase b).view = m.view := by
  cases m with
  | script decl => exact congrArg MethodView.script (MethodDecl.rebase_signature b decl)
  | constructor decl => exact congrArg MethodView.constructor (MethodDecl.rebase_signature b decl)
  | _ => rfl

/-- A class shows the same method, wherever it stands. -/
theorem ClassObject.view_rebase (b : Position) (table : MethodTable) (signature : String) :
    ((table.mapValues (Method.rebase b)).get? signature).map (·.view) =
      (table.get? signature).map (·.view) := by
  rw [Table.get?_mapValues, Option.map_map]
  exact congrArg (fun f => (table.get? signature).map f) (funext (Method.view_rebase b))

/-! ### Slots -/

namespace Split.Alike

variable {H : Type} {s : Split H} {g : Footing} {m n : Machine H} (alike : s.Alike g m n)
include alike

theorem withHost {f f' : H → H} (same : s.hosts (f m.host) (f' n.host)) :
    s.Alike g { m with host := f m.host } { n with host := f' n.host } :=
  ⟨alike.heap, alike.vm, same, alike.classes, alike.home, alike.depth⟩

theorem setSlot (slot : Nat) (v : Value) :
    s.Alike g (m.onVm (·.setSlot slot v)) (n.onVm (·.setSlot slot v)) :=
  alike.onVm alike.home alike.depth

theorem decode (slot : Nat) (kind : Kind) : n.decode slot kind = m.decode slot kind := by
  unfold Machine.decode
  rw [alike.vm]
  cases m.vm.slot? slot with
  | none => rfl
  | some v => exact alike.heap.crossing slot v kind

theorem decodeFrom (slot : Nat) (kinds : List Kind) :
    n.decodeFrom slot kinds = m.decodeFrom slot kinds := by
  induction kinds generalizing slot with
  | nil => rfl
  | cons kind rest ih => simp only [Machine.decodeFrom, alike.decode, ih]

theorem decodeArguments (params : List Kind) :
    n.decodeArguments params = m.decodeArguments params := by
  unfold Machine.decodeArguments Machine.firstArgument
  rw [alike.vm, alike.decodeFrom]

theorem slotForeignClass? (slot : Nat) : n.slotForeignClass? slot = m.slotForeignClass? slot := by
  unfold Machine.slotForeignClass?
  rw [alike.vm]
  cases m.vm.slot? slot with
  | none => rfl
  | some v =>
    cases v with
    | classObject id =>
      obtain ⟨b, -, -, there⟩ := alike.heap.classes id
      dsimp only
      rw [there]
      cases m.heap.class? id <;> rfl
    | _ => rfl

/-- A new foreign object has the same place. -/
theorem addForeign (slot : Nat) (classId : ClassId) (payload : Payload) :
    s.Alike g
      { m with
        heap := (m.heap.addForeign classId payload).2
        vm := m.vm.setSlot slot (.foreign (m.heap.addForeign classId payload).1) }
      { n with
        heap := (n.heap.addForeign classId payload).2
        vm := n.vm.setSlot slot (.foreign (n.heap.addForeign classId payload).1) } := by
  obtain ⟨place, moved⟩ := alike.heap.addForeign classId payload
  rw [place, alike.vm]
  exact ⟨moved, rfl, alike.host, alike.classes, alike.home, alike.depth⟩

/-- A value put into a slot, or the same refusal. -/
theorem encode (slot : Nat) (value : HostValue) :
    (∃ f, m.encode slot value = .error f ∧ n.encode slot value = .error f) ∨
      ∃ m' n', m.encode slot value = .ok m' ∧ n.encode slot value = .ok n' ∧ s.Alike g m' n' := by
  unfold Machine.encode
  cases value.toValue slot with
  | error f => exact .inl ⟨f, rfl, rfl⟩
  | ok v => exact .inr ⟨_, _, rfl, rfl, alike.setSlot slot v⟩

theorem land (returns : Option Kind) (outcome : Outcome) :
    (outcome.land returns n).1 = (outcome.land returns m).1 ∧
      s.Alike g (outcome.land returns m).2 (outcome.land returns n).2 := by
  cases outcome with
  | fault f => exact ⟨rfl, alike⟩
  | panic message => exact ⟨rfl, alike⟩
  | value result =>
    cases result with
    | none => exact ⟨rfl, alike⟩
    | some v =>
      unfold Outcome.land Machine.encodeResult
      cases returns with
      | none => exact ⟨rfl, alike⟩
      | some kind =>
        by_cases fits : kind.accepts v
        · obtain ⟨f, refused, refused'⟩ | ⟨m', n', put, put', alike'⟩ := alike.encode 0 v
          · simp only [fits, if_true, refused, refused']
            exact ⟨trivial, alike⟩
          · simp only [fits, if_true, put, put']
            exact ⟨trivial, alike'⟩
        · simp only [fits]
          exact ⟨rfl, alike⟩

/-- A described routine works on the window alone. -/
theorem dispatch (keep : ForeignId → H → H) (params : List Kind) (returns : Option Kind)
    (body : Body) :
    (((Routine.described params returns body).dispatch keep).run n).1 =
        (((Routine.described params returns body).dispatch keep).run m).1 ∧
      s.Alike g (((Routine.described params returns body).dispatch keep).run m).2
        (((Routine.described params returns body).dispatch keep).run n).2 := by
  rw [Routine.dispatch_run, Routine.dispatch_run, alike.decodeArguments]
  cases m.decodeArguments (Routine.described params returns body).params with
  | error f => exact ⟨rfl, alike⟩
  | ok args => exact alike.land returns (body.outcome args)

end Split.Alike

/-! ### Requests -/

namespace Desk

variable {g : Footing} {engine : Engine Desk}

/-- A request answered alike, up to the lines of moved code. -/
abbrev Answers (base : Position) (g : Footing) (x y : DeskRun Reply) : Prop :=
  (Split.desks base).LiveAlike g (Reply.Moved base) x y

theorem answers (r : Reply) : Answers base g (return r) (return r) :=
  .pure (.same r)

/-- A request that works on the window alone. -/
theorem onVm_alike {f : Vm → Vm} (modules : ∀ vm, (f vm).modules = vm.modules)
    (depth : ∀ vm, (f vm).depth = vm.depth) : Answers base g (onVm f) (onVm f) := by
  intro m n alike
  have home : (f m.vm).hasModule g.home := by
    unfold Vm.hasModule
    rw [modules]
    exact alike.home
  exact .ok (alike.onVm home (depth m.vm ▸ alike.depth)) (.same .done)

theorem onDesk_alike {f f' : Desk → Desk}
    (moved : ∀ {d e : Desk}, d.Moved base e → (f d).Moved base (f' e)) :
    (Split.desks base).LiveAlike g Eq (onDesk f) (onDesk f') :=
  .modify fun alike => alike.withHost (moved alike.host)

/-- A request that starts with a change on the desk, but not of the events. -/
theorem change_bind {f : Desk → Desk}
    (apart : ∀ d events, f { d with events } = { f d with events }) {x y : Unit → DeskRun Reply}
    (h : Answers base g (x ()) (y ())) :
    Answers base g (onDesk f >>= x) (onDesk f >>= y) := by
  have changed : (Split.desks base).LiveAlike g Eq (onDesk f) (onDesk f) :=
    onDesk_alike fun moved => moved.change apart
  exact changed.bind fun _ => h

/-- A request that starts by looking for a handle. -/
theorem handle_bind {name : String} {f f' : Option Value → DeskRun Reply}
    (h : ∀ v, Answers base g (f v) (f' v)) :
    Answers base g (handle? name >>= f) (handle? name >>= f') := by
  intro m n alike
  have kept : n.host.handles = m.host.handles := Moved.handles alike.host
  change (Split.desks base).Ended g _ (f (m.host.handles.get? name) m)
    (f' (n.host.handles.get? name) n)
  rw [kept]
  exact h _ alike

theorem outcome_alike {x y : DeskRun Reply} (h : Answers base g x y)
    {r r' : Except InterpretError Unit} (concluded : Concluded base r r') :
    Answers base g (outcome x r) (outcome y r') := by
  cases concluded with
  | ok => exact h
  | compile errors => exact answers _
  | runtime moved => exact .pure (.error moved)

/-- A value put into a slot, or the refusal. -/
theorem put_alike {m n : Machine Desk} (alike : (Split.desks base).Alike g m n)
    {x y : Except BoundaryFault (Machine Desk)} :
    ((∃ f, x = .error f ∧ y = .error f) ∨
      ∃ m' n', x = .ok m' ∧ y = .ok n' ∧ (Split.desks base).Alike g m' n') →
    (Split.desks base).Ended g (Reply.Moved base)
      ((match x with
        | .ok m => do
          set m
          return .done
        | .error f => return .boundaryFault f : DeskRun Reply) m)
      ((match y with
        | .ok m => do
          set m
          return .done
        | .error f => return .boundaryFault f : DeskRun Reply) n) := by
  rintro (⟨f, rfl, rfl⟩ | ⟨m', n', rfl, rfl, alike'⟩)
  · exact answers _ alike
  · exact .ok alike' (.same _)

theorem call_alike (knows : engine.Blind (Split.desks base)) (handle : String) :
    Answers base g (serve engine (.call handle)) (serve engine (.call handle)) := by
  refine Split.LiveAlike.get_bind fun {m n} alike => ?_
  have kept : n.host.calls = m.host.calls := Moved.calls alike.host
  rw [kept]
  cases m.host.calls.get? handle with
  | none => exact answers _ alike
  | some signature =>
    refine (Engine.call_alike knows signature).bind (fun concluded => ?_) alike
    refine Split.LiveAlike.get_bind fun {m n} alike => ?_
    rw [alike.vm, alike.heap.view]
    exact outcome_alike (answers _) concluded alike

theorem look_alike {m n : Machine Desk} (alike : (Split.desks base).Alike g m n) (slot : Nat) :
    look n slot = look m slot := by
  unfold look
  rw [alike.vm]
  cases m.vm.slotForeign? slot with
  | none => rfl
  | some id =>
    have name := alike.heap.ofForeignClass (f := (·.name)) (fun _ _ => rfl) id
    have typed := alike.heap.ofForeignClass (f := (·.binding.hostType.isSome)) (fun _ _ => rfl) id
    simp only [Option.bind_some, alike.heap.foreign?, name, typed]

/-- A request that only reads. -/
theorem reads {f : Machine Desk → Reply}
    (same : ∀ {m n : Machine Desk}, (Split.desks base).Alike g m n → f n = f m) :
    Answers base g (do return f (← get)) (do return f (← get)) := by
  refine .get_bind fun {m n} alike => ?_
  rw [same alike]
  exact answers _ alike

/-! Requests about an object that is kept under a name. -/

theorem readField_alike (handle name : String) :
    Answers base g (serve engine (.readField handle name))
      (serve engine (.readField handle name)) := by
  refine .get_bind fun {m n} alike => handle_bind (fun v => ?_) alike
  cases v with
  | none => exact answers _
  | some v =>
    cases v with
    | object id =>
      dsimp only
      rw [alike.heap.view, alike.heap.field]
      exact answers _
    | _ => exact answers _

theorem writeField_alike (handle name value : String) :
    Answers base g (serve engine (.writeField handle name value))
      (serve engine (.writeField handle name value)) := by
  refine handle_bind fun v => handle_bind fun w => ?_
  rcases v with _ | v
  · exact answers _
  · rcases w with _ | w
    · cases v <;> exact answers _
    · cases v with
      | object id =>
        have written : (Split.desks base).LiveAlike g Eq
            (modify fun m => m.mapHeap (·.setField id name w))
            (modify fun m => m.mapHeap (·.setField id name w)) :=
          .modify fun alike => alike.mapHeap (alike.heap.setField id name w) (Nat.le_refl _)
        exact written.bind fun _ => answers _
      | _ => exact answers _

theorem findMethod_alike (handle signature : String) :
    Answers base g (serve engine (.findMethod handle signature))
      (serve engine (.findMethod handle signature)) := by
  refine .get_bind fun {m n} alike => handle_bind (fun v => ?_) alike
  cases v with
  | none => exact answers _
  | some v =>
    cases v with
    | classObject id =>
      obtain ⟨b, -, -, there⟩ := alike.heap.classes id
      dsimp only
      rw [there]
      cases m.heap.class? id with
      | none => exact answers _
      | some c =>
        simp only [Option.map_some, ClassObject.rebase, ClassObject.view_rebase]
        exact answers _
    | _ => exact answers _

/-- Every request is answered alike. -/
theorem serve_alike (knows : engine.Blind (Split.desks base)) (r : Request) :
    Answers base g (serve engine r) (serve engine r) := by
  cases r with
  | interpret moduleName source =>
    exact (Engine.interpret_alike knows moduleName source).bind (outcome_alike (answers _))
  | call handle => exact call_alike knows handle
  | ensureSlots | setNull | setBool | setNumber | setString | abort =>
    exact onVm_alike (fun _ => rfl) fun _ => rfl
  | slotCount => exact reads fun alike => congrArg (fun vm => Reply.count vm.slotCount) alike.vm
  | slotType slot =>
    exact reads fun alike => congrArg (fun vm => Reply.slotType (vm.slotType slot)) alike.vm
  | showSlots =>
    refine reads (f := fun m => .slots (m.vm.slots.map m.heap.view)) fun alike => ?_
    rw [alike.vm, alike.heap.view]
  | look slot => exact reads fun alike => congrArg Reply.slot (look_alike alike slot)
  | newForeign slot classSlot payload =>
    refine .get_bind fun {m n} alike => ?_
    unfold Machine.newForeign?
    rw [alike.slotForeignClass?]
    cases m.slotForeignClass? classSlot with
    | none => exact answers _ alike
    | some classId => exact .ok (alike.addForeign slot classId _) (.same _)
  | takeHandle slot handle =>
    refine .get_bind fun {m n} alike => ?_
    rw [alike.vm, alike.heap.view]
    cases m.vm.slot? slot with
    | none => exact answers _ alike
    | some v => exact change_bind (fun _ _ => rfl) (answers _) alike
  | putHandle slot handle =>
    refine handle_bind fun v => ?_
    cases v with
    | none => exact answers _
    | some v => exact onVm_alike (fun _ => rfl) fun _ => rfl
  | showHandle handle =>
    refine .get_bind fun {m n} alike => handle_bind (fun v => ?_) alike
    rw [alike.heap.view, funext alike.heap.display]
    cases v <;> exact answers _
  | compare a b =>
    refine handle_bind fun v => handle_bind fun w => ?_
    cases v <;> cases w <;> exact answers _
  | readField handle name => exact readField_alike handle name
  | writeField handle name value => exact writeField_alike handle name value
  | findMethod handle signature => exact findMethod_alike handle signature
  | readVariable moduleName name slot =>
    refine .get_bind fun {m n} alike => ?_
    rw [alike.vm]
    unfold Vm.readVariable?
    cases m.vm.binding? moduleName name with
    | none => exact answers _ alike
    | some v =>
      have put := alike.setSlot slot v
      rw [Machine.onVm, Machine.onVm, alike.vm] at put
      exact .ok put (.same _)
  | prepareCall | setUserData => exact change_bind (fun _ _ => rfl) (answers _)
  | userData => exact reads fun alike => congrArg Reply.userData (Moved.userData alike.host)
  | countUserData =>
    refine change_bind (fun _ _ => rfl) (.get_bind fun {m n} alike => ?_)
    rw [Moved.userData alike.host]
    rcases m.host.userData with _ | _ | _ <;> exact answers _ alike
  | decode slot kind =>
    refine .get_bind fun {m n} alike => ?_
    rw [alike.decode]
    cases m.decode slot kind <;> exact answers _ alike
  | decodeArguments params =>
    refine .get_bind fun {m n} alike => ?_
    rw [alike.decodeArguments]
    cases m.decodeArguments params <;> exact answers _ alike
  | encode slot value => exact .get_bind fun alike => put_alike alike (alike.encode slot value)
  | recode slot kind =>
    refine .get_bind fun {m n} alike => ?_
    rw [alike.decode]
    cases m.decode slot kind with
    | error f => exact answers _ alike
    | ok value => exact put_alike alike (alike.encode slot value)
  | dispatch params returns body =>
    refine (Split.LiveAlike.modifyGet fun alike => alike.dispatch ..).bind fun {result _} same => ?_
    obtain rfl := same
    cases result <;> exact answers _
  | unknown => exact answers _

/-- The requests of a host function are answered alike, one after the other. -/
theorem serveAll_alike (knows : engine.Blind (Split.desks base)) (rs : List Request) :
    (Split.desks base).LiveAlike g Eq (serveAll engine rs) (serveAll engine rs) := by
  induction rs with
  | nil => exact .pure rfl
  | cons r rest ih =>
    refine (serve_alike knows r).bind fun moved => ?_
    exact (onDesk_alike fun h => h.record (.reply moved)).bind fun _ => ih

theorem serveCall_alike (knows : engine.Blind (Split.desks base)) (name : String)
    (rs : List Request) :
    (Split.desks base).LiveAlike g Eq (serveCall engine name rs) (serveCall engine name rs) := by
  refine .get_bind fun {m n} alike => ?_
  rw [alike.vm]
  refine ((onDesk_alike fun h => h.record (.same _)).bind fun _ => ?_) alike
  exact serveAll_alike knows rs

/-! ### Callbacks -/

/-- A callback that is heard, or left out. -/
theorem told_heard {α : Type} (hears : Bool) {a b : Event} (moved : a.Moved base b) (x y : α) :
    (Split.desks base).Told
      (if hears then do
        modify (·.record a)
        return x
      else return y)
      (if hears then do
        modify (·.record b)
        return x
      else return y) := by
  intro d e same
  cases hears with
  | false => exact ⟨rfl, same⟩
  | true => exact ⟨rfl, Moved.record same moved⟩

end Desk

/-- The callbacks of a plan keep what they are told, and do not act on lines. -/
theorem Plan.callbacks_blind (p : Plan) : p.callbacks.Blind (Split.desks base) where
  write text := Desk.told_heard p.hearing.writes (.same (.write text)) () ()
  report moved := Desk.told_heard p.hearing.reports (.report moved) () ()
  bindMethod name := Desk.told_heard p.hearing.bindsMethods (.same (.bindMethod name)) _ none
  bindClass moduleName className :=
    Desk.told_heard p.hearing.bindsClasses (.same (.bindClass moduleName className)) _ _
  load name := Desk.told_heard p.hearing.loads (.same (.load name)) _ none

/-- Whatever a plan offers to scripts, its functions do the same wherever code stands. -/
theorem Plan.blind (p : Plan) (base : Position) : p.host.Blind (Split.desks base) where
  callbacks := p.callbacks_blind
  run knows g f := by
    cases f with
    | method key => exact Desk.serveCall_alike knows key _
    | allocator className => exact Desk.serveCall_alike knows className _
    | entry index => exact .modify fun alike => alike.onVm alike.home alike.depth

end ScriptHost
