import ScriptHost.Proofs.Simulation.Laws
import ScriptHost.Proofs.Splitting.Displaced

/-! Two runs of code that stands further down in one of them. From machines that hold the same
objects, they come to the same result on such machines again, or to a fault whose trace names moved
lines, or both halt. Each operation of the run monads has one rule. -/

namespace ScriptHost

/-- What two runs are compared by: where the second text starts in the text made of both, and which
states of the host count as the same. -/
structure Split (H : Type) where
  base : Position
  hosts : H → H → Prop

/-- What the machines of both runs keep to: one module stays open, the first classes stay as they
are, and no more methods are running afterwards. -/
structure Footing where
  home : String
  classes : Nat
  depth : Nat

/-- Activations of the same code, which stands at `b` in the second run. Both are activations like
`c`, with as many scopes; once they have come to a line, their lines correspond. -/
structure Frame.Moved (b : Position) (c : Frame) (known : Prop) (k l : Frame) : Prop where
  moduleName : k.moduleName = c.moduleName
  this : k.this = c.this
  function : k.function = c.function
  scopes : k.scopes.length = c.scopes.length
  same : l = { k with line := l.line }
  line : known → l.line = b.line + k.line - 1

variable {H α β γ δ : Type}

namespace Split

variable (s : Split H) (g : Footing)

/-- Machines that hold the same objects and stand on the same footing. -/
structure Alike (m n : Machine H) : Prop where
  heap : m.heap.Moved s.base g.classes n.heap
  vm : n.vm = m.vm
  host : s.hosts m.host n.host
  classes : g.classes ≤ m.heap.classes.size
  home : m.vm.hasModule g.home
  depth : m.vm.depth ≤ g.depth

/-- Two runs came to related results, or everything halted for the same reason. -/
inductive Ended (Q : α → β → Prop) :
    EStateM.Result Halt (Machine H) α → EStateM.Result Halt (Machine H) β → Prop
  | ok {a b m n} : s.Alike g m n → Q a b → Ended Q (.ok a m) (.ok b n)
  | halt {h d m n} : s.Alike { g with depth := d } m n → Ended Q (.error h m) (.error h n)

/-- Two runs of scripts came to related results, or to the same fault. -/
inductive Came (Q : α → β → Prop) : Except RuntimeError α → Except RuntimeError β → Prop
  | ok {a b} : Q a b → Came Q (.ok a) (.ok b)
  | fault {e e'} : e.Moved s.base e' → Came Q (.error e) (.error e')

/-- What two runs inside an activation came to. The line of a fault is known. -/
inductive Left (b : Position) (c : Frame) (known : Prop) (Q : α → β → Prop) :
    Except RuntimeError α × Frame → Except RuntimeError β × Frame → Prop
  | ok {x y k l} : Frame.Moved b c known k l → Q x y → Left b c known Q (.ok x, k) (.ok y, l)
  | fault {e e' k l} : Frame.Moved b c True k l → e.Moved s.base e' →
    Left b c known Q (.error e, k) (.error e', l)

def LiveAlike (Q : α → β → Prop) (x : Live H α) (y : Live H β) : Prop :=
  ∀ ⦃m n⦄, s.Alike g m n → s.Ended g Q (x m) (y n)

def RunAlike (Q : α → β → Prop) (x : Run H α) (y : Run H β) : Prop :=
  s.LiveAlike g (s.Came Q) x.run y.run

def ScriptAlike (b : Position) (c : Frame) (known : Prop) (Q : α → β → Prop) (x : Script H α)
    (y : Script H β) : Prop :=
  ∀ ⦃k l m n⦄, Frame.Moved b c known k l → s.Alike g m n →
    s.Ended g (s.Left b c known Q) (x.run.run k m) (y.run.run l n)

/-- Callbacks that do the same on states of the host that count as the same. -/
def Told (x y : StateM H α) : Prop :=
  ∀ ⦃h k⦄, s.hosts h k → (y.run k).1 = (x.run h).1 ∧ s.hosts (x.run h).2 (y.run k).2

end Split

/-! ### Hosts that do not act on lines -/

structure Callbacks.Blind (s : Split H) (c : Callbacks H) : Prop where
  write : ∀ text, s.Told (c.write text) (c.write text)
  report : ∀ {r r' : Report}, r.Moved s.base r' → s.Told (c.report r) (c.report r')
  bindMethod : ∀ name, s.Told (c.bindMethod name) (c.bindMethod name)
  bindClass : ∀ moduleName className,
    s.Told (c.bindClass moduleName className) (c.bindClass moduleName className)
  load : ∀ name, s.Told (c.load name) (c.load name)

/-- Further code runs in the same way where some of it has moved. -/
structure Engine.Blind (s : Split H) (engine : Engine H) : Prop where
  callbacks : engine.callbacks.Blind s
  perform : ∀ g action, s.RunAlike g Eq (engine.perform action) (engine.perform action)

/-- A host that does the same wherever code stands: neither its callbacks nor its functions act on
the lines that they are told. -/
structure Host.Blind (s : Split H) (host : Host H) : Prop where
  callbacks : host.callbacks.Blind s
  run : ∀ {engine : Engine H}, engine.Blind s → ∀ g f,
    s.LiveAlike g Eq (host.run f engine) (host.run f engine)

/-! ### Modules of a machine -/

namespace Vm

theorem hasModule_define (vm : Vm) (moduleName name : String) (v : Value) (home : String) :
    (vm.define moduleName name v).hasModule home = vm.hasModule home := by
  change ((vm.modules.update moduleName _).get? home).isSome = (vm.modules.get? home).isSome
  rw [Table.get?_update]
  split
  · rw [Option.isSome_map]
  · rfl

theorem hasModule_openModule {vm : Vm} {home : String} (known : vm.hasModule home)
    (name : String) : (vm.openModule name).hasModule home := by
  unfold openModule
  split
  · exact known
  · change ((vm.modules.set name _).get? home).isSome
    rw [Table.get?_set]
    split
    · rfl
    · exact known

theorem hasModule_opened (vm : Vm) (name : String) : (vm.openModule name).hasModule name := by
  unfold openModule
  split
  · assumption
  · change ((vm.modules.set name _).get? name).isSome
    rw [Table.get?_set_self]
    rfl

theorem openModule_depth (vm : Vm) (name : String) : (vm.openModule name).depth = vm.depth := by
  unfold openModule
  split <;> rfl

/-- An open module is not opened again. -/
theorem openModule_self {vm : Vm} {name : String} (known : vm.hasModule name) :
    vm.openModule name = vm := if_pos known

end Vm

variable {s : Split H} {g : Footing}

/-! ### Alike machines -/

namespace Split.Alike

variable {m n : Machine H} (h : s.Alike g m n)
include h

theorem onVm {f : Vm → Vm} {depth : Nat} (home : (f m.vm).hasModule g.home)
    (bound : (f m.vm).depth ≤ depth) :
    s.Alike { g with depth } (m.onVm f) (n.onVm f) :=
  ⟨h.heap, congrArg f h.vm, h.host, h.classes, home, bound⟩

theorem mapHeap {f : Heap → Heap} (moved : (f m.heap).Moved s.base g.classes (f n.heap))
    (grows : m.heap.classes.size ≤ (f m.heap).classes.size) :
    s.Alike g (m.mapHeap f) (n.mapHeap f) :=
  ⟨moved, h.vm, h.host, Nat.le_trans h.classes grows, h.home, h.depth⟩

/-- An object made in both machines has the same place. -/
theorem onHeap {f k : Heap → α × Heap}
    (moved : (k n.heap).1 = (f m.heap).1 ∧ (f m.heap).2.Moved s.base g.classes (k n.heap).2)
    (grows : m.heap.classes.size ≤ (f m.heap).2.classes.size) :
    (n.onHeap k).1 = (m.onHeap f).1 ∧ s.Alike g (m.onHeap f).2 (n.onHeap k).2 :=
  ⟨moved.1, moved.2, h.vm, h.host, Nat.le_trans h.classes grows, h.home, h.depth⟩

theorem onHost {x y : StateM H α} (told : s.Told x y) :
    (n.onHost y).1 = (m.onHost x).1 ∧ s.Alike g (m.onHost x).2 (n.onHost y).2 :=
  ⟨(told h.host).1, h.heap, h.vm, (told h.host).2, h.classes, h.home, h.depth⟩

theorem define (moduleName name : String) (v : Value) :
    s.Alike g (m.onVm (·.define moduleName name v)) (n.onVm (·.define moduleName name v)) :=
  h.onVm ((Vm.hasModule_define m.vm moduleName name v g.home).trans h.home) h.depth

theorem openModule (name : String) :
    s.Alike g (m.onVm (·.openModule name)) (n.onVm (·.openModule name)) :=
  h.onVm (Vm.hasModule_openModule h.home name)
    ((Vm.openModule_depth m.vm name).symm ▸ h.depth)

theorem classOf (v : Value) : n.classOf v = m.classOf v := by
  change n.vm.classOf n.heap v = m.vm.classOf m.heap v
  rw [h.vm]
  cases v with
  | object id => rw [Vm.classOf, Vm.classOf, h.heap.instance?]
  | foreign id => rw [Vm.classOf, Vm.classOf, h.heap.foreign?]
  | _ => rfl

theorem moduleOf (v : Value) : n.moduleOf v = m.moduleOf v := by
  rw [Machine.moduleOf, Machine.moduleOf, h.classOf, h.heap.ofClass fun _ _ => rfl]

/-- The method that is found is the same, unless it is one of moved code. -/
theorem method? (v : Value) (signature : String) :
    ∃ b, Landing s.base b ∧
      n.method? v signature = (m.method? v signature).map (Method.rebase b) := by
  -- A class has its own methods for the class and for its objects; all stand at one place.
  have found (id : ClassId) (table : ClassObject → MethodTable)
      (own : ∀ b c, table (ClassObject.rebase b c) = (table c).mapValues (Method.rebase b)) :
      ∃ b, Landing s.base b ∧ (n.heap.class? id).bind (fun c => (table c).get? signature) =
        ((m.heap.class? id).bind fun c => (table c).get? signature).map (Method.rebase b) := by
    obtain ⟨b, landing, -, there⟩ := h.heap.classes id
    refine ⟨b, landing, ?_⟩
    rw [there]
    cases m.heap.class? id with
    | none => rfl
    | some c =>
      change (table (c.rebase b)).get? signature = _
      rw [own, Table.get?_mapValues]
      rfl
  have ofObjects := found (m.classOf v) (·.methods) fun _ _ => rfl
  nth_rewrite 1 [← h.classOf] at ofObjects
  cases v with
  | classObject id => exact found id (·.statics) fun _ _ => rfl
  | _ => exact ofObjects

end Split.Alike

/-! ### The host's side -/

namespace Split

variable {P : α → β → Prop} {Q : γ → δ → Prop}

theorem Ended.imp {P' : α → β → Prop} {r : EStateM.Result Halt (Machine H) α}
    {t : EStateM.Result Halt (Machine H) β} (h : s.Ended g P r t)
    (hP : ∀ {a b}, P a b → P' a b) : s.Ended g P' r t := by
  cases h with
  | ok alike h => exact .ok alike (hP h)
  | halt alike => exact .halt alike

/-- Two steps in a row. During the first, other methods may be running. -/
theorem Ended.bind_from {d : Nat} {x : Live H α} {y : Live H β} {f : α → Live H γ}
    {k : β → Live H δ} {m n : Machine H} (h : s.Ended { g with depth := d } P (x m) (y n))
    (hf : ∀ {a b m n}, s.Alike { g with depth := d } m n → P a b → s.Ended g Q (f a m) (k b n)) :
    s.Ended g Q ((x >>= f) m) ((y >>= k) n) := by
  change s.Ended g Q (EStateM.bind x f m) (EStateM.bind y k n)
  unfold EStateM.bind
  revert h
  generalize x m = r, y n = t
  rintro (⟨alike, hab⟩ | alike)
  · exact hf alike hab
  · exact .halt alike

theorem Ended.bind {x : Live H α} {y : Live H β} {f : α → Live H γ} {k : β → Live H δ}
    {m n : Machine H} (h : s.Ended g P (x m) (y n))
    (hf : ∀ {a b m n}, s.Alike g m n → P a b → s.Ended g Q (f a m) (k b n)) :
    s.Ended g Q ((x >>= f) m) ((y >>= k) n) :=
  Ended.bind_from (d := g.depth) h hf

theorem Ended.map {x : Live H α} {y : Live H β} {f : α → γ} {f' : β → δ} {m n : Machine H}
    (h : s.Ended g P (x m) (y n)) (hf : ∀ {a b}, P a b → Q (f a) (f' b)) :
    s.Ended g Q ((f <$> x) m) ((f' <$> y) n) := by
  change s.Ended g Q (EStateM.map f x m) (EStateM.map f' y n)
  unfold EStateM.map
  revert h
  generalize x m = r, y n = t
  rintro (⟨alike, hab⟩ | alike)
  · exact .ok alike (hf hab)
  · exact .halt alike

namespace LiveAlike

protected theorem pure {a : α} {b : β} (h : P a b) : s.LiveAlike g P (Pure.pure a) (Pure.pure b) :=
  fun _ _ alike => .ok alike h

protected theorem bind {x : Live H α} {y : Live H β} {f : α → Live H γ} {f' : β → Live H δ}
    (h : s.LiveAlike g P x y) (hf : ∀ {a b}, P a b → s.LiveAlike g Q (f a) (f' b)) :
    s.LiveAlike g Q (x >>= f) (y >>= f') :=
  fun _ _ alike => (h alike).bind fun alike' hab => hf hab alike'

theorem get_bind {f f' : Machine H → Live H γ} {Q : γ → γ → Prop}
    (h : ∀ {m n}, s.Alike g m n → s.Ended g Q (f m m) (f' n n)) :
    s.LiveAlike g Q (get >>= f) (get >>= f') :=
  fun _ _ alike => h alike

theorem modify {f f' : Machine H → Machine H}
    (h : ∀ {m n}, s.Alike g m n → s.Alike g (f m) (f' n)) :
    s.LiveAlike g Eq (modify f) (modify f') :=
  fun _ _ alike => .ok (h alike) rfl

theorem modifyGet {f f' : Machine H → α × Machine H}
    (h : ∀ {m n}, s.Alike g m n → (f' n).1 = (f m).1 ∧ s.Alike g (f m).2 (f' n).2) :
    s.LiveAlike g Eq (modifyGet f) (modifyGet f') :=
  fun _ _ alike => .ok (h alike).2 (h alike).1.symm

end LiveAlike

/-! ### Runs of scripts -/

namespace RunAlike

protected theorem pure {a : α} {b : β} (h : P a b) : s.RunAlike g P (Pure.pure a) (Pure.pure b) :=
  fun _ _ alike => .ok alike (.ok h)

/-- A run from one pair of machines, and what follows it from all. -/
theorem bind_at {x : Run H α} {y : Run H β} {f : α → Run H γ} {f' : β → Run H δ} {m n : Machine H}
    (h : s.Ended g (s.Came P) (x.run m) (y.run n))
    (hf : ∀ {a b}, P a b → s.RunAlike g Q (f a) (f' b)) :
    s.Ended g (s.Came Q) ((x >>= f).run m) ((y >>= f').run n) := by
  refine h.bind (f := ExceptT.bindCont f) (k := ExceptT.bindCont f') ?_
  rintro _ _ m n alike (hab | moved)
  · exact hf hab alike
  · exact .ok alike (.fault moved)

protected theorem bind {x : Run H α} {y : Run H β} {f : α → Run H γ} {f' : β → Run H δ}
    (h : s.RunAlike g P x y) (hf : ∀ {a b}, P a b → s.RunAlike g Q (f a) (f' b)) :
    s.RunAlike g Q (x >>= f) (y >>= f') :=
  fun _ _ alike => bind_at (h alike) hf

theorem bind_eq {x y : Run H α} {f : α → Run H γ} {f' : α → Run H δ}
    (h : s.RunAlike g Eq x y) (hf : ∀ a, s.RunAlike g Q (f a) (f' a)) :
    s.RunAlike g Q (x >>= f) (y >>= f') :=
  h.bind fun {a _} same => same ▸ hf a

theorem get_bind {f f' : Machine H → Run H γ} {Q : γ → γ → Prop}
    (h : ∀ {m n}, s.Alike g m n → s.Ended g (s.Came Q) ((f m).run m) ((f' n).run n)) :
    s.RunAlike g Q (get >>= f) (get >>= f') :=
  fun _ _ alike => h alike

theorem modify {f f' : Machine H → Machine H}
    (h : ∀ {m n}, s.Alike g m n → s.Alike g (f m) (f' n)) :
    s.RunAlike g Eq (modify f) (modify f') :=
  fun _ _ alike => .ok (h alike) (.ok rfl)

theorem modifyGet {f f' : Machine H → α × Machine H}
    (h : ∀ {m n}, s.Alike g m n → (f' n).1 = (f m).1 ∧ s.Alike g (f m).2 (f' n).2) :
    s.RunAlike g Eq (modifyGet f) (modifyGet f') :=
  fun _ _ alike => .ok (h alike).2 (.ok (h alike).1.symm)

theorem fault (f : RuntimeFault) :
    s.RunAlike g P (ScriptHost.fault f : Run H α) (ScriptHost.fault f : Run H β) :=
  fun _ _ alike => .ok alike (.fault (.raised f))

theorem halt (h : Halt) : s.RunAlike g P (throwThe Halt h) (throwThe Halt h) :=
  fun _ _ alike => .halt (d := g.depth) alike

theorem lift {x : Live H α} {y : Live H β} (h : s.LiveAlike g P x y) :
    s.RunAlike g P (monadLift x) (monadLift y) := by
  intro m n alike
  exact (h alike).map .ok

end RunAlike

/-! ### Runs inside an activation -/

namespace ScriptAlike

variable {b : Position} {c : Frame} {known : Prop}

protected theorem pure {x : α} {y : β} (h : P x y) :
    s.ScriptAlike g b c known P (Pure.pure x) (Pure.pure y) :=
  fun _ _ _ _ frames alike => .ok alike (.ok frames h)

protected theorem bind {x : Script H α} {y : Script H β} {f : α → Script H γ}
    {f' : β → Script H δ} (h : s.ScriptAlike g b c known P x y)
    (hf : ∀ {a b'}, P a b' → s.ScriptAlike g b c known Q (f a) (f' b')) :
    s.ScriptAlike g b c known Q (x >>= f) (y >>= f') := by
  intro k l m n frames alike
  refine (h frames alike).bind (f := fun r => (ExceptT.bindCont f r.1).run r.2)
    (k := fun r => (ExceptT.bindCont f' r.1).run r.2) ?_
  rintro ⟨_, k⟩ ⟨_, l⟩ m n alike (⟨frames, hab⟩ | ⟨frames, moved⟩)
  · exact hf hab frames alike
  · exact .ok alike (.fault frames moved)

theorem bind_eq {x y : Script H α} {f : α → Script H γ} {f' : α → Script H δ}
    (h : s.ScriptAlike g b c known Eq x y) (hf : ∀ a, s.ScriptAlike g b c known Q (f a) (f' a)) :
    s.ScriptAlike g b c known Q (x >>= f) (y >>= f') :=
  h.bind fun {a _} same => same ▸ hf a

/-- A run that starts by looking at its activation. -/
theorem getFrame_bind {f f' : Frame → Script H γ} {Q : γ → γ → Prop}
    (h : ∀ {k l}, Frame.Moved b c known k l → s.ScriptAlike g b c known Q (f k) (f' l)) :
    s.ScriptAlike g b c known Q (getThe Frame >>= f) (getThe Frame >>= f') :=
  fun _ _ _ _ frames alike => h frames frames alike

theorem get_bind {f f' : Machine H → Script H γ} {Q : γ → γ → Prop}
    (h : ∀ {m n}, s.Alike g m n → s.ScriptAlike g b c known Q (f m) (f' n)) :
    s.ScriptAlike g b c known Q (getThe (Machine H) >>= f) (getThe (Machine H) >>= f') :=
  fun _ _ _ _ frames alike => h alike frames alike

theorem modifyFrame {f f' : Frame → Frame}
    (h : ∀ {k l}, Frame.Moved b c known k l → Frame.Moved b c known (f k) (f' l)) :
    s.ScriptAlike g b c known Eq (modifyThe Frame f) (modifyThe Frame f') :=
  fun _ _ _ _ frames alike => .ok alike (.ok (h frames) rfl)

theorem modify {f f' : Machine H → Machine H}
    (h : ∀ {m n}, s.Alike g m n → s.Alike g (f m) (f' n)) :
    s.ScriptAlike g b c known Eq (modifyThe (Machine H) f) (modifyThe (Machine H) f') :=
  fun _ _ _ _ frames alike => .ok (h alike) (.ok frames rfl)

theorem modifyGet {f f' : Machine H → α × Machine H}
    (h : ∀ {m n}, s.Alike g m n → (f' n).1 = (f m).1 ∧ s.Alike g (f m).2 (f' n).2) :
    s.ScriptAlike g b c known Eq (modifyGetThe (Machine H) f) (modifyGetThe (Machine H) f') :=
  fun _ _ _ _ frames alike => .ok (h alike).2 (.ok frames (h alike).1.symm)

theorem fault (f : RuntimeFault) :
    s.ScriptAlike g b c True P (ScriptHost.fault f : Script H α)
      (ScriptHost.fault f : Script H β) :=
  fun _ _ _ _ frames alike => .ok alike (.fault frames (.raised f))

theorem halt (h : Halt) : s.ScriptAlike g b c known P (throwThe Halt h) (throwThe Halt h) :=
  fun _ _ _ _ _ alike => .halt (d := g.depth) alike

theorem ofRun {x : Run H α} {y : Run H β} (h : s.RunAlike g P x y) :
    s.ScriptAlike g b c True P (Script.ofRun x) (Script.ofRun y) := by
  intro k l m n frames alike
  refine (h alike).bind (f := fun r => Pure.pure (r, k)) (k := fun r => Pure.pure (r, l)) ?_
  rintro _ _ m n alike (hab | moved)
  · exact .ok alike (.ok frames hab)
  · exact .ok alike (.fault frames moved)

theorem inScope {scope : Bindings} {x : Script H α} {y : Script H β}
    (h : s.ScriptAlike g b { c with scopes := scope :: c.scopes } known P x y) :
    s.ScriptAlike g b c known P (Script.inScope scope x) (Script.inScope scope y) := by
  intro k l m n frames alike
  have inner : Frame.Moved b { c with scopes := scope :: c.scopes } known
      { k with scopes := scope :: k.scopes } { l with scopes := scope :: l.scopes } :=
    ⟨frames.moduleName, frames.this, frames.function, congrArg (· + 1) frames.scopes,
      by rw [frames.same], frames.line⟩
  have outer {known : Prop} {k l : Frame}
      (frames : Frame.Moved b { c with scopes := scope :: c.scopes } known k l) :
      Frame.Moved b c known { k with scopes := k.scopes.tail }
        { l with scopes := l.scopes.tail } :=
    ⟨frames.moduleName, frames.this, frames.function,
      by rw [List.length_tail, frames.scopes]; rfl, by rw [frames.same], frames.line⟩
  refine (h inner alike).bind
    (f := fun r => Pure.pure (r.1, { r.2 with scopes := r.2.scopes.tail }))
    (k := fun r => Pure.pure (r.1, { r.2 with scopes := r.2.scopes.tail })) ?_
  rintro ⟨_, k⟩ ⟨_, l⟩ m n alike (⟨frames, hab⟩ | ⟨frames, moved⟩)
  · exact .ok alike (.ok (outer frames) hab)
  · exact .ok alike (.fault (outer frames) moved)

/-- A whole activation of code that landed at `b`. -/
theorem activate {k l : Frame} {x : Script H α} {y : Script H β} (landing : Landing s.base b)
    (frames : Frame.Moved b c known k l) (h : s.ScriptAlike g b c known P x y) :
    s.RunAlike g P (Script.activate k x) (Script.activate l y) := by
  intro m n alike
  rw [ScriptSim.activate_run, ScriptSim.activate_run]
  refine (h frames alike).bind ?_
  rintro ⟨_, k⟩ ⟨_, l⟩ m n alike (⟨frames, hab⟩ | ⟨frames, moved⟩)
  · exact .ok alike (.ok hab)
  · have entry : l.entry = k.entry.rebase b := by
      rw [Frame.entry, frames.line trivial, frames.same]
      rfl
    refine .ok alike (.fault ?_)
    rw [entry]
    exact moved.leave landing _

/-- A statement that has a line of its own is run from wherever the activation was. -/
theorem marked {t : Stmt} {line : Nat} (has : t.line? = some line) {x : Script H α}
    {y : Script H β} (h : s.ScriptAlike g b c True P x y) :
    s.ScriptAlike g b c known P (markLine t >>= fun _ => x)
      (markLine (t.rebase b) >>= fun _ => y) := by
  have has' : (t.rebase b).line? = some (b.line + line - 1) := by
    rw [Stmt.rebase_line?, has, Option.map_some]
  unfold markLine
  rw [has, has']
  intro k l m n frames alike
  have there : Frame.Moved b c True { k with line } { l with line := b.line + line - 1 } :=
    ⟨frames.moduleName, frames.this, frames.function, frames.scopes, by rw [frames.same],
      fun _ => rfl⟩
  refine (h there alike).imp ?_
  rintro _ _ (⟨frames, hab⟩ | ⟨frames, moved⟩)
  · exact .ok ⟨frames.moduleName, frames.this, frames.function, frames.scopes, frames.same,
      fun _ => frames.line trivial⟩ hab
  · exact .fault frames moved

end ScriptAlike
end Split
end ScriptHost
