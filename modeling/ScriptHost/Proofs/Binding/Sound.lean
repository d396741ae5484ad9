import Mathlib.Order.Basic
import ScriptHost.Proofs.Binding.Declaration

/-! Bindings that hold together. Every foreign method of a class leads to a routine and every
foreign class to a maker, both in the registration table; only classes of the entry module have
them. Every foreign object has a payload of the type of its class's maker. All of this outlasts
registrations, declarations, and the work of host functions. -/

namespace ScriptHost

/-! ### The registration table -/

namespace Registry

variable {r s : Registry} {f : HostFunction} {e e' : Entry}

/-- A host function stands for an entry of the table. -/
def Leads (r : Registry) (f : HostFunction) (e : Entry) : Prop :=
  ∃ point, f = .entry point ∧ r.find? point = some e

/-- `s` has all the entries of `r`, where they were. -/
instance : LE Registry := ⟨fun r s => ∀ point e, r.find? point = some e → s.find? point = some e⟩

instance : Preorder Registry where
  le_refl _ _ _ h := h
  le_trans _ _ _ hrs hst point e h := hst point e (hrs point e h)

theorem Leads.mono (h : r.Leads f e) (le : r ≤ s) : s.Leads f e := by
  obtain ⟨point, rfl, h⟩ := h
  exact ⟨point, rfl, le point e h⟩

theorem register_ok {point : Nat} (h : r.register e = .ok (point, s)) :
    r ≤ s ∧ s.Leads (.entry point) e ∧ s.entries = r.entries ++ [e] := by
  unfold register at h
  split at h
  · cases h
    refine ⟨?_, ⟨_, rfl, ?_⟩, rfl⟩
    · intro point e h
      obtain ⟨inside, _⟩ := List.getElem?_eq_some_iff.mp h
      exact (List.getElem?_append_left inside).trans h
    · simp [find?, registered]
  · cases h

/-- After a registration there is nothing but what was there and the new entry. -/
theorem find_of_register {point place : Nat} {e' : Entry} (h : r.register e = .ok (point, s))
    (found : s.find? place = some e') : (∃ place, r.find? place = some e') ∨ e' = e := by
  have entry := List.mem_of_getElem? found
  rw [(register_ok h).2.2, List.mem_append, List.mem_singleton] at entry
  exact entry.imp_left List.getElem?_of_mem

end Registry

/-- A maker whose payloads are of its host type. -/
def Maker.Typed (maker : Maker) : Prop := ∀ payload, maker.make = .ok payload →
  payload.type = maker.type

def Registry.Typed (r : Registry) : Prop :=
  ∀ point maker, r.find? point = some (.maker maker) → maker.Typed

theorem Registry.Typed.register {r s : Registry} {e : Entry} {point : Nat} (typed : r.Typed)
    (ofType : ∀ maker, e = .maker maker → maker.Typed) (h : r.register e = .ok (point, s)) :
    s.Typed := by
  intro place maker found
  have entry := List.mem_of_getElem? found
  rw [(register_ok h).2.2, List.mem_append, List.mem_singleton] at entry
  obtain before | new := entry
  · obtain ⟨place, found⟩ := List.getElem?_of_mem before
    exact typed place maker found
  · exact ofType maker new.symm

theorem Registry.Typed.of_le {r s : Registry} (typed : s.Typed) (le : r ≤ s) : r.Typed :=
  fun point maker h => typed point maker (le point _ h)

/-! ### Records and classes -/

variable {reg reg' : Registry}

/-- A binding that makes objects by a maker of the table, and has its host type. -/
def ForeignBinding.MadeBy (b : ForeignBinding) (reg : Registry) (maker : Maker) : Prop :=
  ∃ f, b = ⟨some f, true, some maker.type⟩ ∧ reg.Leads f (.maker maker)

/-- The names registered for a machine lead to entries of the right sort. -/
structure VmRecord.Sound (reg : Registry) (record : VmRecord) : Prop where
  methods : ∀ {key f}, record.methods.get? key = some f → ∃ r, reg.Leads f (.routine r)
  classes : ∀ {name b}, record.classes.get? name = some b → ∃ maker, b.MadeBy reg maker

/-- The foreign members of a class lead to entries of the right sort, and only a class of the entry
module has any. -/
structure ClassObject.Sound (reg : Registry) (c : ClassObject) : Prop where
  member : ∀ {onClass signature f}, (c.table onClass).get? signature = some (.foreign f) →
    c.moduleName = entryModule ∧ ∃ r, reg.Leads f (.routine r)
  foreign : c.isForeign → c.moduleName = entryModule ∧ ∃ maker, c.binding.MadeBy reg maker
  plain : ¬c.isForeign → c.binding = .none

theorem ForeignBinding.MadeBy.mono {b : ForeignBinding} {maker : Maker}
    (h : b.MadeBy reg maker) (le : reg ≤ reg') : b.MadeBy reg' maker := by
  obtain ⟨f, rfl, leads⟩ := h
  exact ⟨f, rfl, leads.mono le⟩

theorem VmRecord.Sound.mono {record : VmRecord} (h : record.Sound reg) (le : reg ≤ reg') :
    record.Sound reg' where
  methods found := by
    obtain ⟨r, leads⟩ := h.methods found
    exact ⟨r, leads.mono le⟩
  classes found := by
    obtain ⟨maker, made⟩ := h.classes found
    exact ⟨maker, made.mono le⟩

theorem ClassObject.Sound.mono {c : ClassObject} (h : c.Sound reg) (le : reg ≤ reg') :
    c.Sound reg' where
  member found := by
    obtain ⟨entry, r, leads⟩ := h.member found
    exact ⟨entry, r, leads.mono le⟩
  foreign isForeign := by
    obtain ⟨entry, maker, made⟩ := h.foreign isForeign
    exact ⟨entry, maker, made.mono le⟩
  plain := h.plain

theorem ClassObject.Sound.allocate {c : ClassObject} (h : c.Sound reg) {f : HostFunction}
    (hf : c.binding.allocate = some f) :
    c.isForeign ∧ ∃ maker, c.binding.MadeBy reg maker ∧ reg.Leads f (.maker maker) := by
  have foreign : c.isForeign := by
    by_contra plain
    rw [h.plain plain] at hf
    cases hf
  obtain ⟨-, maker, g, binding, leads⟩ := h.foreign foreign
  obtain rfl : g = f := by
    rw [binding] at hf
    exact Option.some.inj hf
  exact ⟨foreign, maker, ⟨g, binding, leads⟩, leads⟩

/-- A foreign class has a finalizer. -/
theorem ClassObject.Sound.finalize {c : ClassObject} (h : c.Sound reg) (foreign : c.isForeign) :
    c.binding.finalize := by
  obtain ⟨-, maker, f, binding, -⟩ := h.foreign foreign
  rw [binding]

namespace VmRecord

variable {record : VmRecord} {moduleName className : String}

theorem method_foreign {decl : MethodDecl} {f : HostFunction}
    (h : record.method moduleName className decl = .ok (.foreign f)) :
    decl.isForeign ∧ moduleName = entryModule ∧
      record.methods.get? (decl.key className) = some f := by
  unfold method at h
  split at h
  · split at h
    · cases found : record.methods.get? (decl.key className) with
      | none =>
        rw [found] at h
        cases h
      | some g =>
        rw [found] at h
        cases h
        exact ⟨‹_›, ‹_›, rfl⟩
    · cases h
  · split at h <;> cases h

theorem classBinding_ok {decl : ClassDecl} {binding : ForeignBinding}
    (h : record.classBinding moduleName decl = .ok binding) :
    (decl.isForeign → moduleName = entryModule ∧ record.classes.get? decl.name = some binding) ∧
      (¬decl.isForeign → binding = .none) := by
  unfold classBinding at h
  split at h
  · split at h
    · cases found : record.classes.get? decl.name with
      | none =>
        rw [found] at h
        cases h
      | some b =>
        rw [found] at h
        dsimp only at h
        split at h
        · cases h
        · cases h
          exact ⟨fun _ => ⟨‹_›, rfl⟩, fun plain => absurd ‹_› plain⟩
    · cases h
  · cases h
    exact ⟨fun foreign => absurd foreign ‹_›, fun _ => rfl⟩

theorem declared_ok {decl : ClassDecl} {c : ClassObject}
    (h : record.declared moduleName decl = .ok c) :
    c.name = decl.name ∧ c.moduleName = moduleName ∧ c.isForeign = decl.isForeign ∧
      record.classBinding moduleName decl = .ok c.binding ∧
      ∀ onClass signature,
        match decl.member? onClass signature with
        | some d => ∃ method, record.method moduleName decl.name d = .ok method ∧
            (c.table onClass).get? signature = some method
        | none => (c.table onClass).get? signature = none := by
  unfold declared at h
  cases hb : record.classBinding moduleName decl with
  | error refusal =>
    rw [hb] at h
    cases refusal <;> cases h
  | ok binding =>
    rw [hb] at h
    dsimp only at h
    cases hc : record.bound ⟨decl.name, moduleName, decl.isForeign, [], [], binding⟩ decl.methods
      with
    | error refused =>
      rw [hc] at h
      cases h
    | ok c' =>
      rw [hc] at h
      cases h
      obtain ⟨name, moduleName', isForeign, binding'⟩ := bound_rest hc
      refine ⟨name, moduleName', isForeign, congrArg _ binding'.symm, fun onClass signature => ?_⟩
      have stands := bound_table hc onClass signature
      unfold ClassDecl.member?
      cases onClass <;> exact stands

/-- A class that a declaration makes is bound as the record says. -/
theorem declared_sound (sound : record.Sound reg) {decl : ClassDecl} {c : ClassObject}
    (h : record.declared moduleName decl = .ok c) : c.Sound reg := by
  obtain ⟨name, moduleName', isForeign, binding, members⟩ := declared_ok h
  obtain ⟨foreign, plain⟩ := classBinding_ok binding
  rw [← isForeign] at foreign plain
  refine ⟨fun {onClass signature f} found => ?_, fun h => ?_, plain⟩
  · have stands := members onClass signature
    cases hd : decl.member? onClass signature with
    | none =>
      rw [hd, found] at stands
      cases stands
    | some d =>
      rw [hd] at stands
      obtain ⟨method, bound, entered⟩ := stands
      rw [found] at entered
      cases entered
      obtain ⟨-, entry, registered⟩ := method_foreign bound
      exact ⟨moduleName'.trans entry, sound.methods registered⟩
  · obtain ⟨entry, registered⟩ := foreign h
    exact ⟨moduleName'.trans entry, sound.classes registered⟩

end VmRecord

/-! ### The heap -/

namespace Heap

/-- Classes are sound, and every foreign object carries what the maker of its class makes. -/
structure Sound (reg : Registry) (h : Heap) : Prop where
  classes : ∀ {id c}, h.class? id = some c → c.Sound reg
  objects : ∀ {id o}, h.foreign? id = some o → ∃ c maker, h.class? o.classId = some c ∧
    c.isForeign ∧ c.binding.MadeBy reg maker ∧ (reg.Typed → o.payload.type = maker.type)

/-- `h'` has the classes of `h` as they were, and its foreign objects with their class and type. -/
structure KeptIn (h h' : Heap) : Prop where
  classes : ∀ {id c}, h.class? id = some c → h'.class? id = some c
  objects : ∀ {id o}, h.foreign? id = some o → ∃ o', h'.foreign? id = some o' ∧
    o'.classId = o.classId ∧ o'.payload.type = o.payload.type

variable {h h' h'' : Heap}

@[refl]
theorem KeptIn.refl (h : Heap) : h.KeptIn h := ⟨id, fun found => ⟨_, found, rfl, rfl⟩⟩

theorem KeptIn.trans (first : h.KeptIn h') (second : h'.KeptIn h'') : h.KeptIn h'' where
  classes found := second.classes (first.classes found)
  objects found := by
    obtain ⟨o', found', classId, type⟩ := first.objects found
    obtain ⟨o'', found'', classId', type'⟩ := second.objects found'
    exact ⟨o'', found'', classId'.trans classId, type'.trans type⟩

theorem Sound.mono (sound : h.Sound reg) (le : reg ≤ reg') : h.Sound reg' where
  classes found := (sound.classes found).mono le
  objects found := by
    obtain ⟨c, maker, hc, foreign, made, typed⟩ := sound.objects found
    exact ⟨c, maker, hc, foreign, made.mono le, fun t => typed (t.of_le le)⟩

theorem Sound.of_eq (sound : h.Sound reg) (classes : h'.classes = h.classes)
    (foreigns : h'.foreigns = h.foreigns) : h'.Sound reg where
  classes {id c} found := by
    unfold Heap.class? at found
    rw [classes] at found
    exact sound.classes found
  objects {id o} found := by
    unfold Heap.foreign? at found
    unfold Heap.class?
    rw [foreigns] at found
    rw [classes]
    exact sound.objects found

theorem KeptIn.of_eq (classes : h'.classes = h.classes) (foreigns : h'.foreigns = h.foreigns) :
    h.KeptIn h' where
  classes {id c} found := by
    unfold Heap.class?
    rw [classes]
    exact found
  objects {id o} found := by
    unfold Heap.foreign?
    rw [foreigns]
    exact ⟨o, found, rfl, rfl⟩

theorem class?_addClass (h : Heap) (c : ClassObject) (id : ClassId) :
    (h.addClass c).2.class? id = if id = h.classes.size then some c else h.class? id := by
  unfold class? addClass
  rw [Array.getElem?_push]

theorem class?_lt {id : ClassId} {c : ClassObject} (found : h.class? id = some c) :
    id < h.classes.size := (Array.getElem?_eq_some_iff.mp found).1

theorem foreign?_lt {id : ForeignId} {o : ForeignObject} (found : h.foreign? id = some o) :
    id < h.foreigns.size := (Array.getElem?_eq_some_iff.mp found).1

theorem keptIn_addClass (h : Heap) (c : ClassObject) : h.KeptIn (h.addClass c).2 where
  classes found := by
    rw [class?_addClass, if_neg (Nat.ne_of_lt (class?_lt found))]
    exact found
  objects found := ⟨_, found, rfl, rfl⟩

theorem Sound.addClass (sound : h.Sound reg) {c : ClassObject} (hc : c.Sound reg) :
    (h.addClass c).2.Sound reg where
  classes {id d} found := by
    rw [class?_addClass] at found
    split at found
    · cases found
      exact hc
    · exact sound.classes found
  objects found := by
    obtain ⟨d, maker, hd, rest⟩ := sound.objects found
    exact ⟨d, maker, (keptIn_addClass h c).classes hd, rest⟩

theorem foreign?_addForeign (h : Heap) (classId : ClassId) (payload : Payload) (id : ForeignId) :
    (h.addForeign classId payload).2.foreign? id =
      if id = h.foreigns.size then some ⟨classId, payload⟩ else h.foreign? id := by
  unfold foreign? addForeign
  rw [Array.getElem?_push]

theorem keptIn_addForeign (h : Heap) (classId : ClassId) (payload : Payload) :
    h.KeptIn (h.addForeign classId payload).2 where
  classes found := found
  objects {id o} found := by
    refine ⟨o, ?_, rfl, rfl⟩
    rw [foreign?_addForeign, if_neg (Nat.ne_of_lt (foreign?_lt found))]
    exact found

theorem Sound.addForeign (sound : h.Sound reg) {classId : ClassId} {c : ClassObject}
    {maker : Maker} {payload : Payload} (hc : h.class? classId = some c) (foreign : c.isForeign)
    (made : c.binding.MadeBy reg maker) (typed : reg.Typed → payload.type = maker.type) :
    (h.addForeign classId payload).2.Sound reg where
  classes found := sound.classes found
  objects {id o} found := by
    rw [foreign?_addForeign] at found
    split at found
    · cases found
      exact ⟨c, maker, hc, foreign, made, typed⟩
    · exact sound.objects found

theorem foreign?_setPayload (h : Heap) (target : ForeignId) (payload : Payload) (id : ForeignId) :
    (h.setPayload target payload).foreign? id = (h.foreign? id).map fun o =>
      if id = target ∧ o.payload.type = payload.type then { o with payload } else o := by
  unfold foreign? setPayload
  rw [Array.getElem?_modify]
  by_cases same : target = id
  · subst same
    rw [if_pos rfl]
    simp
  · rw [if_neg same]
    cases h.foreigns[id]? with
    | none => rfl
    | some o => simp [Ne.symm same]

theorem keptIn_setPayload (h : Heap) (target : ForeignId) (payload : Payload) :
    h.KeptIn (h.setPayload target payload) where
  classes found := found
  objects {id o} found := by
    rw [foreign?_setPayload, found]
    refine ⟨_, rfl, ?_⟩
    dsimp only
    split
    · rename_i same
      exact ⟨rfl, same.2.symm⟩
    · exact ⟨rfl, rfl⟩

theorem Sound.setPayload (sound : h.Sound reg) (target : ForeignId) (payload : Payload) :
    (h.setPayload target payload).Sound reg where
  classes found := sound.classes found
  objects {id o} found := by
    rw [foreign?_setPayload] at found
    obtain ⟨o', found', same⟩ := Option.map_eq_some_iff.mp found
    obtain ⟨c, maker, hc, foreign, made, typed⟩ := sound.objects found'
    split at same
    · rename_i overwritten
      cases same
      exact ⟨c, maker, hc, foreign, made, fun t => overwritten.2.symm.trans (typed t)⟩
    · cases same
      exact ⟨c, maker, hc, foreign, made, typed⟩

theorem keptIn_setPayloads (h : Heap) (writes : List (ForeignId × Payload)) :
    h.KeptIn (h.setPayloads writes) := by
  induction writes generalizing h with
  | nil => exact .refl h
  | cons write rest ih => exact (keptIn_setPayload h write.1 write.2).trans (ih _)

theorem Sound.setPayloads (sound : h.Sound reg) (writes : List (ForeignId × Payload)) :
    (h.setPayloads writes).Sound reg := by
  induction writes generalizing h with
  | nil => exact sound
  | cons write rest ih => exact ih (sound.setPayload write.1 write.2)

end Heap
end ScriptHost
