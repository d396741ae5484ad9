import ScriptHost.Machine.Window
import ScriptHost.Proofs.Binding.Dispatch
import ScriptHost.Proofs.Isolation.Matching

/-! Heaps of two processes. The objects of a machine stand in other places of the heap in another
process; a renaming pairs the places, and paired places hold alike objects. In the process that has
other machines beside it, what is outside of the pairs belongs to them: it stays as it was, and new
pairs are of new places only. -/

namespace ScriptHost

/-! ### Stores -/

def addPlaces (R : Nat → Nat → Prop) (a b : Nat) : Nat → Nat → Prop :=
  fun x y => R x y ∨ x = a ∧ y = b

namespace Store

variable {α β : Type} {R R₀ : Nat → Nat → Prop} {S T : α → β → Prop} {xs start : Array α}
  {ys : Array β} {a b : Nat} {x : α} {y : β}

/-- Paired places hold related contents, and no place is in two pairs. -/
structure Alike (R : Nat → Nat → Prop) (S : α → β → Prop) (xs : Array α) (ys : Array β) : Prop where
  one : ∀ {a b c d}, R a b → R c d → (a = c ↔ b = d)
  there : ∀ {a b}, R a b → ∃ x y, xs[a]? = some x ∧ ys[b]? = some y ∧ S x y

/-- A store grown from one that had the pairs `R₀`. -/
structure Grown (R₀ : Nat → Nat → Prop) (start : Array α) (R : Nat → Nat → Prop) (xs : Array α) :
    Prop where
  size : start.size ≤ xs.size
  fresh : ∀ {a b}, R a b → R₀ a b ∨ start.size ≤ a
  spared : ∀ {a}, a < start.size → (∀ b, ¬R₀ a b) → xs[a]? = start[a]?

theorem Alike.lt (h : Alike R S xs ys) (ab : R a b) : a < xs.size ∧ b < ys.size := by
  obtain ⟨x, y, hx, hy, -⟩ := h.there ab
  exact ⟨(Array.getElem?_eq_some_iff.mp hx).1, (Array.getElem?_eq_some_iff.mp hy).1⟩

theorem Alike.imp (h : Alike R S xs ys) (le : ∀ {x y}, S x y → T x y) : Alike R T xs ys where
  one := h.one
  there ab := by
    obtain ⟨x, y, hx, hy, hxy⟩ := h.there ab
    exact ⟨x, y, hx, hy, le hxy⟩

theorem Alike.push (h : Alike R S xs ys) (hxy : S x y) :
    Alike (addPlaces R xs.size ys.size) S (xs.push x) (ys.push y) where
  one := by
    rintro a b c d (ab | ⟨rfl, rfl⟩) (cd | ⟨rfl, rfl⟩)
    · exact h.one ab cd
    · obtain ⟨ha, hb⟩ := h.lt ab
      omega
    · obtain ⟨hc, hd⟩ := h.lt cd
      omega
    · exact iff_of_true rfl rfl
  there := by
    rintro a b (ab | ⟨rfl, rfl⟩)
    · obtain ⟨ha, hb⟩ := h.lt ab
      obtain ⟨x', y', hx, hy, rel⟩ := h.there ab
      refine ⟨x', y', ?_, ?_, rel⟩
      · rw [Array.getElem?_push, if_neg (Nat.ne_of_lt ha)]
        exact hx
      · rw [Array.getElem?_push, if_neg (Nat.ne_of_lt hb)]
        exact hy
    · exact ⟨x, y, Array.getElem?_push_size, Array.getElem?_push_size, hxy⟩

theorem Alike.modify (h : Alike R S xs ys) (ab : R a b) {f : α → α} {g : β → β}
    (hfg : ∀ {x y}, S x y → S (f x) (g y)) : Alike R S (xs.modify a f) (ys.modify b g) where
  one := h.one
  there {c d} cd := by
    obtain ⟨x, y, hx, hy, hxy⟩ := h.there cd
    rw [Array.getElem?_modify, Array.getElem?_modify, hx, hy]
    by_cases same : a = c
    · rw [if_pos same, if_pos ((h.one ab cd).mp same)]
      exact ⟨_, _, rfl, rfl, hfg hxy⟩
    · rw [if_neg same, if_neg fun same' => same ((h.one ab cd).mpr same')]
      exact ⟨x, y, rfl, rfl, hxy⟩

theorem Grown.refl (R : Nat → Nat → Prop) (xs : Array α) : Grown R xs R xs :=
  ⟨Nat.le_refl _, .inl, fun _ _ => rfl⟩

theorem Grown.trans {T : Nat → Nat → Prop} {zs : Array α} (first : Grown R₀ start R xs)
    (second : Grown R xs T zs) : Grown R₀ start T zs where
  size := Nat.le_trans first.size second.size
  fresh ab := by
    obtain old | late := second.fresh ab
    · exact first.fresh old
    · exact .inr (Nat.le_trans first.size late)
  spared {a} below free := by
    rw [second.spared (Nat.lt_of_lt_of_le below first.size) fun b paired => ?_]
    · exact first.spared below free
    · obtain old | late := first.fresh paired
      · exact free b old
      · omega

theorem Grown.push (h : Grown R₀ start R xs) (b : Nat) (x : α) :
    Grown R₀ start (addPlaces R xs.size b) (xs.push x) where
  size := by
    rw [Array.size_push]
    exact Nat.le_succ_of_le h.size
  fresh := by
    rintro a c (ac | ⟨rfl, rfl⟩)
    · exact h.fresh ac
    · exact .inr h.size
  spared below free := by
    rw [Array.getElem?_push, if_neg (Nat.ne_of_lt (Nat.lt_of_lt_of_le below h.size))]
    exact h.spared below free

theorem Grown.modify (h : Grown R₀ start R xs) (ab : R a b) (f : α → α) :
    Grown R₀ start R (xs.modify a f) where
  size := by
    rw [Array.size_modify]
    exact h.size
  fresh := h.fresh
  spared {c} below free := by
    have other : a ≠ c := by
      rintro rfl
      obtain paired | late := h.fresh ab
      · exact free b paired
      · omega
    rw [Array.getElem?_modify, if_neg other]
    exact h.spared below free

/-- New pairs are of new places, and so in none of the pairs of another machine. -/
theorem Alike.apart (h : Alike R S start ys) (grown : Grown R₀ start R' xs)
    (apart : ∀ {a b c}, R a b → ¬R₀ a c) {c : Nat} (own : R a b) (new : R' a c) : False := by
  obtain old | late := grown.fresh new
  · exact apart own old
  · exact absurd (h.lt own).1 (Nat.not_lt.mpr late)

/-- What stands outside of the pairs of another machine is there for it as before. -/
theorem Alike.spared (h : Alike R S start ys) (grown : Grown R₀ start R' xs)
    (apart : ∀ {a b c}, R a b → ¬R₀ a c) : Alike R S xs ys where
  one := h.one
  there ab := by
    obtain ⟨x, y, hx, hy, hxy⟩ := h.there ab
    refine ⟨x, y, ?_, hy, hxy⟩
    rw [grown.spared (h.lt ab).1 fun c => apart ab]
    exact hx

end Store

/-! ### Heaps -/

variable {r s r' s' : Registry} {ρ σ ρ₀ : Renaming} {h k start : Heap}

structure Instance.Alike (ρ : Renaming) (i j : Instance) : Prop where
  classId : ρ.classes i.classId j.classId
  fields : Bindings.Alike ρ i.fields j.fields

structure ForeignObject.Alike (ρ : Renaming) (o p : ForeignObject) : Prop where
  classId : ρ.classes o.classId p.classId
  payload : o.payload = p.payload

/-- Heaps whose paired objects differ by the renaming and by entry points alone. -/
structure Heap.Alike (r s : Registry) (ρ : Renaming) (h k : Heap) : Prop where
  lists : Store.Alike ρ.lists (fun xs ys => Value.AllAlike ρ xs.toList ys.toList) h.lists k.lists
  classes : Store.Alike ρ.classes (ClassObject.Matches r s) h.classes k.classes
  instances : Store.Alike ρ.instances (Instance.Alike ρ) h.instances k.instances
  foreigns : Store.Alike ρ.foreigns (ForeignObject.Alike ρ) h.foreigns k.foreigns

/-- A heap grown from one that had the pairs `ρ₀`. -/
structure Heap.Grown (ρ₀ : Renaming) (start : Heap) (ρ : Renaming) (h : Heap) : Prop where
  lists : Store.Grown ρ₀.lists start.lists ρ.lists h.lists
  classes : Store.Grown ρ₀.classes start.classes ρ.classes h.classes
  instances : Store.Grown ρ₀.instances start.instances ρ.instances h.instances
  foreigns : Store.Grown ρ₀.foreigns start.foreigns ρ.foreigns h.foreigns

theorem Instance.Alike.mono {i j : Instance} (hij : i.Alike ρ j) (le : ρ ≤ σ) : i.Alike σ j :=
  ⟨le.classes hij.classId, hij.fields.mono le⟩

theorem ForeignObject.Alike.mono {o p : ForeignObject} (hop : o.Alike ρ p) (le : ρ ≤ σ) :
    o.Alike σ p := ⟨le.classes hop.classId, hop.payload⟩

namespace Renaming

def addList (ρ : Renaming) (a b : ListId) : Renaming :=
  { ρ with lists := addPlaces ρ.lists a b }

def addClass (ρ : Renaming) (a b : ClassId) : Renaming :=
  { ρ with classes := addPlaces ρ.classes a b }

def addInstance (ρ : Renaming) (a b : InstanceId) : Renaming :=
  { ρ with instances := addPlaces ρ.instances a b }

def addForeign (ρ : Renaming) (a b : ForeignId) : Renaming :=
  { ρ with foreigns := addPlaces ρ.foreigns a b }

theorem le_addList (ρ : Renaming) (a b : ListId) : ρ ≤ ρ.addList a b := ⟨.inl, id, id, id⟩

theorem le_addClass (ρ : Renaming) (a b : ClassId) : ρ ≤ ρ.addClass a b := ⟨id, .inl, id, id⟩

theorem le_addInstance (ρ : Renaming) (a b : InstanceId) : ρ ≤ ρ.addInstance a b :=
  ⟨id, id, .inl, id⟩

theorem le_addForeign (ρ : Renaming) (a b : ForeignId) : ρ ≤ ρ.addForeign a b :=
  ⟨id, id, id, .inl⟩

def empty : Renaming where
  lists _ _ := False
  classes _ _ := False
  instances _ _ := False
  foreigns _ _ := False

/-- No object of the first process is in a pair of both renamings. -/
structure Apart (ρ σ : Renaming) : Prop where
  lists : ∀ {a b c}, ρ.lists a b → ¬σ.lists a c
  classes : ∀ {a b c}, ρ.classes a b → ¬σ.classes a c
  instances : ∀ {a b c}, ρ.instances a b → ¬σ.instances a c
  foreigns : ∀ {a b c}, ρ.foreigns a b → ¬σ.foreigns a c

theorem Apart.symm (apart : ρ.Apart σ) : σ.Apart ρ :=
  ⟨fun ha hb => apart.lists hb ha, fun ha hb => apart.classes hb ha,
    fun ha hb => apart.instances hb ha, fun ha hb => apart.foreigns hb ha⟩

end Renaming

namespace Heap

theorem Alike.oneToOne (hk : h.Alike r s ρ k) : ρ.OneToOne :=
  ⟨hk.lists.one, hk.classes.one, hk.instances.one, hk.foreigns.one⟩

theorem Alike.empty (r s : Registry) (h k : Heap) : h.Alike r s .empty k :=
  ⟨⟨False.elim, False.elim⟩, ⟨False.elim, False.elim⟩, ⟨False.elim, False.elim⟩,
    ⟨False.elim, False.elim⟩⟩

theorem Alike.tables (hk : h.Alike r s ρ k) (le : r ≤ r') (le' : s ≤ s') : h.Alike r' s' ρ k :=
  ⟨hk.lists, hk.classes.imp fun hcd => hcd.mono le le', hk.instances, hk.foreigns⟩

/-- What another machine does to the heap leaves the pairs of this one as they are. -/
theorem Alike.spared (hk : start.Alike r s ρ k) (grown : Heap.Grown ρ₀ start σ h)
    (apart : ρ.Apart ρ₀) : h.Alike r s ρ k :=
  ⟨hk.lists.spared grown.lists apart.lists, hk.classes.spared grown.classes apart.classes,
    hk.instances.spared grown.instances apart.instances,
    hk.foreigns.spared grown.foreigns apart.foreigns⟩

theorem Alike.apart (hk : start.Alike r s ρ k) (grown : Heap.Grown ρ₀ start σ h)
    (apart : ρ.Apart ρ₀) : ρ.Apart σ :=
  ⟨hk.lists.apart grown.lists apart.lists, hk.classes.apart grown.classes apart.classes,
    hk.instances.apart grown.instances apart.instances,
    hk.foreigns.apart grown.foreigns apart.foreigns⟩

/-! ### Reading -/

theorem Alike.list (hk : h.Alike r s ρ k) {a b : ListId} (ab : ρ.lists a b) :
    Value.AllAlike ρ (h.list a).toList (k.list b).toList := by
  obtain ⟨xs, ys, hx, hy, alike⟩ := hk.lists.there ab
  unfold Heap.list
  rw [hx, hy]
  exact alike

theorem Alike.class? (hk : h.Alike r s ρ k) {a b : ClassId} (ab : ρ.classes a b) :
    ∃ c d, h.class? a = some c ∧ k.class? b = some d ∧ c.Matches r s d := hk.classes.there ab

theorem Alike.className (hk : h.Alike r s ρ k) {a b : ClassId} (ab : ρ.classes a b) :
    h.className a = k.className b := by
  obtain ⟨c, d, hc, hd, hcd⟩ := hk.class? ab
  unfold Heap.className
  rw [hc, hd]
  exact hcd.name

theorem Alike.field (hk : h.Alike r s ρ k) {a b : InstanceId} (ab : ρ.instances a b)
    (name : String) : (h.field a name).Alike ρ (k.field b name) := by
  obtain ⟨i, j, hi, hj, hij⟩ := hk.instances.there ab
  unfold Heap.field Heap.instance?
  rw [hi, hj]
  exact optionRel_getD (hij.fields.get? name) .null

theorem Alike.foreignRef (hk : h.Alike r s ρ k) {a b : ForeignId} (ab : ρ.foreigns a b) :
    ∃ className hostType, h.foreignRef a = ⟨a, className, hostType⟩ ∧
      k.foreignRef b = ⟨b, className, hostType⟩ := by
  obtain ⟨o, p, ho, hp, hop⟩ := hk.foreigns.there ab
  obtain ⟨c, d, hc, hd, hcd⟩ := hk.class? hop.classId
  have left : h.foreignClass? a = some c := by
    unfold Heap.foreignClass? Heap.foreign?
    rw [ho]
    exact hc
  have right : k.foreignClass? b = some d := by
    unfold Heap.foreignClass? Heap.foreign?
    rw [hp]
    exact hd
  unfold Heap.foreignRef
  rw [left, right]
  refine ⟨c.name, c.binding.hostType, rfl, ?_⟩
  rw [hcd.name, hcd.binding.hostType]

theorem Alike.describe (hk : h.Alike r s ρ k) {v w : Value} (hv : v.Alike ρ w)
    (notList : ∀ id, v ≠ .list id) : h.describe v = k.describe w := by
  cases hv with
  | list _ => exact absurd rfl (notList _)
  | @object a b ab =>
    obtain ⟨i, j, hi, hj, hij⟩ := hk.instances.there ab
    have same : h.instanceClassName a = k.instanceClassName b := by
      unfold Heap.instanceClassName Heap.instance?
      rw [hi, hj]
      exact hk.className hij.classId
    simp only [Heap.describe, Heap.display, Heap.displayUpTo, same]
  | @foreign a b ab =>
    obtain ⟨o, p, ho, hp, hop⟩ := hk.foreigns.there ab
    obtain ⟨c, d, hc, hd, hcd⟩ := hk.class? hop.classId
    have same : h.foreignClassName a = k.foreignClassName b := by
      unfold Heap.foreignClassName Heap.foreignClass? Heap.foreign?
      rw [ho, hp, Option.bind_some, Option.bind_some, hc, hd]
      exact hcd.name
    simp only [Heap.describe, same]
  | classObject ab => simp only [Heap.describe, Heap.display, Heap.displayUpTo, hk.className ab]
  | _ => simp only [Heap.describe, Heap.display, Heap.displayUpTo]

/-! ### Writing -/

theorem Alike.addList (hk : h.Alike r s ρ k) {vs ws : List Value} (hvs : Value.AllAlike ρ vs ws) :
    Heap.Alike r s (ρ.addList h.lists.size k.lists.size) (h.addList vs.toArray).2
      (k.addList ws.toArray).2 := by
  have le := ρ.le_addList h.lists.size k.lists.size
  refine ⟨?_, hk.classes, hk.instances.imp fun hij => hij.mono le,
    hk.foreigns.imp fun hop => hop.mono le⟩
  exact (hk.lists.imp fun hxy => Value.AllAlike.mono hxy le).push (hvs.mono le)

theorem Alike.addClass (hk : h.Alike r s ρ k) {c d : ClassObject} (hcd : c.Matches r s d) :
    Heap.Alike r s (ρ.addClass h.classes.size k.classes.size) (h.addClass c).2
      (k.addClass d).2 := by
  have le := ρ.le_addClass h.classes.size k.classes.size
  exact ⟨hk.lists.imp fun hxy => Value.AllAlike.mono hxy le, hk.classes.push hcd,
    hk.instances.imp fun hij => hij.mono le, hk.foreigns.imp fun hop => hop.mono le⟩

theorem Alike.addInstance (hk : h.Alike r s ρ k) {a b : ClassId} (ab : ρ.classes a b) :
    Heap.Alike r s (ρ.addInstance h.instances.size k.instances.size) (h.addInstance a).2
      (k.addInstance b).2 := by
  have le := ρ.le_addInstance h.instances.size k.instances.size
  refine ⟨hk.lists.imp fun hxy => Value.AllAlike.mono hxy le, hk.classes, ?_,
    hk.foreigns.imp fun hop => hop.mono le⟩
  exact (hk.instances.imp fun hij => hij.mono le).push ⟨ab, .nil⟩

theorem Alike.addForeign (hk : h.Alike r s ρ k) {a b : ClassId} (ab : ρ.classes a b)
    (payload : Payload) :
    Heap.Alike r s (ρ.addForeign h.foreigns.size k.foreigns.size) (h.addForeign a payload).2
      (k.addForeign b payload).2 := by
  have le := ρ.le_addForeign h.foreigns.size k.foreigns.size
  refine ⟨hk.lists.imp fun hxy => Value.AllAlike.mono hxy le, hk.classes,
    hk.instances.imp fun hij => hij.mono le, ?_⟩
  exact (hk.foreigns.imp fun hop => hop.mono le).push ⟨ab, rfl⟩

theorem Alike.append (hk : h.Alike r s ρ k) {a b : ListId} (ab : ρ.lists a b) {v w : Value}
    (hv : v.Alike ρ w) : (h.append a v).Alike r s ρ (k.append b w) := by
  have pushed := hk.lists.modify ab (f := (·.push v)) (g := (·.push w)) fun {xs ys} hxy => by
    rw [Array.toList_push, Array.toList_push]
    exact List.rel_append hxy (.cons hv .nil)
  exact ⟨pushed, hk.classes, hk.instances, hk.foreigns⟩

theorem Alike.setField (hk : h.Alike r s ρ k) {a b : InstanceId} (ab : ρ.instances a b)
    (name : String) {v w : Value} (hv : v.Alike ρ w) :
    (h.setField a name v).Alike r s ρ (k.setField b name w) := by
  have entered := hk.instances.modify ab (f := fun i => { i with fields := i.fields.set name v })
    (g := fun j => { j with fields := j.fields.set name w })
    fun hij => ⟨hij.classId, hij.fields.set name hv⟩
  exact ⟨hk.lists, hk.classes, entered, hk.foreigns⟩

theorem Alike.setPayload (hk : h.Alike r s ρ k) {a b : ForeignId} (ab : ρ.foreigns a b)
    (payload : Payload) : (h.setPayload a payload).Alike r s ρ (k.setPayload b payload) := by
  have written := hk.foreigns.modify ab
    (f := fun o => if o.payload.type = payload.type then { o with payload } else o)
    (g := fun p => if p.payload.type = payload.type then { p with payload } else p)
    fun {o p} hop => by
    rw [hop.payload]
    split
    · exact ⟨hop.classId, rfl⟩
    · exact hop
  exact ⟨hk.lists, hk.classes, hk.instances, written⟩

/-! ### Growth -/

theorem Grown.refl (ρ : Renaming) (h : Heap) : Heap.Grown ρ h ρ h :=
  ⟨.refl _ _, .refl _ _, .refl _ _, .refl _ _⟩

theorem Grown.trans {middle : Heap} (first : Heap.Grown ρ₀ start ρ middle)
    (second : Heap.Grown ρ middle σ h) : Heap.Grown ρ₀ start σ h :=
  ⟨first.lists.trans second.lists, first.classes.trans second.classes,
    first.instances.trans second.instances, first.foreigns.trans second.foreigns⟩

theorem Grown.addList (grown : Heap.Grown ρ₀ start ρ h) (b : ListId) (items : Array Value) :
    Heap.Grown ρ₀ start (ρ.addList h.lists.size b) (h.addList items).2 :=
  ⟨grown.lists.push b items, grown.classes, grown.instances, grown.foreigns⟩

theorem Grown.addClass (grown : Heap.Grown ρ₀ start ρ h) (b : ClassId) (c : ClassObject) :
    Heap.Grown ρ₀ start (ρ.addClass h.classes.size b) (h.addClass c).2 :=
  ⟨grown.lists, grown.classes.push b c, grown.instances, grown.foreigns⟩

theorem Alike.addClasses (hk : h.Alike r s ρ k) {cs : List ClassObject}
    (same : ∀ c ∈ cs, c.Matches r s c) :
    ∃ σ, ρ ≤ σ ∧
      Heap.Alike r s σ { h with classes := h.classes ++ cs } { k with classes := k.classes ++ cs } ∧
      Heap.Grown ρ h σ { h with classes := h.classes ++ cs } ∧
      ∀ i < cs.length, σ.classes (h.classes.size + i) (k.classes.size + i) := by
  induction cs generalizing ρ h k with
  | nil =>
    rw [Array.appendList_nil, Array.appendList_nil]
    exact ⟨ρ, le_rfl, hk, .refl ρ h, nofun⟩
  | cons c rest ih =>
    have matching := same c List.mem_cons_self
    have first := (Grown.refl ρ h).addClass k.classes.size c
    obtain ⟨σ, le, alike, grown, pairs⟩ := ih (hk.addClass matching)
      fun d hd => same d (List.mem_cons_of_mem c hd)
    rw [Array.appendList_cons, Array.appendList_cons]
    refine ⟨σ, (ρ.le_addClass _ _).trans le, alike, first.trans grown, fun i below => ?_⟩
    cases i with
    | zero => exact le.classes (.inr ⟨rfl, rfl⟩)
    | succ i =>
      have pair := pairs i (Nat.lt_of_succ_lt_succ below)
      change σ.classes ((h.classes.push c).size + i) ((k.classes.push c).size + i) at pair
      rw [Array.size_push, Array.size_push, Nat.add_right_comm h.classes.size,
        Nat.add_right_comm k.classes.size] at pair
      exact pair

theorem Grown.addInstance (grown : Heap.Grown ρ₀ start ρ h) (b : InstanceId) (classId : ClassId) :
    Heap.Grown ρ₀ start (ρ.addInstance h.instances.size b) (h.addInstance classId).2 :=
  ⟨grown.lists, grown.classes, grown.instances.push b _, grown.foreigns⟩

theorem Grown.addForeign (grown : Heap.Grown ρ₀ start ρ h) (b : ForeignId) (classId : ClassId)
    (payload : Payload) :
    Heap.Grown ρ₀ start (ρ.addForeign h.foreigns.size b) (h.addForeign classId payload).2 :=
  ⟨grown.lists, grown.classes, grown.instances, grown.foreigns.push b _⟩

theorem Grown.append (grown : Heap.Grown ρ₀ start ρ h) {a b : ListId} (ab : ρ.lists a b)
    (v : Value) : Heap.Grown ρ₀ start ρ (h.append a v) :=
  ⟨grown.lists.modify ab (·.push v), grown.classes, grown.instances, grown.foreigns⟩

theorem Grown.setField (grown : Heap.Grown ρ₀ start ρ h) {a b : InstanceId}
    (ab : ρ.instances a b) (name : String) (v : Value) :
    Heap.Grown ρ₀ start ρ (h.setField a name v) :=
  ⟨grown.lists, grown.classes,
    grown.instances.modify ab fun i => { i with fields := i.fields.set name v }, grown.foreigns⟩

theorem Grown.setPayload (grown : Heap.Grown ρ₀ start ρ h) {a b : ForeignId}
    (ab : ρ.foreigns a b) (payload : Payload) : Heap.Grown ρ₀ start ρ (h.setPayload a payload) :=
  ⟨grown.lists, grown.classes, grown.instances, grown.foreigns.modify ab fun o =>
    if o.payload.type = payload.type then { o with payload } else o⟩

end Heap
end ScriptHost
