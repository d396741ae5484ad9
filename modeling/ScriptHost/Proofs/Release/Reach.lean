import Mathlib.Data.Finite.Defs
import Mathlib.Data.Set.Finite.List
import Mathlib.Logic.Relation
import Mathlib.Order.WellFounded
import ScriptHost.Machine.Heap

/-! Objects that are still there. What is left when objects go one round after another is the
greatest part of the heap in which something holds on to each object. So an object that the roots
lead to stays, and one that stays without that is held by a ring of objects. When an object goes,
what it carries is dropped, if its class was bound with a finalizer. -/

namespace ScriptHost.Heap

open Relation

variable {h : Heap} {roots : List Value} {x y : Object} {there : List Object} {id : ForeignId}

/-- An object refers to another: a list to an element, an instance to what a field holds. -/
def Holds (h : Heap) (x y : Object) : Prop := ∃ v ∈ h.contents x, object? v = some y

/-- Something outside of the heap refers to an object. -/
def Rooted (roots : List Value) (x : Object) : Prop := ∃ v ∈ roots, object? v = some x

/-- The roots lead to an object. -/
def Reached (h : Heap) (roots : List Value) (y : Object) : Prop :=
  ∃ x, Rooted roots x ∧ ReflTransGen h.Holds x y

/-- A ring of objects leads to an object. -/
def HeldByRing (h : Heap) (y : Object) : Prop :=
  ∃ x, TransGen h.Holds x x ∧ ReflTransGen h.Holds x y

/-- An object that was made. -/
def Made (h : Heap) : Object → Prop
  | .list id => id < h.lists.size
  | .instance id => id < h.instances.size
  | .foreign id => id < h.foreigns.size

theorem mem_objects : x ∈ h.objects ↔ h.Made x := by
  cases x <;> simp [objects, Made]

/-- Only objects that were made refer to others. -/
theorem Holds.made (holds : h.Holds x y) : h.Made x := by
  obtain ⟨v, member, -⟩ := holds
  cases x with
  | list id =>
    by_contra missing
    simp [contents, list, Array.getElem?_eq_none (Nat.le_of_not_lt missing)] at member
  | «instance» id =>
    by_contra missing
    simp [contents, instance?, Array.getElem?_eq_none (Nat.le_of_not_lt missing)] at member
  | foreign id => cases member

/-! ### One round -/

theorem mem_held : x ∈ h.held roots there ↔
    x ∈ there ∧ (Rooted roots x ∨ ∃ y ∈ there, h.Holds y x) := by
  unfold held Rooted Holds
  simp only [List.mem_filter, List.contains_iff_mem, List.mem_filterMap, List.mem_append,
    List.mem_flatMap, or_and_right, exists_or]
  refine and_congr_right fun _ => or_congr_right ⟨?_, ?_⟩
  · rintro ⟨v, ⟨y, stays, member⟩, same⟩
    exact ⟨y, stays, v, member, same⟩
  · rintro ⟨y, stays, v, member, same⟩
    exact ⟨v, ⟨y, stays, member⟩, same⟩

theorem held_sublist (h : Heap) (roots : List Value) (there : List Object) :
    (h.held roots there).Sublist there := List.filter_sublist

/-! ### Rounds until nothing goes -/

theorem settle_subset (rounds : Nat) : h.settle roots rounds there ⊆ there := by
  induction rounds generalizing there with
  | zero => exact List.Subset.refl there
  | succ rounds ih =>
    unfold settle
    dsimp only
    split
    · exact List.Subset.refl there
    · exact List.Subset.trans ih (held_sublist h roots there).subset

/-- With a round for each object there is one in which nothing goes. -/
theorem held_settle {rounds : Nat} (enough : there.length ≤ rounds) :
    h.held roots (h.settle roots rounds there) = h.settle roots rounds there := by
  induction rounds generalizing there with
  | zero =>
    obtain rfl := List.eq_nil_of_length_eq_zero (Nat.le_zero.mp enough)
    rfl
  | succ rounds ih =>
    have fewer := (held_sublist h roots there).length_le
    unfold settle
    dsimp only
    split
    · exact (held_sublist h roots there).eq_of_length ‹_›
    · exact ih (by omega)

/-- Objects that are held among themselves or by the roots outlast every round. -/
theorem mem_settle {P : Object → Prop}
    (supported : ∀ x, P x → Rooted roots x ∨ ∃ y, P y ∧ h.Holds y x) (rounds : Nat)
    (first : ∀ x, P x → x ∈ there) (holds : P x) : x ∈ h.settle roots rounds there := by
  induction rounds generalizing there with
  | zero => exact first x holds
  | succ rounds ih =>
    unfold settle
    dsimp only
    split
    · exact first x holds
    · refine ih fun y hy => mem_held.mpr ⟨first y hy, ?_⟩
      refine (supported y hy).imp_right ?_
      rintro ⟨z, hz, held⟩
      exact ⟨z, first z hz, held⟩

/-! ### What is left -/

theorem present_made (stays : x ∈ h.present roots) : h.Made x :=
  mem_objects.mp (settle_subset _ stays)

/-- What is there is held by the roots, or by something that is there. -/
theorem present_supported (stays : x ∈ h.present roots) :
    Rooted roots x ∨ ∃ y ∈ h.present roots, h.Holds y x := by
  unfold present at stays ⊢
  rw [← held_settle (Nat.le_refl _)] at stays
  exact (mem_held.mp stays).2

/-- All that is held so is there. -/
theorem present_greatest {P : Object → Prop} (made : ∀ x, P x → h.Made x)
    (supported : ∀ x, P x → Rooted roots x ∨ ∃ y, P y ∧ h.Holds y x) (holds : P x) :
    x ∈ h.present roots :=
  mem_settle supported _ (fun y hy => mem_objects.mpr (made y hy)) holds

/-- What the roots lead to is there. -/
theorem Reached.present (reached : h.Reached roots x) (made : h.Made x) : x ∈ h.present roots := by
  refine present_greatest (P := fun y => h.Reached roots y ∧ h.Made y) (fun _ => And.right) ?_
    ⟨reached, made⟩
  rintro y ⟨⟨root, rooted, path⟩, -⟩
  obtain rfl | ⟨z, path, holds⟩ := path.cases_tail
  · exact .inl rooted
  · exact .inr ⟨z, ⟨⟨root, rooted, path⟩, holds.made⟩, holds⟩

/-- Among finitely many objects, none of them in a ring, is one that none of them refers to. -/
theorem exists_unheld {s : Set Object} (finite : s.Finite) (there : s.Nonempty)
    (free : ∀ y ∈ s, ¬TransGen h.Holds y y) : ∃ y ∈ s, ∀ z ∈ s, ¬h.Holds z y := by
  have : Finite s := finite.to_subtype
  have : IsTrans s fun y z => TransGen h.Holds y z := ⟨fun _ _ _ => TransGen.trans⟩
  have : Std.Irrefl fun y z : s => TransGen h.Holds y z := ⟨fun y => free y y.2⟩
  have wellFounded := Finite.wellFounded_of_trans_of_irrefl fun y z : s => TransGen h.Holds y z
  obtain ⟨x, member⟩ := there
  obtain ⟨y, -, first⟩ := wellFounded.has_min Set.univ ⟨⟨x, member⟩, trivial⟩
  exact ⟨y, y.2, fun z hz holds => first ⟨z, hz⟩ trivial (.single holds)⟩

/-- What is there is led to by the roots or by a ring: of the objects that lead to it, without a
ring, one is held by nothing but a root. -/
theorem present_reached (stays : x ∈ h.present roots) (free : ¬h.HeldByRing x) :
    h.Reached roots x := by
  have finite : {y | y ∈ h.present roots ∧ ReflTransGen h.Holds y x}.Finite :=
    (List.finite_toSet (h.present roots)).subset fun _ => And.left
  obtain ⟨y, ⟨stays, path⟩, unheld⟩ := exists_unheld finite ⟨x, stays, .refl⟩
    fun y ⟨_, path⟩ ring => free ⟨y, ring, path⟩
  obtain rooted | ⟨z, stays', holds⟩ := present_supported stays
  · exact ⟨y, rooted, path⟩
  · exact absurd holds (unheld z ⟨stays', .head holds path⟩)

/-! ### What has gone -/

theorem mem_gone : id ∈ h.gone roots ↔
    id < h.foreigns.size ∧ .foreign id ∉ h.present roots := by
  simp [gone, List.mem_filter, List.mem_range]

theorem gone_nodup (h : Heap) (roots : List Value) : (h.gone roots).Nodup :=
  List.nodup_range.filter _

/-- A foreign object that no ring holds has gone when nothing leads to it any more. -/
theorem gone_iff (free : ¬h.HeldByRing (.foreign id)) :
    id ∈ h.gone roots ↔ id < h.foreigns.size ∧ ¬h.Reached roots (.foreign id) := by
  refine mem_gone.trans (and_congr_right fun made => not_congr ⟨?_, ?_⟩)
  · exact fun stays => present_reached stays free
  · exact fun reached => reached.present made

theorem not_reached_nil (h : Heap) (x : Object) : ¬h.Reached [] x :=
  fun ⟨_, ⟨_, member, _⟩, _⟩ => by cases member

/-- Without any roots all foreign objects have gone, unless a ring holds one. -/
theorem gone_nil (free : ∀ id, ¬h.HeldByRing (.foreign id)) :
    (h.gone []).Perm (List.range h.foreigns.size) := by
  refine (List.perm_ext_iff_of_nodup (gone_nodup h []) List.nodup_range).mpr fun id => ?_
  rw [gone_iff (free id), List.mem_range]
  exact and_iff_left (not_reached_nil h _)

/-! ### What finalizers have dropped -/

theorem finalizes_iff : h.finalizes id ↔ ∃ o c, h.foreign? id = some o ∧
    h.class? o.classId = some c ∧ c.binding.finalize := by
  simp only [finalizes, foreignClass?, Option.any_eq_true, Option.bind_eq_some_iff]
  exact ⟨fun ⟨c, ⟨o, ho, hc⟩, runs⟩ => ⟨o, c, ho, hc, runs⟩,
    fun ⟨o, c, ho, hc, runs⟩ => ⟨c, ⟨o, ho, hc⟩, runs⟩⟩

/-- Without any roots the finalizers of all foreign objects that have one have run, unless a ring
holds an object. -/
theorem finalized_nil (free : ∀ id, ¬h.HeldByRing (.foreign id)) :
    (h.finalized []).Perm ((List.range h.foreigns.size).filter h.finalizes) :=
  (gone_nil free).filter _

theorem range_filterMap {α : Type} (l : List α) :
    (List.range l.length).filterMap (l[·]?) = l := by
  induction l with
  | nil => rfl
  | cons a l ih =>
    rw [List.length_cons, List.range_succ_eq_map, List.filterMap_cons, List.filterMap_map]
    exact congrArg (a :: ·) ih

/-- The objects whose finalizers run are those of a class with one. -/
theorem filterMap_finalizes (h : Heap) :
    ((List.range h.foreigns.size).filter h.finalizes).filterMap h.foreign? =
      h.foreigns.toList.filter fun o => (h.class? o.classId).any (·.binding.finalize) := by
  have objects : (List.range h.foreigns.size).filterMap h.foreign? = h.foreigns.toList := by
    refine Eq.trans ?_ (range_filterMap h.foreigns.toList)
    exact List.filterMap_congr fun id _ => (Array.getElem?_toList ..).symm
  rw [← objects, List.filterMap_filter, List.filter_filterMap]
  refine List.filterMap_congr fun id _ => ?_
  unfold Heap.finalizes Heap.foreignClass?
  cases h.foreign? id <;> rfl

end ScriptHost.Heap
