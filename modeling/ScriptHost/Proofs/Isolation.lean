import Mathlib.Algebra.BigOperators.Group.Finset.Basic
import ScriptHost.Proofs.Binding.History
import ScriptHost.Proofs.Isolation.Catalogue
import ScriptHost.Proofs.Isolation.Steps

/-! Machines of one program do not see each other. A session on many machines is held beside, for
each of them, the session of the steps on it alone: as long as no value of one machine is used with
another, no routine has state of its own and every registration finds room, each step comes to the
same in both, and each machine ends up in the same state, up to the places of its objects and to its
entry points. -/

namespace ScriptHost

/-- What happened in a session: each step with its report, the latest first. -/
abbrev Chronicle := List (Step × StepReport)

namespace Chronicle

/-- Which machine each held value is from. -/
def holders : Chronicle → Holders
  | [] => []
  | (s, r) :: before => s.held (holders before) r.result

/-- The part that is about one machine. -/
def share (name : String) : Chronicle → Chronicle
  | [] => []
  | (s, r) :: before =>
    if s.machine? (holders before) = some name then (s, r) :: share name before
    else share name before

def keepsApart : Chronicle → Bool
  | [] => true
  | (s, _) :: before => s.keepsApart (holders before) && keepsApart before

def accepted : Chronicle → Bool
  | [] => true
  | (s, r) :: before => !s.refused r.result && accepted before

def steps (t : Chronicle) : List Step := (t.map Prod.fst).reverse

end Chronicle

namespace Program

variable {files : Files} {ss : List Step} {name : String}

def chronicle (files : Files) (ss : List Step) : Chronicle :=
  (ss.zip ((start files).steps ss).1).reverse

/-- The steps of a session that are about one machine. -/
def own (files : Files) (ss : List Step) (name : String) : List Step :=
  ((chronicle files ss).share name).steps

/-- What the steps about one machine lead to on their own. -/
def alone (files : Files) (ss : List Step) (name : String) : Program :=
  after files (own files ss name)

theorem chronicle_append (files : Files) (ss : List Step) (s : Step) :
    chronicle files (ss ++ [s]) =
      (s, ((after files ss).stepOn engine s).1) :: chronicle files ss := by
  have lengths : ss.length = ((start files).stepsOn engine ss).1.length :=
    (length_stepsOn engine (start files) ss).symm
  unfold chronicle steps
  rw [stepsOn_append, List.zip_append lengths, List.reverse_append]
  rfl

theorem after_step (files : Files) (ss : List Step) (s : Step) :
    after files (ss ++ [s]) = ((after files ss).stepOn engine s).2 := after_append files ss [s]

theorem own_append (files : Files) (ss : List Step) (s : Step) (name : String) :
    own files (ss ++ [s]) name =
      if s.machine? (chronicle files ss).holders = some name then own files ss name ++ [s]
      else own files ss name := by
  unfold own
  rw [chronicle_append, Chronicle.share]
  split
  · exact List.reverse_cons
  · rfl

/-! ### The invariant -/

/-- At this time of a session each machine is as it would be on its own. -/
structure Isolated (files : Files) (ss : List Step) : Prop where
  orderly : (after files ss).Orderly (chronicle files ss).holders
  /-- Everything about a machine came to the same on its own. -/
  same : ∀ name, chronicle files (own files ss name) = (chronicle files ss).share name
  /-- Every machine has its own part of the heap. -/
  mirrors : ∃ ρ : String → Renaming,
    (∀ name, Mirrors (chronicle files ss).holders (ρ name) name (after files ss)
      (alone files ss name)) ∧
    ∀ name other, name ≠ other → (ρ name).Apart (ρ other)
  /-- All machines together took the entry points. -/
  counts : ∀ names : Finset String,
    (∀ name ∉ names, (alone files ss name).registry.registered = 0) →
    (after files ss).registry.registered =
      ∑ name ∈ names, (alone files ss name).registry.registered

theorem sum_changed {f g : String → Nat} {names : Finset String} (member : name ∈ names)
    (others : ∀ other, other ≠ name → g other = f other) :
    (∑ v ∈ names, g v) + f name = g name + ∑ v ∈ names, f v := by
  have rest : ∑ v ∈ names.erase name, g v = ∑ v ∈ names.erase name, f v :=
    Finset.sum_congr rfl fun v hv => others v (Finset.ne_of_mem_erase hv)
  rw [← Finset.add_sum_erase names g member, ← Finset.add_sum_erase names f member, rest]
  omega

theorem Isolated.step (h : Isolated files ss) {s : Step}
    (own : s.machine? (chronicle files ss).holders = some name)
    (apart : s.keepsApart (chronicle files ss).holders = true) (uniform : s.Uniform)
    (accepted : s.refused ((after files ss).stepOn engine s).1.result = false) :
    Isolated files (ss ++ [s]) := by
  obtain ⟨ρ, mirrors, disjoint⟩ := h.mirrors
  obtain ⟨report, σ, moved⟩ := (mirrors name).stepOn h.orderly own apart uniform accepted
  have ownSteps : Program.own files (ss ++ [s]) name = Program.own files ss name ++ [s] := by
    rw [own_append, if_pos own]
  have otherSteps (other : String) (ne : other ≠ name) :
      Program.own files (ss ++ [s]) other = Program.own files ss other := by
    rw [own_append, own, if_neg fun same => ne (Option.some.inj same).symm]
  have stepped : alone files (ss ++ [s]) name = ((alone files ss name).stepOn engine s).2 := by
    unfold alone
    rw [ownSteps, after_step]
  have unchanged (other : String) (ne : other ≠ name) :
      alone files (ss ++ [s]) other = alone files ss other := by
    unfold alone
    rw [otherSteps other ne]
  refine ⟨?_, fun other => ?_, ⟨Function.update ρ name σ, fun other => ?_, fun a b ne => ?_⟩,
    fun names silent => ?_⟩
  · rw [chronicle_append, after_step]
    exact moved.orderly
  · rw [chronicle_append, Chronicle.share]
    by_cases same : other = name
    · subst same
      rw [ownSteps, chronicle_append, if_pos own, h.same, report]
      rfl
    · rw [otherSteps other same, own, if_neg fun eq => same (Option.some.inj eq).symm]
      exact h.same other
  · rw [chronicle_append, after_step]
    by_cases same : other = name
    · subst same
      rw [Function.update_self, stepped]
      exact moved.mirrors
    · rw [Function.update_of_ne same, unchanged other same]
      exact (mirrors other).spared moved.yields (fun eq => same (Option.some.inj eq).symm)
        (disjoint other name same)
  · by_cases first : a = name
    · subst first
      rw [Function.update_self, Function.update_of_ne ne.symm]
      exact ((mirrors b).apart moved.yields (disjoint b a ne.symm)).symm
    · rw [Function.update_of_ne first]
      by_cases second : b = name
      · subst second
        rw [Function.update_self]
        exact (mirrors a).apart moved.yields (disjoint a b ne)
      · rw [Function.update_of_ne second]
        exact disjoint a b ne
  · have counts := moved.counts
    have more := Registry.registered_mono moved.yields.registry
    rw [← stepped] at counts
    rw [after_step]
    by_cases member : name ∈ names
    · have before := h.counts names fun other outside => by
        rw [← unchanged other fun same => outside (same ▸ member)]
        exact silent other outside
      have changed := sum_changed (f := fun v => (alone files ss v).registry.registered)
        (g := fun v => (alone files (ss ++ [s]) v).registry.registered) member
        fun other ne => by rw [unchanged other ne]
      omega
    · have nothing := silent name member
      have before := h.counts names fun other outside => by
        by_cases same : other = name
        · subst same
          omega
        · rw [← unchanged other same]
          exact silent other outside
      have sums : ∑ v ∈ names, (alone files (ss ++ [s]) v).registry.registered =
          ∑ v ∈ names, (alone files ss v).registry.registered :=
        Finset.sum_congr rfl fun v hv => by rw [unchanged v fun same => member (same ▸ hv)]
      omega

/-- The ready-made routine that greets with the text of an object. -/
def greeting : Routine := (catalogue.get? "string_greet").getD (numbered 0)

end Program
end ScriptHost
