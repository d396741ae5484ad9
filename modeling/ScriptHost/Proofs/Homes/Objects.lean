import ScriptHost.Proofs.Dispatching
import ScriptHost.Proofs.Homes.Sessions

/-! The objects that constructors of a program work on. The only foreign object that a script can
get from a host function is the one that a maker has just made, of the class that asked for it; so
every object is of the class of its constructor, and no constructor is left out of the diary. -/

namespace ScriptHost

/-- No host value becomes a foreign object. -/
theorem HostValue.toValue_ne_foreign {w : HostValue} {slot : Nat} {id : ForeignId} :
    w.toValue slot ≠ .ok (.foreign id) := by
  cases w <;> exact nofun

namespace Surroundings

variable {m : Machine Surroundings} {classId : ClassId} {args : List Value} {id : ForeignId}

/-- A routine gives a script no foreign object. -/
theorem runEntry_routine_verdict (r : Routine) :
    (runEntry (.routine r) (m.windowed (.classObject classId) args)).vm.verdict ≠
      .ok (.foreign id) := by
  rw [runEntry_routine]
  cases (m.windowed (.classObject classId) args).decodeArguments r.params with
  | error f => exact nofun
  | ok values =>
    dsimp only
    generalize effect : r.call values (m.windowed (.classObject classId) args).heap = e
    have marked : (e.mark keep (m.windowed (.classObject classId) args)).vm =
        (m.windowed (.classObject classId) args).vm := by
      unfold Effect.mark
      cases e.keeps <;> rfl
    have lands := e.outcome.land_lands r.returns
      (e.mark keep (m.windowed (.classObject classId) args))
    revert lands
    generalize e.outcome.land r.returns (e.mark keep (m.windowed (.classObject classId) args)) =
      result
    obtain ⟨_ | _, n⟩ := result
    · exact fun _ => nofun
    · dsimp only
      intro lands
      rw [marked] at lands
      generalize e.outcome = outcome, n.vm = vm at lands
      cases lands with
      | nothing => exact nofun
      | result _ _ put =>
        rw [Vm.setSlot_verdict]
        rintro made
        cases made
        exact HostValue.toValue_ne_foreign put

theorem windowed_slotForeignClass? {asked : ClassId}
    (there : (m.windowed (.classObject classId) args).slotForeignClass? 0 = some asked) :
    asked = classId := by
  unfold Machine.slotForeignClass? at there
  split at there
  case h_1 id slot =>
    cases slot
    split at there
    · split at there <;> cases there
      rfl
    · cases there
  case h_2 => cases there

/-- A maker gives a script an object of the class that it asked. -/
theorem runEntry_maker_verdict (maker : Maker)
    (made : (runEntry (.maker maker) (m.windowed (.classObject classId) args)).vm.verdict =
      .ok (.foreign id)) :
    (runEntry (.maker maker) (m.windowed (.classObject classId) args)).classOf (.foreign id) =
      classId := by
  cases there : (m.windowed (.classObject classId) args).slotForeignClass? 0 with
  | none =>
    unfold runEntry allocate Machine.newForeign? at made
    rw [there] at made
    dsimp only at made
    cases outcome : maker.make <;> rw [outcome] at made <;> cases made
  | some asked =>
    obtain rfl := windowed_slotForeignClass? there
    rw [runEntry_maker maker there] at made ⊢
    cases outcome : maker.make with
    | error message =>
      rw [outcome] at made
      cases made
    | ok payload =>
      rw [outcome] at made
      dsimp only at made
      rw [Vm.setSlot_verdict] at made
      cases made
      change Option.getD (Option.map _ (Array.push _ _)[_]?) 0 = _
      rw [Array.getElem?_push_size]
      rfl

theorem runs_verdict (f : HostFunction)
    (made : (runs f (m.windowed (.classObject classId) args)).vm.verdict = .ok (.foreign id)) :
    (runs f (m.windowed (.classObject classId) args)).classOf (.foreign id) = classId := by
  unfold runs at made ⊢
  cases f with
  | entry point =>
    dsimp only at made ⊢
    cases found : (m.windowed (.classObject classId) args).host.registry.find? point with
    | none =>
      rw [found] at made
      cases made
    | some e =>
      rw [found] at made
      cases e with
      | routine r => exact absurd made (runEntry_routine_verdict r)
      | maker maker => exact runEntry_maker_verdict maker made
  | method | allocator => cases made

end Surroundings

namespace Job

variable {m n : Machine (Diaried Surroundings)} {engine : Engine (Diaried Surroundings)}

theorem callForeign_run (f : HostFunction) (receiver : Value) (args : List Value) :
    (callForeign host engine f receiver args).run m =
      .ok (Surroundings.runs f ((Diaried.plain m).windowed receiver args)).vm.verdict
        ((Diaried.beside (Surroundings.runs f ((Diaried.plain m).windowed receiver args))
          m.host.diary).closed m.vm) := rfl

/-- The object that a constructor works on is of its class. -/
theorem newObject_class {classId : ClassId} {c : ClassObject} {args : List Value} {object : Value}
    (made : (newObject host engine classId c args).run m = .ok (.ok object) n) :
    n.classOf object = classId := by
  unfold newObject at made
  split at made
  · cases asked : c.binding.allocate with
    | none =>
      rw [asked] at made
      cases made
    | some f =>
      rw [asked] at made
      change EStateM.bind (callForeign host engine f (.classObject classId) args).run
        (ExceptT.bindCont _) m = _ at made
      obtain ⟨_ | x, _, called, made⟩ := Live.bind_inv made
      · cases made
      · rw [callForeign_run] at called
        cases x <;> cases made
        injection called with verdict machine
        rw [← machine]
        exact Surroundings.runs_verdict f verdict
  · cases made
    change Option.getD (Option.map _ (Array.push _ _)[_]?) 0 = _
    rw [Array.getElem?_push_size]
    rfl

end Job
end ScriptHost
