import ScriptHost.Proofs.Binding.Moment

/-! Who may bind to the host. Only classes of the entry module have anything of the host behind
them, and they were made by declarations written there, whoever ran them. A declaration of any other
module that asks for the host stops the script before there is a class, and the report names the
module and the member. -/

namespace ScriptHost

/-- Whether something of the host stands behind a class: one of its methods is foreign, or the class
was bound itself. -/
def ClassObject.HasForeign (c : ClassObject) : Prop :=
  (∃ onClass signature f, (c.table onClass).get? signature = some (.foreign f)) ∨ c.isForeign ∨
    c.binding ≠ .none

/-! ### Classes that there are -/

namespace ClassObject

variable {reg : Registry} {texts : Texts} {c : ClassObject}

theorem Sound.entry (sound : c.Sound reg) (foreign : c.HasForeign) :
    c.moduleName = entryModule := by
  obtain ⟨onClass, signature, f, found⟩ | isForeign | bound := foreign
  · exact (sound.member found).1
  · exact (sound.foreign isForeign).1
  · refine (sound.foreign ?_).1
    by_contra plain
    exact bound (sound.plain plain)

/-- The machine's own classes have nothing of the host behind them. -/
theorem Placed.declared (placed : c.Placed texts) (foreign : c.HasForeign) :
    ∃ decl, Written texts c.moduleName decl ∧ decl.Makes c := by
  obtain ⟨core, rfl⟩ | declared := placed
  · obtain ⟨onClass, signature, f, found⟩ | isForeign | bound := foreign
    · obtain ⟨p, primitive⟩ := CoreClass.table_primitive found
      cases primitive
    · cases isForeign
    · exact absurd rfl bound
  · exact declared

end ClassObject

/-! ### Declarations elsewhere -/

namespace VmRecord

variable {moduleName : String} {decl : ClassDecl}

theorem declared_untrusted_class (record : VmRecord) (other : moduleName ≠ entryModule)
    (foreign : decl.isForeign) :
    record.declared moduleName decl =
      .error (.panic (BoundaryFault.untrusted moduleName decl.name).message) := by
  unfold declared classBinding
  rw [if_pos foreign, if_neg other]

theorem declared_untrusted_member (record : VmRecord) (other : moduleName ≠ entryModule)
    (plain : ¬decl.isForeign) {d : MethodDecl}
    (first : decl.methods.find? (·.isForeign) = some d) :
    record.declared moduleName decl =
      .error (.member d (.untrusted moduleName (d.key decl.name))) := by
  obtain ⟨foreign, before, after, members, plainBefore⟩ := List.find?_eq_some_iff_append.mp first
  refine declared_member_iff.mpr ⟨⟨.none, ?_⟩, before, after, members, fun b hb => ?_, ?_⟩
  · unfold classBinding
    rw [if_neg plain]
  · have own : ¬b.isForeign := by simpa using plainBefore b hb
    unfold method
    rw [if_neg own]
    split <;> exact ⟨_, rfl⟩
  · unfold method
    rw [if_pos foreign, if_neg other]

end VmRecord

namespace Program

/-- In every state of a session, what has something of the host behind it was declared in the entry
module, by a declaration written there. Executed in another module, a foreign class is a panic and a
foreign method a fault that is reported with the module and the key; there is no new class then, nor
a new name. -/
theorem foreign_members_trusted (files : Files) (ss : List Step) :
    (∀ id c, (after files ss).heap.class? id = some c → c.Placed (sessionTexts files ss)) ∧
    (∀ id c, (after files ss).heap.class? id = some c → c.HasForeign →
      c.moduleName = entryModule ∧
        ∃ decl, Written (sessionTexts files ss) entryModule decl ∧ decl.Makes c) ∧
    (∀ (depth : Nat) (frame : Frame) (m : Machine Surroundings) (decl : ClassDecl),
      frame.moduleName ≠ entryModule →
      (decl.isForeign →
        (exec (Surroundings.host.engine depth) (.classDecl decl)).run.run frame m =
          .error (.panic (BoundaryFault.untrusted frame.moduleName decl.name).message) m) ∧
      (¬decl.isForeign → ∀ d, decl.methods.find? (·.isForeign) = some d →
        (exec (Surroundings.host.engine depth) (.classDecl decl)).run.run frame m =
          .ok (.error ⟨.unknownForeignMethod d.signature decl.name frame.moduleName, []⟩,
              { frame with line := decl.span.line })
            (m.remembering (.untrusted frame.moduleName (d.key decl.name))))) ∧
    (∀ (next : Step) (name : String) (vm : Vm) (record : VmRecord),
      (after files ss).machines.get? name = some (vm, record) →
      (after files ss).Moment (sessionTexts files (ss ++ [next])) name
        ((after files ss).started vm record)) ∧
    ∀ (next : Step) (name : String) (m m' : Machine Surroundings)
      (run : Client (Except InterpretError Unit)) (e : RuntimeError)
      (signature className moduleName : String),
      (after files ss).Moment (sessionTexts files (ss ++ [next])) name m →
      Asked (sessionTexts files (ss ++ [next])) run → run m = .ok (.error (.runtime e)) m' →
      e.fault = .unknownForeignMethod signature className moduleName →
      moduleName ≠ entryModule →
      ∃ decl d, Written (sessionTexts files (ss ++ [next])) moduleName decl ∧
        decl.name = className ∧ d ∈ decl.methods ∧ d.isForeign ∧ d.signature = signature ∧
        Client.settled run m = .ok (.error (.untrusted moduleName (d.key className)))
          { m' with host := m'.host.setPending none } := by
  have sound : (after files ss).Sound (sessionTexts files ss) := sound_after fun _ _ h => h
  have soundNext (next : Step) : (after files ss).Sound (sessionTexts files (ss ++ [next])) := by
    refine sound_after ?_
    rintro moduleName text (⟨entry, s, hs, run⟩ | loaded)
    · exact .inl ⟨entry, s, List.mem_append_left _ hs, run⟩
    · exact .inr loaded
  refine ⟨sound.placed, fun id c found foreign => ?_, fun depth frame m decl other => ⟨?_, ?_⟩,
    fun next name vm record found => (soundNext next).moment_started found, ?_⟩
  · have entry := (sound.heap.classes found).entry foreign
    obtain ⟨decl, written, makes⟩ := (sound.placed id c found).declared foreign
    exact ⟨entry, decl, entry ▸ written, makes⟩
  · intro foreign
    rw [exec_classDecl_run rfl, VmRecord.declared_untrusted_class _ other foreign]
  · intro plain d first
    rw [exec_classDecl_run rfl, VmRecord.declared_untrusted_member _ other plain first]
  · intro next name m m' run e signature className moduleName moment asked ran stopped other
    obtain ⟨decl, d, written, named, member, foreign, signed, reported⟩ :=
      moment.unbound_reported (soundNext next) asked ran stopped
    rw [if_neg other] at reported
    exact ⟨decl, d, written, named, member, foreign, signed, reported⟩

end Program
end ScriptHost
