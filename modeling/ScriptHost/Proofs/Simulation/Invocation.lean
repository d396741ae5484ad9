import ScriptHost.Proofs.Simulation.Execution

/-! Messages and modules in related engines. The methods of the machine itself, the bodies of
scripts and the functions of the host are run alike; so an engine that works to some depth is alike
to one of the other host, by induction on the depth. -/

namespace ScriptHost

variable {H₁ H₂ : Type} {S : Simulation H₁ H₂} {host₁ : Host H₁} {host₂ : Host H₂}
  {e₁ : Engine H₁} {e₂ : Engine H₂} {ρ : Renaming} {v w : Value} {vs ws : List Value}
  {m : Machine H₁} {n : Machine H₂}

/-! ### The host's callbacks -/

namespace Engine

theorem write_sim (laws : Lawful S host₁ host₂) (engines : Engine.Alike S host₁ host₂ e₁ e₂)
    (text : String) : LiveSim S ρ .same (e₁.write text) (e₂.write text) := by
  intro m n hmn
  have written := laws.write hmn text
  rw [← engines.callbacks₁, ← engines.callbacks₂] at written
  exact .ok le_rfl ⟨written, rfl⟩

theorem report_sim (laws : Lawful S host₁ host₂) (engines : Engine.Alike S host₁ host₂ e₁ e₂)
    (r : Report) : LiveSim S ρ .same (e₁.report r) (e₂.report r) := by
  intro m n hmn
  have reported := laws.report hmn r
  rw [← engines.callbacks₁, ← engines.callbacks₂] at reported
  exact .ok le_rfl ⟨reported, rfl⟩

theorem reportAll_sim (laws : Lawful S host₁ host₂) (engines : Engine.Alike S host₁ host₂ e₁ e₂)
    (rs : List Report) : LiveSim S ρ .same (e₁.reportAll rs) (e₂.reportAll rs) := by
  induction rs generalizing ρ with
  | nil => exact .pure rfl
  | cons r rest ih => exact (report_sim laws engines r).bind fun _ _ => ih

end Engine

/-! ### Methods of the machine itself -/

/-- Answers that need nothing to run, alike up to a renaming. -/
inductive AnswersAlike (ρ : Renaming) : Except RuntimeFault Value → Except RuntimeFault Value → Prop
  | ok {v w : Value} : v.Alike ρ w → AnswersAlike ρ (.ok v) (.ok w)
  | error {f : RuntimeFault} : f.isPlain → AnswersAlike ρ (.error f) (.error f)

namespace Primitive

theorem answer_sim (laws : Lawful S host₁ host₂) {x y : Except RuntimeFault Value}
    (h : AnswersAlike ρ x y) : RunSim S ρ .alike (answer x : Run H₁ Value) (answer y) := by
  cases h with
  | ok h => exact .pure h
  | error plain => exact laws.plainFault _ plain

theorem argument_alike (hvs : Value.AllAlike ρ vs ws) :
    AnswersAlike ρ (argument vs) (argument ws) := by
  cases hvs with
  | nil => exact .error rfl
  | cons h _ => exact .ok h

theorem receiverNumber_eq (hv : v.Alike ρ w) : receiverNumber v = receiverNumber w := by
  cases hv <;> rfl

theorem numberArgument_eq (hvs : Value.AllAlike ρ vs ws) :
    numberArgument vs = numberArgument ws := by
  cases hvs with
  | nil => rfl
  | cons h _ => cases h <;> rfl

theorem numberArgument_plain {f : RuntimeFault} (h : numberArgument vs = .error f) :
    f.isPlain := by
  cases vs with
  | nil => cases h; rfl
  | cons v _ => cases v <;> cases h <;> rfl

theorem binary_alike {f : Float → Float → Value} (hf : ∀ x y, (f x y).Alike ρ (f x y))
    (hv : v.Alike ρ w) (hvs : Value.AllAlike ρ vs ws) :
    AnswersAlike ρ (binary f v vs) (binary f w ws) := by
  unfold binary
  rw [receiverNumber_eq hv, numberArgument_eq hvs]
  cases h : numberArgument ws with
  | ok x => exact .ok (hf _ x)
  | error fault => exact .error (numberArgument_plain h)

theorem strings_alike {f : String × String → Value} (hf : ∀ x, (f x).Alike ρ (f x))
    {complaint : RuntimeFault} (plain : complaint.isPlain) (hv : v.Alike ρ w)
    (hvs : Value.AllAlike ρ vs ws) :
    AnswersAlike ρ ((strings complaint v vs).map f) ((strings complaint w ws).map f) := by
  cases hvs with
  | nil => cases hv <;> exact .error rfl
  | cons h _ =>
    cases hv with
    | string s =>
      cases h with
      | string t => exact .ok (hf (s, t))
      | _ => exact .error plain
    | _ => cases h <;> exact .error plain

theorem subscript_alike {as bs : Array Value} (hab : Value.AllAlike ρ as.toList bs.toList)
    (hv : v.Alike ρ w) :
    AnswersAlike ρ (ScriptHost.subscript as v) (ScriptHost.subscript bs w) := by
  cases hv with
  | number x =>
    have size : as.size = bs.size := by simpa using hab.length_eq
    have found (i : Nat) : Option.Rel (Value.Alike ρ) as[i]? bs[i]? := by
      rw [← Array.getElem?_toList, ← Array.getElem?_toList]
      exact forall₂_getElem? hab i
    unfold ScriptHost.subscript
    dsimp only
    rw [size]
    by_cases integral : (Binary.ofFloat x).isIntegral = true
    · rw [if_pos integral, if_pos integral]
      generalize (if _ < (0 : Int) then _ else _ : Int) = place
      by_cases negative : place < 0
      · rw [if_pos negative, if_pos negative]
        exact .error rfl
      · rw [if_neg negative, if_neg negative]
        obtain ⟨ha, hb⟩ | ⟨v, w, ha, hb, hvw⟩ := optionRel_cases (found place.toNat)
        · rw [ha, hb]
          exact .error rfl
        · rw [ha, hb]
          exact .ok hvw
    · rw [if_neg integral, if_neg integral]
      exact .error rfl
  | _ => exact .error rfl

theorem append_sim (laws : Lawful S host₁ host₂) (adds : S.adds) (hv : v.Alike ρ w)
    (hvs : Value.AllAlike ρ vs ws) :
    RunSim S ρ .alike (apply e₁ .append v vs) (apply e₂ .append w ws) := by
  refine (answer_sim laws (argument_alike hvs)).bind fun le hitem => ?_
  cases hv with
  | list h =>
    refine RunSim.bind (P := .same) ?_ fun le _ => .pure (hitem.mono le)
    exact .modify fun _ _ hmn => laws.append adds hmn (le.lists h) hitem
  | _ => exact .pure hitem

theorem subscript_sim (laws : Lawful S host₁ host₂) (hv : v.Alike ρ w)
    (hvs : Value.AllAlike ρ vs ws) :
    RunSim S ρ .alike (apply e₁ .subscript v vs) (apply e₂ .subscript w ws) := by
  cases hv with
  | list h =>
    refine (answer_sim laws (argument_alike hvs)).bind fun le hindex => ?_
    refine .get_bind fun m n hmn => ?_
    exact answer_sim laws (subscript_alike (laws.list hmn (le.lists h)) hindex) m n hmn
  | _ => exact .pure .null

theorem listText_sim (laws : Lawful S host₁ host₂) (engines : Engine.Alike S host₁ host₂ e₁ e₂)
    (hv : v.Alike ρ w) :
    RunSim S ρ .alike (apply e₁ .listText v vs) (apply e₂ .listText w ws) := by
  cases hv with
  | list h =>
    refine .get_bind fun m n hmn => ?_
    refine (Engine.textsOf_sim laws engines (laws.list hmn h)).bind (fun _ same => ?_) m n hmn
    obtain rfl := same
    exact .pure (.string _)
  | _ => exact .pure (.string _)

theorem written_sim (laws : Lawful S host₁ host₂) (engines : Engine.Alike S host₁ host₂ e₁ e₂)
    (hvs : Value.AllAlike ρ vs ws) (close : String → String) :
    RunSim S ρ .alike
      (do
        let v ← answer (argument vs)
        e₁.write (close (← e₁.textOf v))
        return v)
      (do
        let v ← answer (argument ws)
        e₂.write (close (← e₂.textOf v))
        return v) := by
  refine (answer_sim laws (argument_alike hvs)).bind fun _ hv => ?_
  refine (Engine.textOf_sim laws engines hv).bind fun le same => ?_
  obtain rfl := same
  refine (RunSim.lift (Engine.write_sim laws engines _)).bind fun le' _ => ?_
  exact .pure (hv.mono (le.trans le'))

/-- A method of the machine itself does the same for alike receivers and arguments. -/
theorem apply_sim (laws : Lawful S host₁ host₂) (engines : Engine.Alike S host₁ host₂ e₁ e₂)
    (p : Primitive) (adds : p = .append → S.adds) (hv : v.Alike ρ w)
    (hvs : Value.AllAlike ρ vs ws) :
    RunSim S ρ .alike (p.apply e₁ v vs) (p.apply e₂ w ws) := by
  have numbers (f : Float → Float → Value) (hf : ∀ x y, (f x y).Alike ρ (f x y)) :
      RunSim S ρ .alike (answer (binary f v vs) : Run H₁ Value) (answer (binary f w ws)) :=
    answer_sim laws (binary_alike hf hv hvs)
  have number {f : Float → Float} :
      RunSim S ρ .alike (return .number (f (receiverNumber v)) : Run H₁ Value)
        (return .number (f (receiverNumber w)) : Run H₂ Value) := by
    rw [receiverNumber_eq hv]
    exact .pure (.number _)
  cases p with
  | boolNot => rw [apply, apply, hv.isTrue]; exact .pure (.bool _)
  | boolText => rw [apply, apply, hv.isTrue]; exact .pure (.string _)
  | nullNot => exact .pure (.bool _)
  | nullText => exact .pure (.string _)
  | add => exact numbers _ fun _ _ => .number _
  | subtract => exact numbers _ fun _ _ => .number _
  | multiply => exact numbers _ fun _ _ => .number _
  | divide => exact numbers _ fun _ _ => .number _
  | remainder => exact numbers _ fun _ _ => .number _
  | less => exact numbers _ fun _ _ => .bool _
  | greater => exact numbers _ fun _ _ => .bool _
  | lessEqual => exact numbers _ fun _ _ => .bool _
  | greaterEqual => exact numbers _ fun _ _ => .bool _
  | negate => exact number
  | absolute => exact number
  | floor => exact number
  | ceil => exact number
  | squareRoot => exact number
  | isInteger => rw [apply, apply, receiverNumber_eq hv]; exact .pure (.bool _)
  | numberText => rw [apply, apply, receiverNumber_eq hv]; exact .pure (.string _)
  | concat => exact answer_sim laws (strings_alike (fun _ => .string _) rfl hv hvs)
  | stringCount => cases hv <;> exact .pure (.number _)
  | contains => exact answer_sim laws (strings_alike (fun _ => .bool _) rfl hv hvs)
  | stringText => exact .pure hv
  | append => exact append_sim laws (adds rfl) hv hvs
  | listCount =>
    cases hv with
    | list h =>
      refine .get_bind fun m n hmn => ?_
      have size := (laws.list hmn h).length_eq
      rw [Array.length_toList, Array.length_toList] at size
      rw [size]
      exact RunSim.pure (.number _) m n hmn
    | _ => exact .pure (.number _)
  | subscript => exact subscript_sim laws hv hvs
  | listText => exact listText_sim laws engines hv
  | printNewline =>
    exact (RunSim.lift (Engine.write_sim laws engines _)).bind fun _ _ => .pure .null
  | print => exact written_sim laws engines hvs (· ++ "\n")
  | write => exact written_sim laws engines hvs id

end Primitive

/-! ### What every value answers to -/

section

variable {H : Type}

/-- What is said of a value whose class does not know a signature. -/
private def complaint (m : Machine H) (v : Value) (signature : String) : RuntimeFault :=
  match v with
  | .classObject _ => .missingStatic (m.heap.className (m.classOf v)) signature
  | _ => .missingMethod (m.heap.className (m.classOf v)) signature

private theorem answerAnyway_nil (m : Machine H) (v : Value) (signature : String) :
    answerAnyway m v signature [] =
      if signature = "!" then .ok (.bool (!v.isTrue))
      else if signature = "toString" then .ok (.string (m.heap.describe v))
      else if signature = "type" then .ok (.classObject (m.classOf v))
      else if signature = "name" ∧ v.isClass then .ok (.string (m.heap.describe v))
      else .error (complaint m v signature) := by
  unfold answerAnyway
  split
  any_goals contradiction
  · rfl
  · rfl
  · rfl
  · cases v <;> simp_all [complaint, Value.isClass]
    split <;> simp_all

private theorem answerAnyway_one (m : Machine H) (v x : Value) (signature : String) :
    answerAnyway m v signature [x] =
      if signature = "==(_)" then .ok (.bool (v.same x))
      else if signature = "!=(_)" then .ok (.bool (!v.same x))
      else .error (complaint m v signature) := by
  unfold answerAnyway
  split
  any_goals contradiction
  · simp_all
  · simp_all
  · cases v <;> simp_all [complaint]

private theorem answerAnyway_more (m : Machine H) (v x y : Value) (signature : String)
    (rest : List Value) :
    answerAnyway m v signature (x :: y :: rest) = .error (complaint m v signature) := by
  unfold answerAnyway
  split
  case h_1 h => cases h
  case h_2 h => cases h
  any_goals contradiction
  cases v <;> simp [complaint]

end

/-- What the host calls alike values that do not know `toString` is the same. -/
private theorem describe_eq (laws : Lawful S host₁ host₂) (hmn : S.going ρ m n)
    (hv : v.Alike ρ w) (absent : m.method? v "toString" = none) :
    m.heap.describe v = n.heap.describe w := by
  cases hv with
  | list h =>
    obtain same | writes := laws.lists
    · exact same hmn h
    · rw [writes hmn] at absent
      cases absent
  | null => exact laws.describe hmn .null nofun
  | bool b => exact laws.describe hmn (.bool b) nofun
  | number x => exact laws.describe hmn (.number x) nofun
  | string s => exact laws.describe hmn (.string s) nofun
  | classObject h => exact laws.describe hmn (.classObject h) nofun
  | object h => exact laws.describe hmn (.object h) nofun
  | foreign h => exact laws.describe hmn (.foreign h) nofun

theorem answerAnyway_alike (laws : Lawful S host₁ host₂) (hmn : S.going ρ m n)
    (hv : v.Alike ρ w) (signature : String) (hvs : Value.AllAlike ρ vs ws)
    (absent : m.method? v signature = none) :
    AnswersAlike ρ (answerAnyway m v signature vs) (answerAnyway n w signature ws) := by
  have one := laws.oneToOne hmn
  have refused : AnswersAlike ρ (.error (complaint m v signature))
      (.error (complaint n w signature)) := by
    unfold complaint
    rw [laws.className hmn (laws.classOf hmn hv)]
    cases hv <;> exact .error rfl
  cases hvs with
  | nil =>
    rw [answerAnyway_nil, answerAnyway_nil, hv.isTrue]
    by_cases negation : signature = "!"
    · rw [if_pos negation, if_pos negation]
      exact .ok (.bool _)
    rw [if_neg negation, if_neg negation]
    by_cases text : signature = "toString"
    · subst text
      rw [if_pos rfl, if_pos rfl, describe_eq laws hmn hv absent]
      exact .ok (.string _)
    rw [if_neg text, if_neg text]
    by_cases type : signature = "type"
    · rw [if_pos type, if_pos type]
      exact .ok (.classObject (laws.classOf hmn hv))
    rw [if_neg type, if_neg type]
    have described := laws.describe hmn hv
    cases hv with
    | classObject h =>
      rw [described nofun]
      by_cases name : signature = "name"
      · rw [if_pos ⟨name, rfl⟩, if_pos ⟨name, rfl⟩]
        exact .ok (.string _)
      · rw [if_neg fun h => name h.1, if_neg fun h => name h.1]
        exact refused
    | _ => simpa [Value.isClass] using refused
  | cons h hvs =>
    cases hvs with
    | nil =>
      rw [answerAnyway_one, answerAnyway_one, hv.same one h]
      split
      · exact .ok (.bool _)
      · split
        · exact .ok (.bool _)
        · exact refused
    | cons _ _ =>
      rw [answerAnyway_more, answerAnyway_more]
      exact refused

/-! ### Running a method -/

theorem nested_run_deep {H α : Type} (act : Run H α) {m : Machine H}
    (deep : depthLimit ≤ m.vm.depth) : (nested act).run m = .ok (.error ⟨.tooDeep, []⟩) m := by
  change (if depthLimit ≤ m.vm.depth then _ else _ : Live H _) m = _
  rw [if_pos deep]
  rfl

theorem nested_run {H α : Type} (act : Run H α) {m : Machine H}
    (shallow : ¬ depthLimit ≤ m.vm.depth) :
    (nested act).run m =
      (act.run >>= fun result => do
        countOff
        return result : Live H _) (m.onVm Vm.deeper) := by
  change (if depthLimit ≤ m.vm.depth then _ else _ : Live H _) m = _
  rw [if_neg shallow]
  rfl

/-- The end of a method whose body came to something. -/
theorem countOff_then {H α : Type} (a : α) (m : Machine H) :
    (do countOff; return a : Live H α) m =
      if m.vm.depth = 0 then .error .miscount m else .ok a (m.onVm Vm.shallower) := by
  have off : countOff m =
      if m.vm.depth = 0 then .error .miscount m else .ok () (m.onVm Vm.shallower) := by
    change (if m.vm.depth = 0 then _ else _ : Live H _) m = _
    split <;> rfl
  change EStateM.bind countOff _ m = _
  unfold EStateM.bind
  rw [off]
  by_cases uncounted : m.vm.depth = 0
  · rw [if_pos uncounted, if_pos uncounted]
  · rw [if_neg uncounted, if_neg uncounted]
    rfl

/-- A method that came to its end came to what its body did, and was counted there. -/
theorem nested_inv {H α : Type} {act : Run H α} {m m' : Machine H} {r : Except RuntimeError α}
    (shallow : ¬ depthLimit ≤ m.vm.depth) (ran : (nested act).run m = .ok r m') :
    ∃ n, act.run (m.onVm Vm.deeper) = .ok r n ∧ n.vm.depth ≠ 0 ∧ m' = n.onVm Vm.shallower := by
  rw [nested_run act shallow] at ran
  obtain ⟨_, n, acted, ended⟩ := Live.bind_inv (x := act.run) ran
  rw [countOff_then] at ended
  split at ended
  · cases ended
  · rename_i counted
    cases ended
    exact ⟨n, acted, counted, rfl⟩

/-- The ends of two methods, once their bodies came to something. -/
theorem countOff_sim {α β : Type} {Q : Renaming → α → Machine H₁ → β → Machine H₂ → Prop} {a : α}
    {b : β} (depth : m.vm.depth = n.vm.depth)
    (came : Q ρ a (m.onVm Vm.shallower) b (n.onVm Vm.shallower))
    (counted : S.halt .miscount ρ m n ∨ m.vm.depth ≠ 0) :
    S.Ended ρ Q ((do countOff; return a : Live H₁ α) m)
      ((do countOff; return b : Live H₂ β) n) := by
  rw [countOff_then, countOff_then, ← depth]
  split
  · rename_i uncounted
    exact .halt le_rfl (counted.resolve_right (· uncounted))
  · exact .ok le_rfl came

theorem nested_sim {α β : Type} {P : Results α β} (laws : Nesting S host₁ host₂) {x : Run H₁ α}
    {y : Run H₂ β} (hmn : S.going ρ m n)
    (counts : S.Miscounts ∨ ∀ {r m'}, m.vm.depth < depthLimit →
      x.run (m.onVm Vm.deeper) = .ok r m' → m'.vm.depth ≠ 0)
    (h : S.going ρ (m.onVm Vm.deeper) (n.onVm Vm.deeper) →
      S.Ended ρ (S.Settled P) (x.run (m.onVm Vm.deeper)) (y.run (n.onVm Vm.deeper))) :
    S.Ended ρ (S.Settled P) ((nested x).run m) ((nested y).run n) := by
  by_cases deep : depthLimit ≤ m.vm.depth
  · rw [nested_run_deep x deep, nested_run_deep y (laws.depth hmn ▸ deep)]
    exact .ok le_rfl (.fault (laws.raise hmn rfl))
  · rw [nested_run x deep, nested_run y (laws.depth hmn ▸ deep)]
    have ended := (h (laws.deeper hmn)).and_left (C := fun _ p => S.Miscounts ∨ p.vm.depth ≠ 0)
      fun ran => counts.imp_right fun counted => counted (Nat.lt_of_not_le deep) ran
    refine ended.bind ?_
    rintro σ _ m _ n _ ⟨⟨hmn, hab⟩ | hmn, counted⟩
    · exact countOff_sim (laws.depth hmn) (.ok (laws.shallower hmn) hab)
        (counted.imp_left fun may => may.going hmn)
    · exact countOff_sim (laws.fault_depth hmn) (.fault (laws.fault_shallower hmn))
        (counted.imp_left fun may => may.fault hmn)

/-- Parameters bound one after the other, on top of a scope. -/
private theorem bound_alike (names : List String) (hvs : Value.AllAlike ρ vs ws) {s t : Bindings}
    (hst : Bindings.Alike ρ s t) :
    Bindings.Alike ρ ((names.zip vs).foldl (fun scope (name, v) => Table.set scope name v) s)
      ((names.zip ws).foldl (fun scope (name, v) => Table.set scope name v) t) := by
  induction hvs generalizing names s t with
  | nil => simpa using hst
  | cons h _ ih =>
    cases names with
    | nil => exact hst
    | cons name names => exact ih names (Table.Alike.set hst name h)

theorem parameters_alike (names : List String) (hvs : Value.AllAlike ρ vs ws) :
    Bindings.Alike ρ (parameters names vs) (parameters names ws) :=
  bound_alike names hvs .nil

def MethodDecl.frame (decl : MethodDecl) (moduleName className : String) (receiver : Value)
    (args : List Value) : Frame :=
  ⟨moduleName, some receiver, [parameters decl.params args], decl.span.line,
    className ++ "." ++ decl.signature⟩

theorem MethodDecl.frame_alike (decl : MethodDecl) (moduleName className : String)
    (hv : v.Alike ρ w) (hvs : Value.AllAlike ρ vs ws) :
    Frame.Alike ρ moduleName (decl.frame moduleName className v vs)
      (decl.frame moduleName className w ws) :=
  ⟨rfl, rfl, .some hv, .cons (parameters_alike decl.params hvs) .nil, rfl, rfl⟩

theorem callScript_run {H : Type} (engine : Engine H) (decl : MethodDecl) (receiver : Value)
    (args : List Value) (m : Machine H) :
    (callScript engine decl receiver args).run m =
      (do
        modify (·.onVm (·.openModule (m.moduleOf receiver)))
        match ← Script.activate
            (decl.frame (m.moduleOf receiver) (m.heap.className (m.classOf receiver)) receiver args)
            (execAll engine (decl.body.getD [])) with
        | .returned v => return v
        | _ => return if decl.kind = .constructor then receiver else .null : Run H Value).run m :=
  rfl

theorem callScript_sim (laws : Lawful S host₁ host₂) (engines : Engine.Alike S host₁ host₂ e₁ e₂)
    {decl : MethodDecl} (hmn : S.going ρ m n) (hv : v.Alike ρ w) (hvs : Value.AllAlike ρ vs ws)
    (written : ∀ d ∈ decl.declarations, S.written (m.moduleOf v) d) :
    S.Ended ρ (S.Settled .alike) ((callScript e₁ decl v vs).run m)
      ((callScript e₂ decl w ws).run n) := by
  have classes := laws.classOf hmn hv
  have names : m.moduleOf v = n.moduleOf w := by
    unfold Machine.moduleOf
    rw [laws.moduleName hmn classes]
  rw [callScript_run, callScript_run, ← names, laws.className hmn classes]
  refine RunSim.bind (P := .same) (.modify fun _ _ hmn => laws.openModule hmn _) (fun le _ => ?_)
    m n hmn
  have frames := decl.frame_alike (m.moduleOf v) (n.heap.className (n.classOf w)) (hv.mono le)
    (Value.AllAlike.mono hvs le)
  refine (ScriptSim.activate frames (execAll_sim laws engines _ written)).bind ?_
  intro σ _ _ le' flow
  have receiver := hv.mono (le.trans le')
  have otherwise : RunSim S σ .alike
      (return if decl.kind = .constructor then v else .null : Run H₁ Value)
      (return if decl.kind = .constructor then w else .null : Run H₂ Value) := by
    split
    · exact .pure receiver
    · exact .pure .null
  cases flow with
  | returned h => exact .pure h
  | _ => exact otherwise

theorem newObject_sim (laws : Lawful S host₁ host₂) (engines : Engine.Alike S host₁ host₂ e₁ e₂)
    (hmn : S.going ρ m n) {a b : ClassId} (hab : ρ.classes a b) (hvs : Value.AllAlike ρ vs ws)
    (made : S.Instantiates ρ m a n b) {c d : ClassObject} (hc : m.heap.class? a = some c)
    (hd : n.heap.class? b = some d) :
    S.Ended ρ (S.Settled .alike) ((newObject host₁ e₁ a c vs).run m)
      ((newObject host₂ e₂ b d ws).run n) := by
  have looks : c.LooksLike d := by
    have found := laws.class? hmn hab
    rw [hc, hd] at found
    cases found with
    | some h => exact h
  unfold newObject
  rw [looks.isForeign, looks.name]
  split
  · have allocates := looks.allocates
    cases hf : c.binding.allocate with
    | none =>
      rw [hf, Option.isSome_none, eq_comm, Option.isSome_eq_false_iff, Option.isNone_iff_eq_none]
        at allocates
      rw [allocates]
      exact laws.plainFault _ rfl m n hmn
    | some f =>
      rw [hf, Option.isSome_some, eq_comm, Option.isSome_iff_exists] at allocates
      obtain ⟨g, hg⟩ := allocates
      rw [hg]
      refine RunSim.bind_at (laws.allocate engines hmn hab hvs hc hd hf hg) fun _ hvw => ?_
      cases hvw with
      | foreign h => exact .pure (.foreign h)
      | _ => exact laws.plainFault _ rfl
  · obtain ⟨σ, le, hmn, hab⟩ := made
    exact RunSim.bind_at (P := fun σ a b => σ.instances a b) (.ok le (.ok hmn hab))
      fun _ h => .pure (.object h)

/-- The object that a constructor works on is of the class that was asked for, if it matters. -/
theorem newObject_class (laws : Lawful S host₁ host₂) (callbacks : e₁.callbacks = host₁.callbacks)
    (hmn : S.going ρ m n) {a b : ClassId} (hab : ρ.classes a b) {c : ClassObject}
    (hc : m.heap.class? a = some c) {m' : Machine H₁}
    (made : (newObject host₁ e₁ a c vs).run m = .ok (.ok v) m') :
    (∀ moduleName other decl, S.written moduleName decl → S.written other decl) ∨
      m'.heap.class? (m'.classOf v) = some c := by
  unfold newObject at made
  split at made
  · cases hf : c.binding.allocate with
    | none =>
      rw [hf] at made
      cases made
    | some f =>
      rw [hf] at made
      obtain ⟨_ | x, _, called, made⟩ := Live.bind_inv (m := m) made
      · cases made
      · cases x <;> cases made
        exact laws.allocated.imp_right fun allocated => allocated callbacks hmn hab hc hf called
  · cases made
    right
    change Heap.class? _ (Option.getD (Option.map _ (Array.push _ _)[_]?) 0) = _
    rw [Array.getElem?_push_size]
    exact hc

theorem construct_run {H : Type} (host : Host H) (engine : Engine H) (classId : ClassId)
    (decl : MethodDecl) (args : List Value) (m : Machine H) :
    (construct host engine classId decl args).run m =
      (match m.heap.class? classId with
      | none => return .null
      | some c => do
        let object ← newObject host engine classId c args
        let _ ← callScript engine decl object args
        return object : Run H Value).run m :=
  rfl

theorem construct_sim (laws : Lawful S host₁ host₂) (engines : Engine.Alike S host₁ host₂ e₁ e₂)
    {a b : ClassId} (hmn : S.going ρ m n) (hab : ρ.classes a b)
    (instances : S.Instantiates ρ m a n b)
    {decl : MethodDecl} (hvs : Value.AllAlike ρ vs ws)
    (written : ∀ d ∈ decl.declarations, S.written (m.moduleOf (.classObject a)) d) :
    S.Ended ρ (S.Settled .alike) ((construct host₁ e₁ a decl vs).run m)
      ((construct host₂ e₂ b decl ws).run n) := by
  rw [construct_run, construct_run]
  obtain ⟨hc, hd⟩ | ⟨c, d, hc, hd, _⟩ := optionRel_cases (laws.class? hmn hab)
  · rw [hc, hd]
    exact RunSim.pure .null m n hmn
  · rw [hc, hd]
    have made := newObject_sim laws engines hmn hab hvs instances hc hd
    have ofClass := made.and_left fun {r m'} h => show ∀ v, r = .ok v → _ from
      fun v hv => newObject_class laws engines.callbacks₁ hmn hab hc (hv ▸ h)
    refine ofClass.bind (f := ExceptT.bindCont _) (g := ExceptT.bindCont _) ?_
    rintro σ _ m' _ n' le ⟨@⟨v, _, _, _, hmn', object⟩ | hmn', inClass⟩
    · have written' : ∀ d ∈ decl.declarations, S.written (m'.moduleOf v) d := by
        obtain anywhere | ofClass := inClass _ rfl
        · exact fun d there => anywhere _ _ d (written d there)
        · have same : m'.moduleOf v = m.moduleOf (.classObject a) := by
            unfold Machine.moduleOf
            rw [ofClass]
            exact congrArg (fun x => Option.getD (Option.map _ x) _) hc.symm
          exact same ▸ written
      refine RunSim.bind_at (callScript_sim laws engines hmn' object (Value.AllAlike.mono hvs le)
        written') ?_
      exact fun le _ => .pure (object.mono le)
    · exact .ok le_rfl (.fault hmn')

/-- A message sent, where what scripts answer runs in a way of its own. -/
def invokeBy {H : Type} (host : Host H) (engine : Engine H) (body : MethodDecl → Run H Value)
    (making : ClassId → MethodDecl → Run H Value) (receiver : Value) (signature : String)
    (args : List Value) : Run H Value := do
  let m ← get
  match m.method? receiver signature with
  | none => Primitive.answer (answerAnyway m receiver signature args)
  | some (.primitive p) => p.apply engine receiver args
  | some (.foreign f) => callForeign host engine f receiver args
  | some (.script decl) => body decl
  | some (.constructor decl) =>
    match receiver with
    | .classObject id => making id decl
    | _ => fault .constructorOnObject

theorem invokeBy_run {H : Type} (host : Host H) (engine : Engine H)
    (body : MethodDecl → Run H Value) (making : ClassId → MethodDecl → Run H Value)
    (receiver : Value) (signature : String) (args : List Value) (m : Machine H) :
    (invokeBy host engine body making receiver signature args).run m =
      (match m.method? receiver signature with
      | none => Primitive.answer (answerAnyway m receiver signature args)
      | some (.primitive p) => p.apply engine receiver args
      | some (.foreign f) => callForeign host engine f receiver args
      | some (.script decl) => body decl
      | some (.constructor decl) =>
        match receiver with
        | .classObject id => making id decl
        | _ => fault .constructorOnObject : Run H Value).run m :=
  rfl

theorem invoke_run {H : Type} {host : Host H} {engine : Engine H} {m : Machine H}
    (receiver : Value) (signature : String) (args : List Value) :
    (invoke host engine receiver signature args).run m =
      (match m.method? receiver signature with
        | none => Primitive.answer (answerAnyway m receiver signature args)
        | some (.primitive p) => p.apply engine receiver args
        | some (.foreign f) => callForeign host engine f receiver args
        | some (.script decl) => nested (callScript engine decl receiver args)
        | some (.constructor decl) =>
          match receiver with
          | .classObject id => nested (construct host engine id decl args)
          | _ => fault .constructorOnObject : Run H Value).run m := rfl

theorem invoke_by {H : Type} (host : Host H) (engine : Engine H) (receiver : Value)
    (signature : String) (args : List Value) :
    invoke host engine receiver signature args =
      invokeBy host engine (fun decl => nested (callScript engine decl receiver args))
        (fun id decl => nested (construct host engine id decl args)) receiver signature args := rfl

theorem invokeBy_at (laws : Lawful S host₁ host₂) (engines : Engine.Alike S host₁ host₂ e₁ e₂)
    {body₁ : MethodDecl → Run H₁ Value} {body₂ : MethodDecl → Run H₂ Value}
    {making₁ : ClassId → MethodDecl → Run H₁ Value} {making₂ : ClassId → MethodDecl → Run H₂ Value}
    (hmn : S.going ρ m n) (hv : v.Alike ρ w) (signature : String) (hvs : Value.AllAlike ρ vs ws)
    (adds : m.method? v signature = some (.primitive .append) → S.adds)
    (bodies : ∀ {decl}, m.method? v signature = some (.script decl) →
      S.Ended ρ (S.Settled .alike) ((body₁ decl).run m) ((body₂ decl).run n))
    (makings : ∀ {a b decl}, ρ.classes a b → v = .classObject a →
      m.method? v signature = some (.constructor decl) →
      S.Ended ρ (S.Settled .alike) ((making₁ a decl).run m) ((making₂ b decl).run n)) :
    S.Ended ρ (S.Settled .alike) ((invokeBy host₁ e₁ body₁ making₁ v signature vs).run m)
      ((invokeBy host₂ e₂ body₂ making₂ w signature ws).run n) := by
  rw [invokeBy_run, invokeBy_run]
  obtain ⟨hm, hn⟩ | ⟨p, q, hm, hn, hpq⟩ := optionRel_cases (laws.method? hmn hv signature)
  · have answers := answerAnyway_alike laws hmn hv signature hvs hm
    rw [hm, hn]
    exact Primitive.answer_sim laws answers m n hmn
  · rw [hm, hn]
    cases hpq with
    | primitive p =>
      exact Primitive.apply_sim laws engines p (fun same => adds (same ▸ hm)) hv hvs m n hmn
    | foreign f g => exact laws.callForeign engines hmn signature hv hvs hm hn
    | script decl => exact bodies hm
    | constructor decl =>
      cases hv with
      | classObject h => exact makings h rfl hm
      | _ => exact laws.plainFault _ rfl m n hmn

theorem invokeBy_sim (laws : Lawful S host₁ host₂) (engines : Engine.Alike S host₁ host₂ e₁ e₂)
    {body₁ : MethodDecl → Run H₁ Value} {body₂ : MethodDecl → Run H₂ Value}
    {making₁ : ClassId → MethodDecl → Run H₁ Value} {making₂ : ClassId → MethodDecl → Run H₂ Value}
    (hv : v.Alike ρ w) (signature : String) (hvs : Value.AllAlike ρ vs ws) (adds : S.adds)
    (bodies : ∀ {m n decl}, S.going ρ m n → m.method? v signature = some (.script decl) →
      S.Ended ρ (S.Settled .alike) ((body₁ decl).run m) ((body₂ decl).run n))
    (makings : ∀ {m n a b decl}, S.going ρ m n → ρ.classes a b → v = .classObject a →
      m.method? v signature = some (.constructor decl) →
      S.Ended ρ (S.Settled .alike) ((making₁ a decl).run m) ((making₂ b decl).run n)) :
    RunSim S ρ .alike (invokeBy host₁ e₁ body₁ making₁ v signature vs)
      (invokeBy host₂ e₂ body₂ making₂ w signature ws) :=
  fun _ _ hmn => invokeBy_at laws engines hmn hv signature hvs (fun _ => adds) (bodies hmn)
    (makings hmn)

theorem invoke_at (laws : Nesting S host₁ host₂) (engines : Engine.Alike S host₁ host₂ e₁ e₂)
    (hmn : S.going ρ m n) (hv : v.Alike ρ w) (signature : String) (hvs : Value.AllAlike ρ vs ws)
    (adds : m.method? v signature = some (.primitive .append) → S.adds) :
    S.Ended ρ (S.Settled .alike) ((invoke host₁ e₁ v signature vs).run m)
      ((invoke host₂ e₂ w signature ws).run n) := by
  rw [invoke_by, invoke_by]
  refine invokeBy_at laws.toLawful engines hmn hv signature hvs adds (fun found => ?_)
    fun hab receiver found => ?_
  · refine nested_sim laws hmn (laws.miscount.imp_right fun counts => (counts engines.known).method)
      fun hmn' => callScript_sim laws.toLawful engines hmn' hv hvs ?_
    exact laws.bodies hmn found rfl
  · subst receiver
    refine nested_sim laws hmn
      (laws.miscount.imp_right fun counts => (counts engines.known).constructor) fun hmn' =>
      construct_sim laws.toLawful engines hmn' hab (laws.addInstance hmn' hab found) hvs ?_
    exact laws.bodies hmn found rfl

theorem invoke_sim (laws : Nesting S host₁ host₂) (engines : Engine.Alike S host₁ host₂ e₁ e₂)
    (hv : v.Alike ρ w) (signature : String) (hvs : Value.AllAlike ρ vs ws)
    (adds : S.adds := by exact True.intro) :
    RunSim S ρ .alike (invoke host₁ e₁ v signature vs) (invoke host₂ e₂ w signature ws) :=
  fun _ _ hmn => invoke_at laws engines hmn hv signature hvs fun _ => adds

/-! ### Modules -/

theorem runModule_sim (laws : Lawful S host₁ host₂) (engines : Engine.Alike S host₁ host₂ e₁ e₂)
    (name : String) (body : List Stmt)
    (written : ∀ decl ∈ declarationsOf body, S.written name decl) :
    RunSim S ρ .same (runModule e₁ name body) (runModule e₂ name body) := by
  have frames : (Frame.ofModule name).Alike ρ name (.ofModule name) :=
    ⟨rfl, rfl, .none, .nil, rfl, rfl⟩
  exact (ScriptSim.activate frames (execAll_sim laws engines body written)).bind fun _ _ =>
    .pure rfl

theorem loadModule_sim (laws : Lawful S host₁ host₂) (engines : Engine.Alike S host₁ host₂ e₁ e₂)
    (name : String) : RunSim S ρ .same (loadModule e₁ name) (loadModule e₂ name) := by
  unfold loadModule
  refine RunSim.bind (P := fun _ a b => a = b ∧ ∀ source, a = some source → S.Covers name source)
    (.modifyGet fun m n hmn => ?_) fun _ loaded => ?_
  · rw [engines.callbacks₁, engines.callbacks₂]
    obtain ⟨same, hmn, covers⟩ := laws.load hmn name
    exact ⟨ρ, le_rfl, hmn, same, covers⟩
  · obtain ⟨rfl, covers⟩ := loaded
    split
    · exact laws.plainFault _ rfl
    · rename_i source
      cases parsed : parseModule source with
      | error errors =>
        exact (RunSim.lift (Engine.reportAll_sim laws engines _)).bind fun _ _ =>
          laws.plainFault _ rfl
      | ok body =>
        refine RunSim.bind (P := .same) (.modify fun _ _ hmn => laws.openModule hmn name) ?_
        exact fun _ _ => runModule_sim laws engines name body (covers source rfl body parsed)

/-! ### The interpreter -/

theorem run_sim (laws : Nesting S host₁ host₂) (engines : Engine.Alike S host₁ host₂ e₁ e₂)
    {a b : Action} (hab : a.Alike ρ b) (adds : S.adds := by exact True.intro) :
    RunSim S ρ .alike (a.run host₁ e₁) (b.run host₂ e₂) := by
  cases hab with
  | send signature hv hvs => exact invoke_sim laws engines hv signature hvs adds
  | load name => exact (loadModule_sim laws.toLawful engines name).bind fun _ _ => .pure .null

private theorem result_of_bind_pure {H α β : Type} {x : Run H α} {f : α → β} {m m' : Machine H}
    {b : β} (h : (x >>= fun a => pure (f a)).run m = .ok (.ok b) m') : ∃ a, b = f a := by
  obtain ⟨_ | a, _, -, h⟩ := Live.bind_inv (x := x.run) h
  · cases h
  · cases h
    exact ⟨a, rfl⟩

/-- Where lists have the machine's own `toString`, it answers with a string. -/
theorem invokeBy_listText {H : Type} (host : Host H) (engine : Engine H)
    (body : MethodDecl → Run H Value) (making : ClassId → MethodDecl → Run H Value)
    {m m' : Machine H} (writes : m.WritesLists) {id : ListId} {v : Value}
    (h : (invokeBy host engine body making (.list id) "toString" []).run m = .ok (.ok v) m') :
    ∃ s, v = .string s := by
  change (match m.method? (.list id) "toString" with
    | none => _
    | some (.primitive p) => p.apply engine (.list id) []
    | some (.foreign f) => _
    | some (.script decl) => _
    | some (.constructor decl) => _ : Run H Value).run m = _ at h
  rw [writes id] at h
  obtain ⟨texts, rfl⟩ := result_of_bind_pure (x := engine.textsOf (m.heap.list id).toList) h
  exact ⟨_, rfl⟩

theorem answersLists {H : Type} (host : Host H) (depth : Nat) :
    (host.engine depth).AnswersLists := by
  intro m id v m' writes h
  cases depth with
  | zero => cases h
  | succ depth =>
    change (invoke host _ _ _ _).run m = _ at h
    rw [invoke_by] at h
    exact invokeBy_listText host _ _ _ writes h

/-- Engines of the same depth are alike. -/
theorem engine_alike (laws : Nesting S host₁ host₂) (depth : Nat)
    (adds : S.adds := by exact True.intro) :
    Engine.Alike S host₁ host₂ (host₁.engine depth) (host₂.engine depth) := by
  induction depth with
  | zero =>
    exact ⟨rfl, rfl, rfl, fun _ => .halt fun _ _ hmn => laws.exhaust hmn, answersLists _ _,
      laws.engines 0⟩
  | succ depth ih =>
    exact ⟨rfl, rfl, rfl, fun h => run_sim laws ih h adds, answersLists _ _, laws.engines _⟩

end ScriptHost
