import ScriptHost.Proofs.Closures

/-! Ready-made routines as typed functions. A ready-made routine gets its arguments with the types
left out. It reads and converts them as a typed function does; and what the routines of plain values
come to is what a function of their types may come to. So each of them is the routine of a typed
function, and a call of it goes as such a call does. -/

namespace ScriptHost

-- Sums start from the core library's zero, whatever else is in scope.
attribute [local instance (high)] Zero.ofOfNat0

variable {H : Type}

/-! ### Arguments with their types left out -/

def HostNumber.argument {type : NumberType} : HostNumber type → Argument
  | integer n _ _ => .integer n
  | float x _ => .number x

theorem HostNumber.argument_ofFloat (type : NumberType) (x : Float) :
    (ofFloat type x).argument = type.narrow x := by
  cases type <;> rfl

namespace ParameterType

/-- A value of a type, with the type left out. -/
def argument : (t : ParameterType) → t.denote → Argument
  | bool, b => .bool b
  | number _, x => x.argument
  | string, s => .text s
  | value, v => .ofHostValue v
  | foreign _, ref => .foreign ref.val
  | optional _, none => .null
  | optional inner, some x => inner.argument x

/-- The type that a kind describes. -/
def ofKind : Kind → ParameterType
  | .bool => bool
  | .number type => number type
  | .string => string
  | .any => value
  | .foreign type => foreign type
  | .optional inner => optional (ofKind inner)

theorem kind_ofKind (kind : Kind) : (ofKind kind).kind = kind := by
  induction kind with
  | optional inner ih => exact congrArg Kind.optional ih
  | _ => rfl

theorem argument?_kind (t : ParameterType) (v : HostValue) :
    t.kind.argument? v = (t.fromHost v).map t.argument := by
  induction t with
  | optional inner ih =>
    by_cases there : v = .null
    · subst there
      rfl
    · have same : (optional inner).kind.argument? v = inner.kind.argument? v := by
        cases v with
        | null => exact absurd rfl there
        | _ => rfl
      rw [same, ih, fromHost_optional there]
      cases inner.fromHost v <;> rfl
  | number type =>
    cases v with
    | number x => exact congrArg some (HostNumber.argument_ofFloat type x).symm
    | _ => rfl
  | foreign type =>
    cases v with
    | foreign ref =>
      by_cases own : ref.hostType = some type
      · have converted : (foreign type).fromHost (.foreign ref) = some ⟨ref, own⟩ := dif_pos own
        rw [converted]
        exact if_pos own
      · have refused : (foreign type).fromHost (.foreign ref) = none := dif_neg own
        rw [refused]
        exact if_neg own
    | _ => rfl
  | _ => cases v <;> rfl

theorem toHostValue_argument (t : ParameterType) (a : t.denote) :
    (t.argument a).toHostValue = t.intoHost a := by
  induction t with
  | optional inner ih =>
    cases a with
    | none => rfl
    | some x => exact ih x
  | number type => cases a <;> rfl
  | value => cases a <;> rfl
  | _ => rfl

end ParameterType

/-- Arguments with their types left out. -/
def Arguments.toList : {ts : List ParameterType} → Arguments ts → List Argument
  | _, nil => []
  | t :: _, cons first rest => t.argument first :: rest.toList

theorem typedArguments_parameterKinds (i : Nat) (ts : List ParameterType)
    (values : List HostValue) : typedArguments i (parameterKinds ts) values =
      (Arguments.take i ts values).map Arguments.toList := by
  induction ts generalizing i values with
  | nil => rfl
  | cons t ts ih =>
    have first : values.head?.bind t.kind.argument? =
        (values.head?.bind t.fromHost).map t.argument := by
      cases values with
      | nil => rfl
      | cons v rest => exact t.argument?_kind v
    change typedArguments i (t.kind :: parameterKinds ts) values = _
    unfold typedArguments Arguments.take
    rw [first, ih]
    cases values.head?.bind t.fromHost with
    | none => rfl
    | some a =>
      cases Arguments.take (i + 1) ts (values.drop 1) <;> rfl

/-- A ready-made routine that does what a typed function does is that function's routine. -/
theorem Closure.routine_eq_typed (c : Closure) {call : List Argument → Heap → Effect}
    (same : ∀ args heap, call (Arguments.toList args) heap = (c.call args heap).effect) :
    Routine.typed (parameterKinds c.params) c.returns.kind? call = c.routine := by
  unfold Routine.typed Closure.routine
  congr 1
  funext values heap
  rw [typedArguments_parameterKinds]
  cases Arguments.take 0 c.params values with
  | error f => rfl
  | ok args => exact same args heap

/-! ### Results -/

/-- What a function with this result may come to. -/
def ReturnType.Allows (r : ReturnType) (effect : Effect) : Prop := ∃ e : Ending r, e.effect = effect

/-- A routine that only does what its types allow is that of a typed function. -/
theorem Closure.exists_typed (params : List ParameterType) (returns : ReturnType)
    {call : List Argument → Heap → Effect}
    (allowed : ∀ (args : Arguments params) heap, returns.Allows (call args.toList heap)) :
    ∃ c : Closure, c.routine = .typed (parameterKinds params) returns.kind? call := by
  choose ending same using allowed
  let c : Closure := ⟨params, returns, ending⟩
  exact ⟨c, (c.routine_eq_typed fun args heap => (same args heap).symm).symm⟩

namespace ReturnType

theorem allows_value {t : ParameterType} {plain : t.isPlain} (x : t.denote) :
    (one t plain).Allows (.result (t.intoHost x)) := ⟨⟨.ok x, [], none⟩, rfl⟩

theorem allows_nothing : nothing.Allows .nothing := ⟨⟨.ok (), [], none⟩, rfl⟩

theorem allows_failure (r : ReturnType) (text : String) :
    (result r).Allows (.only (.fault (.failed text))) := ⟨⟨.ok (.error text), [], none⟩, rfl⟩

theorem allows_panic (r : ReturnType) (message : String) : r.Allows (.only (.panic message)) :=
  ⟨⟨.error message, [], none⟩, rfl⟩

theorem allows_number (x : Float) : (one (.number .f64) rfl).Allows (Catalogue.number x) :=
  @allows_value (.number .f64) rfl (HostNumber.float x rfl)

theorem allows_text (s : String) : (one .string rfl).Allows (Catalogue.text s) :=
  @allows_value .string rfl s

theorem allows_integer {type : NumberType} {range : IntegerRange}
    (bounded : type.range? = some range) {n : Int} (within : range.Holds n) :
    (one (.number type) rfl).Allows (Catalogue.integer n) :=
  @allows_value (.number type) rfl (HostNumber.integer n bounded within)

end ReturnType

/-! ### Integers within their range -/

theorem IntegerRange.wrap_holds {range : IntegerRange} (proper : range.least ≤ range.greatest)
    (n : Int) : range.Holds (range.wrap n) := by
  have low := Int.emod_nonneg (n - range.least)
    (by omega : range.greatest - range.least + 1 ≠ 0)
  have high := Int.emod_lt_of_pos (n - range.least)
    (by omega : 0 < range.greatest - range.least + 1)
  unfold Holds wrap
  omega

namespace Catalogue

open ReturnType

theorem integerOf_argument {type : NumberType} {range : IntegerRange}
    (bounded : type.range? = some range) (x : HostNumber type) :
    range.Holds (integerOf x.argument) := by
  cases x with
  | integer n bounded' within =>
    cases bounded.symm.trans bounded'
    exact within
  | float x unbounded => cases bounded.symm.trans unbounded

/-- A sum of integers lies within as many times the range. -/
theorem sum_within {type : NumberType} {range : IntegerRange} (bounded : type.range? = some range)
    (n : Nat) (args : Arguments (List.replicate n (.number type))) :
    n * range.least ≤ (args.toList.map integerOf).sum ∧
      (args.toList.map integerOf).sum ≤ n * range.greatest := by
  induction n with
  | zero =>
    cases args
    exact ⟨by simp [Arguments.toList], by simp [Arguments.toList]⟩
  | succ n ih =>
    obtain _ | ⟨x, rest⟩ := args
    obtain ⟨low, high⟩ := ih rest
    obtain ⟨least, greatest⟩ := integerOf_argument bounded x
    have more : ((Arguments.cons x rest).toList.map integerOf).sum =
        integerOf x.argument + (rest.toList.map integerOf).sum := rfl
    rw [more, Int.natCast_succ, Int.add_mul, Int.add_mul, Int.one_mul, Int.one_mul]
    omega

/-! ### Tables -/

/-- For every kind but those of foreign objects, the routine that gives its argument back is that of
a typed function. -/
theorem echo_typed (kind : Kind) (plain : (ParameterType.ofKind kind).isPlain) :
    ∃ c : Closure, c.routine = echo kind := by
  have typed : ∃ c : Closure, c.routine = echo (ParameterType.ofKind kind).kind := by
    refine Closure.exists_typed [.ofKind kind] (.one (.ofKind kind) plain) fun args _ => ?_
    obtain _ | ⟨a, _ | _⟩ := args
    change Allows _ (.result (ParameterType.argument _ a).toHostValue)
    rw [ParameterType.toHostValue_argument]
    exact allows_value a
  rwa [ParameterType.kind_ofKind] at typed

theorem echoes_typed : ∀ entry ∈ echoes, ∃ c : Closure, c.routine = entry.2 := by
  intro entry member
  obtain ⟨named, among, rfl⟩ := List.mem_map.mp member
  have plain : ∀ named ∈ echoKinds, (ParameterType.ofKind named.2).isPlain := by decide
  exact echo_typed named.2 (plain named among)

theorem floats_typed (params : List ParameterType) (f : List Argument → Float) :
    ∃ c : Closure, c.routine = plain (parameterKinds params) f64 fun args => number (f args) :=
  Closure.exists_typed params (.one (.number .f64) rfl) fun args _ =>
    allows_number (f args.toList)

theorem integers_typed (params : List ParameterType) {type : NumberType} {range : IntegerRange}
    (bounded : type.range? = some range) (f : List Argument → Int)
    (within : ∀ args : Arguments params, range.Holds (f args.toList)) :
    ∃ c : Closure,
      c.routine = plain (parameterKinds params) (.number type) fun args => integer (f args) :=
  Closure.exists_typed params (.one (.number type) rfl) fun args _ =>
    allows_integer bounded (within args)

theorem arithmetic_typed : ∀ entry ∈ arithmetic, ∃ c : Closure, c.routine = entry.2 := by
  simp only [arithmetic, List.forall_mem_cons, List.not_mem_nil, false_implies, implies_true,
    and_true]
  refine ⟨integers_typed [.number .i64, .number .i64] rfl _ fun _ =>
      IntegerRange.wrap_holds (by decide) _,
    floats_typed [.number .f64, .number .f64] _,
    floats_typed [.number .i32, .number .f64, .number .u8] _,
    integers_typed (List.replicate 5 (.number .i32)) rfl _ fun args => ?_,
    integers_typed (List.replicate 6 (.number .u8)) rfl _ fun args => ?_,
    floats_typed (List.replicate 7 (.number .f64)) _, ?_,
    integers_typed [] rfl _ fun _ => ⟨by decide, Int.le_refl _⟩,
    integers_typed [] rfl _ fun _ => ⟨Int.le_refl _, by decide⟩⟩
  · obtain ⟨low, high⟩ := sum_within rfl 5 args
    exact ⟨Int.le_trans (by decide) low, Int.le_trans high (by decide)⟩
  · obtain ⟨low, high⟩ := sum_within rfl 6 args
    exact ⟨Int.le_trans (by decide) low, Int.le_trans high (by decide)⟩
  · refine Closure.exists_typed [.number .f64] (.result (.one (.number .f64) rfl)) fun args _ => ?_
    dsimp only
    split
    · exact allows_failure _ _
    · exact ⟨⟨.ok (.ok (HostNumber.float _ rfl)), [], none⟩, rfl⟩

theorem texts_typed : ∀ entry ∈ texts, ∃ c : Closure, c.routine = entry.2 := by
  simp only [texts, List.forall_mem_cons, List.not_mem_nil, false_implies, implies_true, and_true]
  let returns : ReturnType := .one .string rfl
  refine ⟨Closure.exists_typed [.string, .bool, .number .f64, .optional .string] returns ?_,
    Closure.exists_typed (List.replicate 8 .string) returns fun _ _ => allows_text _,
    Closure.exists_typed [.optional .string] returns ?_,
    Closure.exists_typed [] returns fun _ _ => allows_text _⟩
  · rintro (_ | ⟨a, _ | ⟨b, _ | ⟨c, _ | ⟨d, _ | _⟩⟩⟩⟩) _
    exact allows_text _
  · rintro (_ | ⟨name, _ | _⟩) _
    cases name <;> exact allows_text _

theorem endings_typed : ∀ entry ∈ endings, ∃ c : Closure, c.routine = entry.2 := by
  simp only [endings, List.forall_mem_cons, List.not_mem_nil, false_implies, implies_true, and_true]
  exact ⟨Closure.exists_typed [] .nothing fun _ _ => allows_nothing,
    Closure.exists_typed [] .nothing fun _ _ => allows_nothing,
    Closure.exists_typed [] (.result .nothing) fun _ _ => allows_failure _ _,
    Closure.exists_typed [] (.one (.optional (.number .f64)) rfl) fun _ _ =>
      @allows_value (.optional (.number .f64)) rfl none,
    Closure.exists_typed [] (.one .bool rfl) fun _ _ => allows_panic _ _,
    Closure.exists_typed [.number .f64] (.one .bool rfl) fun _ _ => allows_panic _ _,
    Closure.exists_typed [] (.one .bool rfl) fun _ _ => allows_panic _ _⟩

/-- Every ready-made routine of plain values is that of a typed function. -/
theorem plain_typed {entry : String × Routine}
    (member : entry ∈ echoes ++ arithmetic ++ texts ++ endings) :
    ∃ c : Closure, c.routine = entry.2 := by
  simp only [List.mem_append] at member
  obtain ((member | member) | member) | member := member
  · exact echoes_typed entry member
  · exact arithmetic_typed entry member
  · exact texts_typed entry member
  · exact endings_typed entry member

/-- The result of a ready-made routine of plain values is never refused: a mismatch of kinds is that
of a slot, read as the kind of its parameter. -/
theorem mismatch_of_slot {entry : String × Routine}
    (member : entry ∈ echoes ++ arithmetic ++ texts ++ endings) (keep : ForeignId → H → H)
    (m : Machine H) {slot : Nat} {expected found : String}
    (mismatch : ((entry.2.dispatch keep).run m).1 = .error (.typeMismatch slot expected found)) :
    ∃ (i : Nat) (kind : Kind), entry.2.params[i]? = some kind ∧
      m.decode ((if (m.vm.slot? 0).any Value.isHidden then 1 else 0) + i) kind =
        .error (.typeMismatch slot expected found) := by
  obtain ⟨c, same⟩ := plain_typed member
  rw [← same] at mismatch ⊢
  obtain ⟨i, unread⟩ := c.mismatch_of_slot keep m mismatch
  refine ⟨i, (c.params.get i).kind, ?_, unread⟩
  change (c.params.map (·.kind))[i.val]? = _
  rw [List.getElem?_map, List.getElem?_eq_getElem i.isLt, Option.map_some]
  rfl

end Catalogue

end ScriptHost
