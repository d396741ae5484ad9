import ScriptHost.Embedding.Session
import ScriptHost.Proofs.Closures
import ScriptHost.Proofs.Marshalling
import ScriptHost.Proofs.Narrowing.Doubles

/-! Numbers that the host reads as integers. A double is cut to the range of the type: it loses its
fraction, toward zero, and is clamped, so that the order is kept and nothing wraps. An integer goes
back as the nearest double; what was received once is received again, though the double may lie
past the range. -/

namespace ScriptHost

-- Powers are those of the core library, whatever else is in scope.
attribute [local instance (high)] instPowNat

namespace IntegerRange

variable {range : IntegerRange} {x : Binary}

theorem narrow_of_exact {q : ℚ} (value : x.rational? = some q) :
    range.narrow x = range.clamp (Binary.cut q) := by
  cases x with
  | nan | infinite => cases value
  | finite negative significand exponent =>
    unfold narrow
    dsimp only
    rw [Binary.truncate?_eq, value]
    rfl

theorem clamp_mono (range : IntegerRange) {m n : Int} (le : m ≤ n) :
    range.clamp m ≤ range.clamp n := by
  unfold clamp
  omega

theorem clamp_of_holds {n : Int} (within : range.Holds n) : range.clamp n = n := by
  obtain ⟨low, high⟩ := within
  unfold clamp
  omega

/-- Narrowing keeps the order of numbers, the infinite ones included. -/
theorem narrow_mono (zero : range.Holds 0) {x y : Float} (le : x ≤ y) :
    range.narrow (Binary.ofFloat x) ≤ range.narrow (Binary.ofFloat y) := by
  have heldX := Binary.ofFloat_isDouble x
  have heldY := Binary.ofFloat_isDouble y
  replace le : x.toModel.unpack.le y.toModel.unpack := of_decide_eq_true le
  rw [Binary.ofFloat_eq] at heldX heldY
  rw [Binary.ofFloat_eq, Binary.ofFloat_eq]
  generalize x.toModel.unpack = a at heldX le ⊢
  generalize y.toModel.unpack = b at heldY le ⊢
  have within (z : Binary) : range.Holds (range.narrow z) := narrow_holds zero z
  cases first : (Binary.ofUnpacked a).rational? with
  | some p =>
    cases second : (Binary.ofUnpacked b).rational? with
    | some q =>
      rw [narrow_of_exact first, narrow_of_exact second]
      exact range.clamp_mono (Binary.cut_mono (Binary.exact_le heldX heldY le first second))
    | none =>
      cases b with
      | notANumber => cases a <;> cases le
      | infinity sign =>
        cases sign with
        | positive => exact (within _).2
        | negative => cases a with
          | infinity | notANumber => cases first
          | zero | finite => cases le
      | zero | finite => cases second
  | none =>
    cases a with
    | notANumber => cases le
    | infinity sign =>
      cases sign with
      | negative => exact (within _).1
      | positive => cases b with
        | infinity other => cases other with
          | positive => exact Int.le_refl _
          | negative => cases le
        | notANumber | zero | finite => cases le
    | zero | finite => cases first

/-- A whole number of the range that a double holds comes back from it. -/
theorem narrow_ofInt {n : Int} (whole : Binary.IsWhole n) (within : range.Holds n) :
    range.narrow (Binary.ofFloat (Binary.ofInt n).toFloat) = n := by
  obtain ⟨held, value⟩ := Binary.ofInt_exact whole
  rw [Binary.ofFloat_toFloat held, narrow_of_exact value, Binary.cut_intCast,
    clamp_of_holds within]

/-- What a double is narrowed to is a double again, or the greatest integer of the range. -/
theorem isWhole_narrow (held : x.IsDouble) (least : Binary.IsWhole range.least) :
    Binary.IsWhole (range.narrow x) ∨ range.narrow x = range.greatest := by
  cases x with
  | nan => exact .inl ⟨0, 0, by decide, by decide, rfl⟩
  | infinite negative =>
    cases negative with
    | true => exact .inl least
    | false => exact .inr rfl
  | finite negative significand exponent =>
    obtain ⟨n, cut⟩ : ∃ n, (Binary.finite negative significand exponent).truncate? = some n :=
      ⟨_, rfl⟩
    have narrowed : range.narrow (.finite negative significand exponent) = range.clamp n := by
      unfold narrow
      dsimp only
      rw [cut]
      rfl
    rw [narrowed]
    have ends : range.clamp n = n ∨ range.clamp n = range.least ∨
        range.clamp n = range.greatest := by
      unfold clamp
      omega
    rcases ends with same | bottom | top
    · exact .inl (same.symm ▸ Binary.isWhole_truncate? held cut)
    · exact .inl (bottom.symm ▸ least)
    · exact .inr top

end IntegerRange

namespace NumberType

variable {type : NumberType} {range : IntegerRange}

/-- The width of a number in bits; a pointer is as wide as 64 bits. -/
def bits : NumberType → Nat
  | i8 | u8 => 8
  | i16 | u16 => 16
  | f32 | i32 | u32 => 32
  | f64 | i64 | isize | u64 | usize => 64

theorem isWhole_least (bounded : type.range? = some range) : Binary.IsWhole range.least := by
  cases type <;> cases bounded
  case i8 => exact ⟨1, 7, by decide, by decide, rfl⟩
  case i16 => exact ⟨1, 15, by decide, by decide, rfl⟩
  case i32 => exact ⟨1, 31, by decide, by decide, rfl⟩
  case i64 | isize => exact ⟨1, 63, by decide, by decide, rfl⟩
  all_goals exact ⟨0, 0, by decide, by decide, rfl⟩

/-- An integer of up to 32 bits, or of a magnitude up to `2 ^ 53`, is a double. -/
theorem isWhole_of_small (bounded : type.range? = some range) {n : Int} (within : range.Holds n)
    (small : type.bits ≤ 32 ∨ n.natAbs ≤ 2 ^ (53 : Nat)) : Binary.IsWhole n := by
  have magnitude : n.natAbs ≤ 2 ^ (53 : Nat) := by
    rcases small with short | small
    · obtain ⟨low, high⟩ := within
      cases type <;> cases bounded <;>
        simp only [bits, IntegerRange.signed, IntegerRange.unsigned] at short low high <;> omega
    · exact small
  by_cases last : n.natAbs = 2 ^ (53 : Nat)
  · exact ⟨2 ^ (52 : Nat), 1, by decide, by decide, last⟩
  · exact ⟨n.natAbs, 0, by omega, by decide, (Nat.mul_one _).symm⟩

/-- The greatest integer of 64 bits is rounded up, past the range, and cut back to it. -/
theorem narrow_greatest (bounded : type.range? = some range) :
    range.narrow (Binary.ofFloat (Binary.ofInt range.greatest).toFloat) = range.greatest := by
  cases type <;> cases bounded <;> decide +kernel

/-- What a double is narrowed to stays the same from then on. -/
theorem narrow_again (bounded : type.range? = some range) (x : Float) :
    range.narrow (Binary.ofFloat (Binary.ofInt (range.narrow (Binary.ofFloat x))).toFloat) =
      range.narrow (Binary.ofFloat x) := by
  rcases IntegerRange.isWhole_narrow (Binary.ofFloat_isDouble x) (isWhole_least bounded) with
    whole | top
  · exact IntegerRange.narrow_ofInt whole (IntegerRange.narrow_holds (range?_holds_zero bounded) _)
  · rw [top]
    exact narrow_greatest bounded

end NumberType

namespace Machine

variable {H : Type} {m : Machine H} {slot : Nat} {type : NumberType} {range : IntegerRange}

/-- What the host gets of a slot that it reads as a number of some type. -/
def received (m : Machine H) (slot : Nat) (type : NumberType) :
    Except BoundaryFault (Option Argument) :=
  (m.decode slot (.number type)).map (Kind.number type).argument?

theorem received_number (bounded : type.range? = some range) {x : Float}
    (there : m.vm.slot? slot = some (.number x)) :
    m.received slot type = .ok (some (.integer (range.narrow (Binary.ofFloat x)))) := by
  have read : m.decode slot (.number type) = .ok (.number x) :=
    decode_ok_iff.mpr ⟨_, there, .number x type⟩
  have narrowed : type.narrow x = .integer (range.narrow (Binary.ofFloat x)) := by
    unfold NumberType.narrow
    rw [bounded]
  unfold received
  rw [read]
  exact congrArg (fun a => Except.ok (some a)) narrowed

/-- An integer is only ever received of a number. -/
theorem received_integer (bounded : type.range? = some range) {n : Int}
    (read : m.received slot type = .ok (some (.integer n))) :
    ∃ x, m.vm.slot? slot = some (.number x) ∧ n = range.narrow (Binary.ofFloat x) := by
  unfold received at read
  cases decoded : m.decode slot (.number type) with
  | error f => rw [decoded] at read; cases read
  | ok w =>
    obtain ⟨v, there, crosses⟩ := decode_ok_iff.mp decoded
    cases crosses with
    | number x =>
      have again := received_number bounded there
      unfold received at again
      rw [read] at again
      cases again
      exact ⟨x, there, rfl⟩

/-- An integer that is put into a slot is received as its double is narrowed. -/
theorem received_encoded (bounded : type.range? = some range) (m : Machine H) (slot : Nat)
    (n : Int) : ∃ m', m.encode slot (Argument.integer n).toHostValue = .ok m' ∧
      m'.received slot type =
        .ok (some (.integer (range.narrow (Binary.ofFloat (Binary.ofInt n).toFloat)))) :=
  ⟨_, rfl, received_number bounded (m.slotSet slot _).here⟩

end Machine

/-- An integer is a double cut to a range: not a number counts as zero, what is finite loses its
fraction, toward zero, and is clamped, and what is infinite is clamped. -/
structure IntegerRange.Cuts (range : IntegerRange) (x : Float) (n : Int) : Prop where
  within : range.Holds n
  notNumber : x.isNaN → n = 0
  finite : x.isFinite → ∃ q, (Binary.ofFloat x).rational? = some q ∧
    n = range.clamp (Binary.cut q)
  infinite : x.isInf → ∃ negative, Binary.ofFloat x = .infinite negative ∧
    n = if negative then range.least else range.greatest

theorem IntegerRange.cuts_narrow {range : IntegerRange} (zero : range.Holds 0) (x : Float) :
    range.Cuts x (range.narrow (Binary.ofFloat x)) where
  within := narrow_holds zero _
  notNumber no := by
    replace no : x.toModel.unpack.isNaN := no
    rw [Binary.ofFloat_eq]
    cases unpacked : x.toModel.unpack <;> rw [unpacked] at no <;> cases no
    rfl
  finite ordinary := by
    replace ordinary : x.toModel.unpack.isFinite := ordinary
    obtain ⟨q, value⟩ : ∃ q, (Binary.ofFloat x).rational? = some q := by
      rw [Binary.ofFloat_eq]
      cases unpacked : x.toModel.unpack <;> rw [unpacked] at ordinary <;> cases ordinary <;>
        exact ⟨_, rfl⟩
    exact ⟨q, value, narrow_of_exact value⟩
  infinite endless := by
    replace endless : x.toModel.unpack.isInf := endless
    rw [Binary.ofFloat_eq]
    cases unpacked : x.toModel.unpack <;> rw [unpacked] at endless <;> cases endless
    exact ⟨_, rfl, rfl⟩

/-- For every integer type and all machines: a number in a slot is received as the integer of the
type that it is cut to, and by a typed function as well; a number that is no greater is received as
an integer that is no greater; an integer of up to 32 bits, or of a magnitude up to `2 ^ 53`, is put
into a slot and received as itself; and so is every integer that was received, also where its double
lies past the range. -/
theorem integers_narrowed {H : Type} {type : NumberType} {range : IntegerRange}
    (bounded : type.range? = some range) :
    (∀ (m : Machine H) (slot : Nat) (x : Float), m.vm.slot? slot = some (.number x) →
      ∃ n, m.received slot type = .ok (some (.integer n)) ∧ range.Cuts x n ∧
        ∃ within, (ParameterType.number type).fromHost (.number x) =
          some (.integer n bounded within)) ∧
    (∀ (m m' : Machine H) (slot slot' : Nat) (x y : Float) (n k : Int),
      m.vm.slot? slot = some (.number x) → m'.vm.slot? slot' = some (.number y) → x ≤ y →
      m.received slot type = .ok (some (.integer n)) →
      m'.received slot' type = .ok (some (.integer k)) → n ≤ k) ∧
    (∀ (m : Machine H) (slot : Nat) (n : Int), range.Holds n →
      type.bits ≤ 32 ∨ n.natAbs ≤ 2 ^ (53 : Nat) →
      ∃ m', m.encode slot (Argument.integer n).toHostValue = .ok m' ∧
        m'.received slot type = .ok (some (.integer n))) ∧
    (∀ (m m' : Machine H) (slot slot' : Nat) (n : Int),
      m.received slot type = .ok (some (.integer n)) →
      ∃ m'', m'.encode slot' (Argument.integer n).toHostValue = .ok m'' ∧
        m''.received slot' type = .ok (some (.integer n))) := by
  have zero := NumberType.range?_holds_zero bounded
  refine ⟨fun m slot x there => ?_, fun m m' slot slot' x y n k hx hy le first second => ?_,
    fun m slot n within small => ?_, fun m m' slot slot' n read => ?_⟩
  · refine ⟨_, Machine.received_number bounded there, IntegerRange.cuts_narrow zero x,
      IntegerRange.narrow_holds zero _, ?_⟩
    cases type <;> cases bounded <;> rfl
  · rw [Machine.received_number bounded hx] at first
    rw [Machine.received_number bounded hy] at second
    cases first
    cases second
    exact IntegerRange.narrow_mono zero le
  · have whole := NumberType.isWhole_of_small bounded within small
    obtain ⟨m', put, got⟩ := Machine.received_encoded bounded m slot n
    rw [IntegerRange.narrow_ofInt whole within] at got
    exact ⟨m', put, got⟩
  · obtain ⟨x, -, rfl⟩ := Machine.received_integer bounded read
    obtain ⟨m'', put, got⟩ := Machine.received_encoded bounded m' slot' _
    rw [NumberType.narrow_again bounded x] at got
    exact ⟨m'', put, got⟩

/-- The greatest integer of 64 bits is received of the double `2 ^ 64`, past the range; it goes back
as that double, and is received again. -/
theorem integers_narrowed_past_range :
    NumberType.u64.range? = some (.unsigned 64) ∧ ∃ m m' : Machine Unit,
      m.vm.slot? 0 = some (.number (Binary.ofInt 18446744073709551616).toFloat) ∧
      m.received 0 .u64 = .ok (some (.integer 18446744073709551615)) ∧
      m.encode 0 (Argument.integer 18446744073709551615).toHostValue = .ok m' ∧
      m'.received 0 .u64 = .ok (some (.integer 18446744073709551615)) := by
  let x : Float := (Binary.ofInt 18446744073709551616).toFloat
  let m : Machine Unit := (Machine.fresh ()).onVm (·.setSlot 0 (.number x))
  have there : m.vm.slot? 0 = some (.number x) := rfl
  have read : m.received 0 .u64 = .ok (some (.integer 18446744073709551615)) := by
    rw [Machine.received_number rfl there]
    exact congrArg (fun n => Except.ok (some (Argument.integer n))) (by decide +kernel)
  obtain ⟨m', put, got⟩ := (@integers_narrowed Unit .u64 _ rfl).2.2.2 m m 0 0 _ read
  exact ⟨rfl, m, m', there, read, put, got⟩

end ScriptHost
