import ScriptHost.Number.Literal
import ScriptHost.Proofs.Encoding
import ScriptHost.Proofs.Rendering.Tree

/-! The digits of a number below `2 ^ 53`, and the double that they are read as: no bit of the
number is lost. -/

namespace ScriptHost

-- Powers are those of the core library, whatever else is in scope.
attribute [local instance (high)] instPowNat

namespace Binary

theorem nearestEven_one (m : Nat) : nearestEven m 1 = m := by
  simp [nearestEven, Nat.mod_one]

theorem floorLog2_one {n : Nat} (positive : n ≠ 0) : floorLog2 n 1 = n.log2 := by
  have le : 2 ^ n.log2 ≤ n := Nat.log2_self_le positive
  have one : Nat.log2 1 = 0 := by decide
  simp [floorLog2, scaled, one, le]

/-- A number of at most 53 bits is not rounded. -/
theorem round_exactly {n : Nat} (small : n < 2 ^ (53 : Nat)) :
    round .double false n 1 = exactly n := by
  by_cases zero : n = 0
  · subst zero
    rfl
  · have log : n.log2 ≤ 52 := by
      have := (Nat.log2_lt zero).mpr small
      omega
    have lower : max (-1074) ((n.log2 : Int) - (53 - 1)) = n.log2 - 52 := by omega
    have shifted : scaled n 1 ((n.log2 : Int) - 52) = (n * 2 ^ (52 - n.log2), 1) := by
      unfold scaled
      split
      · have same : n.log2 = 52 := by omega
        simp [same]
      · have power : (-((n.log2 : Int) - 52)).toNat = 52 - n.log2 := by omega
        rw [power]
    have fits : n * 2 ^ (52 - n.log2) ≠ 2 ^ (53 : Nat) := by
      have above : n < 2 ^ (n.log2 + 1) := Nat.lt_log2_self
      have total : (2 : Nat) ^ (n.log2 + 1) * 2 ^ (52 - n.log2) = 2 ^ (53 : Nat) := by
        rw [← Nat.pow_add]
        congr 1
        omega
      have less : n * 2 ^ (52 - n.log2) < 2 ^ (n.log2 + 1) * 2 ^ (52 - n.log2) :=
        Nat.mul_lt_mul_of_pos_right above (Nat.two_pow_pos _)
      omega
    have most : (n.log2 : Int) - 52 ≤ 971 := by omega
    unfold round exactly
    rw [if_neg zero, if_neg zero]
    simp only [BinaryFormat.double, floorLog2_one zero, lower, shifted, nearestEven_one, fits, most,
      Int.cast_ofNat_Int, if_true, if_false]

end Binary

/-! ### Digits -/

/-- The bytes of the decimal digits of a number. -/
def digitBytes (n : Nat) : List UInt8 := (Nat.toDigits 10 n).map fun c => UInt8.ofNat c.toNat

theorem digitBytes_ne_nil (n : Nat) : digitBytes n ≠ [] := by
  simp [digitBytes, Nat.toDigits_ne_nil]

theorem toNat_of_mem_toDigits {n : Nat} {c : Char} (there : c ∈ Nat.toDigits 10 n) :
    48 ≤ c.toNat ∧ c.toNat ≤ 57 := by
  have digit : c.isDigit := Nat.isDigit_of_mem_toDigits (b := 10) (by decide) (by decide) there
  simpa [Char.isDigit, UInt32.le_iff_toNat_le] using digit

theorem encode_repr (n : Nat) : Utf8.encode n.repr = digitBytes n := by
  have digits : ∀ c ∈ Nat.toDigits 10 n, String.utf8EncodeChar c = [UInt8.ofNat c.toNat] := by
    intro c there
    have range := toNat_of_mem_toDigits there
    exact Utf8.utf8EncodeChar_ascii (by omega)
  rw [Utf8.encode_eq_flatMap, Nat.toList_repr, digitBytes, List.map_eq_flatMap]
  exact List.flatMap_congr digits

theorem isDigit_ofNat {m : Nat} (range : 48 ≤ m ∧ m ≤ 57) : isDigit (UInt8.ofNat m) := by
  have same : (UInt8.ofNat m).toNat = m := by
    rw [UInt8.toNat_ofNat']
    omega
  simp only [isDigit, UInt8.le_iff_toNat_le, same, Bool.and_eq_true, decide_eq_true_eq]
  exact range

theorem isDigit_of_mem_digitBytes {n : Nat} {b : UInt8} (there : b ∈ digitBytes n) :
    isDigit b := by
  obtain ⟨c, digit, rfl⟩ := List.mem_map.mp there
  exact isDigit_ofNat (toNat_of_mem_toDigits digit)

theorem digitValue_ofNat {m : Nat} (range : 48 ≤ m ∧ m ≤ 57) :
    digitValue (UInt8.ofNat m) = m - 48 := by
  have same : (UInt8.ofNat m).toNat = m := by
    rw [UInt8.toNat_ofNat']
    omega
  unfold digitValue
  rw [if_pos (by simpa [isDigit] using isDigit_ofNat range), same]

/-- The digits of a number have its value. -/
theorem digitsValue_digitBytes (n : Nat) : digitsValue 10 (digitBytes n) = n := by
  have values : ∀ cs : List Char, (∀ c ∈ cs, 48 ≤ c.toNat ∧ c.toNat ≤ 57) → ∀ start,
      (cs.map fun c => UInt8.ofNat c.toNat).foldl (fun n b => n * 10 + digitValue b) start =
        Nat.ofDigitChars 10 cs start := by
    intro cs range
    induction cs with
    | nil => exact fun _ => rfl
    | cons c cs ih =>
      intro start
      rw [List.forall_mem_cons] at range
      rw [List.map_cons, List.foldl_cons, digitValue_ofNat range.1, Nat.mul_comm]
      exact ih range.2 _
  exact (values _ (fun c there => toNat_of_mem_toDigits there) 0).trans
    Nat.ofDigitChars_ten_toDigits

/-! ### Literals -/

theorem DecimalLiteral.value_whole {n : Nat} (small : n < 2 ^ (53 : Nat)) :
    (DecimalLiteral.mk (digitBytes n) [] false []).value = Binary.exactly n := by
  have power : (DecimalLiteral.mk (digitBytes n) [] false []).power = 0 := rfl
  unfold value
  rw [power]
  simp only [List.append_nil, digitsValue_digitBytes]
  split
  · rename_i zero
    subst zero
    rfl
  · have low : ¬ (0 : Int) < -(400 + (digitBytes n).length : Nat) := by omega
    rw [if_neg (by decide), if_neg low, if_pos (Int.le_refl 0), Int.toNat_zero, Nat.pow_zero,
      Nat.mul_one]
    exact Binary.round_exactly small

variable {n : Nat} {behind : List UInt8}

theorem takeWhile_digitBytes (ends : startsWith isDigit behind = false) :
    (digitBytes n ++ behind).takeWhile isDigit = digitBytes n := by
  rw [List.takeWhile_append_of_pos fun b there => isDigit_of_mem_digitBytes there]
  cases behind with
  | nil => simp
  | cons b rest =>
    have other : isDigit b = false := ends
    rw [List.takeWhile_cons_of_neg (by simp [other]), List.append_nil]

theorem Exponent.read_none (ends : startsWith isNameByte behind = false) :
    Exponent.read behind = .none := by
  unfold read
  split
  · rfl
  · rfl
  · rename_i e sign rest
    have other : ¬ (e = 101 ∨ e = 69) := by
      rintro (rfl | rfl) <;> cases ends
    exact if_neg other

/-- Digits that neither a name nor a fraction follows are a number of their own. -/
theorem number_digitBytes (small : n < 2 ^ (53 : Nat))
    (ends : startsWith isNameByte behind = false) (point : fractionDigits behind = []) :
    number (digitBytes n ++ behind) =
      (.number (Binary.exactly n).toFloat, (digitBytes n).length) := by
  have digitEnds : startsWith isDigit behind = false := by
    cases behind with
    | nil => rfl
    | cons b rest =>
      have other : isNameByte b = false := ends
      simp only [isNameByte, Bool.or_eq_false_iff] at other
      exact other.1.2
  have decimal : decimalNumber (digitBytes n ++ behind) =
      (.number (Binary.exactly n).toFloat, (digitBytes n).length) := by
    unfold decimalNumber
    simp only [takeWhile_digitBytes digitEnds, List.drop_left, point, List.isEmpty_nil, if_true,
      List.length_nil, Nat.add_zero, Exponent.read_none ends, Exponent.none,
      DecimalLiteral.value_whole small]
  -- No letter stands behind a leading zero.
  have noLetter : ∀ zero x rest, digitBytes n ++ behind = zero :: x :: rest →
      ¬ (x = 120 ∨ x = 88) := by
    intro zero x rest cut letter
    have here : isNameByte x ∧ isDigit x = false := by
      rcases letter with rfl | rfl <;> decide
    cases digits : digitBytes n with
    | nil => exact digitBytes_ne_nil n digits
    | cons d ds =>
      rw [digits, List.cons_append, List.cons.injEq] at cut
      cases ds with
      | nil =>
        rw [List.nil_append] at cut
        rw [cut.2, startsWith, here.1] at ends
        cases ends
      | cons y ds =>
        rw [List.cons_append, List.cons.injEq] at cut
        have digit : isDigit y := isDigit_of_mem_digitBytes (n := n) (by simp [digits])
        rw [cut.2.1, here.2] at digit
        cases digit
  rw [← decimal]
  unfold number
  split
  · rename_i zero x rest cut
    rw [cut, if_neg fun mark => noLetter zero x rest cut mark.2]
  · rfl

end ScriptHost
