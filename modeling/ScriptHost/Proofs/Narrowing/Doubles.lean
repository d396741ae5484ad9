import Mathlib.Algebra.Order.Field.Power
import Mathlib.Data.Rat.Floor
import ScriptHost.Number.Narrow
import ScriptHost.Proofs.Rendering.Numbers

/-! Doubles in exact arithmetic. A decoded double is what the library takes the same double apart
into; a finite one has an exact value, which cutting the fraction off and comparing agree with. The
values that the format holds come back from their bits, and a whole number of which 53 bits are
enough is one of them. -/

namespace ScriptHost

-- Powers are those of the core library, whatever else is in scope.
attribute [local instance (high)] instPowNat

namespace Binary

open Float.Model Float.Model.UnpackedFloat

section Unpacking

variable (bits : UInt64)

/-- What the library takes a double apart into, in the words of this one. -/
def ofUnpacked : UnpackedFloat → Binary
  | .notANumber => .nan
  | .infinity sign => .infinite (sign == .negative)
  | .zero sign => .finite (sign == .negative) 0 (-1074)
  | .finite sign mantissa exponent _ => .finite (sign == .negative) mantissa exponent

theorem unpackSign_negative :
    (Sign.ofBitVec (@unpackSign .binary64 bits.toBitVec) == .negative) =
      decide (2 ^ (63 : Nat) ≤ bits.toNat) := by
  have top : bits.toNat < 2 ^ (64 : Nat) := bits.toBitVec.isLt
  have bit : (@unpackSign .binary64 bits.toBitVec).toNat = bits.toNat / 2 ^ (63 : Nat) := by
    change (bits.toNat >>> 63) % 2 ^ (1 : Nat) = _
    rw [Nat.shiftRight_eq_div_pow]
    omega
  by_cases below : bits.toNat < 2 ^ (63 : Nat)
  · have zero : @unpackSign .binary64 bits.toBitVec = 0#1 :=
      BitVec.eq_of_toNat_eq (bit.trans (Nat.div_eq_of_lt below))
    rw [zero, decide_eq_false (by omega)]
    rfl
  · have one : @unpackSign .binary64 bits.toBitVec = 1#1 :=
      BitVec.eq_of_toNat_eq (bit.trans (by change _ = 1; omega))
    rw [one, decide_eq_true (by omega)]
    rfl

theorem unpackExponent_toNat : (@unpackExponent .binary64 bits.toBitVec).toNat =
    bits.toNat / 2 ^ (52 : Nat) % 2 ^ (11 : Nat) := by
  change (bits.toNat >>> 52) % 2 ^ (11 : Nat) = _
  rw [Nat.shiftRight_eq_div_pow]

theorem unpackMantissa_toNat :
    (@unpackMantissa .binary64 bits.toBitVec).toNat = bits.toNat % 2 ^ (52 : Nat) := by
  change (bits.toNat >>> 0) % 2 ^ (52 : Nat) = _
  rw [Nat.shiftRight_zero]

/-- Doubles are decoded as the library takes them apart. -/
theorem ofBits_eq : ofBits bits = ofUnpacked (UnpackedFloat.unpack .binary64 bits.toBitVec) := by
  have sign := unpackSign_negative bits
  have exponent := unpackExponent_toNat bits
  have fraction := unpackMantissa_toNat bits
  have full : @unpackExponent .binary64 bits.toBitVec = -1#11 ↔
      bits.toNat / 2 ^ (52 : Nat) % 2 ^ (11 : Nat) = 2047 := by
    rw [← BitVec.toNat_inj, exponent]; rfl
  have empty : @unpackExponent .binary64 bits.toBitVec = 0#11 ↔
      bits.toNat / 2 ^ (52 : Nat) % 2 ^ (11 : Nat) = 0 := by
    rw [← BitVec.toNat_inj, exponent]; rfl
  have bare : @unpackMantissa .binary64 bits.toBitVec = 0#52 ↔
      bits.toNat % 2 ^ (52 : Nat) = 0 := by
    rw [← BitVec.toNat_inj, fraction]; rfl
  have bias : (Format.binary64.exponentBias : Int) + ((52 : Nat) : Int) = 1075 := rfl
  have leading : (1#1 ++ @unpackMantissa .binary64 bits.toBitVec).toNat =
      2 ^ (52 : Nat) + bits.toNat % 2 ^ (52 : Nat) := by
    rw [← fraction]
    exact (Nat.two_pow_add_eq_or_of_lt
      (@unpackMantissa .binary64 bits.toBitVec).isLt 1).symm
  unfold ofBits
  dsimp only
  change _ = ofUnpacked (if _ then _ else if _ then if _ : _ then _ else _ else _)
  rw [exponent, bias]
  by_cases special : bits.toNat / 2 ^ (52 : Nat) % 2 ^ (11 : Nat) = 2047
  · rw [if_pos special, if_pos (full.mpr special)]
    by_cases none : bits.toNat % 2 ^ (52 : Nat) = 0
    · rw [if_pos none, if_pos (bare.mpr none)]
      exact congrArg infinite sign.symm
    · rw [if_neg none, if_neg (mt bare.mp none)]
      rfl
  · rw [if_neg special, if_neg (mt full.mp special)]
    by_cases least : bits.toNat / 2 ^ (52 : Nat) % 2 ^ (11 : Nat) = 0
    · rw [if_pos least, if_pos (empty.mpr least)]
      by_cases none : bits.toNat % 2 ^ (52 : Nat) = 0
      · rw [dif_pos (bare.mpr none), none]
        exact congrArg (finite · 0 (-1074)) sign.symm
      · rw [dif_neg (mt bare.mp none), least]
        exact congr (congr (congrArg finite sign.symm) fraction.symm) rfl
    · rw [if_neg least, if_neg (mt empty.mp least), ← leading]
      exact congrArg (finite · _ _) sign.symm

theorem ofFloat_eq (x : Float) : ofFloat x = ofUnpacked x.toModel.unpack := ofBits_eq x.toBits

end Unpacking

/-! ### What the format holds -/

/-- A value that the format holds: a significand has at most 53 bits, and 53 bits unless its
exponent is the least one. -/
def IsDouble : Binary → Prop
  | .finite _ significand exponent =>
    significand < 2 ^ (53 : Nat) ∧ -1074 ≤ exponent ∧ exponent ≤ 971 ∧
      (2 ^ (52 : Nat) ≤ significand ∨ exponent = -1074)
  | _ => True

theorem ofBits_isDouble (bits : UInt64) : (ofBits bits).IsDouble := by
  unfold ofBits
  dsimp only
  split
  · split <;> trivial
  · split
    · exact ⟨by omega, by omega, by omega, .inr rfl⟩
    · exact ⟨by omega, by omega, by omega, .inl (by omega)⟩

theorem ofFloat_isDouble (x : Float) : (ofFloat x).IsDouble := ofBits_isDouble x.toBits

/-- The bits that the library puts a double together from, as a number. -/
theorem packComponents_toNat (sign : Sign) (exponent : BitVec 11) (fraction : BitVec 52) :
    (packComponents .binary64 sign exponent fraction).toNat =
      (if sign == .negative then 2 ^ (63 : Nat) else 0) + exponent.toNat * 2 ^ (52 : Nat) +
        fraction.toNat := by
  have inner : (sign.toBitVec ++ exponent).toNat =
      sign.toBitVec.toNat * 2 ^ (11 : Nat) + exponent.toNat := by
    rw [BitVec.toNat_append, ← Nat.shiftLeft_add_eq_or_of_lt exponent.isLt, Nat.shiftLeft_eq]
  have outer : (packComponents .binary64 sign exponent fraction).toNat =
      (sign.toBitVec ++ exponent).toNat * 2 ^ (52 : Nat) + fraction.toNat := by
    refine (BitVec.toNat_append _ _).trans ?_
    rw [← Nat.shiftLeft_add_eq_or_of_lt fraction.isLt, Nat.shiftLeft_eq]
  have top : (if sign == .negative then 2 ^ (63 : Nat) else 0) =
      sign.toBitVec.toNat * 2 ^ (63 : Nat) := by
    cases sign <;> rfl
  rw [outer, inner, top]
  omega

/-- A value of the format is decoded from the bits that its fields make up: the sign, the exponent,
which is 0 if the first bit of the significand is missing, and the rest of the significand. -/
theorem ofBits_fields {bits : UInt64} {negative : Bool} {significand : Nat} {exponent : Int}
    (held : (Binary.finite negative significand exponent).IsDouble)
    (word : bits.toNat = (if negative then 2 ^ (63 : Nat) else 0) +
      (if 2 ^ (52 : Nat) ≤ significand then (exponent + 1075).toNat else 0) * 2 ^ (52 : Nat) +
        significand % 2 ^ (52 : Nat)) :
    ofBits bits = .finite negative significand exponent := by
  obtain ⟨narrow, low, high, full⟩ := held
  have sign : decide (2 ^ (63 : Nat) ≤ bits.toNat) = negative := by
    rw [word]
    cases negative <;> simp only [Bool.false_eq_true, if_true, if_false]
    · exact decide_eq_false (by split <;> omega)
    · exact decide_eq_true (by omega)
  have biased : bits.toNat / 2 ^ (52 : Nat) % 2 ^ (11 : Nat) =
      if 2 ^ (52 : Nat) ≤ significand then (exponent + 1075).toNat else 0 := by
    rw [word]
    split <;> split <;> omega
  have fraction : bits.toNat % 2 ^ (52 : Nat) = significand % 2 ^ (52 : Nat) := by
    rw [word]
    split <;> omega
  unfold ofBits
  rw [sign, biased, fraction]
  by_cases normal : 2 ^ (52 : Nat) ≤ significand
  · have whole : 2 ^ (52 : Nat) + significand % 2 ^ (52 : Nat) = significand := by omega
    have back : ((exponent + 1075).toNat : Int) - 1075 = exponent := by omega
    rw [if_pos normal, if_neg (by omega), if_neg (by omega), whole, back]
  · have whole : significand % 2 ^ (52 : Nat) = significand := Nat.mod_eq_of_lt (by omega)
    rw [if_neg normal, if_neg (by decide), if_pos rfl, whole, full.resolve_left normal]

/-- What the library puts a double together from is decoded from it. -/
theorem ofBits_pack {x : UnpackedFloat} (held : (ofUnpacked x).IsDouble) :
    ofBits (.ofBitVec (x.pack .binary64)) = ofUnpacked x := by
  cases x with
  | notANumber => decide
  | infinity sign => cases sign <;> decide
  | zero sign => exact ofBits_fields held (packComponents_toNat sign 0 0)
  | finite sign significand exponent positive =>
    refine ofBits_fields held ?_
    obtain ⟨narrow, low, high, full⟩ := held
    have biased : (exponent + Format.binary64.exponentBias +
        Format.binary64.mantissaBitsWithoutImplicit).toNat = (exponent + 1075).toNat := by
      congr 1
      exact Int.add_assoc exponent 1023 52
    have ordinary : ¬2 ^ Format.binary64.exponentBits ≤ (exponent + 1075).toNat + 1 := by
      change ¬2 ^ (11 : Nat) ≤ _
      omega
    have nonzero : significand ≠ 0 := Nat.pos_iff_ne_zero.mp positive
    change (if _ then _ else if _ then _ else _ : BitVec 64).toNat = _
    rw [biased, if_neg ordinary]
    by_cases normal : 2 ^ (52 : Nat) ≤ significand
    · have log : significand.log2 = 52 := (Nat.log2_eq_iff nonzero).mpr ⟨normal, narrow⟩
      have exact : (BitVec.ofNat 11 (exponent + 1075).toNat).toNat = (exponent + 1075).toNat :=
        Nat.mod_eq_of_lt (by omega)
      rw [if_pos (by rw [log]; rfl), if_pos normal]
      refine (packComponents_toNat sign _ _).trans ?_
      rw [exact, BitVec.toNat_ofNat]
    · have log : significand.log2 < 52 := (Nat.log2_lt nonzero).mpr (by omega)
      rw [if_neg (by change ¬significand.log2 + 1 = 53; omega), if_neg normal]
      exact packComponents_toNat sign 0 (.ofNat 52 significand)

/-- The bits of a value of the format are those that it is decoded from. -/
theorem ofBits_toBits {x : Binary} (held : x.IsDouble) : ofBits x.toBits = x := by
  cases x with
  | nan => decide
  | infinite negative => cases negative <;> decide
  | finite negative significand exponent =>
    refine ofBits_fields held ?_
    obtain ⟨narrow, low, high, full⟩ := held
    unfold toBits
    dsimp only
    rw [UInt64.toNat_ofNat_of_lt']
    · split <;> split <;> omega
    · change _ < 2 ^ (64 : Nat)
      split <;> omega

/-- A value of the format comes back from its double. -/
theorem ofFloat_toFloat {x : Binary} (held : x.IsDouble) : ofFloat x.toFloat = x := by
  have taken : (ofUnpacked (UnpackedFloat.unpack .binary64 x.toBits.toBitVec)).IsDouble :=
    ofBits_eq x.toBits ▸ ofBits_isDouble x.toBits
  exact (ofBits_pack taken).trans ((ofBits_eq x.toBits).symm.trans (ofBits_toBits held))

/-! ### Exact values -/

/-- The exact value of a finite double. -/
def rational? : Binary → Option ℚ
  | .finite negative significand exponent =>
    some ((if negative then -1 else 1) * (significand * 2 ^ exponent))
  | _ => none

/-- A number without its fraction, toward zero. -/
def cut (q : ℚ) : ℤ := if q < 0 then ⌈q⌉ else ⌊q⌋

theorem cut_neg_of_nonneg {q : ℚ} (nonneg : 0 ≤ q) : cut (-q) = -⌊q⌋ := by
  unfold cut
  split
  · exact Int.ceil_neg
  · have zero : q = 0 := by linarith
    rw [zero]
    rfl

theorem cut_mono {p q : ℚ} (le : p ≤ q) : cut p ≤ cut q := by
  unfold cut
  split
  · split
    · exact Int.ceil_mono le
    · exact (Int.ceil_le.mpr (by push_cast; linarith : p ≤ ((0 : ℤ) : ℚ))).trans
        (Int.floor_nonneg.mpr (by linarith))
  · rw [if_neg (by linarith)]
    exact Int.floor_mono le

/-- The magnitude without its fraction, in whole numbers. -/
theorem floor_magnitude (significand : Nat) (exponent : Int) :
    ⌊(significand * 2 ^ exponent : ℚ)⌋ =
      ((if 0 ≤ exponent then significand * 2 ^ exponent.toNat
        else significand / 2 ^ (-exponent).toNat : Nat) : ℤ) := by
  split
  case isTrue up =>
    have whole : (significand * 2 ^ exponent : ℚ) =
        ((significand * 2 ^ exponent.toNat : Nat) : ℤ) := by
      obtain ⟨k, rfl⟩ := Int.eq_ofNat_of_zero_le up
      push_cast
      rfl
    rw [whole, Int.floor_intCast]
  case isFalse down =>
    have quotient : (significand * 2 ^ exponent : ℚ) =
        ((significand : ℤ) : ℚ) / ((2 ^ (-exponent).toNat : Nat) : ℚ) := by
      obtain ⟨k, rfl⟩ : ∃ k : Nat, exponent = -k := ⟨(-exponent).toNat, by omega⟩
      rw [zpow_neg, zpow_natCast, neg_neg, Int.toNat_natCast, div_eq_mul_inv]
      push_cast
      rfl
    rw [quotient, Rat.floor_intCast_div_natCast]
    push_cast
    rfl

/-- Cutting the fraction off a decoded double is exact. -/
theorem truncate?_eq (x : Binary) : x.truncate? = x.rational?.map cut := by
  cases x with
  | nan | infinite => rfl
  | finite negative significand exponent =>
    have nonneg : (0 : ℚ) ≤ significand * 2 ^ exponent := by positivity
    have floor := floor_magnitude significand exponent
    refine congrArg some ?_
    cases negative with
    | true =>
      change -((if 0 ≤ exponent then _ else _ : Nat) : ℤ) = cut (-1 * _)
      rw [neg_one_mul, cut_neg_of_nonneg nonneg, floor]
    | false =>
      change ((if 0 ≤ exponent then _ else _ : Nat) : ℤ) = cut (1 * _)
      rw [one_mul, cut, if_neg (not_lt.mpr nonneg), floor]

/-- A decoded double is integral if its exact value is an integer. -/
theorem isIntegral_iff {x : Binary} : x.isIntegral ↔ ∃ n : ℤ, x.rational? = some (n : ℚ) := by
  cases x with
  | nan | infinite =>
    refine iff_of_false Bool.false_ne_true ?_
    rintro ⟨_, value⟩
    cases value
  | finite negative significand exponent =>
    have signed :
        (∃ n : ℤ, (Binary.finite negative significand exponent).rational? = some (n : ℚ)) ↔
          ∃ n : ℤ, (significand * 2 ^ exponent : ℚ) = n := by
      refine ⟨fun ⟨n, value⟩ => ?_, fun ⟨n, value⟩ => ?_⟩
      · refine ⟨(if negative then -1 else 1) * n, ?_⟩
        have same := Option.some.inj value
        push_cast
        rw [← same, ← mul_assoc]
        cases negative <;> simp
      · refine ⟨(if negative then -1 else 1) * n, congrArg some ?_⟩
        rw [value]
        push_cast
        rfl
    rw [signed]
    unfold isIntegral
    rw [Bool.or_eq_true, decide_eq_true_eq, beq_iff_eq]
    obtain ⟨k, rfl | rfl⟩ := Int.eq_nat_or_neg exponent
    · refine iff_of_true (.inl (Int.natCast_nonneg k)) ⟨significand * 2 ^ k, ?_⟩
      push_cast
      rfl
    · rw [neg_neg, Int.toNat_natCast, zpow_neg, zpow_natCast, ← div_eq_mul_inv]
      have positive : (0 : ℚ) < 2 ^ k := by positivity
      constructor
      · rintro (up | whole)
        · have zero : k = 0 := by omega
          exact ⟨significand, by rw [zero, pow_zero, div_one]; rfl⟩
        · obtain ⟨q, rfl⟩ := Nat.dvd_of_mod_eq_zero whole
          refine ⟨q, ?_⟩
          push_cast
          exact mul_div_cancel_left₀ _ positive.ne'
      · rintro ⟨n, same⟩
        rw [div_eq_iff positive.ne'] at same
        have whole : (significand : ℤ) = n * 2 ^ k := by exact_mod_cast same
        refine .inr (Nat.mod_eq_zero_of_dvd (Int.natCast_dvd_natCast.mp ⟨n, ?_⟩))
        rw [whole, mul_comm]
        push_cast
        rfl

/-! ### Order -/

/-- With all bits in use below, the greater exponent goes with the greater magnitude. -/
theorem magnitude_le {m n : Nat} {e f : Int} (narrow : m < 2 ^ (53 : Nat)) (low : -1074 ≤ e)
    (full : 2 ^ (52 : Nat) ≤ n ∨ f = -1074)
    (le : ((compare e f).then (compare m n)).isLE) : (m * 2 ^ e : ℚ) ≤ n * 2 ^ f := by
  rcases lt_trichotomy e f with less | same | more
  · have wide : 2 ^ (52 : Nat) ≤ n := full.resolve_right (by omega)
    have first : (m : ℚ) ≤ 2 * n := by exact_mod_cast (by omega : m ≤ 2 * n)
    calc (m * 2 ^ e : ℚ) ≤ 2 * n * 2 ^ e := by gcongr
      _ = n * 2 ^ (e + 1) := by rw [zpow_add_one₀ (by norm_num)]; ring
      _ ≤ n * 2 ^ f := by gcongr <;> [norm_num; omega]
  · subst same
    rw [compare_eq_iff_eq.mpr rfl] at le
    have below : m ≤ n := Std.isLE_compare.mp le
    gcongr
  · rw [compare_gt_iff_gt.mpr more] at le
    cases le

theorem rational?_zero (sign : Sign) : (ofUnpacked (.zero sign)).rational? = some 0 :=
  congrArg some (by rw [Nat.cast_zero, zero_mul, mul_zero])

theorem rational?_positive {m : Nat} {e : Int} (pos : 0 < m) :
    (ofUnpacked (.finite .positive m e pos)).rational? = some ((m : ℚ) * 2 ^ e) :=
  congrArg some (one_mul _)

theorem rational?_negative {m : Nat} {e : Int} (pos : 0 < m) :
    (ofUnpacked (.finite .negative m e pos)).rational? = some (-((m : ℚ) * 2 ^ e)) :=
  congrArg some (neg_one_mul _)

/-- What is at most another is so in exact value. -/
theorem exact_le {a b : UnpackedFloat} (ha : (ofUnpacked a).IsDouble)
    (hb : (ofUnpacked b).IsDouble) (le : a.le b) {p q : ℚ}
    (hp : (ofUnpacked a).rational? = some p) (hq : (ofUnpacked b).rational? = some q) : p ≤ q := by
  have nonneg (m : Nat) (e : Int) : (0 : ℚ) ≤ m * 2 ^ e := by positivity
  cases a with
  | infinity | notANumber => cases hp
  | zero s =>
    cases (rational?_zero s).symm.trans hp
    cases b with
    | infinity | notANumber => cases hq
    | zero t => cases (rational?_zero t).symm.trans hq; exact le_rfl
    | finite t n f pos =>
      cases t with
      | negative => cases le
      | positive => cases (rational?_positive pos).symm.trans hq; exact nonneg n f
  | finite s m e pos =>
    cases s with
    | negative =>
      cases (rational?_negative pos).symm.trans hp
      cases b with
      | infinity | notANumber => cases hq
      | zero t => cases (rational?_zero t).symm.trans hq; exact neg_nonpos.mpr (nonneg m e)
      | finite t n f pos' =>
        cases t with
        | negative =>
          cases (rational?_negative pos').symm.trans hq
          refine neg_le_neg (magnitude_le hb.1 hb.2.1 ha.2.2.2 ?_)
          have swap : ((compare e f).then (compare m n)).swap =
              (compare f e).then (compare n m) := by
            rw [Ordering.swap_then, ← Std.OrientedOrd.eq_swap, ← Std.OrientedOrd.eq_swap]
          exact swap ▸ le
        | positive =>
          cases (rational?_positive pos').symm.trans hq
          exact (neg_nonpos.mpr (nonneg m e)).trans (nonneg n f)
    | positive =>
      cases (rational?_positive pos).symm.trans hp
      cases b with
      | infinity | notANumber => cases hq
      | zero t => cases le
      | finite t n f pos' =>
        cases t with
        | negative => cases le
        | positive =>
          cases (rational?_positive pos').symm.trans hq
          exact magnitude_le ha.1 ha.2.1 hb.2.2.2 le

/-! ### Whole numbers as doubles -/

theorem nearestEven_mul (k : Nat) {unit : Nat} (pos : 0 < unit) :
    nearestEven (k * unit) unit = k := by
  unfold nearestEven
  rw [Nat.mul_mod_left, Nat.mul_div_cancel k pos]
  exact if_pos (by omega)

/-- All bits of a whole number that the format holds, from the first one on. -/
theorem exists_significand {n m e : Nat} (positive : n ≠ 0) (narrow : m < 2 ^ (53 : Nat))
    (split : n = m * 2 ^ e) : ∃ s, 2 ^ (52 : Nat) ≤ s ∧ s < 2 ^ (53 : Nat) ∧
      s * 2 ^ (n.log2 - 52) = n * 2 ^ (52 - n.log2) := by
  have least := Nat.log2_self_le positive
  have most := Nat.lt_log2_self (n := n)
  by_cases wide : 52 ≤ n.log2
  · obtain ⟨k, top⟩ := Nat.exists_eq_add_of_le wide
    rw [top] at least most
    have enough : k ≤ e := by
      by_contra short
      have : m * 2 ^ e < 2 ^ (52 + k) := by
        calc m * 2 ^ e < 2 ^ (53 : Nat) * 2 ^ e :=
              Nat.mul_lt_mul_of_pos_right narrow (by positivity)
          _ = 2 ^ (53 + e) := (Nat.pow_add 2 53 e).symm
          _ ≤ 2 ^ (52 + k) := Nat.pow_le_pow_right (by decide) (by omega)
      omega
    obtain ⟨d, rfl⟩ := Nat.exists_eq_add_of_le enough
    have whole : m * 2 ^ d * 2 ^ k = n := by rw [split, Nat.pow_add]; ring
    refine ⟨m * 2 ^ d, ?_, ?_, ?_⟩
    · refine Nat.le_of_mul_le_mul_right (?_ : _ * 2 ^ k ≤ _ * 2 ^ k) (by positivity)
      rwa [whole, ← Nat.pow_add]
    · refine Nat.lt_of_mul_lt_mul_right (?_ : _ * 2 ^ k < _ * 2 ^ k)
      rwa [whole, ← Nat.pow_add, show 53 + k = 52 + k + 1 by omega]
    · rw [top, show 52 + k - 52 = k by omega, show 52 - (52 + k) = 0 by omega, whole,
        Nat.pow_zero, Nat.mul_one]
  · obtain ⟨k, top⟩ := Nat.exists_eq_add_of_le (Nat.le_of_not_le wide)
    refine ⟨n * 2 ^ k, ?_, ?_, ?_⟩
    · calc 2 ^ (52 : Nat) = 2 ^ n.log2 * 2 ^ k := by rw [← Nat.pow_add, ← top]
        _ ≤ n * 2 ^ k := Nat.mul_le_mul_right _ least
    · calc n * 2 ^ k < 2 ^ (n.log2 + 1) * 2 ^ k := Nat.mul_lt_mul_of_pos_right most (by positivity)
        _ = 2 ^ (53 : Nat) := by rw [← Nat.pow_add]; congr 1; omega
    · rw [show n.log2 - 52 = 0 by omega, show 52 - n.log2 = k by omega]
      exact Nat.mul_one _

/-- A whole number scaled so that its first bit has place 52. -/
theorem scaled_whole (n l : Nat) :
    scaled n 1 ((l : Int) - 52) = (n * 2 ^ (52 - l), 2 ^ (l - 52)) := by
  unfold scaled
  by_cases wide : 52 ≤ l
  · rw [if_pos (by omega), Nat.one_mul, show 52 - l = 0 by omega, Nat.pow_zero, Nat.mul_one,
      show ((l : Int) - 52).toNat = l - 52 by omega]
  · rw [if_neg (by omega), show l - 52 = 0 by omega, Nat.pow_zero,
      show (-((l : Int) - 52)).toNat = 52 - l by omega]

/-- A whole number of 53 bits, or of more if what is below them is zero, is rounded to itself. -/
theorem round_exact (negative : Bool) {n m e : Nat} (narrow : m < 2 ^ (53 : Nat)) (high : e ≤ 971)
    (split : n = m * 2 ^ e) : (round .double negative n 1).IsDouble ∧
      (round .double negative n 1).rational? =
        some ((if negative then -1 else 1) * (n : ℚ)) := by
  by_cases zero : n = 0
  · subst n
    rw [zero, round, if_pos rfl]
    refine ⟨⟨by decide, by decide, by decide, .inr rfl⟩, ?_⟩
    simp [rational?]
  obtain ⟨s, full, slim, same⟩ := exists_significand zero narrow split
  have short : n.log2 < 53 + e := by
    rw [Nat.log2_lt zero, split, Nat.pow_add]
    exact Nat.mul_lt_mul_of_pos_right narrow (by positivity)
  have rounded : round .double negative n 1 = .finite negative s (n.log2 - 52) := by
    have exponent : max BinaryFormat.double.least
        (floorLog2 n 1 - (BinaryFormat.double.precision - 1)) = (n.log2 : Int) - 52 := by
      rw [floorLog2_one zero]
      change max (-1074 : Int) ((n.log2 : Int) - ((53 : Nat) - 1)) = _
      omega
    unfold round
    rw [if_neg zero]
    dsimp only
    rw [exponent, scaled_whole]
    dsimp only
    rw [← same, nearestEven_mul s (by positivity),
      if_neg (Nat.ne_of_lt slim : s ≠ 2 ^ BinaryFormat.double.precision),
      if_pos (by change (n.log2 : Int) - 52 ≤ 971; omega)]
  have value : (s : ℚ) * 2 ^ ((n.log2 : Int) - 52) = n := by
    have parts : (n.log2 : Int) - 52 = (n.log2 - 52 : Nat) - (52 - n.log2 : Nat) := by omega
    have same' : (s : ℚ) * 2 ^ (n.log2 - 52) = n * 2 ^ (52 - n.log2) := by exact_mod_cast same
    rw [parts, zpow_sub₀ (by norm_num), zpow_natCast, zpow_natCast, ← mul_div_assoc, same',
      mul_div_cancel_right₀ _ (by positivity)]
  rw [rounded]
  refine ⟨⟨slim, by omega, by omega, .inl full⟩, ?_⟩
  rw [rational?, value]

/-- A whole number of 53 bits, or of more if what is below them is zero. -/
def IsWhole (n : Int) : Prop :=
  ∃ m e : Nat, m < 2 ^ (53 : Nat) ∧ e ≤ 971 ∧ n.natAbs = m * 2 ^ e

/-- Such a whole number is a double. -/
theorem ofInt_exact {n : Int} (whole : IsWhole n) :
    (ofInt n).IsDouble ∧ (ofInt n).rational? = some (n : ℚ) := by
  obtain ⟨m, e, narrow, high, split⟩ := whole
  obtain ⟨held, value⟩ := round_exact (decide (n < 0)) narrow high split
  refine ⟨held, value.trans (congrArg some ?_)⟩
  by_cases below : n < 0
  · rw [if_pos (decide_eq_true below), Nat.cast_natAbs, abs_of_neg below, Int.cast_neg,
      neg_one_mul, neg_neg]
  · rw [if_neg (by rwa [decide_eq_true_iff]), Nat.cast_natAbs, abs_of_nonneg (not_lt.mp below),
      one_mul]

theorem cut_intCast (n : ℤ) : cut n = n := by
  unfold cut
  rw [Int.ceil_intCast, Int.floor_intCast, ite_self]

theorem isWhole_truncate? {x : Binary} (held : x.IsDouble) {n : Int}
    (cut : x.truncate? = some n) : IsWhole n := by
  cases x with
  | nan | infinite => cases cut
  | finite negative significand exponent =>
    obtain ⟨narrow, -, high, -⟩ := held
    unfold truncate? at cut
    dsimp only at cut
    have abs : n.natAbs = if 0 ≤ exponent then significand * 2 ^ exponent.toNat
        else significand / 2 ^ (-exponent).toNat := by
      cases negative <;> cases cut <;> simp only [Bool.false_eq_true, if_true, if_false] <;> omega
    by_cases up : 0 ≤ exponent
    · exact ⟨significand, exponent.toNat, narrow, by omega, abs.trans (if_pos up)⟩
    · exact ⟨significand / 2 ^ (-exponent).toNat, 0, (Nat.div_le_self _ _).trans_lt narrow,
        by omega, (abs.trans (if_neg up)).trans (Nat.mul_one _).symm⟩

end Binary

end ScriptHost
