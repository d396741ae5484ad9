import Mathlib.Data.List.Basic
import Mathlib.Data.List.TakeWhile
import ScriptHost.Proofs.Places
import ScriptHost.Source.Lexeme

/-! How far tokens reach. Numbers, words and symbols stay on their line; a string may go on over
several lines, and the expressions in it stand one after the other between their parentheses, each
at its own place. -/

namespace ScriptHost

open Position (newline)

/-- The first `n` bytes are there, and all of them of a class. -/
structure Within (q : UInt8 → Bool) (bytes : List UInt8) (n : Nat) : Prop where
  inside : n ≤ bytes.length
  all : ∀ b ∈ bytes.take n, q b

namespace Within

variable {q : UInt8 → Bool} {bytes : List UInt8} {m n : Nat}

theorem zero (q : UInt8 → Bool) (bytes : List UInt8) : Within q bytes 0 := ⟨Nat.zero_le _, by simp⟩

theorem cons {b : UInt8} (hb : q b) (h : Within q bytes n) : Within q (b :: bytes) (n + 1) where
  inside := Nat.succ_le_succ h.inside
  all := by
    rw [List.take_succ_cons]
    exact List.forall_mem_cons.mpr ⟨hb, h.all⟩

theorem add (h : Within q bytes m) (k : Within q (bytes.drop m) n) : Within q bytes (m + n) where
  inside := by
    have := h.inside
    have := k.inside
    rw [List.length_drop] at this
    omega
  all := by
    rw [List.take_add]
    exact List.forall_mem_append.mpr ⟨h.all, k.all⟩

theorem takeWhile {r : UInt8 → Bool} (weaker : ∀ b, r b → q b) (bytes : List UInt8) :
    Within q bytes (bytes.takeWhile r).length where
  inside := (List.takeWhile_prefix r).length_le
  all := by
    rw [(List.prefix_iff_eq_take.mp (List.takeWhile_prefix r)).symm]
    exact fun b there => weaker b (List.mem_takeWhile_imp there)

/-- A byte outside the class is not among them. -/
theorem lacks (h : Within q bytes n) {b : UInt8} (other : q b = false) : b ∉ bytes.take n := by
  intro there
  rw [h.all b there] at other
  cases other

end Within

/-! ### Numbers, words and symbols -/

/-- Whether a byte can be one of a number or a word. -/
def isWordByte (b : UInt8) : Bool := isNameByte b || [46, 43, 45].contains b

theorem isNameByte_of_isNameStart {b : UInt8} (h : isNameStart b) : isNameByte b := by
  simp only [isNameStart, Bool.or_eq_true] at h
  obtain letter | under := h
  · simp [isNameByte, letter]
  · simp [isNameByte, under]

theorem isWordByte_of_isNameByte {b : UInt8} (h : isNameByte b) : isWordByte b := by
  rw [isWordByte, h, Bool.true_or]

theorem isWordByte_of_isDigit {b : UInt8} (h : isDigit b) : isWordByte b :=
  isWordByte_of_isNameByte (by simp [isNameByte, h])

theorem isWordByte_of_isHexDigit {b : UInt8} (h : isHexDigit b) : isWordByte b := by
  simp only [isHexDigit, Bool.or_eq_true, Bool.and_eq_true, decide_eq_true_eq,
    UInt8.le_iff_toNat_le] at h
  obtain (digit | lower) | upper := h
  · exact isWordByte_of_isDigit digit
  · refine isWordByte_of_isNameByte ?_
    have letter : isLetter b := by
      simp only [isLetter, Bool.or_eq_true, Bool.and_eq_true, decide_eq_true_eq,
        UInt8.le_iff_toNat_le]
      exact .inl ⟨lower.1, Nat.le_trans lower.2 (by decide)⟩
    simp [isNameByte, letter]
  · refine isWordByte_of_isNameByte ?_
    have letter : isLetter b := by
      simp only [isLetter, Bool.or_eq_true, Bool.and_eq_true, decide_eq_true_eq,
        UInt8.le_iff_toNat_le]
      exact .inr ⟨upper.1, Nat.le_trans upper.2 (by decide)⟩
    simp [isNameByte, letter]

theorem within_fractionDigits (bytes : List UInt8) :
    Within isWordByte bytes ((if (fractionDigits bytes).isEmpty then 0 else 1) +
      (fractionDigits bytes).length) := by
  match bytes with
  | [] => exact .zero _ []
  | b :: rest =>
    by_cases point : b = 46
    · have digits : fractionDigits (b :: rest) = rest.takeWhile isDigit := if_pos point
      rw [digits]
      split
      · rename_i none
        rw [List.isEmpty_iff.mp none]
        exact .zero _ _
      · rw [Nat.add_comm]
        exact .cons (by rw [point]; decide) (.takeWhile (fun _ => isWordByte_of_isDigit) rest)
    · have digits : fractionDigits (b :: rest) = [] := if_neg point
      rw [digits]
      exact .zero _ _

theorem within_ofSigned {negative : Bool} {marks : Nat} {bytes : List UInt8}
    (h : Within isWordByte bytes marks) :
    Within isWordByte bytes (Exponent.ofSigned negative marks (bytes.drop marks)).length := by
  unfold Exponent.ofSigned
  dsimp only
  split
  · exact .zero _ _
  · exact h.add (.takeWhile (fun _ => isWordByte_of_isDigit) _)

theorem within_exponent (bytes : List UInt8) :
    Within isWordByte bytes (Exponent.read bytes).length := by
  unfold Exponent.read
  split
  · exact .zero _ _
  · exact .zero _ _
  · rename_i e sign rest
    by_cases letter : e = 101 ∨ e = 69
    · rw [if_pos letter]
      have mark : isWordByte e := by
        obtain rfl | rfl := letter <;> decide
      have one : Within isWordByte (e :: sign :: rest) 1 := .cons mark (.zero _ _)
      have two (mark' : isWordByte sign) : Within isWordByte (e :: sign :: rest) 2 :=
        .cons mark (.cons mark' (.zero _ _))
      split
      · rename_i plus
        exact within_ofSigned (two (by rw [plus]; decide))
      · split
        · rename_i minus
          exact within_ofSigned (two (by rw [minus]; decide))
        · exact within_ofSigned one
    · rw [if_neg letter]
      exact .zero _ _

theorem within_decimalNumber (bytes : List UInt8) :
    Within isWordByte bytes (decimalNumber bytes).2 := by
  unfold decimalNumber
  dsimp only
  refine .add ?_ (within_exponent _)
  rw [Nat.add_assoc]
  exact .add (.takeWhile (fun _ => isWordByte_of_isDigit) bytes) (within_fractionDigits _)

theorem within_number (bytes : List UInt8) : Within isWordByte bytes (number bytes).2 := by
  unfold number
  split
  · rename_i zero x rest
    split
    · rename_i mark
      obtain ⟨rfl, letter⟩ := mark
      unfold hexNumber
      have plain : isWordByte x := by
        obtain rfl | rfl := letter <;> decide
      exact .cons (by decide) (.cons plain (.takeWhile (fun _ => isWordByte_of_isHexDigit) rest))
    · exact within_decimalNumber _
  · exact within_decimalNumber _

theorem within_word (bytes : List UInt8) : Within isWordByte bytes (word bytes).2 :=
  .takeWhile (fun _ => isWordByte_of_isNameByte) bytes

theorem symbolPair?_newline (b : UInt8) : symbolPair? b newline = none := by
  unfold symbolPair?
  split <;> first | rfl | contradiction

theorem within_symbol {b : UInt8} (hb : b ≠ newline) (rest : List UInt8) :
    Within (· != newline) (b :: rest) (symbol (b :: rest)).2 := by
  have one : Within (· != newline) (b :: rest) 1 := .cons (bne_iff_ne.mpr hb) (.zero _ rest)
  unfold symbol
  dsimp only
  split
  · rename_i pair
    match rest with
    | [] => cases pair
    | c :: rest =>
      refine .cons (bne_iff_ne.mpr hb) (.cons (bne_iff_ne.mpr ?_) (.zero _ rest))
      rintro rfl
      rw [List.head?_cons, Option.bind_some, symbolPair?_newline] at pair
      cases pair
  · split
    · exact one
    · exact one

/-! ### Where a token may be cut -/

/-- Whether a byte is a blank or a newline: no number, word or symbol goes on with it. -/
def isBreak (b : UInt8) : Bool := b == 32 || b == 9 || b == newline

/-- Whether the next byte, if there is one, is a break. -/
def AtBreak (bytes : List UInt8) : Prop := ∀ b ∈ bytes.head?, isBreak b

theorem isBreak_cases {b : UInt8} (h : isBreak b) : b = 32 ∨ b = 9 ∨ b = newline := by
  simpa [isBreak, or_assoc] using h

section AtBreak

variable {more xs : List UInt8} {n : Nat}

theorem AtBreak.nil : AtBreak [] := nofun

theorem AtBreak.newline (bytes : List UInt8) : AtBreak (newline :: bytes) := by
  rintro b ⟨⟩
  decide

theorem AtBreak.not_startsWith {q : UInt8 → Bool} (h : AtBreak more) (blank : q 32 = false)
    (tab : q 9 = false) (line : q Position.newline = false) : startsWith q more = false := by
  cases more with
  | nil => rfl
  | cons b rest => obtain rfl | rfl | rfl := isBreak_cases (h b rfl) <;> assumption

/-- Behind a run of bytes of a class, the bytes may be cut off, and others that do not go on with
the run put there. -/
theorem takeWhile_take {q : UInt8 → Bool} (other : startsWith q more = false)
    (enough : (xs.takeWhile q).length ≤ n) : (xs.take n ++ more).takeWhile q = xs.takeWhile q := by
  induction xs generalizing n with
  | nil =>
    rw [List.take_nil, List.nil_append, List.takeWhile_nil]
    cases more with
    | nil => rfl
    | cons b rest => exact List.takeWhile_cons_of_neg (Bool.eq_false_iff.mp other)
  | cons b xs ih =>
    by_cases member : q b
    · rw [List.takeWhile_cons_of_pos member, List.length_cons] at enough
      obtain _ | n := n
      · cases enough
      · rw [List.take_succ_cons, List.cons_append, List.takeWhile_cons_of_pos member,
          List.takeWhile_cons_of_pos member, ih (Nat.le_of_succ_le_succ enough)]
    · rw [List.takeWhile_cons_of_neg member]
      cases n with
      | zero =>
        rw [List.take_zero, List.nil_append]
        cases more with
        | nil => rfl
        | cons c rest => exact List.takeWhile_cons_of_neg (Bool.eq_false_iff.mp other)
      | succ n => rw [List.take_succ_cons, List.cons_append, List.takeWhile_cons_of_neg member]

theorem AtBreak.digits (h : AtBreak more) : startsWith isDigit more = false :=
  h.not_startsWith rfl rfl rfl

theorem fractionDigits_atBreak (h : AtBreak more) : fractionDigits more = [] := by
  cases more with
  | nil => rfl
  | cons b rest =>
    refine if_neg ?_
    rintro rfl
    exact absurd (h 46 rfl) (by decide)

theorem fractionDigits_take (h : AtBreak more)
    (enough : (if (fractionDigits xs).isEmpty then 0 else 1) + (fractionDigits xs).length ≤ n) :
    fractionDigits (xs.take n ++ more) = fractionDigits xs := by
  cases xs with
  | nil =>
    rw [List.take_nil]
    exact fractionDigits_atBreak h
  | cons b rest =>
    cases n with
    | zero =>
      have none : fractionDigits (b :: rest) = [] := List.length_eq_zero_iff.mp (by omega)
      rw [none]
      exact fractionDigits_atBreak h
    | succ n =>
      rw [List.take_succ_cons, List.cons_append, fractionDigits, fractionDigits] at *
      split
      · rename_i point
        rw [if_pos point] at enough
        refine takeWhile_take h.digits ?_
        split at enough
        · rename_i none
          rw [List.isEmpty_iff.mp none]
          exact Nat.zero_le _
        · omega
      · rfl

theorem ofSigned_take {negative : Bool} {marks : Nat} (h : AtBreak more)
    (enough : (Exponent.ofSigned negative marks xs).length ≤ marks + n) :
    Exponent.ofSigned negative marks (xs.take n ++ more) =
      Exponent.ofSigned negative marks xs := by
  have digits : (xs.take n ++ more).takeWhile isDigit = xs.takeWhile isDigit := by
    refine takeWhile_take h.digits ?_
    unfold Exponent.ofSigned at enough
    dsimp only at enough
    split at enough
    · rename_i none
      rw [List.isEmpty_iff.mp none]
      exact Nat.zero_le _
    · exact Nat.le_of_add_le_add_left enough
  rw [Exponent.ofSigned, Exponent.ofSigned, digits]

theorem ofSigned_atBreak (h : AtBreak more) (negative : Bool) (marks : Nat) :
    Exponent.ofSigned negative marks more = .none :=
  @ofSigned_take more [] 0 negative marks h (Nat.zero_le _)

/-- The exponent that breaks give is none. -/
theorem exponent_atBreak (h : AtBreak more) : Exponent.read more = .none := by
  match more with
  | [] => rfl
  | [_] => rfl
  | e :: sign :: rest =>
    refine if_neg ?_
    rintro (rfl | rfl)
    · exact absurd (h 101 rfl) (by decide)
    · exact absurd (h 69 rfl) (by decide)

/-- A letter is no exponent in front of a break. -/
theorem exponent_letter (h : AtBreak more) (e : UInt8) : Exponent.read (e :: more) = .none := by
  cases more with
  | nil => rfl
  | cons sign rest =>
    have noSign : sign ≠ 43 ∧ sign ≠ 45 := by
      constructor <;>
        rintro rfl
      · exact absurd (h 43 rfl) (by decide)
      · exact absurd (h 45 rfl) (by decide)
    rw [Exponent.read, if_neg noSign.1, if_neg noSign.2, ofSigned_atBreak h, ite_self]

/-- An exponent has a letter and a digit, unless there is none. -/
theorem exponent_length (xs : List UInt8) :
    Exponent.read xs = .none ∨ 2 ≤ (Exponent.read xs).length := by
  have signed (negative : Bool) (marks : Nat) (digits : List UInt8) (some_ : 1 ≤ marks) :
      Exponent.ofSigned negative marks digits = .none ∨
        2 ≤ (Exponent.ofSigned negative marks digits).length := by
    unfold Exponent.ofSigned
    dsimp only
    split
    · exact .inl rfl
    · rename_i digits
      have := List.length_pos_iff.mpr (mt List.isEmpty_iff.mpr digits)
      exact .inr (by dsimp only; omega)
  unfold Exponent.read
  split
  · exact .inl rfl
  · exact .inl rfl
  · split
    · split
      · exact signed _ _ _ (by decide)
      · split
        · exact signed _ _ _ (by decide)
        · exact signed _ _ _ (by decide)
    · exact .inl rfl

theorem exponent_take (h : AtBreak more) (enough : (Exponent.read xs).length ≤ n) :
    Exponent.read (xs.take n ++ more) = Exponent.read xs := by
  match xs, n with
  | [], n =>
    rw [List.take_nil]
    exact exponent_atBreak h
  | [e], 0 => exact exponent_atBreak h
  | [e], n + 1 =>
    rw [List.take_succ_cons, List.take_nil]
    exact exponent_letter h e
  | e :: sign :: rest, 0 =>
    obtain none | two := exponent_length (e :: sign :: rest)
    · rw [none]
      exact exponent_atBreak h
    · omega
  | e :: sign :: rest, 1 =>
    obtain none | two := exponent_length (e :: sign :: rest)
    · rw [none]
      exact exponent_letter h e
    · omega
  | e :: sign :: rest, n + 2 =>
    rw [Exponent.read] at enough
    rw [List.take_succ_cons, List.take_succ_cons, List.cons_append, List.cons_append,
      Exponent.read, Exponent.read]
    split
    · rename_i letter
      rw [if_pos letter] at enough
      split
      · rename_i plus
        rw [if_pos plus] at enough
        exact ofSigned_take h (by omega)
      · rename_i noPlus
        rw [if_neg noPlus] at enough
        split
        · rename_i minus
          rw [if_pos minus] at enough
          exact ofSigned_take h (by omega)
        · rename_i noMinus
          rw [if_neg noMinus] at enough
          exact @ofSigned_take more (sign :: rest) (n + 1) false 1 h (by omega)
    · rfl

theorem drop_take_append {k : Nat} (le : k ≤ n) (inside : k ≤ xs.length) :
    (xs.take n ++ more).drop k = (xs.drop k).take (n - k) ++ more := by
  rw [List.drop_append_of_le_length (by rw [List.length_take]; omega), List.drop_take]

theorem decimalNumber_take (h : AtBreak more) (enough : (decimalNumber xs).2 ≤ n) :
    decimalNumber (xs.take n ++ more) = decimalNumber xs := by
  have whole : Within isWordByte xs (xs.takeWhile isDigit).length :=
    .takeWhile (fun _ => isWordByte_of_isDigit) xs
  have inside := whole.inside
  have fits := (whole.add (within_fractionDigits _)).inside
  rw [← Nat.add_assoc] at fits
  unfold decimalNumber at enough ⊢
  dsimp only at enough ⊢
  have whole : (xs.take n ++ more).takeWhile isDigit = xs.takeWhile isDigit :=
    takeWhile_take h.digits (by omega)
  have fraction : fractionDigits ((xs.take n ++ more).drop (xs.takeWhile isDigit).length) =
      fractionDigits (xs.drop (xs.takeWhile isDigit).length) := by
    rw [drop_take_append (by omega) inside]
    exact fractionDigits_take h (by omega)
  rw [whole, fraction, drop_take_append (by omega) fits, exponent_take h (by omega)]

theorem number_decimal {b x : UInt8} {rest : List UInt8}
    (plain : ¬ (b = 48 ∧ (x = 120 ∨ x = 88))) :
    number (b :: x :: rest) = decimalNumber (b :: x :: rest) := by
  rw [number, if_neg plain]

theorem number_atBreak (h : AtBreak more) (b : UInt8) :
    number (b :: more) = decimalNumber (b :: more) := by
  cases more with
  | nil => rfl
  | cons x rest =>
    refine number_decimal ?_
    rintro ⟨-, rfl | rfl⟩
    · exact absurd (h 120 rfl) (by decide)
    · exact absurd (h 88 rfl) (by decide)

theorem number_take (h : AtBreak more) {b : UInt8}
    (enough : (number (b :: xs)).2 ≤ n + 1) :
    number (b :: (xs.take n ++ more)) = number (b :: xs) := by
  have decimal := @decimalNumber_take more (b :: xs) (n + 1) h
  rw [List.take_succ_cons, List.cons_append] at decimal
  match xs, n with
  | [], n =>
    rw [List.take_nil, List.nil_append] at decimal ⊢
    rw [number_atBreak h, number_atBreak .nil]
    exact decimal enough
  | x :: xs, 0 =>
    by_cases hex : b = 48 ∧ (x = 120 ∨ x = 88)
    · rw [number, if_pos hex, hexNumber] at enough
      omega
    · rw [number_decimal hex] at enough ⊢
      rw [List.take_zero, List.nil_append] at decimal ⊢
      rw [number_atBreak h]
      exact decimal enough
  | x :: xs, n + 1 =>
    rw [List.take_succ_cons, List.cons_append] at decimal ⊢
    rw [number] at enough ⊢
    rw [number]
    split
    · rename_i hex
      rw [if_pos hex, hexNumber] at enough
      have digits : (xs.take n ++ more).takeWhile isHexDigit = xs.takeWhile isHexDigit :=
        takeWhile_take (h.not_startsWith rfl rfl rfl) (by omega)
      rw [hexNumber, hexNumber, digits]
    · rename_i hex
      rw [if_neg hex] at enough
      exact decimal enough

theorem word_take (h : AtBreak more) {b : UInt8} (enough : (word (b :: xs)).2 ≤ n + 1) :
    word (b :: (xs.take n ++ more)) = word (b :: xs) := by
  have other : startsWith isNameByte more = false := h.not_startsWith rfl rfl rfl
  have letters := @takeWhile_take more (b :: xs) (n + 1) isNameByte other enough
  rw [List.take_succ_cons, List.cons_append] at letters
  rw [word, word, letters]
  rfl

theorem symbolPair?_atBreak (h : AtBreak more) (b : UInt8) :
    more.head?.bind (symbolPair? b) = none := by
  cases more with
  | nil => rfl
  | cons c rest =>
    rw [List.head?_cons, Option.bind_some]
    unfold symbolPair?
    obtain rfl | rfl | rfl := isBreak_cases (h c rfl) <;>
      split <;> first | rfl | contradiction

theorem symbol_take (h : AtBreak more) {b : UInt8} (enough : (symbol (b :: xs)).2 ≤ n + 1) :
    symbol (b :: (xs.take n ++ more)) = symbol (b :: xs) := by
  have alone := symbolPair?_atBreak h b
  match xs, n with
  | [], n => rw [List.take_nil, List.nil_append, symbol, symbol, alone]; rfl
  | c :: xs, 0 =>
    have pair : symbolPair? b c = none := by
      cases found : symbolPair? b c with
      | none => rfl
      | some s =>
        rw [symbol, List.head?_cons, Option.bind_some, found] at enough
        cases Nat.le_of_succ_le_succ enough
    rw [List.take_zero, List.nil_append, symbol, symbol, alone, List.head?_cons, Option.bind_some,
      pair]
  | c :: xs, n + 1 => rfl

end AtBreak

end ScriptHost
