import Mathlib.Data.List.Basic
import ScriptHost.Text.Utf8

/-! Texts and their bytes: a text is read back from its bytes, and what is read from any bytes is
written with bytes at their front. -/

namespace ScriptHost.Utf8

variable {bytes : List UInt8} {s : String}

@[simp] theorem length_encode (s : String) : (encode s).length = s.utf8ByteSize := by
  unfold encode String.toUTF8
  rw [← String.size_toByteArray]
  rfl

@[simp] theorem encode_append (s t : String) : encode (s ++ t) = encode s ++ encode t := by
  unfold encode String.toUTF8
  simp

theorem decode?_encode (s : String) : decode? (encode s) = some s := by
  have same : (encode s).toByteArray = s.toByteArray := by
    unfold encode String.toUTF8
    ext1
    simp
  unfold decode? String.fromUTF8?
  rw [same, dif_pos s.isValidUTF8]
  rfl

theorem encode_of_decode? (read : decode? bytes = some s) : encode s = bytes := by
  unfold decode? String.fromUTF8? at read
  split at read
  · cases read
    exact List.toList_data_toByteArray
  · cases read

theorem textOf_encode (s : String) : textOf (encode s) = s := by
  unfold textOf
  rw [decode?_encode]
  rfl

/-- Nothing is replaced in the bytes of a text. -/
theorem lossy_encode (s : String) : lossy (encode s) = s := by
  rw [lossy, decode?_encode, Option.getD_some]

/-- Bytes that are no text count as the empty one. -/
theorem encode_textOf_isPrefix (bytes : List UInt8) : encode (textOf bytes) <+: bytes := by
  unfold textOf
  cases read : decode? bytes with
  | none => exact List.nil_prefix
  | some s =>
    have same : encode s = bytes := encode_of_decode? read
    exact ⟨[], by rw [Option.getD_some, same, List.append_nil]⟩

theorem size_textOf_le (bytes : List UInt8) : (textOf bytes).utf8ByteSize ≤ bytes.length := by
  rw [← length_encode]
  exact (encode_textOf_isPrefix bytes).length_le

/-! ### Characters -/

/-- The bytes of a text are those of its characters. -/
theorem encode_ofList (cs : List Char) :
    encode (String.ofList cs) = cs.flatMap String.utf8EncodeChar := by
  unfold encode String.toUTF8
  rw [String.toByteArray_ofList]
  exact List.toList_data_toByteArray

theorem encode_eq_flatMap (s : String) : encode s = s.toList.flatMap String.utf8EncodeChar := by
  rw [← encode_ofList, String.ofList_toList]

theorem utf8EncodeChar_ascii {c : Char} (ascii : c.toNat < 128) :
    String.utf8EncodeChar c = [UInt8.ofNat c.toNat] := by
  unfold String.utf8EncodeChar
  exact if_pos (Nat.le_of_lt_succ ascii)

theorem utf8EncodeChar_ne_nil (c : Char) : String.utf8EncodeChar c ≠ [] := by
  have some_ := c.utf8Size_pos
  rw [← String.length_utf8EncodeChar] at some_
  exact List.ne_nil_of_length_pos some_

/-- No byte of another character is an ASCII one. -/
theorem le_of_mem_utf8EncodeChar {c : Char} (other : 128 ≤ c.toNat) {b : UInt8}
    (there : b ∈ String.utf8EncodeChar c) : 128 ≤ b.toNat := by
  revert there
  fun_cases String.utf8EncodeChar c with
  | case1 v ascii => exact absurd other (Nat.not_le_of_lt (Nat.lt_succ_of_le ascii))
  | case2 | case3 | case4 =>
    intro there
    simp only [List.mem_cons, List.not_mem_nil, or_false] at there
    rcases there with rfl | rfl | rfl | rfl <;>
      · rw [UInt8.toNat_ofNat']
        omega

/-! ### Parts of a text -/

/-- An ASCII byte is a character of its own wherever it stands. -/
theorem split_at_ascii {cs : List Char} {front back : List UInt8} {b : UInt8}
    (ascii : b.toNat < 128) (whole : cs.flatMap String.utf8EncodeChar = front ++ b :: back) :
    ∃ before c behind, cs = before ++ c :: behind ∧
      front = before.flatMap String.utf8EncodeChar ∧ String.utf8EncodeChar c = [b] ∧
      back = behind.flatMap String.utf8EncodeChar := by
  induction cs generalizing front with
  | nil => simp at whole
  | cons c cs ih =>
    rw [List.flatMap_cons] at whole
    obtain ⟨zs, rfl, inside⟩ | ⟨zs, outside, rest⟩ := List.append_eq_append_iff.mp whole
    · obtain ⟨before, d, behind, rfl, rfl, own, rfl⟩ := ih inside
      exact ⟨c :: before, d, behind, rfl, rfl, own, rfl⟩
    · obtain _ | ⟨z, zs⟩ := zs
      · rw [List.append_nil] at outside
        obtain ⟨before, d, behind, rfl, none, own, rfl⟩ := @ih [] rest.symm
        exact ⟨c :: before, d, behind, rfl,
          by rw [List.flatMap_cons, ← none, List.append_nil, outside],
          own, rfl⟩
      · rw [List.cons_append, List.cons.injEq] at rest
        obtain ⟨rfl, rfl⟩ := rest
        have low : c.toNat < 128 := by
          by_contra high
          have := le_of_mem_utf8EncodeChar (Nat.le_of_not_lt high)
            (outside ▸ List.mem_append_right _ List.mem_cons_self)
          omega
        rw [utf8EncodeChar_ascii low] at outside
        obtain ⟨rfl, rfl, rfl⟩ : front = [] ∧ b = UInt8.ofNat c.toNat ∧ zs = [] := by
          cases front with
          | nil =>
            rw [List.nil_append, List.cons.injEq] at outside
            exact ⟨rfl, outside.1.symm, outside.2.symm⟩
          | cons => simp at outside
        exact ⟨[], c, cs, rfl, rfl, utf8EncodeChar_ascii low, rfl⟩

/-- A character whose first byte is an ASCII one has no other. -/
theorem eq_of_utf8EncodeChar {c : Char} {b : UInt8} {bytes : List UInt8}
    (own : String.utf8EncodeChar c = b :: bytes) (ascii : b.toNat < 128) :
    c = Char.ofNat b.toNat ∧ bytes = [] := by
  by_cases low : c.toNat < 128
  · rw [utf8EncodeChar_ascii low, List.cons.injEq] at own
    obtain ⟨rfl, rfl⟩ := own
    rw [UInt8.toNat_ofNat', Nat.mod_eq_of_lt (by omega), Char.ofNat_toNat]
    exact ⟨rfl, rfl⟩
  · have := le_of_mem_utf8EncodeChar (Nat.le_of_not_lt low) (own ▸ List.mem_cons_self)
    omega

/-- A part of a text that starts and ends with ASCII bytes cuts no character. -/
theorem exists_slice {s : String} {before text behind : List UInt8}
    (whole : encode s = before ++ (text ++ behind)) (some_ : text ≠ [])
    (first : ∀ b ∈ text.head?, b.toNat < 128) (last : ∀ b ∈ text.getLast?, b.toNat < 128) :
    ∃ front slice back, s = front ++ slice ++ back ∧ encode front = before ∧
      encode slice = text ∧ encode back = behind := by
  obtain ⟨b, text, rfl⟩ := List.exists_cons_of_ne_nil some_
  rw [encode_eq_flatMap, List.cons_append] at whole
  obtain ⟨front, c, cs, chars, rfl, own, rest⟩ := split_at_ascii (first b rfl) whole
  obtain rfl | ⟨middle, l, rfl⟩ := List.eq_nil_or_concat text
  · refine ⟨String.ofList front, String.ofList [c], String.ofList cs, ?_, encode_ofList _, ?_, ?_⟩
    · rw [← String.toList_inj, chars]
      simp
    · rw [encode_ofList, List.flatMap_singleton, own]
    · rw [encode_ofList, ← rest, List.nil_append]
  · rw [List.concat_eq_append] at last rest ⊢
    have low : l.toNat < 128 := last l (by rw [← List.cons_append, List.getLast?_concat]; rfl)
    rw [List.append_assoc, List.singleton_append] at rest
    obtain ⟨inner, d, back, rfl, rfl, own', rfl⟩ := split_at_ascii low rest.symm
    refine ⟨String.ofList front, String.ofList (c :: (inner ++ [d])), String.ofList back, ?_,
      encode_ofList _, ?_, encode_ofList _⟩
    · rw [← String.toList_inj, chars]
      simp
    · rw [encode_ofList, List.flatMap_cons, List.flatMap_append, List.flatMap_singleton, own, own',
        List.singleton_append]

/-- A part of a text that starts and ends with ASCII bytes is a text. -/
theorem exists_encode_eq {s : String} {before text behind : List UInt8}
    (whole : encode s = before ++ (text ++ behind)) (first : ∀ b ∈ text.head?, b.toNat < 128)
    (last : ∀ b ∈ text.getLast?, b.toNat < 128) : ∃ t, encode t = text := by
  by_cases none_ : text = []
  · exact ⟨"", none_ ▸ rfl⟩
  · obtain ⟨-, slice, -, -, -, same, -⟩ := exists_slice whole none_ first last
    exact ⟨slice, same⟩

end ScriptHost.Utf8
