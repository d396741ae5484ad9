import Mathlib.Data.List.Induction
import ScriptHost.Proofs.Encoding
import ScriptHost.Source.Position

/-! Places of a text and their displacement. A place is true of a text if its line and column are
those of its offset; these places are what `Position.after` leads to from the origin. Moving a
fragment onto the text that encloses it composes displacements: it goes along with reading bytes, it
is associative, and the origin is neutral, so that a place in two texts, one after the other, is the
end of the first moved by the place in the second. -/

namespace ScriptHost
namespace Position

/-- A place that some text has: lines and columns are counted from one. -/
structure Proper (p : Position) : Prop where
  line : 1 ≤ p.line
  column : 1 ≤ p.column

/-- The line of a place is one more than the newlines in front of it, and its column one more than
the bytes since the last of them. -/
structure TrueIn (bytes : List UInt8) (p : Position) : Prop where
  offset : p.offset ≤ bytes.length
  line : p.line = 1 + (bytes.take p.offset).count newline
  column : p.column = 1 + ((bytes.take p.offset).reverse.takeWhile (· ≠ newline)).length

variable {p q base : Position} {bytes : List UInt8}

/-! ### Reading bytes -/

@[simp] theorem step_offset (p : Position) (b : UInt8) : (p.step b).offset = p.offset + 1 := by
  unfold step
  split <;> rfl

@[simp] theorem after_offset (p : Position) (bytes : List UInt8) :
    (p.after bytes).offset = p.offset + bytes.length := by
  induction bytes generalizing p with
  | nil => rfl
  | cons b rest ih =>
    rw [after_cons, ih, step_offset, List.length_cons]
    omega

theorem proper_origin : origin.Proper := ⟨Nat.le_refl _, Nat.le_refl _⟩

theorem Proper.step (h : p.Proper) (b : UInt8) : (p.step b).Proper := by
  unfold Position.step
  split
  · exact ⟨Nat.le_add_right_of_le h.line, Nat.le_refl _⟩
  · exact ⟨h.line, Nat.le_add_right_of_le h.column⟩

theorem Proper.after (h : p.Proper) (bytes : List UInt8) : (p.after bytes).Proper := by
  induction bytes generalizing p with
  | nil => exact h
  | cons b rest ih => exact ih (h.step b)

/-! ### Places of a text -/

theorem line_after_origin (xs : List UInt8) :
    (origin.after xs).line = 1 + xs.count newline := by
  induction xs using List.reverseRecOn with
  | nil => rfl
  | append_singleton xs b ih =>
    rw [after_append, after_cons, after_nil, List.count_append, List.count_singleton]
    unfold step
    by_cases h : b = newline
    · simp [h, ih]
      omega
    · simp [h, ih]

theorem column_after_origin (xs : List UInt8) :
    (origin.after xs).column = 1 + (xs.reverse.takeWhile (· ≠ newline)).length := by
  induction xs using List.reverseRecOn with
  | nil => rfl
  | append_singleton xs b ih =>
    rw [after_append, after_cons, after_nil, List.reverse_append, List.reverse_singleton,
      List.singleton_append]
    unfold step
    by_cases h : b = newline
    · simp [h]
    · rw [if_neg h, List.takeWhile_cons_of_pos (by simpa using h), List.length_cons]
      simp only [ih]
      omega

/-- The true places of a text are those that reading its bytes leads to. -/
theorem trueIn_iff : p.TrueIn bytes ↔ ∃ xs ys, bytes = xs ++ ys ∧ p = origin.after xs := by
  constructor
  · rintro ⟨offset, line, column⟩
    refine ⟨bytes.take p.offset, bytes.drop p.offset, (List.take_append_drop _ _).symm, ?_⟩
    have length : (bytes.take p.offset).length = p.offset := by
      rw [List.length_take]
      omega
    obtain ⟨o, l, c⟩ := p
    rw [Position.mk.injEq, after_offset, line_after_origin, column_after_origin, length]
    exact ⟨(Nat.zero_add _).symm, line, column⟩
  · rintro ⟨xs, ys, rfl, rfl⟩
    have offset : (origin.after xs).offset = xs.length := by simp [origin]
    refine ⟨by rw [offset, List.length_append]; omega, ?_, ?_⟩
    · rw [offset, List.take_left, line_after_origin]
    · rw [offset, List.take_left, column_after_origin]

theorem trueIn_after (xs ys : List UInt8) : (origin.after xs).TrueIn (xs ++ ys) :=
  trueIn_iff.mpr ⟨xs, ys, rfl, rfl⟩

theorem trueIn_origin (bytes : List UInt8) : origin.TrueIn bytes := trueIn_after [] bytes

/-! ### Displacement -/

@[simp] theorem rebase_offset (base p : Position) :
    (base.rebase p).offset = base.offset + p.offset := by
  unfold rebase
  split <;> rfl

@[simp] theorem origin_rebase (p : Position) : origin.rebase p = p := by
  obtain ⟨o, l, c⟩ := p
  unfold rebase origin
  split
  · rename_i first
    simp only at first
    simp [first]
  · simp

@[simp] theorem rebase_origin (base : Position) : base.rebase origin = base := rfl

theorem rebase_step (hp : p.Proper) (base : Position) (b : UInt8) :
    base.rebase (p.step b) = (base.rebase p).step b := by
  obtain ⟨line, column⟩ := hp
  unfold step rebase
  by_cases ends : b = newline <;> by_cases first : p.line = 1
  · simp [ends, first]
    omega
  · have later : ¬ p.line = 0 := by omega
    simp [ends, first, later]
    omega
  · simp [ends, first]
    omega
  · simp [ends, first]
    omega

/-- Displacement goes along with reading. -/
theorem rebase_after (hp : p.Proper) (base : Position) (bytes : List UInt8) :
    base.rebase (p.after bytes) = (base.rebase p).after bytes := by
  induction bytes generalizing p with
  | nil => rfl
  | cons b rest ih => rw [after_cons, after_cons, ih (hp.step b), rebase_step hp]

theorem Proper.rebase (hbase : base.Proper) (hp : p.Proper) : (base.rebase p).Proper := by
  obtain ⟨baseLine, baseColumn⟩ := hbase
  obtain ⟨line, column⟩ := hp
  unfold Position.rebase
  split
  · exact ⟨baseLine, by simp only; omega⟩
  · exact ⟨by simp only; omega, column⟩

/-- A fragment of a fragment can be moved at once or step by step. -/
theorem rebase_rebase (hp : p.Proper) (hq : q.Proper) (base : Position) :
    base.rebase (p.rebase q) = (base.rebase p).rebase q := by
  obtain ⟨line, column⟩ := hp
  obtain ⟨line', column'⟩ := hq
  unfold rebase
  by_cases first : p.line = 1 <;> by_cases first' : q.line = 1
  · simp [first, first']
    omega
  · simp [first, first']
    omega
  · simp [first, first']
    omega
  · have later : ¬ p.line + q.line - 1 = 1 := by omega
    simp [first, first', later]
    omega

/-- For proper places, moving is exact: no subtraction in it is cut off at zero. -/
theorem rebase_exact (hbase : base.Proper) (hp : p.Proper) :
    ((base.rebase p).line : Int) = base.line + p.line - 1 ∧
      ((base.rebase p).column : Int) =
        if p.line = 1 then (base.column : Int) + p.column - 1 else p.column := by
  obtain ⟨baseLine, baseColumn⟩ := hbase
  obtain ⟨line, column⟩ := hp
  unfold rebase
  by_cases first : p.line = 1
  · simp only [first, if_true]
    omega
  · simp only [if_neg first, and_true]
    omega

theorem Proper.foldr {bases : List Position} (proper : ∀ base ∈ bases, base.Proper)
    (hp : p.Proper) : (bases.foldr Position.rebase p).Proper := by
  induction bases with
  | nil => exact hp
  | cons base bases ih =>
    rw [List.forall_mem_cons] at proper
    exact proper.1.rebase (ih proper.2)

/-- However deep fragments stand in each other, the place in the innermost one can be moved from
each to the next, or at once by the place of the innermost in the whole. -/
theorem foldr_rebase {bases : List Position} (proper : ∀ base ∈ bases, base.Proper)
    (hp : p.Proper) (outer : Position) :
    outer.rebase (bases.foldr rebase p) = (bases.foldl rebase outer).rebase p := by
  induction bases generalizing outer with
  | nil => rfl
  | cons base bases ih =>
    rw [List.forall_mem_cons] at proper
    obtain ⟨hbase, proper⟩ := proper
    rw [List.foldr_cons, List.foldl_cons, rebase_rebase hbase (hp.foldr proper), ih proper]

/-- The place of an offset in a text: where reading the bytes in front of it leads. -/
def placeAt (text : String) (offset : Nat) : Position :=
  origin.after ((Utf8.encode text).take offset)

theorem placeAt_offset {text : String} {offset : Nat} (inside : offset ≤ text.utf8ByteSize) :
    (placeAt text offset).offset = offset := by
  rw [placeAt, after_offset, List.length_take, Utf8.length_encode, Nat.min_eq_left inside]
  exact Nat.zero_add offset

theorem placeAt_append (s t : String) (offset : Nat) :
    placeAt (s ++ t) (s.utf8ByteSize + offset) =
      (placeAt s s.utf8ByteSize).rebase (placeAt t offset) := by
  have whole : (Utf8.encode s).take s.utf8ByteSize = Utf8.encode s :=
    List.take_of_length_le (Nat.le_of_eq (Utf8.length_encode s))
  have front : (Utf8.encode (s ++ t)).take (s.utf8ByteSize + offset) =
      Utf8.encode s ++ (Utf8.encode t).take offset := by
    rw [Utf8.encode_append, ← Utf8.length_encode s, List.take_length_add_append]
  rw [placeAt, placeAt, placeAt, whole, front, after_append, rebase_after proper_origin,
    rebase_origin]

/-- Moving places is the composition of the displacements of texts: it is associative, the origin is
neutral on both sides, and the place of an offset in the second of two texts is moved by the end of
the first. So fragments in each other can be left step by step or at once. No subtraction is cut off
at zero on the way, and proper places stay proper. -/
theorem displacements_compose {p q r : Position} (hp : p.Proper) (hq : q.Proper) (hr : r.Proper)
    {bases : List Position} (proper : ∀ base ∈ bases, base.Proper) {s t : String} {offset : Nat}
    (inside : offset ≤ t.utf8ByteSize) :
    p.rebase (q.rebase r) = (p.rebase q).rebase r ∧
      (origin.rebase p = p ∧ p.rebase origin = p) ∧
      ((placeAt t offset).offset = offset ∧
        placeAt (s ++ t) (s.utf8ByteSize + offset) =
          (placeAt s s.utf8ByteSize).rebase (placeAt t offset)) ∧
      bases.foldr rebase r = (bases.foldl rebase origin).rebase r ∧
      (p.rebase q).Proper ∧ ((p.rebase q).line : Int) = p.line + q.line - 1 ∧
      ((p.rebase q).column : Int) =
        if q.line = 1 then (p.column : Int) + q.column - 1 else q.column := by
  have nested := foldr_rebase proper hr origin
  rw [origin_rebase] at nested
  exact ⟨rebase_rebase hq hr p, ⟨origin_rebase p, rebase_origin p⟩,
    ⟨placeAt_offset inside, placeAt_append s t offset⟩, nested, hp.rebase hq, rebase_exact hp hq⟩

/-- A place on the second line of a fragment, which starts on the second line of a fragment. -/
theorem displacements_compose_lines :
    (⟨10, 3, 7⟩ : Position).rebase (rebase ⟨5, 2, 2⟩ ⟨4, 2, 1⟩) =
        (rebase ⟨10, 3, 7⟩ ⟨5, 2, 2⟩).rebase ⟨4, 2, 1⟩ ∧
      placeAt ("a\né" ++ "b\nc") (4 + 2) = (placeAt "a\né" 4).rebase (placeAt "b\nc" 2) ∧
      [⟨10, 3, 7⟩, ⟨5, 2, 2⟩].foldr rebase ⟨4, 2, 1⟩ =
        ([⟨10, 3, 7⟩, ⟨5, 2, 2⟩].foldl rebase origin).rebase ⟨4, 2, 1⟩ := by
  have outer : (⟨10, 3, 7⟩ : Position).Proper := ⟨by decide, by decide⟩
  have middle : (⟨5, 2, 2⟩ : Position).Proper := ⟨by decide, by decide⟩
  have inner : (⟨4, 2, 1⟩ : Position).Proper := ⟨by decide, by decide⟩
  have proper : ∀ base ∈ [(⟨10, 3, 7⟩ : Position), ⟨5, 2, 2⟩], base.Proper :=
    List.forall_mem_cons.mpr ⟨outer, List.forall_mem_cons.mpr ⟨middle, nofun⟩⟩
  have inside : 2 ≤ "b\nc".utf8ByteSize := by decide
  have all : _ ∧ _ ∧ (_ ∧ placeAt ("a\né" ++ "b\nc") (4 + 2) = _) ∧ _ :=
    displacements_compose outer middle inner proper inside
  exact ⟨all.1, all.2.2.1.2, all.2.2.2.1⟩

end Position

namespace Span

variable {base : Position} {s t : Span}

@[simp] theorem rebase_start (base : Position) (s : Span) :
    (s.rebase base).start = base.rebase s.start := rfl

@[simp] theorem rebase_stop (base : Position) (s : Span) :
    (s.rebase base).stop = base.rebase s.stop := rfl

@[simp] theorem rebase_point (base p : Position) :
    (point p).rebase base = point (base.rebase p) := rfl

@[simp] theorem origin_rebase (s : Span) : s.rebase .origin = s := by
  unfold rebase
  rw [Position.origin_rebase, Position.origin_rebase]

/-- Spans are compared by their offsets, which all move by the same amount. -/
@[simp] theorem rebase_merge (base : Position) (s t : Span) :
    (s.merge t).rebase base = (s.rebase base).merge (t.rebase base) := by
  unfold merge rebase
  simp only [Position.rebase_offset, Nat.add_le_add_iff_left]
  congr 1 <;> split <;> rfl

/-- A span whose ends are true places of a text, in order. -/
structure TrueIn (bytes : List UInt8) (s : Span) : Prop where
  start : s.start.TrueIn bytes
  stop : s.stop.TrueIn bytes
  ordered : s.start.offset ≤ s.stop.offset

/-- The part `s` of a text is a part of the part `t`. -/
structure Within (s t : Span) : Prop where
  start : t.start.offset ≤ s.start.offset
  stop : s.stop.offset ≤ t.stop.offset

theorem Within.refl (s : Span) : s.Within s := ⟨Nat.le_refl _, Nat.le_refl _⟩

theorem Within.trans {r : Span} (h : r.Within s) (k : s.Within t) : r.Within t :=
  ⟨Nat.le_trans k.start h.start, Nat.le_trans h.stop k.stop⟩

theorem merge_start_offset (s t : Span) :
    (s.merge t).start.offset = min s.start.offset t.start.offset := by
  unfold merge
  dsimp only
  split <;> omega

theorem merge_stop_offset (s t : Span) :
    (s.merge t).stop.offset = max s.stop.offset t.stop.offset := by
  unfold merge
  dsimp only
  split <;> omega

theorem within_merge_left (s t : Span) : s.Within (s.merge t) :=
  ⟨by rw [merge_start_offset]; omega, by rw [merge_stop_offset]; omega⟩

theorem within_merge_right (s t : Span) : t.Within (s.merge t) :=
  ⟨by rw [merge_start_offset]; omega, by rw [merge_stop_offset]; omega⟩

/-- What stands between two parts stands in the span that covers both. -/
theorem Within.merge {r : Span} (front : s.start.offset ≤ r.start.offset)
    (back : r.stop.offset ≤ t.stop.offset) : r.Within (s.merge t) :=
  ⟨by rw [merge_start_offset]; omega, by rw [merge_stop_offset]; omega⟩

theorem TrueIn.merge {bytes : List UInt8} (hs : s.TrueIn bytes) (ht : t.TrueIn bytes) :
    (s.merge t).TrueIn bytes where
  start := by
    unfold Span.merge
    dsimp only
    split
    · exact hs.start
    · exact ht.start
  stop := by
    unfold Span.merge
    dsimp only
    split
    · exact hs.stop
    · exact ht.stop
  ordered := by
    have := hs.ordered
    rw [merge_start_offset, merge_stop_offset]
    omega

end Span
end ScriptHost
