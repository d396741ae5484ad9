import ScriptHost.Proofs.Encoding
import ScriptHost.Proofs.Places
import ScriptHost.Source.Lexeme

/-! The bytes of a string, read one after the other. `Scans` has one rule for each byte or pair of
bytes that a string can go on with; what is said of strings is said by induction on it. The
interpolated expressions of a string stand one after the other between their parentheses, each at
its own place. -/

namespace ScriptHost

/-- `Scans mode n parts bytes r m`: with `n` bytes of the string read, the finished `parts` and the
part that is under way, the string ends as `r` after `m` bytes if it goes on with `bytes`. -/
inductive Scans : StringMode → Nat → List RawPart → List UInt8 →
    Except LexicalFault (List RawPart) → Nat → Prop
  | openString {bs n parts} : Scans (.literal bs) n parts [] (.error .openString) n
  | openCode {before depth bs n parts} :
    Scans (.code before depth bs) n parts [] (.error .openInterpolation) n
  | quote {bs n parts rest} :
    Scans (.literal bs) n parts (34 :: rest) (.ok (closeLiteral bs parts true).reverse) (n + 1)
  | escape {bs n parts c b rest r m} : escaped? c = some b →
    Scans (.literal (b :: bs)) (n + 2) parts rest r m →
    Scans (.literal bs) n parts (92 :: c :: rest) r m
  | badEscape {bs n parts rest} : rest.head?.bind escaped? = none →
    Scans (.literal bs) n parts (92 :: rest) (.error .escape) (n + 1 + (rest.take 1).length)
  | code {bs n parts rest r m} :
    Scans (.code (n + 2) 0 []) (n + 2) (closeLiteral bs parts false) rest r m →
    Scans (.literal bs) n parts (37 :: 40 :: rest) r m
  | byte {bs n parts b rest r m} : b ≠ 34 → b ≠ 92 → ¬ (b = 37 ∧ rest.head? = some 40) →
    Scans (.literal (b :: bs)) (n + 1) parts rest r m →
    Scans (.literal bs) n parts (b :: rest) r m
  | nested {before depth bs n parts rest r m} :
    Scans (.code before (depth + 1) (40 :: bs)) (n + 1) parts rest r m →
    Scans (.code before depth bs) n parts (40 :: rest) r m
  | unnested {before depth bs n parts rest r m} :
    Scans (.code before depth (41 :: bs)) (n + 1) parts rest r m →
    Scans (.code before (depth + 1) bs) n parts (41 :: rest) r m
  | closed {before bs n parts rest r m} :
    Scans (.literal []) (n + 1) (.code bs.reverse before :: parts) rest r m →
    Scans (.code before 0 bs) n parts (41 :: rest) r m
  | codeByte {before depth bs n parts b rest r m} : b ≠ 40 → b ≠ 41 →
    Scans (.code before depth (b :: bs)) (n + 1) parts rest r m →
    Scans (.code before depth bs) n parts (b :: rest) r m

theorem stringParts_scans (mode : StringMode) (n : Nat) (parts : List RawPart)
    (bytes : List UInt8) :
    Scans mode n parts bytes (stringParts mode n parts bytes).1
      (stringParts mode n parts bytes).2 := by
  fun_induction stringParts mode n parts bytes with
  | case1 => exact .openString
  | case2 => exact .openCode
  | case3 => exact .quote
  | case4 => exact .badEscape rfl
  | case5 n parts b bs quote escape =>
    exact .byte quote escape (by simp) .openString
  | case6 n parts b before depth bs closes ih =>
    obtain ⟨rfl, rfl⟩ := closes
    exact .closed ih
  | case7 n parts b before depth bs open_ =>
    by_cases closing : b = 41
    · obtain _ | depth := depth
      · exact absurd ⟨closing, rfl⟩ open_
      · subst closing
        exact .unnested .openCode
    · by_cases opening : b = 40
      · subst opening
        exact .nested .openCode
      · exact .codeByte opening closing .openCode
  | case8 => exact .quote
  | case9 n parts c rest bs b known _ ih => exact .escape known ih
  | case10 n parts c rest bs unknown => exact .badEscape (by simpa using unknown)
  | case11 n parts b c rest bs quote escape opens ih =>
    obtain ⟨rfl, rfl⟩ := opens
    exact .code ih
  | case12 n parts b c rest bs quote escape plain ih =>
    exact .byte quote escape (by simpa using plain) ih
  | case13 n parts c rest before depth bs ih => exact .nested ih
  | case14 n parts c rest before bs _ ih => exact .closed ih
  | case15 n parts c rest before bs depth _ ih => exact .unnested ih
  | case16 n parts b c rest before depth bs opening closing ih =>
    exact .codeByte opening closing ih

/-- A string ends in one way. -/
theorem Scans.eq_stringParts {mode : StringMode} {n m : Nat} {parts : List RawPart}
    {bytes : List UInt8} {r : Except LexicalFault (List RawPart)}
    (h : Scans mode n parts bytes r m) : stringParts mode n parts bytes = (r, m) := by
  induction h with
  | openString => rfl
  | openCode => rfl
  | @quote bs n parts rest => cases rest <;> rfl
  | escape known _ ih =>
    unfold stringParts
    simp [known, ih]
  | @badEscape bs n parts rest unknown =>
    match rest with
    | [] => rfl
    | c :: rest =>
      rw [List.head?_cons, Option.bind_some] at unknown
      unfold stringParts
      simp [unknown]
  | code _ ih =>
    unfold stringParts
    simp [ih]
  | @byte bs n parts b rest r m quote escape plain h ih =>
    match rest with
    | [] =>
      rw [← ih]
      unfold stringParts
      simp [quote, escape]
    | c :: rest =>
      rw [List.head?_cons, Option.some.injEq] at plain
      unfold stringParts
      simp [quote, escape, plain, ih]
  | @nested before depth bs n parts rest r m h ih =>
    match rest with
    | [] =>
      rw [← ih]
      unfold stringParts
      simp
    | c :: rest =>
      unfold stringParts
      simp [ih]
  | @unnested before depth bs n parts rest r m h ih =>
    match rest with
    | [] =>
      rw [← ih]
      unfold stringParts
      simp
    | c :: rest =>
      unfold stringParts
      simp [ih]
  | @closed before bs n parts rest r m h ih =>
    match rest with
    | [] =>
      rw [← ih]
      conv => lhs; unfold stringParts
      simp
    | c :: rest =>
      conv => lhs; unfold stringParts
      simp [ih]
  | @codeByte before depth bs n parts b rest r m opening closing h ih =>
    match rest with
    | [] =>
      rw [← ih]
      unfold stringParts
      simp [closing]
    | c :: rest =>
      unfold stringParts
      simp [opening, closing, ih]

/-! ### Interpolated expressions -/

/-- The interpolated expressions among the parts of a string stand in its bytes one after the other,
each between its parentheses; the first byte is at `p`. -/
inductive CodeIn : Position → List UInt8 → List StringPart → Prop
  | nil {p text} : CodeIn p text []
  | literal {p text s parts} : CodeIn p text parts → CodeIn p text (.literal s :: parts)
  | code {p before code rest parts} :
    CodeIn (p.after (before ++ 37 :: 40 :: (code ++ [41]))) rest parts →
    CodeIn p (before ++ 37 :: 40 :: (code ++ 41 :: rest))
      (.code (Utf8.textOf code) (p.after (before ++ [37, 40])) :: parts)

namespace CodeIn

variable {p : Position} {text more : List UInt8} {parts : List StringPart}

theorem append (h : CodeIn p text parts) (more : List UInt8) : CodeIn p (text ++ more) parts := by
  induction h with
  | nil => exact .nil
  | literal _ ih => exact .literal ih
  | code _ ih =>
    simp only [List.append_assoc, List.cons_append]
    exact .code ih

theorem snoc_literal (h : CodeIn p text parts) (s : String) :
    CodeIn p text (parts ++ [.literal s]) := by
  induction h with
  | nil => exact .literal .nil
  | literal _ ih => exact .literal ih
  | code _ ih => exact .code ih

theorem snoc_code (h : CodeIn p text parts) (code : List UInt8) :
    CodeIn p (text ++ 37 :: 40 :: (code ++ [41]))
      (parts ++ [.code (Utf8.textOf code) (p.after (text ++ [37, 40]))]) := by
  induction h with
  | nil => exact .code .nil
  | literal _ ih => exact .literal ih
  | @code p before inner rest parts _ ih =>
    have place : p.after (before ++ 37 :: 40 :: (inner ++ 41 :: rest) ++ [37, 40]) =
        (p.after (before ++ 37 :: 40 :: (inner ++ [41]))).after (rest ++ [37, 40]) := by simp
    rw [place, List.append_assoc, List.cons_append, List.cons_append, List.append_assoc,
      List.cons_append]
    exact .code ih

/-- A part of interpolated source stands in the bytes of its string. -/
theorem found {source : String} {start : Position}
    (h : CodeIn p text parts) (there : .code source start ∈ parts) :
    ∃ before code rest, text = before ++ 37 :: 40 :: (code ++ 41 :: rest) ∧
      source = Utf8.textOf code ∧ start = p.after (before ++ [37, 40]) := by
  induction h with
  | nil => cases there
  | literal _ ih =>
    obtain ⟨⟩ | ⟨_, there⟩ := there
    exact ih there
  | @code p before code rest parts _ ih =>
    obtain ⟨⟩ | ⟨_, there⟩ := there
    · exact ⟨before, code, rest, rfl, rfl, rfl⟩
    · obtain ⟨before', code', rest', rfl, read, place⟩ := ih there
      refine ⟨before ++ 37 :: 40 :: (code ++ 41 :: before'), code', rest', by simp, read, ?_⟩
      rw [place]
      simp

end CodeIn

theorem closeLiteral_cases (bytes : List UInt8) (parts : List RawPart) (last : Bool) :
    closeLiteral bytes parts last = parts ∨
      closeLiteral bytes parts last = .literal bytes.reverse :: parts := by
  unfold closeLiteral
  split
  · exact .inl rfl
  · exact .inr rfl

theorem CodeIn.closeLiteral {p : Position} {whole text : List UInt8} {parts : List RawPart}
    (h : CodeIn p text (parts.reverse.map (RawPart.toPart p whole))) (bytes : List UInt8)
    (last : Bool) :
    CodeIn p text
      ((ScriptHost.closeLiteral bytes parts last).reverse.map (RawPart.toPart p whole)) := by
  obtain same | more := closeLiteral_cases bytes parts last
  · rw [same]
    exact h
  · rw [more, List.reverse_cons, List.map_append]
    exact h.snoc_literal _

/-- The finished parts of a string stand in the bytes `done` of it that are read; an expression that
is under way stands after them. -/
def StringMode.Reached (p : Position) (whole done : List UInt8) (parts : List RawPart) :
    StringMode → Prop
  | .literal _ => CodeIn p done (parts.reverse.map (RawPart.toPart p whole))
  | .code before _ bs => ∃ front, done = front ++ 37 :: 40 :: bs.reverse ∧
    before = front.length + 2 ∧ CodeIn p front (parts.reverse.map (RawPart.toPart p whole))

namespace StringMode.Reached

variable {p : Position} {whole done : List UInt8} {parts : List RawPart}

theorem more {before depth : Nat} {bs : List UInt8}
    (h : (code before depth bs).Reached p whole done parts) (b : UInt8) (depth' : Nat) :
    (code before depth' (b :: bs)).Reached p whole (done ++ [b]) parts := by
  obtain ⟨front, rfl, place, there⟩ := h
  exact ⟨front, by simp, place, there⟩

theorem close {before depth : Nat} {bs rest : List UInt8} (cut : whole = done ++ 41 :: rest)
    (h : (code before depth bs).Reached p whole done parts) :
    (literal []).Reached p whole (done ++ [41]) (.code bs.reverse before :: parts) := by
  obtain ⟨front, rfl, rfl, there⟩ := h
  have place : whole.take (front.length + 2) = front ++ [37, 40] := by
    rw [cut, show front ++ 37 :: 40 :: bs.reverse ++ 41 :: rest =
      (front ++ [37, 40]) ++ (bs.reverse ++ 41 :: rest) by simp]
    exact List.take_left' (by simp)
  change CodeIn _ _ _
  rw [List.reverse_cons, List.map_append, List.map_singleton, RawPart.toPart, place,
    List.append_assoc, List.cons_append, List.cons_append]
  exact there.snoc_code bs.reverse

end StringMode.Reached

/-- A string covers the bytes up to its end, and its expressions stand in them. -/
theorem Scans.extent {p : Position} {whole : List UInt8} {mode : StringMode} {n m : Nat}
    {parts : List RawPart} {bytes : List UInt8} {r : Except LexicalFault (List RawPart)}
    (h : Scans mode n parts bytes r m) :
    ∀ done, whole = done ++ bytes → n = done.length → mode.Reached p whole done parts →
      n ≤ m ∧ m ≤ whole.length ∧
        ∀ raws, r = .ok raws → CodeIn p (whole.take m) (raws.map (RawPart.toPart p whole)) := by
  induction h with
  | openString | openCode =>
    intro done cut count _
    exact ⟨Nat.le_refl _, by simp [cut, count], nofun⟩
  | @quote bs n parts rest =>
    intro done cut count reached
    refine ⟨by omega, by simp [cut, count], ?_⟩
    rintro raws ⟨⟩
    rw [cut, count, List.take_append, List.take_of_length_le (Nat.le_add_right _ _), ← cut]
    exact (CodeIn.closeLiteral reached bs true).append _
  | @badEscape bs n parts rest unknown =>
    intro done cut count _
    refine ⟨by omega, ?_, nofun⟩
    rw [cut, count, List.length_append, List.length_cons, List.length_take]
    omega
  | @escape bs n parts c b rest r m known _ ih =>
    intro done cut count reached
    obtain ⟨le, inside⟩ := ih (done ++ [92, c]) (by simp [cut]) (by simp [count])
      (CodeIn.append reached _)
    exact ⟨by omega, inside⟩
  | @code bs n parts rest r m _ ih =>
    intro done cut count reached
    obtain ⟨le, inside⟩ := ih (done ++ [37, 40]) (by simp [cut]) (by simp [count])
      ⟨done, by simp, by rw [count], CodeIn.closeLiteral reached bs false⟩
    exact ⟨by omega, inside⟩
  | @byte bs n parts b rest r m _ _ _ _ ih =>
    intro done cut count reached
    obtain ⟨le, inside⟩ := ih (done ++ [b]) (by simp [cut]) (by simp [count])
      (CodeIn.append reached _)
    exact ⟨by omega, inside⟩
  | @nested before depth bs n parts rest r m _ ih =>
    intro done cut count reached
    obtain ⟨le, inside⟩ := ih (done ++ [40]) (by simp [cut]) (by simp [count]) (reached.more _ _)
    exact ⟨by omega, inside⟩
  | @unnested before depth bs n parts rest r m _ ih =>
    intro done cut count reached
    obtain ⟨le, inside⟩ := ih (done ++ [41]) (by simp [cut]) (by simp [count]) (reached.more _ _)
    exact ⟨by omega, inside⟩
  | @closed before bs n parts rest r m _ ih =>
    intro done cut count reached
    obtain ⟨le, inside⟩ := ih (done ++ [41]) (by simp [cut]) (by simp [count]) (reached.close cut)
    exact ⟨by omega, inside⟩
  | @codeByte before depth bs n parts b rest r m _ _ _ ih =>
    intro done cut count reached
    obtain ⟨le, inside⟩ := ih (done ++ [b]) (by simp [cut]) (by simp [count]) (reached.more _ _)
    exact ⟨by omega, inside⟩

/-- A string token has at least the byte that opens it, and covers its expressions. -/
theorem string_extent (p : Position) (bytes : List UInt8) :
    0 < (string p (34 :: bytes)).2 ∧ (string p (34 :: bytes)).2 ≤ (34 :: bytes).length ∧
      ((∃ parts, (string p (34 :: bytes)).1 = .string parts ∧
          CodeIn p ((34 :: bytes).take (string p (34 :: bytes)).2) parts) ∨
        ∃ fault, (string p (34 :: bytes)).1 = .invalid fault) := by
  have scans := stringParts_scans (.literal []) 1 [] bytes
  obtain ⟨positive, inside, ok⟩ := scans.extent (p := p) [34] rfl rfl .nil
  unfold string
  rw [List.tail_cons]
  cases read : stringParts (.literal []) 1 [] bytes with
  | mk r m =>
    rw [read] at positive inside ok
    cases r with
    | ok raws => exact ⟨positive, inside, .inl ⟨_, rfl, ok raws rfl⟩⟩
    | error fault => exact ⟨positive, inside, .inr ⟨fault, rfl⟩⟩

/-! ### Where a string may be cut -/

/-- The first of some bytes, the last of them a quote, end a string, whatever follows them. -/
def Cuts (mode : StringMode) (n : Nat) (parts : List RawPart) (bytes : List UInt8)
    (raws : List RawPart) (m : Nat) : Prop :=
  ∃ front rest, bytes = front ++ 34 :: rest ∧ m = n + front.length + 1 ∧
    ∀ more, Scans mode n parts (front ++ 34 :: more) (.ok raws) m

/-- One step of the reading, in front of bytes that end the string. -/
theorem Cuts.step {mode mode' : StringMode} {n m : Nat} {parts parts' raws : List RawPart}
    {bytes : List UInt8} (first : List UInt8)
    (h : Cuts mode' (n + first.length) parts' bytes raws m)
    (step : ∀ front, Scans mode' (n + first.length) parts' front (.ok raws) m →
      Scans mode n parts (first ++ front) (.ok raws) m) :
    Cuts mode n parts (first ++ bytes) raws m := by
  obtain ⟨front, rest, rfl, count, again⟩ := h
  refine ⟨first ++ front, rest, (List.append_assoc ..).symm, ?_, fun more => ?_⟩
  · rw [List.length_append, count, Nat.add_assoc n]
  · rw [List.append_assoc]
    exact step _ (again more)

/-- What follows a string that is closed does not matter. -/
theorem Scans.cut {mode : StringMode} {n m : Nat} {parts raws : List RawPart} {bytes : List UInt8}
    (h : Scans mode n parts bytes (.ok raws) m) : Cuts mode n parts bytes raws m := by
  generalize found : Except.ok raws = r at h
  induction h with
  | openString | openCode | badEscape => cases found
  | @quote bs n parts rest =>
    cases found
    exact ⟨[], rest, rfl, rfl, fun _ => .quote⟩
  | escape known _ ih => exact .step [92, _] (ih found) fun _ => .escape known
  | code _ ih => exact .step [37, 40] (ih found) fun _ => .code
  | @byte bs n parts b _ r m quote escape plain _ ih =>
    obtain ⟨front, rest, rfl, count, again⟩ := ih found
    refine ⟨b :: front, rest, rfl, ?_, fun more => .byte quote escape ?_ (again more)⟩
    · rw [List.length_cons]
      omega
    · cases front <;> exact plain
  | nested _ ih => exact .step [40] (ih found) fun _ => .nested
  | unnested _ ih => exact .step [41] (ih found) fun _ => .unnested
  | closed _ ih => exact .step [41] (ih found) fun _ => .closed
  | codeByte opening closing _ ih =>
    exact .step [_] (ih found) fun _ => .codeByte opening closing

/-- Whether a part of a string starts within its first `n` bytes. -/
def RawPart.StartsIn (n : Nat) : RawPart → Prop
  | literal _ => True
  | code _ before => before ≤ n

/-- Whether the part of a string that is under way starts within its first `n` bytes. -/
def StringMode.StartsIn (n : Nat) : StringMode → Prop
  | literal _ => True
  | code before _ _ => before ≤ n

theorem RawPart.StartsIn.mono {part : RawPart} {m n : Nat} (h : part.StartsIn m) (le : m ≤ n) :
    part.StartsIn n := by
  cases part with
  | literal => trivial
  | code => exact Nat.le_trans h le

theorem startsIn_closeLiteral {bs : List UInt8} {parts : List RawPart} {last : Bool} {n : Nat}
    (h : ∀ part ∈ parts, part.StartsIn n) :
    ∀ part ∈ closeLiteral bs parts last, part.StartsIn n := by
  obtain same | more := closeLiteral_cases bs parts last
  · rw [same]
    exact h
  · rw [more, List.forall_mem_cons]
    exact ⟨trivial, h⟩

theorem Scans.startsIn {mode : StringMode} {n m : Nat} {parts raws : List RawPart}
    {bytes : List UInt8}
    (h : Scans mode n parts bytes (.ok raws) m) (under : mode.StartsIn n)
    (finished : ∀ part ∈ parts, part.StartsIn n) : ∀ part ∈ raws, part.StartsIn m := by
  have mono {parts : List RawPart} {k l : Nat} (h : ∀ part ∈ parts, part.StartsIn k) (le : k ≤ l) :
      ∀ part ∈ parts, part.StartsIn l := fun part there => (h part there).mono le
  generalize found : Except.ok raws = r at h
  induction h with
  | openString | openCode | badEscape => cases found
  | quote =>
    cases found
    intro part there
    exact (startsIn_closeLiteral finished part (List.mem_reverse.mp there)).mono
      (Nat.le_add_right _ 1)
  | escape _ _ ih => exact ih trivial (mono finished (Nat.le_add_right _ 2)) found
  | code _ ih =>
    exact ih (Nat.le_refl _) (startsIn_closeLiteral (mono finished (Nat.le_add_right _ 2))) found
  | byte _ _ _ _ ih => exact ih trivial (mono finished (Nat.le_add_right _ 1)) found
  | nested _ ih | unnested _ ih | codeByte _ _ _ ih =>
    exact ih (Nat.le_succ_of_le under) (mono finished (Nat.le_add_right _ 1)) found
  | closed _ ih =>
    refine ih trivial (List.forall_mem_cons.mpr ⟨?_, mono finished (Nat.le_add_right _ 1)⟩) found
    exact Nat.le_succ_of_le under

theorem toPart_congr {p : Position} {xs ys : List UInt8} {part : RawPart} {n : Nat}
    (h : part.StartsIn n) (same : xs.take n = ys.take n) : part.toPart p xs = part.toPart p ys := by
  cases part with
  | literal => rfl
  | code code before =>
    have front := congrArg (List.take before) same
    rw [List.take_take, List.take_take, Nat.min_eq_left h] at front
    rw [RawPart.toPart, RawPart.toPart, front]

theorem string_take {p : Position} {rest : List UInt8} {k : Nat} (more : List UInt8)
    (enough : (string p (34 :: rest)).2 ≤ k + 1)
    (closed : ∀ fault, (string p (34 :: rest)).1 ≠ .invalid fault) :
    string p (34 :: (rest.take k ++ more)) = string p (34 :: rest) := by
  have scans := stringParts_scans (.literal []) 1 [] rest
  unfold string at closed enough ⊢
  rw [List.tail_cons] at closed enough ⊢
  rw [List.tail_cons]
  cases read : stringParts (.literal []) 1 [] rest with
  | mk r m =>
    rw [read] at closed enough scans
    cases r with
    | error fault => exact absurd rfl (closed fault)
    | ok raws =>
      obtain ⟨front, behind, rfl, rfl, again⟩ := scans.cut
      dsimp only at enough
      have kept : ∃ more', (front ++ 34 :: behind).take k ++ more = front ++ 34 :: more' := by
        refine ⟨behind.take (k - (front.length + 1)) ++ more, ?_⟩
        rw [List.append_cons, List.take_append, List.take_of_length_le (by simp; omega)]
        simp
      obtain ⟨more', kept⟩ := kept
      rw [kept, (again _).eq_stringParts]
      have same : raws.map (RawPart.toPart p (34 :: (front ++ 34 :: more'))) =
          raws.map (RawPart.toPart p (34 :: (front ++ 34 :: behind))) := by
        refine List.map_congr_left fun part there =>
          toPart_congr (scans.startsIn trivial nofun part there) ?_
        have length : 1 + front.length + 1 = (34 :: (front ++ [34])).length := by
          simp only [List.length_cons, List.length_append, List.length_nil]
          omega
        have cut (xs : List UInt8) :
            (34 :: (front ++ 34 :: xs)).take (1 + front.length + 1) = 34 :: (front ++ [34]) := by
          rw [show 34 :: (front ++ 34 :: xs) = 34 :: (front ++ [34]) ++ xs by simp, length,
            List.take_left]
        rw [cut, cut]
      dsimp only
      rw [same]

end ScriptHost
