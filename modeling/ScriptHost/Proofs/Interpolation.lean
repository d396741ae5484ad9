import ScriptHost.Proofs.Lexing.Literals
import ScriptHost.Proofs.Reading.Expressions

/-! Interpolated expressions are read as they are alone. A literal with an expression in it is one
token, and its part for the expression is what the expression is alone, moved to where it stands. -/

namespace ScriptHost

open Parse

variable {e : String} {x : Expr} {c d : Cursor} {levels : Nat} {here : Position}

/-! ### The parts of a string -/

/-- Interpolated source is read as it is alone, at its place. -/
theorem fragment_alone (alone : whole expression (.start (tokens e)) = .ok x d)
    (proper : here.Proper) (enough : nestingBound (tokens e) ≤ levels) (c : Cursor) :
    fragment (expressionUpTo levels) e here c = .ok (x.rebase here) c := by
  let w : Tails := ⟨here, proper, [], []⟩
  have alike : w.Alike (nestingBound (tokens e)) (.start (tokens e))
      (.start ((tokens e).map (Token.rebase here))) :=
    Tails.alike_start rfl rfl (Nat.le_refl _) _
  have found := (Tails.Sim.whole (Tails.reads_expression w enough) (Nat.le_refl _)).agree _ _ alike
  rw [alone] at found
  obtain ⟨left, -⟩ | ⟨d', same, -⟩ := found
  · exact absurd rfl left
  · unfold fragment
    rw [same]

/-- The parts of a string are read one after the other. -/
theorem fragments_append (nested : Parse Expr) (front back : List StringPart) :
    fragments nested (front ++ back) = do
      let f ← fragments nested front
      let b ← fragments nested back
      return f ++ b := by
  induction front with
  | nil => simp [fragments]
  | cons part front ih =>
    cases part with
    | literal text => simp [fragments, ih]
    | code source start => simp [fragments, ih]

/-- The parts of a string around one that is read as `y`. -/
theorem fragments_around {nested : Parse Expr} {y : Expr}
    (read : ∀ c, fragment nested e here c = .ok y c) (front back : List StringPart) :
    fragments nested (front ++ .code e here :: back) = do
      let f ← fragments nested front
      let b ← fragments nested back
      return f ++ Fragment.code y :: b := by
  have same : fragment nested e here = pure y := funext read
  rw [fragments_append]
  simp [fragments, same]

/-- A string with an interpolated expression is read to a node with the parts of the string. -/
theorem primary_string (nested : Parse Expr) (front back : List StringPart) (span last : Span)
    (rest : List Token) :
    primary nested ⟨⟨.string (front ++ StringPart.code e here :: back), span⟩ :: rest, last⟩ =
      (do
        let parts ← fragments nested (front ++ StringPart.code e here :: back)
        return Expr.interpolation span parts) ⟨rest, span⟩ := by
  have several : Parse.string nested span (front ++ StringPart.code e here :: back) = (do
      let parts ← fragments nested (front ++ StringPart.code e here :: back)
      return Expr.interpolation span parts) := by
    match front with
    | [] => rfl
    | .code _ _ :: _ => rfl
    | [.literal _] => rfl
    | .literal _ :: _ :: _ => rfl
  rw [← several]
  rfl

/-! ### Literals -/

/-- The bytes of a literal with an interpolated expression. -/
def literalWith (pre code post : List UInt8) : List UInt8 :=
  34 :: (pre ++ 37 :: 40 :: (code ++ 41 :: (post ++ [34])))

/-- Where the expression of a literal stands. -/
def codePlace (before pre : List UInt8) : Position :=
  Position.origin.after (before ++ 34 :: (pre ++ [37, 40]))

/-- The part of a text behind the bytes `before`. -/
def spanBehind (before text : List UInt8) : Span :=
  ⟨Position.origin.after before, Position.origin.after (before ++ text)⟩

theorem codePlace_proper (before pre : List UInt8) : (codePlace before pre).Proper :=
  Position.proper_origin.after _

/-- The token of a literal that a token of the text starts with. -/
theorem literal_mem_tokens {before pre code post behind : List UInt8}
    (hpre : StringText pre) (closed : ParensClosed 0 code) (hpost : StringText post) {t : Token}
    (there : t ∈ tokensFrom .origin (before ++ (literalWith pre code post ++ behind)))
    (starts : t.span.start.offset = before.length) :
    ∃ front back, t = ⟨.string (front ++ .code (Utf8.textOf code) (codePlace before pre) :: back),
      spanBehind before (literalWith pre code post)⟩ := by
  obtain ⟨front, back, read⟩ :=
    string_literal (Position.origin.after before) hpre closed hpost behind
  have bytes : literalWith pre code post ++ behind =
      34 :: (pre ++ 37 :: 40 :: (code ++ 41 :: (post ++ 34 :: behind))) := by
    simp [literalWith]
  have own : 34 :: (pre ++ 37 :: 40 :: (code ++ 41 :: (post ++ 34 :: behind))).take
      ((literalWith pre code post).length - 1) = literalWith pre code post := by
    have positive : 1 ≤ (literalWith pre code post).length := Nat.le_add_left 1 _
    rw [← List.take_succ_cons, ← bytes, Nat.sub_add_cancel positive, List.take_left]
  rw [bytes] at there
  have token := token_at_quote there starts
  dsimp only at token
  rw [read, ← literalWith, own, ← Position.after_append, ← Position.after_append] at token
  exact ⟨front, back, token⟩

/-- Interpolation is compositional. Let `e` be one expression alone, with all its parentheses
closed, and let it stand in a literal where a token of `source` starts. The literal is one string
token, which counts for as many levels of nesting as `e` needs. Where it is read with those, the
node has what `e` is alone, moved to the place of `e` in the source, as its part for `e`, unless
another part of the literal is at fault. -/
theorem interpolation_compositional {source : String} {before pre post behind : List UInt8}
    (text : Utf8.encode source = before ++ (literalWith pre (Utf8.encode e) post ++ behind))
    (starts : ∃ t ∈ tokens source, t.span.start.offset = before.length)
    (hpre : StringText pre) (hpost : StringText post) (closed : ParensClosed 0 (Utf8.encode e))
    (alone : whole expression (.start (tokens e)) = .ok x d) :
    ∃ t ∈ tokens source, t.span = spanBehind before (literalWith pre (Utf8.encode e) post) ∧
      nestingBound (tokens e) ≤ t.kind.nesting ∧
      ∃ front back, t.kind = .string (front ++ .code e (codePlace before pre) :: back) ∧
        ∀ levels rest last, nestingBound (tokens e) ≤ levels →
          primary (expressionUpTo levels) ⟨t :: rest, last⟩ =
            (do
              let f ← fragments (expressionUpTo levels) front
              let b ← fragments (expressionUpTo levels) back
              return Expr.interpolation t.span
                (f ++ Fragment.code (x.rebase (codePlace before pre)) :: b)) ⟨rest, t.span⟩ := by
  obtain ⟨t, there, offset⟩ := starts
  have token := there
  rw [tokens, text] at token
  obtain ⟨front, back, rfl⟩ := literal_mem_tokens hpre closed hpost token offset
  rw [Utf8.textOf_encode] at there
  refine ⟨_, there, rfl, ?_, front, back, rfl, fun levels rest last enough => ?_⟩
  · exact Nat.le_trans (nestingBound_tokens_le e)
      (TokenKind.size_lt_nesting (List.mem_append_right front List.mem_cons_self))
  · rw [primary_string,
      fragments_around (fragment_alone alone (codePlace_proper before pre) enough)]
    simp

theorem call_interpolated :
    ∃ t ∈ tokens "\"a%(f(b))c\"",
      t.span = spanBehind [] (literalWith [97] (Utf8.encode "f(b)") [99]) ∧
      nestingBound (tokens "f(b)") ≤ t.kind.nesting ∧
      ∃ front back, t.kind = .string (front ++ .code "f(b)" (codePlace [] [97]) :: back) ∧
        ∀ levels rest last, nestingBound (tokens "f(b)") ≤ levels →
          primary (expressionUpTo levels) ⟨t :: rest, last⟩ =
            (do
              let f ← fragments (expressionUpTo levels) front
              let b ← fragments (expressionUpTo levels) back
              return Expr.interpolation t.span
                (f ++ Fragment.code (Expr.rebase (codePlace [] [97])
                  (.call ⟨⟨0, 1, 1⟩, ⟨4, 1, 5⟩⟩ (.this ⟨⟨0, 1, 1⟩, ⟨4, 1, 5⟩⟩) "f"
                    [.variable ⟨⟨2, 1, 3⟩, ⟨3, 1, 4⟩⟩ "b"])) :: b)) ⟨rest, t.span⟩ :=
  interpolation_compositional
    (show _ = [] ++ (literalWith [97] (Utf8.encode "f(b)") [99] ++ []) by decide +kernel)
    (by decide +kernel) (.byte (by decide) (by decide) (by decide) .nil)
    (.byte (by decide) (by decide) (by decide) .nil) (by decide +kernel)
    (show whole expression (.start (tokens "f(b)")) =
        .ok _ ⟨[⟨.endOfInput, .point ⟨4, 1, 5⟩⟩], ⟨⟨3, 1, 4⟩, ⟨4, 1, 5⟩⟩⟩
      by with_unfolding_all rfl)

/-- The parentheses that end an interpolated expression are counted before it is read: one in a
string inside it ends it, too. -/
theorem parenthesis_in_string_ends_code :
    (∃ x d, whole expression (.start (tokens "\")\"")) = .ok x d) ∧
      Utf8.encode "\"%(\")\")\"" = literalWith [] (Utf8.encode "\")\"") [] ∧
      ∀ t ∈ tokens "\"%(\")\")\"", ¬ (t.span.start.offset = 0 ∧ t.span.stop.offset = 8) := by
  refine ⟨⟨.string ⟨⟨0, 1, 1⟩, ⟨3, 1, 4⟩⟩ ")", ?_⟩, by decide +kernel, by decide +kernel⟩
  exact ⟨⟨[⟨.endOfInput, .point ⟨3, 1, 4⟩⟩], ⟨⟨0, 1, 1⟩, ⟨3, 1, 4⟩⟩⟩, by with_unfolding_all rfl⟩

end ScriptHost
