import ScriptHost.Proofs.Rendering.Spelling

/-! The words of a tree are kept apart by what is written between them, so that its text has their
tokens. -/

namespace ScriptHost

-- Powers are those of the core library, whatever else is in scope.
attribute [local instance (high)] instPowNat

/-- Words that a symbol can stand in front of. -/
structure Opens (ws : List Word) : Prop where
  spaced : Spaced ws
  joining : startsWith isJoining (ws.flatMap Word.bytes) = false

/-- Words that an expression can stand in front of. -/
structure Follows (ws : List Word) : Prop extends Opens ws where
  name : startsWith isNameByte (ws.flatMap Word.bytes) = false
  point : fractionDigits (ws.flatMap Word.bytes) = []

namespace Follows

variable {ws : List Word}

theorem nil : Follows [] := ⟨⟨trivial, rfl⟩, rfl, rfl⟩

theorem blank (h : Spaced ws) : Follows (.blank :: ws) := ⟨⟨⟨trivial, h⟩, rfl⟩, rfl, rfl⟩

/-- Behind a bracket or a comma, another word begins. -/
theorem bracket {s : Symbol} (h : Opens ws)
    (bracket : s ∈ [.leftParen, .rightParen, .leftBracket, .rightBracket, .comma]) :
    Follows (.symbol s :: ws) := by
  have spaced : Spaced (.symbol s :: ws) := ⟨h.joining, h.spaced⟩
  simp only [List.mem_cons, List.not_mem_nil, or_false] at bracket
  rcases bracket with rfl | rfl | rfl | rfl | rfl <;> exact ⟨⟨spaced, rfl⟩, rfl, rfl⟩

theorem comma (h : Opens ws) : Follows (.symbol .comma :: .blank :: ws) :=
  .bracket (blank h.spaced).toOpens (by decide)

end Follows

/-- Words that can stand behind a symbol and in front of whatever follows an expression. -/
def Writable (ws : List Word) : Prop := ∀ rest, Follows rest → Opens (ws ++ rest)

/-! ### Single words -/

/-- The first byte of a word that is neither a symbol nor a blank. -/
def isOpening (b : UInt8) : Bool := isNameByte b || b == 34

theorem isJoining_of_isOpening {b : UInt8} (opening : isOpening b) : isJoining b = false := by
  refine Bool.eq_false_iff.mpr fun joining => ?_
  simp only [isJoining, List.contains_cons, List.contains_nil, Bool.or_false, Bool.or_eq_true,
    beq_iff_eq] at joining
  rcases joining with rfl | rfl | rfl | rfl | rfl <;> exact absurd opening (by decide)

theorem startsWith_isNameByte {text : String}
    (starts : startsWith isNameStart (Utf8.encode text)) :
    startsWith isNameByte (Utf8.encode text) :=
  startsWith_mono (fun _ start => (isNameStart_plain start).2.2) starts

theorem Word.startsWith_isOpening (w : Word) (plain : w ≠ .blank) (noSymbol : ∀ s, w ≠ .symbol s) :
    startsWith isOpening w.bytes := by
  have weaker : ∀ b, isNameByte b → isOpening b := fun b name => by simp [isOpening, name]
  cases w with
  | blank => exact absurd rfl plain
  | number n =>
    have digits : ∀ b ∈ digitBytes n, isDigit b := fun _ there => isDigit_of_mem_digitBytes there
    obtain ⟨d, ds, cut⟩ := List.exists_cons_of_ne_nil (digitBytes_ne_nil n)
    have digit := digits d (by simp [cut])
    rw [bytes, text, encode_repr, cut]
    exact weaker d (isDigit_plain digit).2.2
  | string text =>
    rw [bytes, Word.text, Utf8.encode_append, Utf8.encode_append]
    exact rfl
  | name x => exact startsWith_mono weaker (startsWith_isNameByte x.starts_nameStart)
  | field x => exact startsWith_mono weaker (startsWith_isNameByte x.starts_nameStart)
  | keyword k => exact startsWith_mono weaker (startsWith_isNameByte k.starts)
  | symbol s => exact absurd rfl (noSymbol s)

/-- The words that are expressions by themselves. -/
theorem Writable.word (w : Word) (plain : w ≠ .blank) (noSymbol : ∀ s, w ≠ .symbol s)
    (small : ∀ n, w = .number n → n < 2 ^ (53 : Nat)) : Writable [w] := by
  intro rest follows
  have apart : w.Apart (rest.flatMap Word.bytes) := by
    cases w with
    | blank | string => trivial
    | number n => exact ⟨small n rfl, follows.name, follows.point⟩
    | name | field | keyword => exact follows.name
    | symbol s => exact absurd rfl (noSymbol s)
  have joining : startsWith isJoining (w.bytes ++ rest.flatMap Word.bytes) = false := by
    have opening := w.startsWith_isOpening plain noSymbol
    generalize w.bytes = bytes at opening
    cases bytes with
    | nil => cases opening
    | cons b more => exact isJoining_of_isOpening opening
  exact ⟨⟨apart, follows.spaced⟩, joining⟩

theorem Writable.name (x : Identifier) : Writable [.name x] := .word _ nofun nofun nofun

theorem Writable.keyword (k : Keyword) : Writable [.keyword k] := .word _ nofun nofun nofun

theorem Writable.assignable (target : Assignable) : Writable [target.word] := by
  obtain x | x := target
  · exact .name x
  · exact .word _ nofun nofun nofun

/-- A point with a name behind it belongs to no number. -/
theorem Follows.member (x : Identifier) {ws : List Word} (h : Follows ws) :
    Follows (.symbol .dot :: .name x :: ws) := by
  have opens : Opens (.name x :: ws) := Writable.name x ws h
  have noDigits : fractionDigits (46 :: (Utf8.encode x.text ++ ws.flatMap Word.bytes)) = [] := by
    have starts := x.starts_nameStart
    generalize Utf8.encode x.text = bytes at starts
    cases bytes with
    | nil => cases starts
    | cons b more =>
      have noDigit := isDigit_eq_false_of_isNameStart (b := b) starts
      rw [fractionDigits, if_pos rfl, List.cons_append, List.takeWhile_cons_of_neg]
      simp [noDigit]
  exact ⟨⟨⟨opens.joining, opens.spaced⟩, rfl⟩, rfl, noDigits⟩

/-! ### Trees -/

/-- A symbol that an expression can begin with. -/
theorem Opens.symbol {s : Symbol} {ws : List Word} (h : Opens ws)
    (opening : s ∈ [.leftParen, .leftBracket, .bang, .binary .subtract]) :
    Opens (.symbol s :: ws) := by
  have spaced : Spaced (.symbol s :: ws) := ⟨h.joining, h.spaced⟩
  simp only [List.mem_cons, List.not_mem_nil, or_false] at opening
  rcases opening with rfl | rfl | rfl | rfl <;> exact ⟨spaced, rfl⟩

theorem UnaryOp.opens (op : UnaryOp) {ws : List Word} (h : Opens ws) :
    Opens (.symbol op.symbol :: ws) := by
  cases op with
  | negate => exact h.symbol (by decide)
  | not => exact h.symbol (by decide)

/-- An operator has a blank on either side. -/
theorem Follows.operator (s : Symbol) {ws : List Word} (h : Opens ws) :
    Follows (.blank :: .symbol s :: .blank :: ws) :=
  .blank ⟨rfl, trivial, h.spaced⟩

theorem Writable.within {ws : List Word} (h : Writable ws) (position rank : Nat) :
    Writable (within position rank ws) := by
  intro rest follows
  unfold ScriptHost.within
  split
  · exact h rest follows
  · have close := Follows.bracket (s := .rightParen) follows.toOpens (by decide)
    rw [List.cons_append, List.append_assoc]
    exact (h _ close).symbol (by decide)

mutual

/-- The words of a tree are kept apart, from each other and from what follows an expression. -/
theorem Tree.writable : ∀ t : Tree, Writable t.words
  | .number _ small => .word _ nofun nofun (fun _ same => Word.number.inj same ▸ small)
  | .string _ => .word _ nofun nofun nofun
  | .bool true | .bool false | .null | .this => .keyword _
  | .variable x => .name x
  | .field _ => .word _ nofun nofun nofun
  | .list elements => by
    intro rest follows
    have close := Follows.bracket (s := .rightBracket) follows.toOpens (by decide)
    rw [Tree.words, List.cons_append, List.append_assoc]
    exact (Tree.writableAll elements _ close).symbol (by decide)
  | .unary op operand => by
    intro rest follows
    rw [Tree.words, List.cons_append]
    exact op.opens ((Tree.writable operand).within _ _ rest follows)
  | .operator op lhs rhs => by
    intro rest follows
    have behind := Follows.operator op.symbol
      ((Tree.writable rhs).within (op.rank - 1) rhs.rank rest follows)
    rw [Tree.words, List.append_assoc]
    exact (Tree.writable lhs).within _ _ _ behind
  | .assign target value => by
    intro rest follows
    exact Writable.assignable target _ (.operator .assign (Tree.writable value rest follows))
  | .getter receiver x => by
    intro rest follows
    rw [Tree.words, List.append_assoc]
    exact (Tree.writable receiver).within _ _ _ (.member x follows)
  | .call receiver x args => by
    intro rest follows
    have close := Follows.bracket (s := .rightParen) follows.toOpens (by decide)
    have open_ := Follows.bracket (s := .leftParen) (Tree.writableAll args _ close) (by decide)
    rw [Tree.words, List.append_assoc, List.cons_append, List.cons_append, List.cons_append,
      List.append_assoc]
    exact (Tree.writable receiver).within _ _ _ (.member x open_)
  | .ownCall x args => by
    intro rest follows
    have close := Follows.bracket (s := .rightParen) follows.toOpens (by decide)
    have open_ := Follows.bracket (s := .leftParen) (Tree.writableAll args _ close) (by decide)
    rw [Tree.words, List.cons_append, List.cons_append, List.append_assoc]
    exact Writable.name x _ open_
  | .subscript receiver index => by
    intro rest follows
    have close := Follows.bracket (s := .rightBracket) follows.toOpens (by decide)
    have open_ := Follows.bracket (s := .leftBracket) (Tree.writable index _ close) (by decide)
    rw [Tree.words, List.append_assoc, List.cons_append, List.append_assoc]
    exact (Tree.writable receiver).within _ _ _ open_

theorem Tree.writableAll : ∀ ts : List Tree, ∀ rest, Follows rest →
    Opens (Tree.wordsAll ts ++ rest)
  | [], _, follows => follows.toOpens
  | t :: ts, rest, follows => by
    rw [Tree.wordsAll, List.append_assoc]
    exact Tree.writable t _ (Tree.writableMore ts rest follows)

theorem Tree.writableMore : ∀ ts : List Tree, ∀ rest, Follows rest →
    Follows (Tree.wordsMore ts ++ rest)
  | [], _, follows => follows
  | t :: ts, rest, follows => by
    rw [Tree.wordsMore, List.cons_append, List.cons_append, List.append_assoc]
    exact .comma (Tree.writable t _ (Tree.writableMore ts rest follows))

end

/-- The kinds of the tokens of a tree. -/
def Tree.kinds (t : Tree) : List TokenKind := kindsOf t.words

/-- The text of a tree has the tokens of its words. -/
theorem Tree.kinds_tokens (t : Tree) :
    (tokens t.text).map Token.kind = t.kinds ++ [.endOfInput] := by
  have spaced := (t.writable [] .nil).spaced
  rw [List.append_nil] at spaced
  exact ScriptHost.kinds_tokens spaced

end ScriptHost
