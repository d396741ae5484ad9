import ScriptHost.Machine.Invocation
import ScriptHost.Proofs.Account

/-! How many arguments a signature asks for. A name that a script has from a text holds no bracket,
so the holes of a signature made with it are those of its arguments. What is read from a text is
well formed in that sense, and its getters have no parameters. A word holds no other sign either, so
the key of a member gives back all that it was made of. -/

namespace ScriptHost

/-! ### Holes -/

/-- A name without a bracket: the holes of a signature are behind it. -/
def BareName (name : String) : Prop := '(' ∉ name.toList ∧ '[' ∉ name.toList

theorem count_holes (n : Nat) :
    (String.intercalate "," (List.replicate n "_")).toList.count '_' = n := by
  rw [String.toList_intercalate, List.map_replicate]
  induction n with
  | zero => rfl
  | succ n ih =>
    cases n with
    | zero => rfl
    | succ n =>
      rw [List.replicate_succ, List.replicate_succ, List.intercalate_cons_cons, List.count_append,
        ← List.replicate_succ, ih]
      exact Nat.add_comm 1 (n + 1)

theorem bare_before_bracket {cs : List Char} (bare : '(' ∉ cs ∧ '[' ∉ cs) (rest : List Char) :
    (cs ++ rest).dropWhile (fun c => c != '(' && c != '[') =
      rest.dropWhile fun c => c != '(' && c != '[' := by
  refine List.dropWhile_append_of_pos fun c there => ?_
  have left : c ≠ '(' := fun same => bare.1 (same ▸ there)
  have right : c ≠ '[' := fun same => bare.2 (same ▸ there)
  simp [left, right]

theorem callSignature_toList (name : String) (n : Nat) :
    (callSignature name (some n)).toList =
      name.toList ++ '(' :: ((String.intercalate "," (List.replicate n "_")).toList ++ [')']) := by
  unfold callSignature
  rw [String.toList_append, String.toList_append, String.toList_append, List.append_assoc,
    List.append_assoc]
  rfl

variable {name : String}

theorem signatureArity_call (bare : BareName name) (n : Nat) :
    signatureArity (callSignature name (some n)) = n := by
  unfold signatureArity
  rw [callSignature_toList, bare_before_bracket bare]
  change List.count '_' ('(' :: (_ ++ [')'])) = n
  rw [List.count_cons_of_ne (by decide), List.count_append, count_holes]
  rfl

theorem signatureArity_getter (bare : BareName name) :
    signatureArity (callSignature name none) = 0 := by
  have none_ := bare_before_bracket bare []
  rw [List.append_nil] at none_
  unfold signatureArity callSignature
  rw [none_]
  rfl

theorem UnaryOp.bareName (op : UnaryOp) : BareName op.text := by
  cases op <;> exact ⟨by decide, by decide⟩

theorem BinaryOp.bareName (op : BinaryOp) : BareName op.text := by
  cases op <;> exact ⟨by decide, by decide⟩

/-! ### Names of a text -/

/-- A word is made of letters, digits and underscores. -/
def IsWord (text : String) : Prop :=
  ∃ letters, (∀ b ∈ letters, isNameByte b = true) ∧ text = Utf8.textOf letters

/-- No other sign stands in a word. -/
theorem IsWord.notMem {text : String} (isWord : IsWord text) {c : Char} (ascii : c.toNat < 128)
    (other : isNameByte (UInt8.ofNat c.toNat) = false) : c ∉ text.toList := by
  obtain ⟨letters, names, rfl⟩ := isWord
  intro there
  have byte : UInt8.ofNat c.toNat ∈ Utf8.encode (Utf8.textOf letters) := by
    rw [Utf8.encode_eq_flatMap]
    refine List.mem_flatMap.mpr ⟨c, there, ?_⟩
    rw [Utf8.utf8EncodeChar_ascii ascii]
    exact List.mem_singleton_self _
  have name := names _ ((Utf8.encode_textOf_isPrefix letters).subset byte)
  rw [other] at name
  cases name

theorem IsWord.bareName {text : String} (isWord : IsWord text) : BareName text :=
  ⟨isWord.notMem (by decide) (by decide), isWord.notMem (by decide) (by decide)⟩

theorem isWord_word {bytes : List UInt8} {text : String} (name : (word bytes).1 = .name text) :
    IsWord text := by
  unfold word at name
  dsimp only at name
  split at name
  · cases name
  · split at name
    · cases name
    · cases name
      exact ⟨_, fun b there => List.mem_takeWhile_imp there, rfl⟩

/-- The only names that are read off the front of some bytes are words. -/
theorem isWord_lexeme {p : Position} {b : UInt8} {rest : List UInt8} {text : String}
    (name : (lexeme p b rest).1 = .name text) : IsWord text := by
  unfold lexeme at name
  split at name
  · cases name
  · split at name
    · unfold string at name
      split at name <;> cases name
    · split at name
      · exfalso
        unfold number hexNumber decimalNumber at name
        dsimp only at name
        repeat' split at name
        all_goals cases name
      · split at name
        · exact isWord_word name
        · exfalso
          unfold symbol at name
          dsimp only at name
          repeat' split at name
          all_goals cases name

theorem Lexed.isWord {p : Position} {bytes : List UInt8} {ts : List Token}
    (lexed : Lexed p bytes ts) {t : Token} (there : t ∈ ts) {text : String}
    (name : t.kind = .name text) : IsWord text := by
  induction lexed with
  | stop =>
    obtain rfl := List.mem_singleton.mp there
    cases name
  | openComment =>
    simp only [List.mem_cons, List.not_mem_nil, or_false] at there
    obtain rfl | rfl := there <;> cases name
  | token _ _ _ ih =>
    obtain rfl | there := List.mem_cons.mp there
    · exact isWord_lexeme name
    · exact ih there

theorem tokenKinds_isWord {source text : String} (there : .name text ∈ tokenKinds source) :
    IsWord text := by
  obtain ⟨t, among, name⟩ := List.mem_map.mp there
  exact (tokensFrom_lexed .origin (Utf8.encode source)).isWord among name

/-- The names that are read from a text, those in interpolated source left aside, are words. -/
theorem parseModule_isWord {source : String} {body : List Stmt}
    (accepted : parseModule source = .ok body) {text : String}
    (there : .name text ∈ Stmt.leavesAll body) : IsWord text := by
  rw [← (parseModule_accounts accepted).2.1] at there
  obtain ⟨kind, among, told⟩ := List.mem_filterMap.mp there
  have name : kind = .name text := by
    cases kind with
    | name => cases told; rfl
    | keyword k => cases k <;> cases told
    | _ => cases told
  exact tokenKinds_isWord (name ▸ withoutIn_subset _ among)

/-! ### Keys -/

/-- Two texts that are cut at the first of the same sign have the same parts. -/
theorem cut_at_first {xs xs' ys ys' : List Char} {c : Char} (free : c ∉ xs) (free' : c ∉ xs')
    (same : xs ++ c :: ys = xs' ++ c :: ys') : xs = xs' ∧ ys = ys' := by
  obtain ⟨zs, rfl, rest⟩ | ⟨zs, rfl, rest⟩ := List.append_eq_append_iff.mp same
  all_goals
    obtain _ | ⟨z, zs⟩ := zs
    · rw [List.nil_append, List.cons.injEq] at rest
      simp [rest.2]
    · rw [List.cons_append, List.cons.injEq] at rest
      simp [rest.1] at free free'

/-- The name and the number of arguments can be read off a signature. -/
theorem callSignature_inj {name' : String} {arity arity' : Option Nat} (bare : BareName name)
    (bare' : BareName name') (same : callSignature name arity = callSignature name' arity') :
    name = name' ∧ arity = arity' := by
  have bracket {name : String} (n : Nat) : '(' ∈ (callSignature name (some n)).toList := by
    rw [callSignature_toList]
    exact List.mem_append_right _ List.mem_cons_self
  cases arity with
  | none =>
    change name = callSignature name' arity' at same
    cases arity' with
    | none => exact ⟨same, rfl⟩
    | some n => exact absurd (same ▸ bracket n) bare.1
  | some n =>
    cases arity' with
    | none =>
      change callSignature name (some n) = name' at same
      exact absurd (same ▸ bracket n) bare'.1
    | some n' =>
      have arities := congrArg signatureArity same
      rw [signatureArity_call bare, signatureArity_call bare'] at arities
      have texts := congrArg String.toList same
      rw [callSignature_toList, callSignature_toList] at texts
      exact ⟨String.toList_inj.mp (cut_at_first bare.1 bare'.1 texts).1, congrArg some arities⟩

/-- The class, the mark of a static member and the signature can be read off a key. -/
theorem canonicalSignature_inj {c c' signature signature' : String} {isStatic isStatic' : Bool}
    (word : IsWord c) (word' : IsWord c')
    (same : canonicalSignature c isStatic signature = canonicalSignature c' isStatic' signature') :
    c = c' ∧ isStatic = isStatic' ∧ signature = signature' := by
  have texts := congrArg String.toList same
  unfold canonicalSignature at texts
  simp only [String.toList_append, List.append_assoc] at texts
  -- A word has no point, and no blank such as the mark ends with.
  have points {c : String} (word : IsWord c) (isStatic : Bool) :
      '.' ∉ (if isStatic then "static " else "").toList ++ c.toList := by
    have none_ : '.' ∉ c.toList := word.notMem (by decide) (by decide)
    cases isStatic <;> simp [none_]
  have unmarked {c c' : String} (word' : IsWord c') :
      "static ".toList ++ c.toList ≠ "".toList ++ c'.toList := by
    intro same
    have blank : ' ' ∈ "".toList ++ c'.toList :=
      same ▸ List.mem_append_left _ (by decide)
    exact word'.notMem (by decide) (by decide) blank
  rw [← List.append_assoc, ← List.append_assoc _ c'.toList] at texts
  obtain ⟨marked, rest⟩ := cut_at_first (points word isStatic) (points word' isStatic') texts
  have parts : c = c' ∧ isStatic = isStatic' := by
    cases isStatic with
    | false =>
      cases isStatic' with
      | false => exact ⟨String.toList_inj.mp marked, rfl⟩
      | true => exact absurd marked.symm (unmarked word)
    | true =>
      cases isStatic' with
      | false => exact absurd marked (unmarked word')
      | true => exact ⟨String.toList_inj.mp (List.append_cancel_left marked), rfl⟩
  exact ⟨parts.1, parts.2, String.toList_inj.mp rest⟩

/-- A member as a script can name it: the names of its class and its own are words, and a getter has
no number of arguments. -/
@[ext]
structure Member where
  className : String
  isStatic : Bool
  name : String
  arity : Option Nat
  isClassWord : IsWord className
  isWord : IsWord name

namespace Member

def signature (m : Member) : String := callSignature m.name m.arity

/-- The key that a host function for the member is registered under. -/
def key (m : Member) : String := canonicalSignature m.className m.isStatic m.signature

theorem arity_signature (m : Member) : signatureArity m.signature = m.arity.getD 0 := by
  unfold signature
  cases m.arity with
  | none => exact signatureArity_getter m.isWord.bareName
  | some n => exact signatureArity_call m.isWord.bareName n

end Member

/-- The names that are read from texts are words, as keywords are; members with such names are told
apart by their keys; and a call that is prepared for a member takes as many arguments as the member
has, none for a getter. -/
theorem members_told_by_key :
    (∀ source text, .name text ∈ tokenKinds source → IsWord text) ∧
      Function.Injective Member.key ∧
      ∀ m : Member, (CallHandle.ofSignature m.signature).arity = m.arity.getD 0 := by
  refine ⟨fun source text there => tokenKinds_isWord there, fun m m' same => ?_,
    Member.arity_signature⟩
  obtain ⟨className, isStatic, signature⟩ :=
    canonicalSignature_inj m.isClassWord m'.isClassWord same
  obtain ⟨name, arity⟩ := callSignature_inj m.isWord.bareName m'.isWord.bareName signature
  exact Member.ext className isStatic name arity

/-- A static member with underscores in its names, in a text that declares it. -/
theorem members_told_by_key_underscores :
    .name "a_b" ∈ tokenKinds "a_b" ∧ ∃ m : Member, m.className = "a_b" ∧
      m.key = "static a_b.a_b(_,_)" ∧ (CallHandle.ofSignature m.signature).arity = 2 ∧
      ∀ m', Member.key m' = m.key → m' = m := by
  obtain ⟨isWord, injective, arity⟩ := members_told_by_key
  have read : tokenKinds "a_b" = [.name "a_b", .endOfInput] := by with_unfolding_all rfl
  have there : .name "a_b" ∈ tokenKinds "a_b" := read ▸ List.mem_cons_self
  let m : Member := ⟨"a_b", true, "a_b", some 2, isWord _ _ there, isWord _ _ there⟩
  have key : canonicalSignature "a_b" true (callSignature "a_b" (some 2)) =
      "static a_b.a_b(_,_)" := by decide
  exact ⟨there, m, rfl, key, arity m, fun m' same => injective same⟩

/-! ### Leaves without brackets -/

mutual

/-- The names of a leaf have no bracket, and those in the source that it interpolates neither. -/
inductive Leaf.Bare : Leaf → Prop
  | number (x : Float) : Leaf.Bare (.number x)
  | string {parts : List LeafPart} : (∀ part ∈ parts, part.Bare) → Leaf.Bare (.string parts)
  | name {text : String} : BareName text → Leaf.Bare (.name text)
  | field (text : String) : Leaf.Bare (.field text)
  | bool (b : Bool) : Leaf.Bare (.bool b)
  | null : Leaf.Bare .null

inductive LeafPart.Bare : LeafPart → Prop
  | literal (text : String) : LeafPart.Bare (.literal text)
  | code {leaves : List Leaf} : (∀ leaf ∈ leaves, leaf.Bare) → LeafPart.Bare (.code leaves)

end

theorem leaf?_bare {code : String → List Leaf} {kind : TokenKind} {leaf : Leaf}
    (codes : ∀ source, ∀ leaf ∈ code source, leaf.Bare)
    (names : ∀ text, kind = .name text → BareName text)
    (told : kind.leaf? code = some leaf) : leaf.Bare := by
  cases kind with
  | number x => cases told; exact .number x
  | string parts =>
    cases told
    refine .string fun part there => ?_
    obtain ⟨part, -, rfl⟩ := List.mem_map.mp there
    cases part with
    | literal text => exact .literal text
    | code source start => exact .code (codes source)
  | name text => cases told; exact .name (names text rfl)
  | field text => cases told; exact .field text
  | keyword k => cases k <;> cases told <;> first | exact .bool _ | exact .null
  | symbol | newline | endOfInput | invalid => cases told

theorem leavesUpTo_bare (depth : Nat) (source : String) :
    ∀ leaf ∈ leavesUpTo depth source, leaf.Bare := by
  induction depth generalizing source with
  | zero => exact nofun
  | succ depth ih =>
    intro leaf there
    obtain ⟨kind, among, told⟩ := List.mem_filterMap.mp there
    refine leaf?_bare ih (fun text name => ?_) told
    exact (tokenKinds_isWord (name ▸ withoutIn_subset _ among)).bareName

/-- What is read from a text has names without brackets. -/
theorem parseModule_bare {source : String} {body : List Stmt}
    (accepted : parseModule source = .ok body) : ∀ leaf ∈ Stmt.leavesAll body, leaf.Bare := by
  rw [← (parseModule_accounts accepted).2.1]
  exact leavesUpTo_bare _ source

end ScriptHost
