import ScriptHost.Proofs.Progress.Proceeds
import ScriptHost.Source.Tree.Statements

/-! What a script says when its layout is taken away: its numbers, strings, names and constants,
from left to right. They are told twice, by the tokens of a text and by the statements that are read
from them. -/

namespace ScriptHost

mutual

/-- A word or a literal of a script. -/
inductive Leaf where
  | number (x : Float)
  | string (parts : List LeafPart)
  | name (word : String)
  | field (word : String)
  | bool (b : Bool)
  | null

/-- A part of a string: text, or what its interpolated source says. -/
inductive LeafPart where
  | literal (text : String)
  | code (leaves : List Leaf)

end

/-! ### Leaves of tokens -/

def StringPart.leafPart (code : String → List Leaf) : StringPart → LeafPart
  | literal text => .literal text
  | .code source _ => .code (code source)

/-- The leaf that a token is, if it is one. What interpolated source says is told by `code`. -/
def TokenKind.leaf? (code : String → List Leaf) : TokenKind → Option Leaf
  | number x => some (.number x)
  | string parts => some (.string (parts.map (StringPart.leafPart code)))
  | name word => some (.name word)
  | field word => some (.field word)
  | keyword .true => some (.bool true)
  | keyword .false => some (.bool false)
  | keyword .null => some .null
  | _ => none

/-- Tokens without the word `in` of the headers of loops, which is a name to the lexer. -/
def withoutIn : List TokenKind → List TokenKind
  | .keyword .for_ :: .symbol .leftParen :: .name word :: .name "in" :: rest =>
    .keyword .for_ :: .symbol .leftParen :: .name word :: withoutIn rest
  | kind :: rest => kind :: withoutIn rest
  | [] => []

def leavesOf (code : String → List Leaf) (kinds : List TokenKind) : List Leaf :=
  (withoutIn kinds).filterMap (TokenKind.leaf? code)

/-- The kinds of the tokens of a text. -/
def tokenKinds (source : String) : List TokenKind := (tokens source).map Token.kind

/-- What a text says, its interpolated source told down to some depth. -/
def leavesUpTo : Nat → String → List Leaf
  | 0, _ => []
  | depth + 1, source => leavesOf (leavesUpTo depth) (tokenKinds source)

/-- What a text says. Interpolated source is shorter than the text around it. -/
def sourceLeaves (source : String) : List Leaf := leavesUpTo (source.utf8ByteSize + 1) source

/-! ### Leaves of statements -/

def Target.leaf : Target → Leaf
  | .variable name => .name name
  | .field name => .field name

mutual

def Expr.leaves : Expr → List Leaf
  | .number _ x => [.number x]
  | .string _ text => [.string [.literal text]]
  | .interpolation _ parts => [.string (Fragment.leafParts parts)]
  | .bool _ b => [.bool b]
  | .null _ => [.null]
  | .this _ => []
  | .variable _ name => [.name name]
  | .field _ name => [.field name]
  | .list _ elements => Expr.leavesAll elements
  | .unary _ _ operand => operand.leaves
  | .binary _ _ lhs rhs => lhs.leaves ++ rhs.leaves
  | .logical _ _ lhs rhs => lhs.leaves ++ rhs.leaves
  | .assign _ target value => target.leaf :: value.leaves
  | .getter _ receiver name => receiver.leaves ++ [.name name]
  | .call _ receiver name args => receiver.leaves ++ .name name :: Expr.leavesAll args
  | .subscript _ receiver index => receiver.leaves ++ index.leaves

def Expr.leavesAll : List Expr → List Leaf
  | [] => []
  | e :: es => e.leaves ++ Expr.leavesAll es

def Fragment.leafPart : Fragment → LeafPart
  | .literal text => .literal text
  | .code e => .code e.leaves

def Fragment.leafParts : List Fragment → List LeafPart
  | [] => []
  | f :: fs => f.leafPart :: Fragment.leafParts fs

end

/-- The leaves of an expression that may be left out. -/
def Expr.leavesOption (e : Option Expr) : List Leaf := (e.map Expr.leaves).getD []

mutual

def Stmt.leaves : Stmt → List Leaf
  | .expr e => e.leaves
  | .var _ name init => .name name :: Expr.leavesOption init
  | .ifElse condition thenBranch elseBranch =>
    condition.leaves ++ (thenBranch.leaves ++ Stmt.leavesOption elseBranch)
  | .whileLoop condition body => condition.leaves ++ body.leaves
  | .forLoop name sequence body => .name name :: (sequence.leaves ++ body.leaves)
  | .block body => Stmt.leavesAll body
  | .returnValue _ value => Expr.leavesOption value
  | .breakLoop _ => []
  | .classDecl decl => decl.leaves
  | .importNames _ moduleName names => .string [.literal moduleName] :: names.map .name

def Stmt.leavesOption : Option Stmt → List Leaf
  | none => []
  | some s => s.leaves

def Stmt.leavesAll : List Stmt → List Leaf
  | [] => []
  | s :: ss => s.leaves ++ Stmt.leavesAll ss

def Stmt.leavesBody : Option (List Stmt) → List Leaf
  | none => []
  | some body => Stmt.leavesAll body

def MethodDecl.leaves : MethodDecl → List Leaf
  | ⟨name, _, params, _, _, _, body⟩ => .name name :: (params.map .name ++ Stmt.leavesBody body)

def MethodDecl.leavesAll : List MethodDecl → List Leaf
  | [] => []
  | m :: ms => m.leaves ++ MethodDecl.leavesAll ms

def ClassDecl.leaves : ClassDecl → List Leaf
  | ⟨name, _, _, methods⟩ => .name name :: MethodDecl.leavesAll methods

end

theorem Expr.leavesAll_eq (es : List Expr) : Expr.leavesAll es = es.flatMap Expr.leaves := by
  induction es with
  | nil => rfl
  | cons e es ih => rw [Expr.leavesAll, ih, List.flatMap_cons]

theorem Fragment.leafParts_eq (fs : List Fragment) :
    Fragment.leafParts fs = fs.map Fragment.leafPart := by
  induction fs with
  | nil => rfl
  | cons f fs ih => rw [Fragment.leafParts, ih, List.map_cons]

theorem Stmt.leavesAll_eq (ss : List Stmt) : Stmt.leavesAll ss = ss.flatMap Stmt.leaves := by
  induction ss with
  | nil => rfl
  | cons s ss ih => rw [Stmt.leavesAll, ih, List.flatMap_cons]

theorem MethodDecl.leavesAll_eq (ms : List MethodDecl) :
    MethodDecl.leavesAll ms = ms.flatMap MethodDecl.leaves := by
  induction ms with
  | nil => rfl
  | cons m ms ih => rw [MethodDecl.leavesAll, ih, List.flatMap_cons]

/-! ### The depth of interpolation -/

section

variable {code code' : String → List Leaf} {kinds : List TokenKind} {source : String}

theorem withoutIn_cons {kind : TokenKind} (plain : kind.isKeyword .for_ = false)
    (rest : List TokenKind) : withoutIn (kind :: rest) = kind :: withoutIn rest := by
  rw [withoutIn]
  rintro word rest' rfl -
  exact Bool.noConfusion plain

theorem withoutIn_subset (kinds : List TokenKind) : withoutIn kinds ⊆ kinds := by
  fun_induction withoutIn kinds with
  | case1 word rest ih => grind
  | case2 kind rest _ ih => grind
  | case3 => exact List.Subset.refl _

theorem TokenKind.leaf?_congr {kind : TokenKind}
    (same : ∀ source start, .code source start ∈ kind.parts → code source = code' source) :
    kind.leaf? code = kind.leaf? code' := by
  cases kind with
  | string parts =>
    refine congrArg (some ∘ Leaf.string) (List.map_congr_left fun part there => ?_)
    cases part with
    | literal text => rfl
    | code source start => exact congrArg LeafPart.code (same source start there)
  | keyword k => cases k <;> rfl
  | _ => rfl

theorem leavesOf_congr (same : ∀ kind ∈ kinds, ∀ source start, .code source start ∈ kind.parts →
    code source = code' source) : leavesOf code kinds = leavesOf code' kinds :=
  List.filterMap_congr fun kind there =>
    TokenKind.leaf?_congr (same kind (withoutIn_subset kinds there))

/-- Interpolated source is shorter than the text that it is in. -/
theorem size_interpolated {inner : String} {start : Position} {kind : TokenKind}
    (there : kind ∈ tokenKinds source) (part : .code inner start ∈ kind.parts) :
    inner.utf8ByteSize < source.utf8ByteSize := by
  obtain ⟨t, among, rfl⟩ := List.mem_map.mp there
  obtain ⟨ts, us, split⟩ := List.append_of_mem among
  have fits := nestingBound_tokens_le source
  rw [split] at fits
  have behind := nestingBound_le_of_suffix (List.suffix_append ts (t :: us))
  obtain ⟨kind, span⟩ := t
  cases kind with
  | string parts =>
    have size : inner.utf8ByteSize + 2 ≤ (TokenKind.string parts).nesting :=
      TokenKind.size_lt_nesting part
    have rest : 1 ≤ nestingBound us := Nat.le_add_left 1 _
    rw [nestingBound_cons] at behind
    dsimp only at behind
    omega
  | _ => cases part

/-- More depth than a text has bytes makes no difference. -/
theorem leavesUpTo_enough {m n : Nat} (enough : source.utf8ByteSize < m)
    (enough' : source.utf8ByteSize < n) : leavesUpTo m source = leavesUpTo n source := by
  induction m generalizing n source with
  | zero => exact absurd enough (Nat.not_lt_zero _)
  | succ m ih =>
    obtain _ | n := n
    · exact absurd enough' (Nat.not_lt_zero _)
    · refine leavesOf_congr fun kind there inner start part => ih ?_ ?_
      · have := size_interpolated there part
        omega
      · have := size_interpolated there part
        omega

/-- What a text says is told by its tokens, with what the source interpolated in them says. -/
theorem sourceLeaves_eq (source : String) :
    sourceLeaves source = leavesOf sourceLeaves (tokenKinds source) :=
  leavesOf_congr fun _ there _ _ part =>
    leavesUpTo_enough (size_interpolated there part) (Nat.lt_succ_self _)

end

/-! ### Faults of the lexer -/

/-- No token of a text is a fault, nor is any token of the source that is interpolated in it. -/
inductive Faultless : String → Prop
  | intro {source : String} : (∀ kind ∈ tokenKinds source, kind.isInvalid = false) →
    (∀ kind ∈ tokenKinds source, ∀ inner start, .code inner start ∈ kind.parts →
      Faultless inner) → Faultless source

/-- A token that can be read, and so can the source that is interpolated in it. -/
structure TokenKind.Sound (kind : TokenKind) : Prop where
  readable : kind.isReadable
  code : ∀ inner start, .code inner start ∈ kind.parts → Faultless inner

/-- Tokens that can be read and say some leaves, whatever stands behind them. -/
structure Carries (ts : List TokenKind) (leaves : List Leaf) : Prop where
  sound : ∀ kind ∈ ts, kind.Sound
  told : ∀ rest, leavesOf sourceLeaves (ts ++ rest) = leaves ++ leavesOf sourceLeaves rest

namespace Carries

variable {ts us : List TokenKind} {l l' : List Leaf}

theorem nil : Carries [] [] := ⟨nofun, fun _ => rfl⟩

theorem append (h : Carries ts l) (h' : Carries us l') : Carries (ts ++ us) (l ++ l') where
  sound := List.forall_mem_append.mpr ⟨h.sound, h'.sound⟩
  told rest := by rw [List.append_assoc, h.told, h'.told, List.append_assoc]

/-- Tokens with a leaf of their own behind tokens that say nothing. -/
theorem behind (h : Carries ts []) (h' : Carries us l) : Carries (ts ++ us) l := h.append h'

/-- Tokens that say nothing behind others. -/
theorem before (h : Carries ts l) (h' : Carries us []) : Carries (ts ++ us) l := by
  simpa using h.append h'

/-- A token that starts no header of a loop. -/
theorem token {kind : TokenKind} (plain : kind.isKeyword .for_ = false) (sound : kind.Sound) :
    Carries [kind] (kind.leaf? sourceLeaves).toList where
  sound := List.forall_mem_singleton.mpr sound
  told rest := by
    rw [List.singleton_append, leavesOf, withoutIn_cons plain, List.filterMap_cons]
    cases kind.leaf? sourceLeaves <;> rfl

theorem symbol (s : Symbol) : Carries [.symbol s] [] := token rfl ⟨rfl, nofun⟩

theorem newline : Carries [.newline] [] := token rfl ⟨rfl, nofun⟩

theorem newlines (n : Nat) : Carries (List.replicate n .newline) [] := by
  induction n with
  | zero => exact nil
  | succ n ih => exact newline.behind ih

theorem name (word : String) : Carries [.name word] [.name word] := token rfl ⟨rfl, nofun⟩

/-- A keyword that is no constant. -/
theorem keyword {k : Keyword} (plain : k ≠ .for_)
    (silent : (TokenKind.keyword k).leaf? sourceLeaves = none) : Carries [.keyword k] [] := by
  have notLoop : (TokenKind.keyword k).isKeyword .for_ = false := by
    simpa [TokenKind.isKeyword] using plain
  have single := token notLoop ⟨rfl, nofun⟩
  rwa [silent] at single

/-- The header of a loop, with the word `in`. -/
theorem loopHeader (word : String) :
    Carries [.keyword .for_, .symbol .leftParen, .name word, .name "in"] [.name word] where
  sound := by
    intro kind there
    simp only [List.mem_cons, List.not_mem_nil, or_false] at there
    obtain rfl | rfl | rfl | rfl := there <;> exact ⟨rfl, nofun⟩
  told _ := rfl

/-- The names of an import, which start like the header of a loop but without a parenthesis. -/
theorem importedNames {word : String} (h : Carries (.name word :: ts) l) :
    Carries (.keyword .for_ :: .name word :: ts) l where
  sound := List.forall_mem_cons.mpr ⟨⟨rfl, nofun⟩, h.sound⟩
  told := h.told

end Carries

end ScriptHost
