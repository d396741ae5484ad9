import Mathlib.Data.List.Forall2
import Mathlib.Data.Option.Basic
import Mathlib.Order.Basic
import ScriptHost.Machine.State

/-! Values up to the identity of objects. A renaming says which objects of one heap stand for which
objects of another. Values, bindings and activations are alike under a renaming when they differ by
it alone; then they are equally true, equal to the same values, and bind the same names. -/

namespace ScriptHost

/-- Which objects of one heap stand for which objects of another. -/
structure Renaming where
  lists : ListId → ListId → Prop
  classes : ClassId → ClassId → Prop
  instances : InstanceId → InstanceId → Prop
  foreigns : ForeignId → ForeignId → Prop

namespace Renaming

/-- Each object stands for itself. -/
protected def id : Renaming := ⟨Eq, Eq, Eq, Eq⟩

/-- `σ` pairs all that `ρ` pairs. -/
structure Within (ρ σ : Renaming) : Prop where
  lists : ∀ {a b}, ρ.lists a b → σ.lists a b
  classes : ∀ {a b}, ρ.classes a b → σ.classes a b
  instances : ∀ {a b}, ρ.instances a b → σ.instances a b
  foreigns : ∀ {a b}, ρ.foreigns a b → σ.foreigns a b

instance : Preorder Renaming where
  le := Within
  le_refl _ := ⟨id, id, id, id⟩
  le_trans _ _ _ h1 h2 :=
    ⟨fun h => h2.lists (h1.lists h), fun h => h2.classes (h1.classes h),
      fun h => h2.instances (h1.instances h), fun h => h2.foreigns (h1.foreigns h)⟩

/-- No object stands for two, and none is stood for twice. -/
structure OneToOne (ρ : Renaming) : Prop where
  lists : ∀ {a b c d}, ρ.lists a b → ρ.lists c d → (a = c ↔ b = d)
  classes : ∀ {a b c d}, ρ.classes a b → ρ.classes c d → (a = c ↔ b = d)
  instances : ∀ {a b c d}, ρ.instances a b → ρ.instances c d → (a = c ↔ b = d)
  foreigns : ∀ {a b c d}, ρ.foreigns a b → ρ.foreigns c d → (a = c ↔ b = d)

theorem oneToOne_id : Renaming.id.OneToOne := by
  constructor <;> rintro _ _ _ _ rfl rfl <;> rfl

end Renaming

variable {ρ σ : Renaming}

/-! ### Options -/

section

variable {α β γ δ : Type} {R : α → β → Prop} {S : γ → δ → Prop} {x : Option α} {y : Option β}

theorem optionRel_cases (h : Option.Rel R x y) :
    (x = none ∧ y = none) ∨ ∃ a b, x = some a ∧ y = some b ∧ R a b := by
  cases h with
  | none => exact .inl ⟨rfl, rfl⟩
  | some h => exact .inr ⟨_, _, rfl, rfl, h⟩

theorem optionRel_isSome (h : Option.Rel R x y) : x.isSome = y.isSome := by
  cases h <;> rfl

theorem optionRel_eq {x y : Option α} : Option.Rel Eq x y ↔ x = y := by
  constructor
  · rintro (rfl | _) <;> rfl
  · rintro rfl
    cases x with
    | none => exact .none
    | some _ => exact .some rfl

theorem optionRel_refl {R : α → α → Prop} (h : ∀ a, R a a) (x : Option α) : Option.Rel R x x := by
  cases x with
  | none => exact .none
  | some a => exact .some (h a)

theorem optionRel_imp {T : α → β → Prop} (h : Option.Rel R x y) (le : ∀ {a b}, R a b → T a b) :
    Option.Rel T x y := by
  cases h with
  | none => exact .none
  | some h => exact .some (le h)

theorem optionRel_map {f : α → γ} {g : β → δ} (h : Option.Rel R x y)
    (hfg : ∀ {a b}, R a b → S (f a) (g b)) : Option.Rel S (x.map f) (y.map g) := by
  cases h with
  | none => exact .none
  | some h => exact .some (hfg h)

theorem optionRel_bind {f : α → Option γ} {g : β → Option δ} (h : Option.Rel R x y)
    (hfg : ∀ {a b}, R a b → Option.Rel S (f a) (g b)) : Option.Rel S (x.bind f) (y.bind g) := by
  cases h with
  | none => exact .none
  | some h => exact hfg h

theorem forall₂_getElem? {as : List α} {bs : List β} (h : List.Forall₂ R as bs) (i : Nat) :
    Option.Rel R as[i]? bs[i]? := by
  induction h generalizing i with
  | nil => exact .none
  | cons hab _ ih =>
    cases i with
    | zero => exact .some hab
    | succ i => exact ih i

theorem optionRel_getD {a : α} {b : β} (h : Option.Rel R x y) (hab : R a b) :
    R (x.getD a) (y.getD b) := by
  cases h with
  | none => exact hab
  | some h => exact h

end

/-! ### Values -/

/-- Values that differ by a renaming alone. -/
inductive Value.Alike (ρ : Renaming) : Value → Value → Prop
  | null : Alike ρ .null .null
  | bool (b : Bool) : Alike ρ (.bool b) (.bool b)
  | number (x : Float) : Alike ρ (.number x) (.number x)
  | string (s : String) : Alike ρ (.string s) (.string s)
  | list {a b : ListId} : ρ.lists a b → Alike ρ (.list a) (.list b)
  | classObject {a b : ClassId} : ρ.classes a b → Alike ρ (.classObject a) (.classObject b)
  | object {a b : InstanceId} : ρ.instances a b → Alike ρ (.object a) (.object b)
  | foreign {a b : ForeignId} : ρ.foreigns a b → Alike ρ (.foreign a) (.foreign b)

namespace Value

theorem Alike.mono {v w : Value} (h : v.Alike ρ w) (le : ρ ≤ σ) : v.Alike σ w := by
  cases h with
  | null => exact .null
  | bool b => exact .bool b
  | number x => exact .number x
  | string s => exact .string s
  | list h => exact .list (le.lists h)
  | classObject h => exact .classObject (le.classes h)
  | object h => exact .object (le.instances h)
  | foreign h => exact .foreign (le.foreigns h)

theorem alike_id {v w : Value} : v.Alike .id w ↔ v = w := by
  constructor
  · rintro (_ | _ | _ | _ | rfl | rfl | rfl | rfl) <;> rfl
  · rintro rfl
    cases v with
    | null => exact .null
    | bool b => exact .bool b
    | number x => exact .number x
    | string s => exact .string s
    | list _ => exact .list rfl
    | classObject _ => exact .classObject rfl
    | object _ => exact .object rfl
    | foreign _ => exact .foreign rfl

theorem Alike.isTrue {v w : Value} (h : v.Alike ρ w) : v.isTrue = w.isTrue := by
  cases h <;> rfl

theorem beq_congr {a b c d : Nat} (h : a = c ↔ b = d) : (a == c) = (b == d) := by
  rw [Bool.eq_iff_iff, beq_iff_eq, beq_iff_eq]
  exact h

theorem Alike.same {v w v' w' : Value} (one : ρ.OneToOne) (h : v.Alike ρ w) (h' : v'.Alike ρ w') :
    v.same v' = w.same w' := by
  cases h with
  | list h =>
    cases h' with
    | list h' => exact beq_congr (one.lists h h')
    | _ => rfl
  | classObject h =>
    cases h' with
    | classObject h' => exact beq_congr (one.classes h h')
    | _ => rfl
  | object h =>
    cases h' with
    | object h' => exact beq_congr (one.instances h h')
    | _ => rfl
  | foreign h =>
    cases h' with
    | foreign h' => exact beq_congr (one.foreigns h h')
    | _ => rfl
  | _ => cases h' <;> rfl

theorem alike_refl (v : Value) : v.Alike .id v := alike_id.mpr rfl

abbrev AllAlike (ρ : Renaming) : List Value → List Value → Prop := List.Forall₂ (Value.Alike ρ)

theorem AllAlike.mono {vs ws : List Value} (h : AllAlike ρ vs ws) (le : ρ ≤ σ) :
    AllAlike σ vs ws := h.imp fun _ _ h => h.mono le

theorem allAlike_id {vs ws : List Value} : AllAlike .id vs ws ↔ vs = ws := by
  have same : (Value.Alike .id) = (Eq : Value → Value → Prop) := by
    funext v w
    exact propext alike_id
  rw [AllAlike, same, List.forall₂_eq_eq_eq]

end Value

/-! ### Tables -/

namespace Table

variable {α β : Type} {R S : α → β → Prop}

/-- Tables of the same names in the same order, with related values. -/
def Alike (R : α → β → Prop) : Table α → Table β → Prop :=
  List.Forall₂ fun x y => x.1 = y.1 ∧ R x.2 y.2

theorem Alike.imp {t : Table α} {u : Table β} (h : Alike R t u) (le : ∀ a b, R a b → S a b) :
    Alike S t u := List.Forall₂.imp (fun _ _ hxy => ⟨hxy.1, le _ _ hxy.2⟩) h

theorem Alike.get? {t : Table α} {u : Table β} (h : Alike R t u) (name : String) :
    Option.Rel R (t.get? name) (u.get? name) := by
  induction h with
  | nil => exact .none
  | @cons x y t u hxy _ ih =>
    obtain ⟨n, a⟩ := x
    obtain ⟨n', b⟩ := y
    obtain ⟨rfl, hab⟩ : n = n' ∧ R a b := hxy
    simp only [Table.get?, List.lookup_cons] at ih ⊢
    cases name == n with
    | true => exact .some hab
    | false => exact ih

theorem Alike.has {t : Table α} {u : Table β} (h : Alike R t u) (name : String) :
    t.has name = u.has name := optionRel_isSome (h.get? name)

theorem Alike.set {t : Table α} {u : Table β} (h : Alike R t u) (name : String) {a : α} {b : β}
    (hab : R a b) : Alike R (t.set name a) (u.set name b) := by
  induction h with
  | nil => exact .cons ⟨rfl, hab⟩ .nil
  | @cons x y t u hxy htu ih =>
    obtain ⟨n, a'⟩ := x
    obtain ⟨n', b'⟩ := y
    obtain ⟨rfl, hab'⟩ : n = n' ∧ R a' b' := hxy
    unfold Table.set
    split
    · exact .cons ⟨rfl, hab⟩ htu
    · exact .cons ⟨rfl, hab'⟩ ih

theorem Alike.update {t : Table α} {u : Table β} (h : Alike R t u) (name : String) {f : α → α}
    {g : β → β} (hfg : ∀ a b, R a b → R (f a) (g b)) :
    Alike R (t.update name f) (u.update name g) := by
  induction h with
  | nil => exact .nil
  | @cons x y t u hxy htu ih =>
    obtain ⟨n, a⟩ := x
    obtain ⟨n', b⟩ := y
    obtain ⟨rfl, hab⟩ : n = n' ∧ R a b := hxy
    unfold Table.update
    split
    · exact .cons ⟨rfl, hfg _ _ hab⟩ htu
    · exact .cons ⟨rfl, hab⟩ ih

end Table

abbrev Bindings.Alike (ρ : Renaming) : Bindings → Bindings → Prop := Table.Alike (Value.Alike ρ)

theorem Bindings.Alike.mono {t u : Bindings} (h : Bindings.Alike ρ t u) (le : ρ ≤ σ) :
    Bindings.Alike σ t u := h.imp fun _ _ h => h.mono le

/-! ### Activations -/

/-- Activations at the same place of a module, with alike scopes. -/
structure Frame.Alike (ρ : Renaming) (moduleName : String) (f g : Frame) : Prop where
  first : f.moduleName = moduleName
  second : g.moduleName = moduleName
  this : Option.Rel (Value.Alike ρ) f.this g.this
  scopes : List.Forall₂ (Bindings.Alike ρ) f.scopes g.scopes
  line : f.line = g.line
  function : f.function = g.function

namespace Frame

variable {f g : Frame} {moduleName : String}

theorem Alike.mono (h : f.Alike ρ moduleName g) (le : ρ ≤ σ) : f.Alike σ moduleName g where
  first := h.first
  second := h.second
  this := optionRel_imp h.this fun h => h.mono le
  scopes := h.scopes.imp fun _ _ h => Bindings.Alike.mono h le
  line := h.line
  function := h.function

theorem Alike.entry (h : f.Alike ρ moduleName g) : f.entry = g.entry := by
  simp only [Frame.entry, h.first, h.second, h.line, h.function]

theorem Alike.withScopes (h : f.Alike ρ moduleName g) {s t : List Bindings}
    (hst : List.Forall₂ (Bindings.Alike ρ) s t) :
    Frame.Alike ρ moduleName { f with scopes := s } { g with scopes := t } :=
  ⟨h.first, h.second, h.this, hst, h.line, h.function⟩

theorem Alike.atLine (h : f.Alike ρ moduleName g) (line : Nat) :
    Frame.Alike ρ moduleName { f with line } { g with line } :=
  ⟨h.first, h.second, h.this, h.scopes, rfl, h.function⟩

theorem Alike.local? (h : f.Alike ρ moduleName g) (name : String) :
    Option.Rel (Value.Alike ρ) (f.local? name) (g.local? name) := by
  unfold Frame.local?
  generalize f.scopes = s, g.scopes = t, h.scopes = hst
  induction hst with
  | nil => exact .none
  | @cons s t _ _ hst _ ih =>
    rw [List.findSome?_cons, List.findSome?_cons]
    obtain ⟨hs, ht⟩ | ⟨v, w, hs, ht, hvw⟩ := optionRel_cases (Table.Alike.get? hst name)
    · rw [hs, ht]
      exact ih
    · rw [hs, ht]
      exact .some hvw

theorem assignLocal?_alike (name : String) {v w : Value} (hv : v.Alike ρ w) {s t : List Bindings}
    (h : List.Forall₂ (Bindings.Alike ρ) s t) :
    Option.Rel (List.Forall₂ (Bindings.Alike ρ)) (Frame.assignLocal? name v s)
      (Frame.assignLocal? name w t) := by
  induction h with
  | nil => exact .none
  | cons hst hrest ih =>
    unfold Frame.assignLocal?
    rw [Table.Alike.has hst name]
    split
    · exact .some (.cons (Table.Alike.set hst name hv) hrest)
    · exact optionRel_map ih fun h => .cons hst h

theorem alike_refl (f : Frame) : f.Alike .id f.moduleName f where
  first := rfl
  second := rfl
  this := optionRel_refl Value.alike_refl _
  scopes := List.forall₂_same.mpr fun _ _ => List.forall₂_same.mpr fun _ _ =>
    ⟨rfl, Value.alike_refl _⟩
  line := rfl
  function := rfl

end Frame
end ScriptHost
