import ScriptHost.Boundary.Catalogue
import ScriptHost.Proofs.Isolation.Routines

/-! The ready-made routines have no state of their own: each of them does alike things to alike
arguments. -/

namespace ScriptHost

variable {R : ForeignId → ForeignId → Prop} {h k : Heap}

/-! ### Arguments -/

/-- Arguments that differ by the places of objects alone. -/
inductive Argument.Alike (R : ForeignId → ForeignId → Prop) : Argument → Argument → Prop
  | null : Alike R .null .null
  | bool (b : Bool) : Alike R (.bool b) (.bool b)
  | number (x : Float) : Alike R (.number x) (.number x)
  | integer (n : Int) : Alike R (.integer n) (.integer n)
  | text (s : String) : Alike R (.text s) (.text s)
  | foreign {a b : ForeignId} (className : String) (hostType : Option HostType) : R a b →
    Alike R (.foreign ⟨a, className, hostType⟩) (.foreign ⟨b, className, hostType⟩)

theorem Argument.alike_narrow (type : NumberType) (x : Float) :
    (type.narrow x).Alike R (type.narrow x) := by
  unfold NumberType.narrow
  split
  · exact .integer _
  · split
    · exact .number _
    · exact .number _

theorem HostValue.Alike.ofHostValue {x y : HostValue} (hxy : x.Alike R y) :
    (Argument.ofHostValue x).Alike R (.ofHostValue y) := by
  cases hxy with
  | null => exact .null
  | bool b => exact .bool b
  | number x => exact .number x
  | text s => exact .text s
  | foreign className hostType ab => exact .foreign className hostType ab

theorem HostValue.Alike.argument? {x y : HostValue} (hxy : x.Alike R y) (kind : Kind) :
    Option.Rel (Argument.Alike R) (kind.argument? x) (kind.argument? y) := by
  induction kind with
  | any => exact .some hxy.ofHostValue
  | optional inner ih =>
    cases hxy with
    | null => exact .some .null
    | _ => exact ih
  | bool =>
    cases hxy with
    | bool b => exact .some (.bool b)
    | _ => exact .none
  | number type =>
    cases hxy with
    | number x => exact .some (Argument.alike_narrow type x)
    | _ => exact .none
  | string =>
    cases hxy with
    | text s => exact .some (.text s)
    | _ => exact .none
  | foreign type =>
    cases hxy with
    | foreign className hostType ab =>
      unfold Kind.argument?
      dsimp only
      split
      · exact .some (.foreign className hostType ab)
      · exact .none
    | _ => exact .none

namespace Catalogue

variable {a b : Argument} {as bs : List Argument}

end Catalogue

end ScriptHost
