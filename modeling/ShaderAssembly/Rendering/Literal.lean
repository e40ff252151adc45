import ShaderAssembly.Binary32.Decimal
import ShaderAssembly.Rendering.Error

namespace ShaderAssembly

/-- How literals of one component type are compared and written. -/
structure LiteralStyle (α : Type) where
  same : α → α → Bool
  text : α → String

namespace LiteralStyle

/-- Integers are written in decimal. -/
def integer : LiteralStyle Int32 where
  same a b := a == b
  text n := toString n.toInt

/-- Floats as expressions: infinities and NaNs have no literal, so the division that makes them is
written. All NaNs are the same, and the two zeros are the same. -/
def floatExpression : LiteralStyle Float32 where
  same a b := a == b || (Binary32.isNaN a && Binary32.isNaN b)
  text x :=
    if Binary32.isNaN x then "(0.0 / 0.0)"
    else if x == Binary32.positiveInfinity then "(1.0 / 0.0)"
    else if x == Binary32.negativeInfinity then "(-1.0 / 0.0)"
    else Binary32.finiteText x

/-- Floats as plain values: infinities and NaNs are named, and a NaN differs from itself. -/
def floatValue : LiteralStyle Float32 where
  same a b := a == b
  text x :=
    if Binary32.isNaN x then "NaN"
    else if x == Binary32.positiveInfinity then "inf"
    else if x == Binary32.negativeInfinity then "-inf"
    else Binary32.finiteText x

/-- The expression for the first `width` components, when there are one to four of them: a single
literal when all are the same as the first, which the shading language spreads over the lanes, and a
constructor call otherwise. -/
def collapse (style : LiteralStyle α) (constructorName : String) (width : Nat) (v : Vec4 α) :
    Except RenderError String :=
  if 1 ≤ width ∧ width ≤ 4 then
    let selected := v.toList.take width
    if selected.all (style.same · v.x) then
      .ok (style.text v.x)
    else
      .ok (constructorName ++ toString width ++
        "(" ++ ", ".intercalate (selected.map style.text) ++ ")")
  else
    .error (.invalidWidth width)

end LiteralStyle

namespace Modifier

/-- The components of a float literal under the modifier. The modifiers that only change the sign or
the scale fold into a literal. -/
def foldFloat (m : Modifier) (v : Vec4 Float32) : Except RenderError (Vec4 Float32) :=
  match m with
  | .plain => .ok v
  | .negate => .ok (v.map fun x => -x)
  | .abs => .ok (v.map fun x => x.abs)
  | .absNegate => .ok (v.map fun x => -x.abs)
  | .double => .ok (v.map fun x => x * 2.0)
  | .doubleNegate => .ok (v.map fun x => x * -2.0)
  | _ => .error (.unsupportedModifier m .float)

/-- The components of an integer literal under the modifier. The least integer is its own
negative. -/
def foldInt (m : Modifier) (v : Vec4 Int32) : Except RenderError (Vec4 Int32) :=
  match m with
  | .plain => .ok v
  | .negate => .ok (v.map fun n => -n)
  | _ => .error (.unsupportedModifier m .integer)

/-- The text of a boolean literal under the modifier. -/
def foldBool (m : Modifier) (b : Bool) : Except RenderError String :=
  match m with
  | .plain => .ok (if b then "true" else "false")
  | _ => .error (.unsupportedModifier m .boolean)

end Modifier

end ShaderAssembly
