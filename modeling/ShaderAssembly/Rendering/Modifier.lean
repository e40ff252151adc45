import ShaderAssembly.Rendering.Error

namespace ShaderAssembly.Modifier

/-- The text of a register operand under the modifier. Where the shading language has no operator
for a modifier its assembly suffix is kept. -/
def decorate (m : Modifier) (text : String) : Except RenderError String :=
  match m with
  | .plain => .ok text
  | .negate => .ok ("-" ++ text)
  | .bias => .ok (text ++ "_bias")
  | .biasNegate => .ok ("-" ++ text ++ "_bias")
  | .sign => .ok (text ++ "_bx2")
  | .signNegate => .ok ("-" ++ text ++ "_bx2")
  | .double => .ok ("(2 * " ++ text ++ ")")
  | .doubleNegate => .ok ("(-2 * " ++ text ++ ")")
  | .divideByZ => .ok (text ++ "_dz")
  | .divideByW => .ok (text ++ "_dw")
  | .abs => .ok ("abs(" ++ text ++ ")")
  | .absNegate => .ok ("-abs(" ++ text ++ ")")
  | .complement | .not | .unknown _ => .error (.unsupportedModifier m .register)

end ShaderAssembly.Modifier
