import ShaderAssembly.Instruction

namespace ShaderAssembly

/-- What a source modifier is applied to when it is rendered. -/
inductive ModifierContext where
  | register
  | float
  | integer
  | boolean
deriving DecidableEq, Repr

/-- The name of the context in messages. -/
def ModifierContext.name : ModifierContext → String
  | .register => "register operand"
  | .float => "float literal"
  | .integer => "integer literal"
  | .boolean => "boolean literal"

/-- Why an operand cannot be rendered. A constant register without a definition is no error: it has
a placeholder. -/
inductive RenderError where
  | missingOperand (opcode : Opcode) (role : OperandRole)
  | missingDeclaration (r : Register)
  | unsupportedKind (kind : RegisterKind)
  | unsupportedMiscRegister (number : UInt32)
  | unsupportedModifier (modifier : Modifier) (context : ModifierContext)
  | invalidWidth (width : Nat)
deriving DecidableEq, Repr

/-- The text of an error. -/
def RenderError.message : RenderError → String
  | .missingOperand opcode role => opcode.mnemonic ++ " instruction has no " ++ role.name
  | .missingDeclaration r => "no declaration found for register " ++ r.positionalName
  | .unsupportedKind kind => "unsupported register kind " ++ kind.name
  | .unsupportedMiscRegister number =>
    "unsupported misc register index " ++ toString number.toNat
  | .unsupportedModifier modifier context =>
    "unsupported source modifier '" ++ modifier.name ++ "' on " ++ context.name
  | .invalidWidth width => "operand width " ++ toString width ++ " is outside 1..=4"

end ShaderAssembly
