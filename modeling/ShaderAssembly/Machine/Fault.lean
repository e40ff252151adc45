import ShaderAssembly.Instruction

namespace ShaderAssembly

/-- Why an instruction cannot be executed. -/
inductive Fault where
  | unsupportedOpcode (opcode : Opcode)
  | unsupportedModifier (modifier : Modifier)
  | unsupportedShift (code : UInt8)
  | missingOperand (opcode : Opcode) (role : OperandRole)
  | missingLiterals (opcode : Opcode)
  | rangePastEnd (opcode : Opcode) (base : Register)
deriving DecidableEq, Repr

/-- The text of a fault. -/
def Fault.message : Fault → String
  | .unsupportedOpcode opcode =>
    "opcode " ++ opcode.mnemonic ++ " is not supported by the interpreter"
  | .unsupportedModifier modifier =>
    "source modifier '" ++ modifier.name ++ "' is not supported by the interpreter"
  | .unsupportedShift code => "unknown result shift modifier " ++ toString code.toNat
  | .missingOperand opcode role => opcode.mnemonic ++ " instruction has no " ++ role.name
  | .missingLiterals opcode =>
    opcode.mnemonic ++ " instruction is missing its literal tokens"
  | .rangePastEnd opcode base =>
    opcode.mnemonic ++ " instruction reads past the last register after " ++ base.positionalName

end ShaderAssembly
