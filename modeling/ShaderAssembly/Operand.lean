import ShaderAssembly.Mask
import ShaderAssembly.Register

namespace ShaderAssembly

/-- What a source operand does to the value it reads. -/
inductive Modifier where
  | plain
  | negate
  | bias
  | biasNegate
  | sign
  | signNegate
  | complement
  | double
  | doubleNegate
  | divideByZ
  | divideByW
  | abs
  | absNegate
  | not
  | unknown (code : UInt8)
deriving DecidableEq, Repr, Inhabited

namespace Modifier

/-- The modifier of a source token. -/
def ofToken (raw : UInt8) : Modifier :=
  match raw.toNat with
  | 0 => .plain
  | 1 => .negate
  | 2 => .bias
  | 3 => .biasNegate
  | 4 => .sign
  | 5 => .signNegate
  | 6 => .complement
  | 7 => .double
  | 8 => .doubleNegate
  | 9 => .divideByZ
  | 10 => .divideByW
  | 11 => .abs
  | 12 => .absNegate
  | 13 => .not
  | _ => .unknown raw

/-- The name of the modifier in messages. -/
def name : Modifier → String
  | .plain => "none"
  | .negate => "negate"
  | .bias => "bias"
  | .biasNegate => "bias and negate"
  | .sign => "sign"
  | .signNegate => "sign and negate"
  | .complement => "complement"
  | .double => "x2"
  | .doubleNegate => "x2 and negate"
  | .divideByZ => "divide by z"
  | .divideByW => "divide by w"
  | .abs => "abs"
  | .absNegate => "abs and negate"
  | .not => "not"
  | .unknown _ => "unknown"

end Modifier

/-- The power of two by which a result is scaled before it is written. -/
inductive ResultShift where
  | unscaled
  | times2
  | times4
  | times8
  | half
  | quarter
  | eighth
  | unknown (code : UInt8)
deriving DecidableEq, Repr, Inhabited

/-- What happens to a result before it is written: a scale, then a clamp to [0, 1]. -/
structure ResultModifier where
  saturate : Bool := false
  shift : ResultShift := .unscaled
deriving DecidableEq, Repr, Inhabited

/-- The register that an instruction writes, and the components of it. -/
structure Destination where
  register : Register
  mask : Mask
deriving DecidableEq, Repr

/-- A register that an instruction reads. -/
structure Source where
  register : Register
  swizzle : Swizzle := Swizzle.identity
  modifier : Modifier := .plain
deriving DecidableEq, Repr

/-- One operand of an instruction. -/
inductive Operand where
  | destination (target : Destination)
  | source (operand : Source)
  | immediate (word : UInt32)
deriving DecidableEq, Repr

/-- The two parts that a register can play in an instruction. -/
inductive OperandRole where
  | destination
  | source
deriving DecidableEq, Repr

/-- The name of the part in messages. -/
def OperandRole.name : OperandRole → String
  | .destination => "destination"
  | .source => "source operand"

end ShaderAssembly
