import ShaderAssembly.Opcode
import ShaderAssembly.Operand
import ShaderAssembly.Usage

namespace ShaderAssembly

/-- The usage and usage index of a declaration. -/
structure UsageInfo where
  usage : Usage
  index : UInt8
deriving DecidableEq, Repr

/-- An instruction. Its operands may stand in any order and number: readers see them through
`destination?`, `sources` and `immediates`. The usage is that of a declaration. -/
structure Instruction where
  opcode : Opcode
  operands : List Operand
  usage : Option UsageInfo := none
  result : ResultModifier := {}
deriving DecidableEq, Repr

/-- A constant that an instruction defines. A float is given by the bits of its components, which
are kept as they stand in the instruction. -/
inductive Definition where
  | float (words : Vec4 UInt32)
  | int (v : Vec4 Int32)
  | bool (b : Bool)
deriving DecidableEq, Repr

namespace Instruction

/-- The declaration of `r` for a usage, of the components in `mask`. -/
def declare (usage : Usage) (index : UInt8) (r : Register) (mask : Mask) : Instruction :=
  { opcode := .dcl, operands := [.destination ⟨r, mask⟩], usage := some ⟨usage, index⟩ }

/-- An instruction whose operands are a fully written register and some immediates. -/
def define (opcode : Opcode) (r : Register) (words : List UInt32) : Instruction :=
  { opcode, operands := .destination ⟨r, Mask.full⟩ :: words.map .immediate }

/-- The definition of a float constant by the bits of its components. -/
def defineFloat (r : Register) (words : Vec4 UInt32) : Instruction :=
  define .defFloat r words.toList

/-- The definition of an integer constant. -/
def defineInt (r : Register) (values : Vec4 Int32) : Instruction :=
  define .defInt r (values.map Int32.toUInt32).toList

/-- The definition of a boolean constant. -/
def defineBool (r : Register) (value : Bool) : Instruction :=
  define .defBool r [if value then 1 else 0]

/-- The destination. It is an operand in first place or there is none. -/
def destination? (i : Instruction) : Option Destination :=
  match i.operands with
  | .destination d :: _ => some d
  | _ => none

/-- The source operands in order. -/
def sources (i : Instruction) : List Source :=
  i.operands.filterMap fun
    | .source s => some s
    | _ => none

/-- The immediates in order. -/
def immediates (i : Instruction) : List UInt32 :=
  i.operands.filterMap fun
    | .immediate w => some w
    | _ => none

/-- The source operand with `n` source operands before it. -/
def source? (i : Instruction) (n : Nat) : Option Source := i.sources[n]?

/-- The number of components written, when there is a destination. -/
def writtenSize? (i : Instruction) : Option Nat := i.destination?.map fun d => d.mask.size

/-- The first four immediates, the bits of a float constant. -/
def floatWords? (i : Instruction) : Option (Vec4 UInt32) := Vec4.ofList? i.immediates

/-- The first four immediates, read as binary32. -/
def floatLiterals? (i : Instruction) : Option (Vec4 Float32) := i.floatWords?.map Vec4.floats

/-- The first four immediates, read as two's complement integers. -/
def intLiterals? (i : Instruction) : Option (Vec4 Int32) :=
  (Vec4.ofList? i.immediates).map (Vec4.map UInt32.toInt32)

/-- The first immediate, read as a truth value. -/
def boolLiteral? (i : Instruction) : Option Bool := i.immediates.head?.map (· != 0)

/-- The constant that a defining instruction defines, when it has the words for it. -/
def definition? (i : Instruction) : Option Definition :=
  match i.opcode with
  | .defFloat => i.floatWords?.map .float
  | .defInt => i.intLiterals?.map .int
  | .defBool => i.boolLiteral?.map .bool
  | _ => none

end Instruction

end ShaderAssembly
