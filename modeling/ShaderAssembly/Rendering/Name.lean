import ShaderAssembly.Rendering.Error
import ShaderAssembly.Symbols

namespace ShaderAssembly

/-- The name of a member of the structure `scope`, which has `count` members. A sole member stands
without the structure. -/
def qualify (scope name : String) (count : Nat) : String :=
  if count = 1 then name else scope ++ "." ++ name

namespace Symbols

/-- The name of register `number` of a constant: an element of a matrix, which is transposed when
registers hold columns, or the constant itself when it has one row. -/
def constantName (s : Symbols) (c : Constant) (number : UInt32) : String :=
  if c.rows = 1 then c.name else
    let index := "[" ++ toString (number - c.start).toNat ++ "]"
    match s.order with
    | .columnMajor => "transpose(" ++ c.name ++ ")" ++ index
    | .rowMajor => c.name ++ index

/-- The name of a register in shading text, without mask or swizzle. -/
def registerName (s : Symbols) (r : Register) : Except RenderError String :=
  match r.kind with
  | .input =>
    match s.declaration? r with
    | some d => .ok (qualify "i" d.name s.inputs.size)
    | none => .ok r.positionalName
  | .output | .colorOut | .attrOut | .rastOut =>
    match s.declaration? r with
    | some d => .ok (qualify "o" d.name s.outputs.size)
    | none => .ok r.positionalName
  | .const =>
    match s.table.findType? .float r.number with
    | some c => .ok (s.constantName c r.number)
    | none => .error (.missingDeclaration r)
  | .sampler =>
    match s.table.findSet? .sampler r.number with
    | some c => .ok c.name
    | none => .error (.missingDeclaration r)
  | .misc =>
    match r.number.toNat with
    | 0 => .ok "vFace"
    | 1 => .ok "vPos"
    | _ => .error (.unsupportedMiscRegister r.number)
  | .texture | .temp =>
    match s.declaration? r with
    | some d => .ok d.name
    | none => .ok r.positionalName
  | kind => .error (.unsupportedKind kind)

/-- The number of components of a register, as declared. A float constant has the columns of the
constant that covers it. -/
def registerWidth (s : Symbols) (r : Register) : Except RenderError Nat :=
  match r.kind with
  | .const =>
    match s.table.findType? .float r.number with
    | some c => .ok c.columns.toNat
    | none => .error (.missingDeclaration r)
  | _ =>
    match s.declaration? r with
    | some d => .ok d.type.width
    | none => .error (.missingDeclaration r)

/-- The text of the destination of an instruction: the name of the register and the mask, which is
left out when it covers the register as declared. -/
def destinationText (s : Symbols) (i : Instruction) : Except RenderError String := do
  let some d := i.destination? | throw (.missingOperand i.opcode .destination)
  let name ← s.registerName d.register
  let width ← s.registerWidth d.register
  return if d.mask.isLeading width then name else name ++ d.mask.suffix

end Symbols

end ShaderAssembly
