import ShaderAssembly.Rendering.Literal
import ShaderAssembly.Rendering.Modifier
import ShaderAssembly.Rendering.Name

namespace ShaderAssembly

/-- The text of a source operand, and what it stands for. -/
inductive SourceText where
  /-- A register or a constant of the table. -/
  | named (text : String)
  /-- The components of a constant that the shader defines. -/
  | literal (text : String)
  /-- A constant register of which nothing is known. -/
  | placeholder (text : String)
deriving DecidableEq, Repr

def SourceText.text : SourceText → String
  | .named text | .literal text | .placeholder text => text

/-- The type of the constants that live in a constant register file. -/
def RegisterKind.constantType : RegisterKind → ConstantType
  | .constBool => .bool
  | .constInt => .int
  | _ => .float

namespace Instruction

/-- The register lanes that a source operand reads, in the order of the components written. -/
def selection (i : Instruction) (src : Source) : Vec4 Component :=
  match i.destination? with
  | some d => src.swizzle.masked d.mask
  | none => src.swizzle

/-- The number of components for which operands are rendered. -/
def renderedWidth (i : Instruction) : Nat := i.writtenSize?.getD 4

/-- The swizzle of a source operand in shading text. The leading lanes in order need no swizzle, and
one lane read throughout is written once. -/
def swizzleText (i : Instruction) (src : Source) : String :=
  let selection := i.selection src
  let lanes := selection.toList.take (max 1 (min 4 i.renderedWidth))
  if lanes == Component.all.take lanes.length then ""
  else if lanes.all (· == selection.x) then String.ofList ['.', selection.x.letter]
  else String.ofList ('.' :: lanes.map Component.letter)

end Instruction

namespace Symbols

/-- The literal for a source operand that reads a constant which the shader defines. The four float
files share their definitions. -/
def literalText? (s : Symbols) (i : Instruction) (src : Source) :
    Except RenderError (Option String) :=
  let selection := i.selection src
  let number := src.register.number
  match src.register.kind with
  | .const | .const2 | .const3 | .const4 =>
    match s.float? number with
    | none => .ok none
    | some v => do
      let folded ← src.modifier.foldFloat (selection.map v.get)
      some <$> LiteralStyle.floatExpression.collapse "float" i.renderedWidth folded
  | .constInt =>
    match s.int? number with
    | none => .ok none
    | some v => do
      let folded ← src.modifier.foldInt (selection.map v.get)
      some <$> LiteralStyle.integer.collapse "int" i.renderedWidth folded
  | .constBool =>
    match s.bool? number with
    | none => .ok none
    | some b => some <$> src.modifier.foldBool b
  | _ => .ok none

/-- The text of a named source operand. -/
def namedText (i : Instruction) (src : Source) (name : String) : Except RenderError SourceText :=
  .named <$> src.modifier.decorate (name ++ i.swizzleText src)

/-- The text of a source operand. A matrix constant stored by rows is indexed, any other constant
is named as a whole. -/
def sourceText (s : Symbols) (i : Instruction) (src : Source) : Except RenderError SourceText := do
  let r := src.register
  if r.kind.isConstant then
    match ← s.literalText? i src with
    | some text => return .literal text
    | none =>
      match s.table.findType? r.kind.constantType r.number with
      | none => return .placeholder ("Error " ++ r.kind.name ++ toString r.number.toNat)
      | some c =>
        let name :=
          if c.shape = .matrixRows then
            c.name ++ "[" ++ toString (r.number - c.start).toNat ++ "]"
          else
            c.name
        namedText i src name
  else
    namedText i src (← s.registerName r)

/-- The text of the source operand with `n` source operands before it. -/
def resolveSource (s : Symbols) (i : Instruction) (n : Nat) : Except RenderError SourceText :=
  match i.source? n with
  | some src => s.sourceText i src
  | none => .error (.missingOperand i.opcode .source)

end Symbols

end ShaderAssembly
