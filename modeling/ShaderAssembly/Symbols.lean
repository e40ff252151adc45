import ShaderAssembly.Constant
import ShaderAssembly.Declaration

namespace ShaderAssembly

/-- Which way matrices are laid over consecutive registers. -/
inductive MatrixOrder where
  | columnMajor
  | rowMajor
deriving DecidableEq, Repr, Inhabited

/-- Why a constant table or an instruction cannot be taken in. -/
inductive LoadError where
  | unknownRegisterSet (code : UInt16)
  | rangePastEnd (name : String) (start count : UInt32)
  | undeclarableKind (r : Register)
  | duplicateDeclaration (r : Register)
  | missingLiterals (opcode : Opcode)
deriving DecidableEq, Repr

/-- The text of an error. -/
def LoadError.message : LoadError → String
  | .unknownRegisterSet code =>
    "unsupported register set Unknown(" ++ toString code.toNat ++ ") in constant table"
  | .rangePastEnd name start count =>
    "constant " ++ name ++ " spans past the last register (" ++ toString start.toNat ++ " + " ++
      toString count.toNat ++ ")"
  | .undeclarableKind r =>
    "unexpected dcl of " ++ r.kind.name ++ " register " ++ r.positionalName
  | .duplicateDeclaration r => "register " ++ r.positionalName ++ " is declared more than once"
  | .missingLiterals opcode =>
    "malformed " ++ opcode.mnemonic ++ " instruction: missing immediate literal tokens"

/-- A definition under a number. -/
structure Numbered (α : Type) where
  number : UInt32
  value : α
deriving DecidableEq, Repr

namespace Numbered

variable {α : Type}

/-- The value of the first definition under a number. -/
def find? (definitions : List (Numbered α)) (number : UInt32) : Option α :=
  (List.find? (·.number == number) definitions).map (·.value)

/-- A definition at the end counts where there is none before it. -/
@[simp] theorem find?_concat (definitions : List (Numbered α)) (d : Numbered α) (n : UInt32) :
    find? (definitions ++ [d]) n =
      (find? definitions n).or (if d.number = n then some d.value else none) := by
  unfold find?
  rw [List.find?_append, Option.map_or, List.find?_singleton]
  by_cases hn : d.number = n <;> simp [hn]

end Numbered

/-- The symbols of a shader: the registers that it declares, its inputs and outputs, and the
constants that it defines. A declaration once made stands. Constants are known by their number
alone, and listed in the order of their definitions. -/
structure Symbols where
  order : MatrixOrder
  table : ConstantTable
  declared : RegisterMap Declaration := ∅
  inputs : RegisterMap Declaration := ∅
  outputs : RegisterMap Declaration := ∅
  floats : List (Numbered (Vec4 UInt32)) := []
  ints : List (Numbered (Vec4 Int32)) := []
  bools : List (Numbered Bool) := []

namespace Symbols

/-- Declares registers of a constant in a file of this kind, `remaining` in number from the one at
the offset on, as registers that no instruction declares. Each of them must have a number. -/
def declareFrom (c : Constant) (kind : RegisterKind) (offset remaining : Nat)
    (declared : RegisterMap Declaration) : Except LoadError (RegisterMap Declaration) :=
  match remaining with
  | 0 => .ok declared
  | remaining + 1 =>
    if c.start.toNat + offset < 0x100000000 then
      let r : Register := ⟨kind, UInt32.ofNat (c.start.toNat + offset)⟩
      declareFrom c kind (offset + 1) remaining (declared.insert r (Declaration.implicit r))
    else
      .error (.rangePastEnd c.name c.start c.count)

/-- Declares the registers of a constant in a file of this kind. -/
def declareConstant (s : Symbols) (c : Constant) (kind : RegisterKind) :
    Except LoadError Symbols := do
  let declared ← declareFrom c kind 0 c.count.toNat s.declared
  return { s with declared }

/-- Takes in a constant of the table. Samplers are left to the declaring instructions. -/
def ingestConstant (s : Symbols) (c : Constant) : Except LoadError Symbols :=
  match c.set with
  | .bool => s.declareConstant c .constBool
  | .int4 => s.declareConstant c .constInt
  | .float4 => s.declareConstant c .const
  | .sampler => .ok s
  | .unknown code => .error (.unknownRegisterSet code)

/-- The symbols of a constant table, before the first instruction. -/
def ofTable (table : ConstantTable) (order : MatrixOrder) : Except LoadError Symbols :=
  table.constants.foldlM ingestConstant { order, table }

/-- Makes a declaration, which must be the first of its register. Inputs and outputs are listed as
such; of the other kinds only samplers and address registers can be declared. -/
def declare (s : Symbols) (d : Declaration) : Symbols × Except LoadError Unit :=
  let r := d.register
  if s.declared.contains r then
    (s, .error (.duplicateDeclaration r))
  else
    let declared := s.declared.insert r d
    match r.kind with
    | .input | .misc => ({ s with declared, inputs := s.inputs.insert r d }, .ok ())
    | .output | .colorOut | .attrOut | .rastOut =>
      ({ s with declared, outputs := s.outputs.insert r d }, .ok ())
    | .sampler | .address => ({ s with declared }, .ok ())
    | _ => (s, .error (.undeclarableKind r))

/-- Notes that a register is written. An undeclared one is declared by that, and listed if it is an
output. -/
def touch (s : Symbols) (r : Register) : Symbols :=
  if s.declared.contains r then s else
    let d := Declaration.implicit r
    { s with
      declared := s.declared.insert r d
      outputs := if r.kind.isOutput then s.outputs.insert r d else s.outputs }

@[simp] theorem declared_touch (s : Symbols) (r q : Register) :
    (s.touch r).declared[q]? =
      if r = q ∧ r ∉ s.declared then some (Declaration.implicit r) else s.declared[q]? := by
  unfold touch
  split
  next hr => simp [Std.ExtTreeMap.contains_iff_mem.1 hr]
  next hr =>
    have hr : r ∉ s.declared := fun h => hr (Std.ExtTreeMap.contains_iff_mem.2 h)
    simp [hr, Std.ExtTreeMap.getElem?_insert]

/-- Defines the constant `r`. Defining a boolean touches its register, defining a float or an
integer does not. -/
def define (s : Symbols) (r : Register) : Definition → Symbols
  | .float words => { s with floats := s.floats ++ [Numbered.mk r.number words] }
  | .int v => { s with ints := s.ints ++ [Numbered.mk r.number v] }
  | .bool b => { s with bools := s.bools ++ [Numbered.mk r.number b] }.touch r

/-- Takes in an instruction. One without a destination says nothing of registers. An error leaves
the symbols as they were, so that loading can go on after it. -/
def ingest (s : Symbols) (i : Instruction) : Symbols × Except LoadError Unit :=
  match i.destination? with
  | none => (s, .ok ())
  | some d =>
    match i.opcode with
    | .dcl => s.declare (Declaration.ofDestination i.usage d)
    | .defFloat | .defInt | .defBool =>
      match i.definition? with
      | some value => (s.define d.register value, .ok ())
      | none => (s, .error (.missingLiterals i.opcode))
    | _ => (s.touch d.register, .ok ())

/-- Takes in every instruction that can be, and tells how each one went. -/
def ingestAll (s : Symbols) : List Instruction → Symbols × List (Except LoadError Unit)
  | [] => (s, [])
  | i :: rest =>
    let (next, outcome) := s.ingest i
    let (final, outcomes) := next.ingestAll rest
    (final, outcome :: outcomes)

/-- Takes in a program up to the first instruction that fails. -/
def ingestStrictly (s : Symbols) : List Instruction → Except LoadError Symbols
  | [] => .ok s
  | i :: rest =>
    match s.ingest i with
    | (next, .ok ()) => next.ingestStrictly rest
    | (_, .error e) => .error e

/-- The symbols of a shader with this constant table and program. -/
def load (table : ConstantTable) (program : List Instruction) (order : MatrixOrder) :
    Except LoadError Symbols := do
  let s ← ofTable table order
  s.ingestStrictly program

/-- The declaration of a register. -/
def declaration? (s : Symbols) (r : Register) : Option Declaration := s.declared[r]?

/-- The bits of the float constant that the shader defines under this number. -/
def floatWords? (s : Symbols) (number : UInt32) : Option (Vec4 UInt32) :=
  Numbered.find? s.floats number

/-- The float constant that the shader defines under this number. -/
def float? (s : Symbols) (number : UInt32) : Option (Vec4 Float32) :=
  (s.floatWords? number).map Vec4.floats

/-- The integer constant that the shader defines under this number. -/
def int? (s : Symbols) (number : UInt32) : Option (Vec4 Int32) := Numbered.find? s.ints number

/-- The boolean constant that the shader defines under this number. -/
def bool? (s : Symbols) (number : UInt32) : Option Bool := Numbered.find? s.bools number

end Symbols

end ShaderAssembly
