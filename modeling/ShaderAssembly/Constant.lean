namespace ShaderAssembly

/-- The register file that a constant lives in. -/
inductive RegisterSet where
  | bool
  | int4
  | float4
  | sampler
  | unknown (code : UInt16)
deriving DecidableEq, Repr

/-- The register set of a table field. -/
def RegisterSet.ofToken (raw : UInt16) : RegisterSet :=
  match raw.toNat with
  | 0 => .bool
  | 1 => .int4
  | 2 => .float4
  | 3 => .sampler
  | _ => .unknown raw

/-- The shape of a constant. -/
inductive ConstantShape where
  | scalar
  | vector
  | matrixRows
  | matrixColumns
  | object
  | struct
deriving DecidableEq, Repr

/-- The type of a constant's components. -/
inductive ConstantType where
  | void
  | bool
  | int
  | float
  | string
  | texture
  | texture1D
  | texture2D
  | texture3D
  | textureCube
  | sampler
  | sampler1D
  | sampler2D
  | sampler3D
  | samplerCube
deriving DecidableEq, Repr

/-- The name of the type in shading text. -/
def ConstantType.name : ConstantType → String
  | .void => "void"
  | .bool => "bool"
  | .int => "int"
  | .float => "float"
  | .string => "string"
  | .texture => "texture"
  | .texture1D => "texture1D"
  | .texture2D => "texture2D"
  | .texture3D => "texture3D"
  | .textureCube => "textureCUBE"
  | .sampler => "sampler"
  | .sampler1D => "sampler1D"
  | .sampler2D => "sampler2D"
  | .sampler3D => "sampler3D"
  | .samplerCube => "samplerCUBE"

/-- A named constant. -/
structure Constant where
  name : String
  set : RegisterSet
  type : ConstantType
  shape : ConstantShape
  start : UInt32
  count : UInt32
  rows : UInt32
  columns : UInt32
  elements : UInt32
deriving DecidableEq, Repr

namespace Constant

/-- A float vector in one register. -/
def vector (name : String) (start columns : UInt32) : Constant where
  name := name
  set := .float4
  type := .float
  shape := if columns = 1 then .scalar else .vector
  start := start
  count := 1
  rows := 1
  columns := columns
  elements := 1

/-- A float matrix. It has a register for each column when it is stored by columns, and one for
each row otherwise. -/
def matrix (name : String) (shape : ConstantShape) (start rows columns : UInt32) : Constant where
  name := name
  set := .float4
  type := .float
  shape := shape
  start := start
  count := if shape = .matrixColumns then columns else rows
  rows := rows
  columns := columns
  elements := 1

/-- A sampler in one register. -/
def sampler (name : String) (type : ConstantType) (start : UInt32) : Constant where
  name := name
  set := .sampler
  type := type
  shape := .object
  start := start
  count := 1
  rows := 1
  columns := 1
  elements := 1

/-- Whether the register with this number is in the range of the constant. -/
def contains (c : Constant) (number : UInt32) : Bool :=
  decide (c.start.toNat ≤ number.toNat ∧ number.toNat < c.start.toNat + c.count.toNat)

/-- The type of the constant in shading text. -/
def typeText (c : Constant) : String :=
  match c.shape with
  | .scalar | .object | .struct => c.type.name
  | .vector => c.type.name ++ toString c.columns.toNat
  | .matrixRows | .matrixColumns =>
    c.type.name ++ toString c.rows.toNat ++ "x" ++ toString c.columns.toNat

/-- The declaration of the constant in shading text. -/
def declarationText (c : Constant) : String :=
  if 1 < c.elements then
    c.typeText ++ " " ++ c.name ++ "[" ++ toString c.elements.toNat ++ "];"
  else
    c.typeText ++ " " ++ c.name ++ ";"

end Constant

/-- The constants of a shader, in the order of its table. -/
structure ConstantTable where
  constants : List Constant
deriving DecidableEq, Repr

namespace ConstantTable

/-- The first constant of a type whose range has the number. -/
def findType? (t : ConstantTable) (type : ConstantType) (number : UInt32) : Option Constant :=
  t.constants.find? fun c => c.type == type && c.contains number

/-- The first constant of a register set whose range has the number. -/
def findSet? (t : ConstantTable) (set : RegisterSet) (number : UInt32) : Option Constant :=
  t.constants.find? fun c => c.set == set && c.contains number

/-- The first constant whose range has the number. -/
def find? (t : ConstantTable) (number : UInt32) : Option Constant :=
  t.constants.find? fun c => c.contains number

end ConstantTable

end ShaderAssembly
