namespace ShaderAssembly

/-- The shape of a declared texture. -/
inductive TextureShape where
  | texture1D
  | texture2D
  | textureCube
  | texture3D
  | unknown (code : UInt8)
deriving DecidableEq, Repr

/-- The usage that a declaration token carries. -/
inductive Usage where
  | position
  | blendWeight
  | blendIndices
  | normal
  | pointSize
  | texCoord
  | tangent
  | binormal
  | tessFactor
  | positionT
  | color
  | fog
  | depth
  | sample
  | texture (shape : TextureShape)
  | unknown (code : UInt8)
deriving DecidableEq, Repr

namespace Usage

/-- The usage of a declaration code. -/
def ofToken (raw : UInt8) : Usage :=
  match raw.toNat with
  | 0 => .position
  | 1 => .blendWeight
  | 2 => .blendIndices
  | 3 => .normal
  | 4 => .pointSize
  | 5 => .texCoord
  | 6 => .tangent
  | 7 => .binormal
  | 8 => .tessFactor
  | 9 => .positionT
  | 10 => .color
  | 11 => .fog
  | 12 => .depth
  | 13 => .sample
  | _ => .unknown raw

/-- The semantic of a usage, without its index. Textures have none. -/
def semantic? : Usage → Option String
  | .position => some "POSITION"
  | .blendWeight => some "BLENDWEIGHT"
  | .blendIndices => some "BLENDINDICES"
  | .normal => some "NORMAL"
  | .pointSize => some "PSIZE"
  | .texCoord => some "TEXCOORD"
  | .tangent => some "TANGENT"
  | .binormal => some "BINORMAL"
  | .tessFactor => some "TESSFACTOR"
  | .positionT => some "POSITIONT"
  | .color => some "COLOR"
  | .fog => some "FOG"
  | .depth => some "DEPTH"
  | .sample => some "SAMPLE"
  | .texture _ => none
  | .unknown _ => none

end Usage

/-- A semantic: its base name and its index. -/
structure Semantic where
  base : String
  index : Nat
deriving DecidableEq, Repr

namespace Semantic

/-- The base name followed by the index; index 0 is not written. -/
def text (s : Semantic) : String :=
  if s.index = 0 then s.base else s.base ++ toString s.index

/-- The variable name for a semantic: its text in lower case. -/
def variableName (s : Semantic) : String :=
  String.ofList (s.text.toList.map Char.toLower)

end Semantic

end ShaderAssembly
