import Std.Data.ExtTreeMap

namespace ShaderAssembly

/-- The two programmable stages. They read two of the register codes differently. -/
inductive Stage where
  | vertex
  | pixel
deriving DecidableEq, Repr

/-- The register files of shader models 1 to 3. -/
inductive RegisterKind where
  | temp
  | input
  | const
  | address
  | texture
  | rastOut
  | attrOut
  | output
  | constInt
  | colorOut
  | depthOut
  | sampler
  | const2
  | const3
  | const4
  | constBool
  | loop
  | tempFloat16
  | misc
  | label
  | predicate
  | unknown (code : UInt8)
deriving DecidableEq, Repr, Inhabited

namespace RegisterKind

/-- The kind of a register code. Code 3 is an address register in the vertex stage and a texture
register in the pixel stage; code 8 is a generic output in the one and a colour output in the
other. -/
def ofToken (raw : UInt8) (stage : Stage) : RegisterKind :=
  match raw.toNat with
  | 0 => .temp
  | 1 => .input
  | 2 => .const
  | 3 => match stage with
    | .vertex => .address
    | .pixel => .texture
  | 4 => .rastOut
  | 5 => .attrOut
  | 6 => .output
  | 7 => .constInt
  | 8 => match stage with
    | .vertex => .output
    | .pixel => .colorOut
  | 9 => .depthOut
  | 10 => .sampler
  | 11 => .const2
  | 12 => .const3
  | 13 => .const4
  | 14 => .constBool
  | 15 => .loop
  | 16 => .tempFloat16
  | 17 => .misc
  | 18 => .label
  | 19 => .predicate
  | _ => .unknown raw

/-- The name of the kind in messages. -/
def name : RegisterKind → String
  | .temp => "Temp"
  | .input => "Input"
  | .const => "Const"
  | .address => "Addr"
  | .texture => "Texture"
  | .rastOut => "RastOut"
  | .attrOut => "AttrOut"
  | .output => "Output"
  | .constInt => "ConstInt"
  | .colorOut => "ColorOut"
  | .depthOut => "DepthOut"
  | .sampler => "Sampler"
  | .const2 => "Const2"
  | .const3 => "Const3"
  | .const4 => "Const4"
  | .constBool => "ConstBool"
  | .loop => "Loop"
  | .tempFloat16 => "TempFloat16"
  | .misc => "MiscType"
  | .label => "Label"
  | .predicate => "Predicate"
  | .unknown _ => "Unknown"

/-- The letters in front of the number in assembly text. -/
def stem : RegisterKind → String
  | .temp => "r"
  | .input => "v"
  | .const | .const2 | .const3 | .const4 => "c"
  | .address => "a"
  | .texture => "t"
  | .rastOut => "oPos"
  | .attrOut => "oD"
  | .output => "o"
  | .constInt => "i"
  | .colorOut => "oC"
  | .depthOut => "oDepth"
  | .sampler => "s"
  | .constBool => "b"
  | .loop => "aL"
  | .tempFloat16 => "half"
  | .misc => "misc"
  | .label => "l"
  | .predicate => "p"
  | .unknown _ => "?"

/-- Whether registers of the kind hold constants of the shader. -/
def isConstant : RegisterKind → Bool
  | .const | .const2 | .const3 | .const4 | .constBool | .constInt => true
  | _ => false

/-- Whether registers of the kind are results of the shader. -/
def isOutput : RegisterKind → Bool
  | .output | .colorOut | .attrOut | .rastOut => true
  | _ => false

/-- The place of the kind in the order. Unknown kinds come last, by their code. -/
def rank : RegisterKind → Nat
  | .temp => 0
  | .input => 1
  | .const => 2
  | .address => 3
  | .texture => 4
  | .rastOut => 5
  | .attrOut => 6
  | .output => 7
  | .constInt => 8
  | .colorOut => 9
  | .depthOut => 10
  | .sampler => 11
  | .const2 => 12
  | .const3 => 13
  | .const4 => 14
  | .constBool => 15
  | .loop => 16
  | .tempFloat16 => 17
  | .misc => 18
  | .label => 19
  | .predicate => 20
  | .unknown code => 21 + code.toNat

/-- No two kinds share a place. -/
theorem rank_injective {k l : RegisterKind} (h : k.rank = l.rank) : k = l := by
  cases k <;> cases l <;> simp_all [rank, UInt8.toNat_inj] <;> omega

end RegisterKind

/-- A register is its kind and its number. -/
structure Register where
  kind : RegisterKind
  number : UInt32
deriving DecidableEq, Repr, Inhabited

namespace Register

/-- The order of registers: by kind, then by number. -/
instance : Ord Register where
  compare := compareLex (compareOn fun r => r.kind.rank) (compareOn fun r => r.number.toNat)

instance : Std.TransOrd Register :=
  inferInstanceAs (Std.TransCmp
    (compareLex (compareOn fun r : Register => r.kind.rank) (compareOn fun r => r.number.toNat)))

/-- Registers that compare equal are equal. -/
instance : Std.LawfulEqOrd Register where
  eq_of_compare {a b} h := by
    obtain ⟨hrank, hnumber⟩ := compareLex_eq_eq.1 h
    have hkind := RegisterKind.rank_injective (Std.LawfulEqOrd.eq_of_compare hrank)
    have hnumber := UInt32.toNat.inj (Std.LawfulEqOrd.eq_of_compare hnumber)
    cases a
    cases b
    simp_all

/-- The assembly name of a register. The four constant files share one row of numbers: the second
starts at 2048, the third at 4096 and the fourth at 6144. Places in the row are 32-bit numbers. -/
def positionalName (r : Register) : String :=
  let n := r.number.toNat
  match r.kind, n with
  | .rastOut, 0 => "oPos"
  | .rastOut, 1 => "oFog"
  | .rastOut, 2 => "oPts"
  | .depthOut, 0 => "oDepth"
  | .loop, 0 => "aL"
  | .misc, 0 => "vFace"
  | .misc, 1 => "vPos"
  | .const2, _ => "c" ++ toString (r.number + 2048).toNat
  | .const3, _ => "c" ++ toString (r.number + 4096).toNat
  | .const4, _ => "c" ++ toString (r.number + 6144).toNat
  | kind, _ => kind.stem ++ toString n

end Register

/-- A finite map from registers, listed in register order. Maps with the same look-ups are equal. -/
abbrev RegisterMap (α : Type u) := Std.ExtTreeMap Register α

/-- A finite map from the numbers of one register file. -/
abbrev NumberMap (α : Type u) := Std.ExtTreeMap UInt32 α

end ShaderAssembly
