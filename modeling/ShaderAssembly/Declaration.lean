import ShaderAssembly.Instruction

namespace ShaderAssembly

/-- The type of a declared register: a float vector of one to four components. -/
inductive ElementType where
  | float
  | float2
  | float3
  | float4
deriving DecidableEq, Repr

namespace ElementType

/-- The type with this number of components. -/
def ofWidth? : Nat → Option ElementType
  | 1 => some .float
  | 2 => some .float2
  | 3 => some .float3
  | 4 => some .float4
  | _ => none

/-- The number of components. -/
def width : ElementType → Nat
  | .float => 1
  | .float2 => 2
  | .float3 => 3
  | .float4 => 4

/-- The name of the type in shading text. -/
def name : ElementType → String
  | .float => "float"
  | .float2 => "float2"
  | .float3 => "float3"
  | .float4 => "float4"

end ElementType

/-- What a register stands for in shading text. -/
structure Declaration where
  register : Register
  semantic : Option Semantic
  type : ElementType
deriving DecidableEq, Repr

namespace Declaration

/-- The variable that stands for the register: named for the semantic, or for the position of a
register without one. -/
def name (d : Declaration) : String :=
  match d.semantic with
  | some s => s.variableName
  | none => d.register.positionalName

/-- The semantic that the fixed pipeline implies for an output or texture register. -/
def impliedSemantic? (r : Register) : Option Semantic :=
  let n := r.number.toNat
  match r.kind, n with
  | .colorOut, _ | .attrOut, _ => some ⟨"COLOR", n⟩
  | .rastOut, 0 => some ⟨"POSITION", 0⟩
  | .rastOut, 1 => some ⟨"FOG", 0⟩
  | .rastOut, 2 => some ⟨"PSIZE", 0⟩
  | .output, _ | .texture, _ => some ⟨"TEXCOORD", n⟩
  | .depthOut, _ => some ⟨"DEPTH", 0⟩
  | _, _ => none

/-- The declaration of a register that no instruction declares: all four components, with the
implied semantic. -/
def implicit (r : Register) : Declaration := ⟨r, impliedSemantic? r, .float4⟩

/-- The semantic that an instruction declares for its destination `r`. The two miscellaneous
registers have fixed ones, and samplers have none. -/
def declaredSemantic? (usage : Option UsageInfo) (r : Register) : Option Semantic :=
  match r.kind, r.number.toNat with
  | .misc, 0 => some ⟨"VFACE", 0⟩
  | .misc, 1 => some ⟨"VPOS", 0⟩
  | .misc, _ => none
  | .sampler, _ => none
  | _, _ => do
    let info ← usage
    let base ← info.usage.semantic?
    return ⟨base, info.index.toNat⟩

/-- The declaration of `d` by an instruction with this usage. An empty mask declares all four
components. -/
def ofDestination (usage : Option UsageInfo) (d : Destination) : Declaration :=
  ⟨d.register, declaredSemantic? usage d.register,
    (ElementType.ofWidth? d.mask.size).getD .float4⟩

/-- The declaration that an instruction makes of its destination. -/
def ofInstruction? (i : Instruction) : Option Declaration :=
  i.destination?.map (ofDestination i.usage)

@[simp] theorem register_ofDestination (usage : Option UsageInfo) (d : Destination) :
    (ofDestination usage d).register = d.register := rfl

end Declaration

end ShaderAssembly
