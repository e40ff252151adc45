import ShaderAssembly.Machine.Arithmetic

namespace ShaderAssembly

/-- The value that operands read from a register with the constant. -/
def Definition.value : Definition → Value
  | .float words => words.floats
  | .int v => v.map Binary32.ofInt32
  | .bool b => Vec4.replicate (if b then 1.0 else 0.0)

/-- The register that a definition under this number gives its value. Only the number counts: the
value goes to the register file for its type. -/
def Definition.register (number : UInt32) : Definition → Register
  | .float _ => ⟨.const, number⟩
  | .int _ => ⟨.constInt, number⟩
  | .bool _ => ⟨.constBool, number⟩

/-- The number of immediates that a defining operation takes. -/
def Opcode.wordCount : Opcode → Nat
  | .defFloat | .defInt => 4
  | .defBool => 1
  | _ => 0

private theorem Vec4.isSome_ofList?_iff {l : List α} :
    (ofList? l).isSome = true ↔ 4 ≤ l.length := by
  unfold ofList?
  split
  next => simp
  next h =>
    obtain _ | ⟨a, _ | ⟨b, _ | ⟨c, _ | ⟨d, rest⟩⟩⟩⟩ := l
    · simp
    · simp
    · simp
    · simp
    · exact absurd rfl (h a b c d rest)

namespace Instruction

/-- A defining instruction defines a constant when it has the words for it. -/
theorem isSome_definition?_iff {i : Instruction} (hop : i.opcode.isDefinition = true) :
    i.definition?.isSome = true ↔ i.opcode.wordCount ≤ i.immediates.length := by
  unfold Opcode.isDefinition at hop
  split at hop
  next heq =>
    simp [definition?, heq, floatWords?, Vec4.isSome_ofList?_iff, Opcode.wordCount]
  next heq =>
    simp [definition?, heq, intLiterals?, Vec4.isSome_ofList?_iff, Opcode.wordCount]
  next heq =>
    simp [definition?, heq, boolLiteral?, Nat.one_le_iff_ne_zero, Opcode.wordCount]
  next => cases hop

/-- The constant that an instruction defines in the register `r`. -/
def constant? (i : Instruction) (r : Register) : Option Definition :=
  match i.destination?, i.definition? with
  | some d, some value => if value.register d.register.number = r then some value else none
  | _, _ => none

theorem constant?_eq_none {i : Instruction} (hdef : i.definition? = none) (r : Register) :
    i.constant? r = none := by
  unfold constant?
  rw [hdef]
  cases i.destination? <;> rfl

/-- Only a defining instruction defines a constant. -/
theorem isDefinition_of_definition? {i : Instruction} {value : Definition}
    (hdef : i.definition? = some value) : i.opcode.isDefinition = true := by
  unfold definition? at hdef
  unfold Opcode.isDefinition
  split at hdef <;> simp_all

theorem definition?_eq_none {i : Instruction} (hop : i.opcode.isDefinition = false) :
    i.definition? = none := by
  cases hdef : i.definition? with
  | none => rfl
  | some value =>
    rw [isDefinition_of_definition? hdef] at hop
    cases hop

end Instruction

/-- The first constant that a program defines in a register. -/
def firstConstant? (program : List Instruction) (r : Register) : Option Definition :=
  program.findSome? (·.constant? r)

/-- The last constant that a program defines in a register. -/
def lastConstant? (program : List Instruction) (r : Register) : Option Definition :=
  program.reverse.findSome? (·.constant? r)

theorem lastConstant?_cons (i : Instruction) (rest : List Instruction) (r : Register) :
    lastConstant? (i :: rest) r = (lastConstant? rest r).or (i.constant? r) := by
  rw [lastConstant?, List.reverse_cons, List.findSome?_append, lastConstant?, List.findSome?_cons]
  cases i.constant? r <;> rfl

theorem lastConstant?_filter_isDefinition (program : List Instruction) (r : Register) :
    lastConstant? (program.filter fun i => i.opcode.isDefinition) r = lastConstant? program r := by
  induction program with
  | nil => rfl
  | cons i rest ih =>
    rw [List.filter_cons, lastConstant?_cons]
    cases hop : i.opcode.isDefinition with
    | true => rw [if_pos rfl, lastConstant?_cons, ih]
    | false =>
      rw [Instruction.constant?_eq_none (Instruction.definition?_eq_none hop), Option.or_none]
      exact ih

/-- A register has a last constant in a program when it has a first one. -/
theorem isSome_lastConstant? (program : List Instruction) (r : Register) :
    (lastConstant? program r).isSome = (firstConstant? program r).isSome := by
  rw [Bool.eq_iff_iff, lastConstant?, firstConstant?, List.findSome?_isSome_iff,
    List.findSome?_isSome_iff]
  simp only [List.mem_reverse]

end ShaderAssembly
