import ShaderAssembly.Proofs.Machine.Step
import ShaderAssembly.Proofs.Rendering.SourceText
import ShaderAssembly.Proofs.Symbols.Constants

namespace ShaderAssembly

/-- Whether registers of the kind are float constants. -/
def RegisterKind.isFloatConstant : RegisterKind → Bool
  | .const | .const2 | .const3 | .const4 => true
  | _ => false

theorem RegisterKind.isConstant_of_isFloatConstant {k : RegisterKind}
    (h : k.isFloatConstant = true) : k.isConstant = true := by
  cases k <;> simp_all [isFloatConstant, isConstant]

namespace Instruction

variable {i : Instruction} {r : Register} {n : UInt32} {v : Vec4 Float32}

/-- The instruction is a definition of a float constant that names the register for it. -/
def DefinesFloat (i : Instruction) (r : Register) : Prop :=
  i.opcode = .defFloat ∧ ∃ d, i.destination? = some d ∧ d.register = r

theorem exists_definesFloat (hdef : i.floatDefinition? n = some v) :
    ∃ r, i.DefinesFloat r ∧ r.number = n := by
  unfold floatDefinition? at hdef
  split at hdef
  next d u hdest hvalue =>
    split at hdef
    next hnumber =>
      refine ⟨d.register, ⟨?_, d, hdest, rfl⟩, hnumber⟩
      unfold definition? at hvalue
      split at hvalue <;> simp_all
    next => cases hdef
  next => cases hdef

/-- A definition that can be taken in has the words for its constant. -/
theorem isSome_floatDefinition? (hdefines : i.DefinesFloat r) {s next : Symbols}
    (hingest : s.ingest i = (next, .ok ())) : (i.floatDefinition? r.number).isSome = true := by
  obtain ⟨hop, d, hdest, rfl⟩ := hdefines
  rw [Symbols.ingest_of_isDefinition hdest (by rw [hop]; rfl)] at hingest
  unfold floatDefinition?
  rw [hdest]
  unfold definition? at hingest ⊢
  simp only [hop] at hingest ⊢
  cases hwords : i.floatWords? with
  | none => simp [hwords] at hingest
  | some v => simp

/-- A copy of the whole register `r`. -/
def copy (r : Register) : Instruction where
  opcode := .mov
  operands := [.destination ⟨⟨.temp, 0⟩, Mask.full⟩, .source { register := r }]

end Instruction

namespace Symbols

variable {table : ConstantTable} {order : MatrixOrder} {program : List Instruction} {s : Symbols}
  {i : Instruction} {n : Nat} {src : Source} {r : Register}

/-- An operand that reads a float constant is a literal when there is a definition under its number,
the modifier folds and the instruction writes something. -/
theorem exists_literal_iff (hsrc : i.source? n = some src)
    (hkind : src.register.kind.isFloatConstant = true) :
    (∃ text, s.resolveSource i n = .ok (.literal text)) ↔
      (s.float? src.register.number).isSome = true ∧ src.modifier.foldsFloat = true ∧
        1 ≤ i.renderedWidth := by
  have hconstant := RegisterKind.isConstant_of_isFloatConstant hkind
  have hliteral : s.literal? src.register = (s.floatWords? src.register.number).map .float := by
    unfold literal?
    split <;> simp_all [RegisterKind.isFloatConstant]
  have hresolve : s.resolveSource i n = s.sourceText i src := by rw [resolveSource, hsrc]
  simp only [hresolve, sourceText_eq_literal_iff hconstant, hliteral, float?, Option.isSome_map]
  cases s.floatWords? src.register.number with
  | none => simp
  | some words =>
    have hwidth : 1 ≤ i.renderedWidth ↔ ¬ i.WritesNothing := by
      rw [Nat.one_le_iff_ne_zero, ne_eq, Instruction.renderedWidth_eq_zero_iff]
    simp [Instruction.exists_literalText_iff, Modifier.folds, Definition.isVector, hwidth]

/-- A float constant is in effect under a number when some definition of the program names a
register with it. -/
theorem isSome_float?_load_iff (hload : load table program order = .ok s) {number : UInt32} :
    (s.float? number).isSome = true ↔
      ∃ j ∈ program, ∃ q, j.DefinesFloat q ∧ q.number = number := by
  rw [float?_load hload, List.findSome?_isSome_iff]
  constructor
  · rintro ⟨j, hj, hdefined⟩
    obtain ⟨v, hv⟩ := Option.isSome_iff_exists.1 hdefined
    exact ⟨j, hj, Instruction.exists_definesFloat hv⟩
  · rintro ⟨j, hj, q, hdefines, rfl⟩
    obtain ⟨start, _, hrun⟩ := load_eq_ok_iff.1 hload
    obtain ⟨u, next, hingest⟩ := exists_ingest_of_mem hrun hj
    exact ⟨j, hj, Instruction.isSome_floatDefinition? hdefines hingest⟩

/-- Operands that read a float constant become literals only by definitions of that register itself
just when there is a definition of it, if there is any of a register with its number. Otherwise the
literal belongs to another register, perhaps of another file. -/
theorem literals_of_own_definition_iff (hload : load table program order = .ok s)
    (hkind : r.kind.isFloatConstant = true) :
    (∀ i n src text, i.source? n = some src → src.register = r →
        s.resolveSource i n = .ok (.literal text) → ∃ j ∈ program, j.DefinesFloat r) ↔
      ((∃ j ∈ program, ∃ q, j.DefinesFloat q ∧ q.number = r.number) →
        ∃ j ∈ program, j.DefinesFloat r) := by
  rw [← isSome_float?_load_iff hload]
  constructor
  · intro hlaw hdefined
    have hsrc : (Instruction.copy r).source? 0 = some { register := r } := rfl
    obtain ⟨text, htext⟩ := (exists_literal_iff hsrc hkind).2
      ⟨hdefined, rfl, (by decide : 1 ≤ Mask.full.size)⟩
    exact hlaw _ 0 _ text hsrc rfl htext
  · intro hown i n src text hsrc hr hliteral
    subst hr
    exact hown ((exists_literal_iff hsrc hkind).1 ⟨text, hliteral⟩).1

theorem literals_of_own_definition_iff_two_files :
    let words : Vec4 UInt32 := Vec4.replicate 0x3F800000
    let r : Register := ⟨.const2, 0⟩
    let program := [Instruction.defineFloat ⟨.const, 0⟩ words, Instruction.defineFloat r words]
    ∃ s, load ⟨[]⟩ program .columnMajor = .ok s ∧
      ∀ i n src text, i.source? n = some src → src.register = r →
        s.resolveSource i n = .ok (.literal text) → ∃ j ∈ program, j.DefinesFloat r := by
  intro words r program
  have hload : load ⟨[]⟩ program .columnMajor = .ok _ := rfl
  refine ⟨_, hload, (literals_of_own_definition_iff hload rfl).2 ?_⟩
  intro _
  exact ⟨Instruction.defineFloat r words, by simp [program], rfl, ⟨r, Mask.full⟩, rfl, rfl⟩

/-- A definition of the first float constant is a literal for the first register of the second file,
and the other way round. On the machine a definition of the first leaves the second as it was. -/
theorem literal_of_other_register :
    let words : Vec4 UInt32 := Vec4.replicate 0x3F800000
    let c0 : Register := ⟨.const, 0⟩
    let c2048 : Register := ⟨.const2, 0⟩
    let program (r : Register) := [Instruction.defineFloat r words]
    ∃ s t, load ⟨[]⟩ (program c0) .columnMajor = .ok s ∧
      load ⟨[]⟩ (program c2048) .columnMajor = .ok t ∧
      s.resolveSource (Instruction.copy c2048) 0 = .ok (.literal "1") ∧
      (¬ ∃ j ∈ program c0, j.DefinesFloat c2048) ∧
      t.resolveSource (Instruction.copy c0) 0 = .ok (.literal "1") ∧
      (¬ ∃ j ∈ program c2048, j.DefinesFloat c0) ∧
      c0.positionalName ≠ c2048.positionalName ∧
      (Machine.empty.run (program c0)).1.register c2048 = Value.zero := by
  intro words c0 c2048 program
  have hother : ∀ {r q : Register}, r ≠ q → ¬ ∃ j ∈ program r, j.DefinesFloat q := by
    rintro r q hne ⟨j, hj, _, d, hdest, hd⟩
    obtain rfl := List.mem_singleton.1 hj
    cases hdest
    exact hne hd
  refine ⟨_, _, rfl, rfl, ?_, hother (by decide), ?_, hother (by decide), by decide, ?_⟩
  · decide +kernel
  · decide +kernel
  · decide +kernel

end Symbols

end ShaderAssembly
