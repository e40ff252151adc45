import Mathlib.Tactic.MkIffOfInductiveProp
import ShaderAssembly.Proofs.Machine.Footprint

namespace ShaderAssembly

private theorem exists_bind_eq_ok_iff {x : Except ε α} {f : α → Except ε β} :
    (∃ b, x >>= f = .ok b) ↔ ∃ a, x = .ok a ∧ ∃ b, f a = .ok b := by
  constructor
  · rintro ⟨b, h⟩
    obtain ⟨a, ha, hb⟩ := exists_of_bind_eq_ok h
    exact ⟨a, ha, b, hb⟩
  · rintro ⟨a, rfl, b, hb⟩
    exact ⟨b, hb⟩

private theorem exists_mapM_eq_ok_iff {f : α → Except ε β} {as : List α} :
    (∃ bs, as.mapM f = .ok bs) ↔ ∀ a ∈ as, ∃ b, f a = .ok b := by
  induction as with
  | nil => simp [pure, Except.pure]
  | cons a as ih =>
    rw [List.mapM_cons, exists_bind_eq_ok_iff, List.forall_mem_cons, ← ih]
    constructor
    · rintro ⟨b, hb, h⟩
      obtain ⟨bs, hbs, _⟩ := exists_bind_eq_ok_iff.1 h
      exact ⟨⟨b, hb⟩, bs, hbs⟩
    · rintro ⟨⟨b, hb⟩, bs, hbs⟩
      exact ⟨b, hb, exists_bind_eq_ok_iff.2 ⟨bs, hbs, _, rfl⟩⟩

/-- Whether the modifier is arithmetic on the value read. -/
def Modifier.isArithmetic : Modifier → Bool
  | .not | .unknown _ => false
  | _ => true

theorem Modifier.exists_arithmetic_iff {m : Modifier} :
    (∃ f, m.arithmetic = .ok f) ↔ m.isArithmetic = true := by
  cases m <;> simp [arithmetic, isArithmetic]

/-- Whether the shift is one that has a factor. -/
def ResultShift.isKnown : ResultShift → Bool
  | .unknown _ => false
  | _ => true

theorem ResultShift.exists_factor_iff {s : ResultShift} :
    (∃ factor, s.factor = .ok factor) ↔ s.isKnown = true := by
  cases s <;> simp [factor, isKnown]

theorem Source.exists_fetch_iff {src : Source} {r : Register} :
    (∃ f, src.fetch r = .ok f) ↔ src.modifier.isArithmetic = true := by
  rw [← Modifier.exists_arithmetic_iff, fetch, exists_bind_eq_ok_iff]
  simp [pure, Except.pure]

namespace Opcode

/-- Whether the operation does nothing but go on or stop. -/
def isIdle : Opcode → Bool
  | .nop | .dcl | .comment | .endMark | .ret => true
  | _ => false

/-- Whether the machine knows the operation. -/
def isSupported (o : Opcode) : Bool := o.isIdle || o.isDefinition || decide (0 < o.sourceCount)

end Opcode

namespace Instruction

variable {i : Instruction} {n : Nat} {d : Destination}

/-- The instruction has a source operand with `n` before it, and its modifier is arithmetic. -/
def Readable (i : Instruction) (n : Nat) : Prop :=
  ∃ src ∈ i.source? n, src.modifier.isArithmetic = true

/-- The last line of the matrix of a matrix product has a register number. -/
def MatrixInRange (i : Instruction) : Prop :=
  ∀ shape ∈ i.opcode.matrixShape?, ∀ matrix ∈ i.source? 1,
    matrix.register.number.toNat + (shape.2 - 1) ≤ 0xFFFFFFFF

/-- What it takes to execute an instruction, by the sort of its operation. -/
@[mk_iff]
inductive Executable (i : Instruction) : Prop
  | idle (hop : i.opcode.isIdle = true)
  | define (hop : i.opcode.isDefinition = true) (hdest : i.destination?.isSome = true)
      (hwords : i.opcode.wordCount ≤ i.immediates.length)
  | compute (hop : 0 < i.opcode.sourceCount) (hsources : ∀ n < i.opcode.sourceCount, i.Readable n)
      (hmatrix : i.MatrixInRange) (hdest : i.destination?.isSome = true)
      (hshift : i.result.shift.isKnown = true)

instance (i : Instruction) (n : Nat) : Decidable (i.Readable n) :=
  inferInstanceAs (Decidable (∃ src ∈ _, _))

instance (i : Instruction) : Decidable i.MatrixInRange :=
  inferInstanceAs (Decidable (∀ shape ∈ _, ∀ matrix ∈ _, _))

instance (i : Instruction) : Decidable i.Executable := decidable_of_iff' _ i.executable_iff

theorem exists_fetch_iff : (∃ a, i.fetch n = .ok a) ↔ i.Readable n := by
  rw [fetch, exists_bind_eq_ok_iff, Readable]
  simp only [Source.exists_fetch_iff]
  unfold operand
  cases i.source? n <;> simp

theorem exists_matrixLine_iff {src : Source} {k : Nat} :
    (∃ line, i.matrixLine src k = .ok line) ↔
      src.register.number.toNat + k ≤ 0xFFFFFFFF ∧ src.modifier.isArithmetic = true := by
  rw [← Source.exists_fetch_iff (r := src.register.after k), ← Nat.lt_succ_iff]
  simp only [matrixLine]
  split
  next hk => simp [hk, Register.after]
  next hk => simp [hk]

/-- A matrix product has a formula when both operands can be read and the matrix has its last
line. -/
theorem exists_matrix_iff {rows columns : Nat}
    (hshape : i.opcode.matrixShape? = some (rows, columns)) (hdest : i.destination? = some d) :
    (∃ formula, i.matrix rows columns = .ok formula) ↔
      i.Readable 0 ∧ i.Readable 1 ∧ i.MatrixInRange := by
  have hcolumns := (Opcode.bounds_of_matrixShape? hshape).2
  have htarget := target_of_destination? hdest
  simp only [Instruction.matrix, exists_bind_eq_ok_iff]
  constructor
  · rintro ⟨vector, hvector, base, hbase, _, _, lines, hlines, _⟩
    have hbase := source?_of_operand hbase
    have hline := exists_mapM_eq_ok_iff.1 ⟨lines, hlines⟩ (columns - 1)
      (List.mem_range.2 (by omega))
    obtain ⟨hrange, hmodifier⟩ := exists_matrixLine_iff.1 hline
    refine ⟨exists_fetch_iff.1 ⟨vector, hvector⟩, ⟨base, hbase, hmodifier⟩, ?_⟩
    intro shape hshape' matrix hmatrix
    rw [hshape] at hshape'
    rw [hbase] at hmatrix
    cases hshape'
    cases hmatrix
    exact hrange
  · rintro ⟨hvector, ⟨base, hbase, hmodifier⟩, hrange⟩
    obtain ⟨vector, hvector⟩ := exists_fetch_iff.2 hvector
    have hoperand : i.operand 1 = .ok base := by
      rw [operand, Option.mem_def.1 hbase]
    have hlast := hrange _ hshape base hbase
    have hlines : ∃ lines, (List.range columns).mapM (i.matrixLine base) = .ok lines := by
      rw [exists_mapM_eq_ok_iff]
      intro k hk
      rw [List.mem_range] at hk
      exact exists_matrixLine_iff.2 ⟨by simp only at hlast; omega, hmodifier⟩
    obtain ⟨lines, hlines⟩ := hlines
    exact ⟨vector, hvector, base, hoperand, d, htarget, lines, hlines, _, rfl⟩

/-- An operation that takes no source operands has no formula. -/
theorem formula_of_sourceCount_eq_zero (hcount : i.opcode.sourceCount = 0) :
    i.formula = .error (.unsupportedOpcode i.opcode) := by
  rw [Instruction.formula]
  cases hop : i.opcode.operation? with
  | none => rfl
  | some op =>
    rw [Opcode.sourceCount_of_operation? hop] at hcount
    cases op <;> cases hcount

private theorem exists_operation?_of_sourceCount_pos {opcode : Opcode}
    (hcount : 0 < opcode.sourceCount) : ∃ op, opcode.operation? = some op := by
  unfold Opcode.sourceCount at hcount
  split at hcount <;> first | exact ⟨_, rfl⟩ | cases hcount

/-- An operation that takes source operands has a formula when it can read them. -/
theorem exists_formula_iff (hdest : i.destination? = some d) (hcount : 0 < i.opcode.sourceCount) :
    (∃ formula, i.formula = .ok formula) ↔
      (∀ n < i.opcode.sourceCount, i.Readable n) ∧ i.MatrixInRange := by
  have hunary : (∀ n < 1, i.Readable n) ↔ i.Readable 0 := by
    simp only [Nat.forall_lt_succ_right, Nat.not_lt_zero, false_implies, implies_true, true_and]
  have hbinary : (∀ n < 2, i.Readable n) ↔ i.Readable 0 ∧ i.Readable 1 := by
    rw [Nat.forall_lt_succ_right, hunary]
  have hternary : (∀ n < 3, i.Readable n) ↔ i.Readable 0 ∧ i.Readable 1 ∧ i.Readable 2 := by
    rw [Nat.forall_lt_succ_right, hbinary, and_assoc]
  have htarget := target_of_destination? hdest
  obtain ⟨op, hop⟩ := exists_operation?_of_sourceCount_pos hcount
  rw [Opcode.sourceCount_of_operation? hop]
  cases hshape : i.opcode.matrixShape? with
  | some shape =>
    cases (Opcode.operation?_of_matrixShape? hshape).symm.trans hop
    rw [formula_of_matrixShape? hshape, exists_matrix_iff hshape hdest, Operation.sourceCount,
      hbinary, and_assoc]
  | none =>
    have hmatrix : i.MatrixInRange := by simp [MatrixInRange, hshape]
    simp only [hmatrix, and_true, Instruction.formula, hop]
    cases op with
    | unary f =>
      rw [Operation.sourceCount, hunary]
      simp only [exists_bind_eq_ok_iff, ← exists_fetch_iff]
      simp [pure, Except.pure]
    | binary f =>
      rw [Operation.sourceCount, hbinary]
      simp only [exists_bind_eq_ok_iff, ← exists_fetch_iff]
      simp [pure, Except.pure]
    | ternary f =>
      rw [Operation.sourceCount, hternary]
      simp only [exists_bind_eq_ok_iff, ← exists_fetch_iff]
      simp [pure, Except.pure]
    | unaryOnto f =>
      rw [Operation.sourceCount, hunary]
      simp only [exists_bind_eq_ok_iff, ← exists_fetch_iff, htarget]
      simp [pure, Except.pure]
    | binaryOnto f =>
      rw [Operation.sourceCount, hbinary]
      simp only [exists_bind_eq_ok_iff, ← exists_fetch_iff, htarget]
      simp [pure, Except.pure]
    | matrix rows columns =>
      rw [Opcode.matrixShape?_of_operation? hop] at hshape
      cases hshape

theorem exists_effect_of_isIdle (hop : i.opcode.isIdle = true) : ∃ e, i.effect = .ok e := by
  unfold Opcode.isIdle at hop
  split at hop <;> simp_all [effect]

theorem effect_of_definition? {value : Definition} (hdest : i.destination? = some d)
    (hdef : i.definition? = some value) :
    i.effect = .ok (.define d.register.number value) := by
  have htarget := target_of_destination? hdest
  have hop := isDefinition_of_definition? hdef
  unfold Opcode.isDefinition at hop
  split at hop
  case h_4 => cases hop
  all_goals
    simp only [effect, *]
    rfl

/-- An instruction has an effect when it can be executed. -/
theorem exists_effect_iff : (∃ e, i.effect = .ok e) ↔ i.Executable := by
  constructor
  · rintro ⟨e, heffect⟩
    cases executes_of_effect heffect with
    | skip hop =>
      apply Executable.idle
      obtain hop | hop | hop := hop <;> rw [hop] <;> rfl
    | stop hop =>
      apply Executable.idle
      obtain hop | hop := hop <;> rw [hop] <;> rfl
    | define d value hdest hdef =>
      have hop := isDefinition_of_definition? hdef
      apply Executable.define hop
      · rw [hdest]; rfl
      · rw [← isSome_definition?_iff hop, hdef]; rfl
    | compute formula d factor hformula hdest hfactor =>
      have hcount : 0 < i.opcode.sourceCount := by
        apply Nat.pos_of_ne_zero
        intro hzero
        rw [formula_of_sourceCount_eq_zero hzero] at hformula
        cases hformula
      obtain ⟨hsources, hmatrix⟩ := (exists_formula_iff hdest hcount).1 ⟨formula, hformula⟩
      apply Executable.compute hcount hsources hmatrix
      · rw [hdest]; rfl
      · exact ResultShift.exists_factor_iff.1 ⟨factor, hfactor⟩
  · rintro (hop | ⟨hop, hdest, hwords⟩ | ⟨hop, hsources, hmatrix, hdest, hshift⟩)
    · exact exists_effect_of_isIdle hop
    · obtain ⟨d, hdest⟩ := Option.isSome_iff_exists.1 hdest
      obtain ⟨value, hdef⟩ := Option.isSome_iff_exists.1 ((isSome_definition?_iff hop).2 hwords)
      exact ⟨_, effect_of_definition? hdest hdef⟩
    · obtain ⟨d, hdest⟩ := Option.isSome_iff_exists.1 hdest
      obtain ⟨formula, hformula⟩ := (exists_formula_iff hdest hop).2 ⟨hsources, hmatrix⟩
      obtain ⟨factor, hfactor⟩ := ResultShift.exists_factor_iff.2 hshift
      exact ⟨_, effect_of_formula hformula hdest hfactor⟩

/-- An operation that the machine does not know is refused before any operand is looked at. -/
theorem effect_of_isSupported_eq_false (hop : i.opcode.isSupported = false) :
    i.effect = .error (.unsupportedOpcode i.opcode) := by
  simp only [Opcode.isSupported, Bool.or_eq_false_iff, decide_eq_false_iff_not] at hop
  obtain ⟨⟨hidle, hdefinition⟩, hcount⟩ := hop
  have hcomputes : i.opcode.computes = true := by
    unfold Opcode.computes
    split <;> simp_all [Opcode.isIdle, Opcode.isDefinition]
  rw [effect_of_computes hcomputes, formula_of_sourceCount_eq_zero (by omega)]
  rfl

end Instruction

namespace Machine

/-- Whether a step succeeds is a property of the instruction alone: it succeeds on every machine
when the instruction is executable, and on none otherwise. An operation that the machine does not
know is refused with every list of operands. -/
theorem step_ok_iff (m : Machine) (i : Instruction) :
    ((∃ flow, (m.step i).2 = .ok flow) ↔ i.Executable) ∧
      (i.opcode.isSupported = false →
        m.step i = (m, .error (.unsupportedOpcode i.opcode))) := by
  refine ⟨?_, fun hop => step_of_effect_error (Instruction.effect_of_isSupported_eq_false hop)⟩
  rw [← Instruction.exists_effect_iff]
  constructor
  · rintro ⟨flow, hstep⟩
    exact exists_effect_of_step hstep
  · rintro ⟨e, heffect⟩
    exact ⟨(m.perform e).2, by rw [step_of_effect heffect]⟩

/-- The same operands, with one that is not needed and could not be read, for three operations. The
third line of the matrix is in the last register, and there is no fourth. -/
theorem step_ok_iff_last_line :
    let i (opcode : Opcode) : Instruction :=
      { opcode
        operands := [.destination ⟨⟨.temp, 0⟩, Mask.full⟩, .source { register := ⟨.input, 0⟩ },
          .source { register := ⟨.const, 0xFFFFFFFD⟩ },
          .source { register := ⟨.temp, 1⟩, modifier := .not }] }
    (∃ flow, (empty.step (i .m4x3)).2 = .ok flow) ∧
      (¬ ∃ flow, (empty.step (i .m4x4)).2 = .ok flow) ∧
      empty.step (i .texld) = (empty, .error (.unsupportedOpcode .texld)) := by
  intro i
  refine ⟨(step_ok_iff empty (i .m4x3)).1.2 (by decide), ?_, (step_ok_iff empty (i .texld)).2 rfl⟩
  rw [(step_ok_iff empty (i .m4x4)).1]
  decide

end Machine

end ShaderAssembly
