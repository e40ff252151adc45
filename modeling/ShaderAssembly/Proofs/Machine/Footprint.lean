import ShaderAssembly.Proofs.Machine.Frame
import ShaderAssembly.Proofs.Machine.MatrixProduct

namespace ShaderAssembly

/-- The number of source operands that an operation needs. -/
def Opcode.sourceCount : Opcode → Nat
  | .mov | .abs | .frc | .sgn | .rcp | .rsq | .exp | .log | .nrm | .lit | .sincos => 1
  | .add | .sub | .mul | .min | .max | .slt | .sge | .dp3 | .dp4 | .pow | .crs | .dst => 2
  | .m4x4 | .m4x3 | .m3x4 | .m3x3 | .m3x2 => 2
  | .mad | .lrp | .cmp | .dp2add => 3
  | _ => 0

/-- Whether the operation leaves some lanes of its result as the destination has them. -/
def Opcode.keepsLanes : Opcode → Bool
  | .crs | .sincos | .m4x4 | .m4x3 | .m3x4 | .m3x3 | .m3x2 => true
  | _ => false

theorem Opcode.computes_of_sourceCount_pos {op : Opcode} (hcount : 0 < op.sourceCount) :
    op.computes = true := by
  unfold computes
  split <;> first | rfl | cases hcount

/-- The number of source operands that the operation needs. -/
def Operation.sourceCount : Operation → Nat
  | .unary _ | .unaryOnto _ => 1
  | .binary _ | .binaryOnto _ | .matrix _ _ => 2
  | .ternary _ => 3

/-- Whether the operation leaves some lanes of its result as the destination has them. -/
def Operation.keepsLanes : Operation → Bool
  | .unaryOnto _ | .binaryOnto _ | .matrix _ _ => true
  | .unary _ | .binary _ | .ternary _ => false

theorem Opcode.sourceCount_of_operation? {opcode : Opcode} {op : Operation}
    (hop : opcode.operation? = some op) : opcode.sourceCount = op.sourceCount := by
  unfold operation? at hop
  split at hop <;> cases hop <;> rfl

theorem Opcode.keepsLanes_of_operation? {opcode : Opcode} {op : Operation}
    (hop : opcode.operation? = some op) : opcode.keepsLanes = op.keepsLanes := by
  unfold operation? at hop
  split at hop <;> cases hop <;> rfl

theorem Opcode.matrixShape?_of_operation? {opcode : Opcode} {rows columns : Nat}
    (hop : opcode.operation? = some (.matrix rows columns)) :
    opcode.matrixShape? = some (rows, columns) := by
  unfold operation? at hop
  split at hop <;> cases hop <;> rfl

namespace Instruction

/-- The registers that hold the lines of the matrix of a matrix product. -/
def matrixRegisters (i : Instruction) : List Register :=
  match i.opcode.matrixShape?, i.source? 1 with
  | some (_, columns), some matrix => (List.range columns).map matrix.register.after
  | _, _ => []

/-- The destination, if the result takes lanes from it. -/
def keptRegister? (i : Instruction) : Option Register :=
  if i.opcode.keepsLanes then i.destination?.map (·.register) else none

/-- The registers that an instruction reads. The lanes that a write mask leaves out are not read:
they stay where they are. -/
def reads (i : Instruction) : List Register :=
  (i.sources.take i.opcode.sourceCount).map (·.register) ++ i.matrixRegisters ++
    i.keptRegister?.toList

/-- The register that an instruction writes when it is executed. -/
def writtenRegister? (i : Instruction) : Option Register := i.written?.map (·.register)

end Instruction

/-- The registers that a formula reads for a destination. -/
def Formula.reads (target : Register) : Formula → List Register
  | .unary _ a => [a.register]
  | .binary _ a b => [a.register, b.register]
  | .ternary _ a b c => [a.register, b.register, c.register]
  | .unaryOnto _ a => [a.register, target]
  | .binaryOnto _ a b => [a.register, b.register, target]
  | .matrix _ vector lines => vector.register :: target :: lines.map (·.register)

/-- The value of a formula depends on the registers that it reads. -/
theorem Formula.value_congr {m m' : Machine} {formula : Formula} {target : Register}
    (h : ∀ r ∈ formula.reads target, m.register r = m'.register r) :
    formula.value m (m.register target) = formula.value m' (m'.register target) := by
  have hfetch : ∀ a : Fetch, m.register a.register = m'.register a.register →
      a.value m = a.value m' := by
    intro a ha
    rw [Fetch.value, Fetch.value, ha]
  cases formula with
  | unary f a => simp_all [reads, value]
  | binary f a b => simp_all [reads, value]
  | ternary f a b c => simp_all [reads, value]
  | unaryOnto f a => simp_all [reads, value]
  | binaryOnto f a b => simp_all [reads, value]
  | matrix rows vector lines =>
    simp only [reads, List.mem_cons, forall_eq_or_imp, List.forall_mem_map] at h
    obtain ⟨hvector, htarget, hlines⟩ := h
    simp only [value, htarget, hfetch vector hvector]
    congr 1
    apply List.map_congr_left
    intro line hline
    rw [hfetch line (hlines line hline)]

private theorem exists_of_mem_of_mapM_eq_ok {f : α → Except ε β} {as : List α} {bs : List β}
    (h : as.mapM f = .ok bs) {b : β} (hb : b ∈ bs) : ∃ a ∈ as, f a = .ok b := by
  have hmem : .ok b ∈ as.map f := by
    rw [map_eq_of_mapM_eq_ok h]
    exact List.mem_map_of_mem hb
  exact List.mem_map.1 hmem

namespace Instruction

variable {i : Instruction} {d : Destination} {formula : Formula} {n : Nat}

theorem source?_of_operand {src : Source} (hsrc : i.operand n = .ok src) :
    i.source? n = some src := by
  unfold operand at hsrc
  split at hsrc
  next hget =>
    cases hsrc
    exact hget
  next => cases hsrc

/-- An operation reads the registers of the source operands that it needs. -/
private theorem register_mem_reads_of_fetch {a : Fetch} (hfetch : i.fetch n = .ok a)
    (hn : n < i.opcode.sourceCount) : a.register ∈ i.reads := by
  obtain ⟨src, hsrc, hfetch⟩ := exists_of_bind_eq_ok hfetch
  obtain ⟨adjust, _, rfl⟩ := Source.exists_arithmetic_of_fetch hfetch
  have hmem : src ∈ i.sources.take i.opcode.sourceCount := by
    apply List.mem_of_getElem? (i := n)
    rw [List.getElem?_take_of_lt hn]
    exact source?_of_operand hsrc
  simp only [reads, List.mem_append, List.mem_map]
  exact .inl (.inl ⟨src, hmem, rfl⟩)

theorem register_of_matrixLine {base : Source} {k : Nat} {line : Fetch}
    (hline : i.matrixLine base k = .ok line) : line.register = base.register.after k := by
  simp only [matrixLine] at hline
  split at hline
  next =>
    obtain ⟨adjust, _, rfl⟩ := Source.exists_arithmetic_of_fetch hline
    rfl
  next => cases hline

private theorem target_mem_reads (hkeeps : i.opcode.keepsLanes = true)
    (hdest : i.destination? = some d) : d.register ∈ i.reads := by
  simp [reads, keptRegister?, hkeeps, hdest]

private theorem reads_of_matrix {rows columns : Nat}
    (hop : i.opcode.operation? = some (.matrix rows columns)) (hdest : i.destination? = some d)
    (hformula : i.matrix rows columns = .ok formula) :
    ∀ r ∈ formula.reads d.register, r ∈ i.reads := by
  have hcount : i.opcode.sourceCount = 2 := Opcode.sourceCount_of_operation? hop
  have hkeeps : i.opcode.keepsLanes = true := Opcode.keepsLanes_of_operation? hop
  obtain ⟨vector, hvector, hformula⟩ := exists_of_bind_eq_ok hformula
  obtain ⟨base, hbase, hformula⟩ := exists_of_bind_eq_ok hformula
  obtain ⟨_, _, hformula⟩ := exists_of_bind_eq_ok hformula
  obtain ⟨lines, hlines, hformula⟩ := exists_of_bind_eq_ok hformula
  cases hformula
  have hline : ∀ line ∈ lines, line.register ∈ i.reads := by
    intro line hline
    obtain ⟨k, hk, hfetch⟩ := exists_of_mem_of_mapM_eq_ok hlines hline
    have hregister : line.register = base.register.after k := register_of_matrixLine hfetch
    have hmatrix : i.matrixRegisters = (List.range columns).map base.register.after := by
      simp [matrixRegisters, Opcode.matrixShape?_of_operation? hop, source?_of_operand hbase]
    simp only [reads, List.mem_append, hmatrix, hregister]
    exact .inl (.inr (List.mem_map_of_mem hk))
  simp only [Formula.reads, List.mem_cons, forall_eq_or_imp, List.forall_mem_map]
  exact ⟨register_mem_reads_of_fetch hvector (by omega), target_mem_reads hkeeps hdest, hline⟩

/-- What the formula of an instruction reads is what the instruction reads. -/
theorem reads_of_formula (hformula : i.formula = .ok formula) (hdest : i.destination? = some d) :
    ∀ r ∈ formula.reads d.register, r ∈ i.reads := by
  cases hop : i.opcode.operation? with
  | none => simp [Instruction.formula, hop] at hformula
  | some op =>
    have htarget : op.keepsLanes = true → d.register ∈ i.reads := by
      intro hkeeps
      exact target_mem_reads ((Opcode.keepsLanes_of_operation? hop).trans hkeeps) hdest
    simp only [Instruction.formula, hop] at hformula
    cases op with
    | unary f =>
      have hcount : i.opcode.sourceCount = 1 := Opcode.sourceCount_of_operation? hop
      obtain ⟨a, ha, hformula⟩ := exists_of_bind_eq_ok hformula
      cases hformula
      simpa [Formula.reads] using register_mem_reads_of_fetch ha (by omega)
    | binary f =>
      have hcount : i.opcode.sourceCount = 2 := Opcode.sourceCount_of_operation? hop
      obtain ⟨a, ha, hformula⟩ := exists_of_bind_eq_ok hformula
      obtain ⟨b, hb, hformula⟩ := exists_of_bind_eq_ok hformula
      cases hformula
      have ha := register_mem_reads_of_fetch ha (by omega)
      have hb := register_mem_reads_of_fetch hb (by omega)
      simpa [Formula.reads] using ⟨ha, hb⟩
    | ternary f =>
      have hcount : i.opcode.sourceCount = 3 := Opcode.sourceCount_of_operation? hop
      obtain ⟨a, ha, hformula⟩ := exists_of_bind_eq_ok hformula
      obtain ⟨b, hb, hformula⟩ := exists_of_bind_eq_ok hformula
      obtain ⟨c, hc, hformula⟩ := exists_of_bind_eq_ok hformula
      cases hformula
      have ha := register_mem_reads_of_fetch ha (by omega)
      have hb := register_mem_reads_of_fetch hb (by omega)
      have hc := register_mem_reads_of_fetch hc (by omega)
      simpa [Formula.reads] using ⟨ha, hb, hc⟩
    | unaryOnto f =>
      have hcount : i.opcode.sourceCount = 1 := Opcode.sourceCount_of_operation? hop
      obtain ⟨a, ha, hformula⟩ := exists_of_bind_eq_ok hformula
      obtain ⟨_, _, hformula⟩ := exists_of_bind_eq_ok hformula
      cases hformula
      have ha := register_mem_reads_of_fetch ha (by omega)
      simpa [Formula.reads] using ⟨ha, htarget rfl⟩
    | binaryOnto f =>
      have hcount : i.opcode.sourceCount = 2 := Opcode.sourceCount_of_operation? hop
      obtain ⟨a, ha, hformula⟩ := exists_of_bind_eq_ok hformula
      obtain ⟨b, hb, hformula⟩ := exists_of_bind_eq_ok hformula
      obtain ⟨_, _, hformula⟩ := exists_of_bind_eq_ok hformula
      cases hformula
      have ha := register_mem_reads_of_fetch ha (by omega)
      have hb := register_mem_reads_of_fetch hb (by omega)
      simpa [Formula.reads] using ⟨ha, hb, htarget rfl⟩
    | matrix rows columns => exact reads_of_matrix hop hdest hformula

end Instruction

namespace Machine

/-- The machines hold the same in a register: the same vector and the same constant. -/
structure SameAt (m m' : Machine) (r : Register) : Prop where
  vectors_eq : m.vectors[r]? = m'.vectors[r]?
  constant_eq : m.constant? r = m'.constant? r

namespace SameAt

variable {m m' m'' : Machine} {r : Register} {i : Instruction}

theorem symm (h : SameAt m m' r) : SameAt m' m r := ⟨h.vectors_eq.symm, h.constant_eq.symm⟩

theorem trans (h : SameAt m m' r) (h' : SameAt m' m'' r) : SameAt m m'' r :=
  ⟨h.vectors_eq.trans h'.vectors_eq, h.constant_eq.trans h'.constant_eq⟩

theorem words_eq (h : SameAt m m' r) : m.words r = m'.words r := by
  rw [words, words, h.vectors_eq]

theorem register_eq (h : SameAt m m' r) : m.register r = m'.register r :=
  register_eq_of_constant? (congrArg Vec4.floats h.words_eq) h.constant_eq

theorem define (h : SameAt m m' r) (number : UInt32) (value : Definition) :
    SameAt (m.define number value) (m'.define number value) r where
  vectors_eq := by rw [getElem?_vectors_define, getElem?_vectors_define, h.vectors_eq]
  constant_eq := by rw [constant?_define, constant?_define, h.constant_eq]

theorem setWords (h : SameAt m m' r) {q : Register} {v v' : Vec4 UInt32} (hv : q = r → v = v') :
    SameAt (m.setWords q v) (m'.setWords q v') r := by
  by_cases hq : q = r
  · obtain rfl := hv hq
    exact ⟨by simp [Machine.setWords, hq],
      by rw [constant?_setWords, constant?_setWords, h.constant_eq]⟩
  · exact ⟨by simp [Machine.setWords, Std.ExtTreeMap.getElem?_insert, hq, h.vectors_eq],
      by simp [constant?_setWords, hq, h.constant_eq]⟩

/-- What machines hold alike they hold alike after an instruction, if they hold alike what the
instruction reads. -/
theorem step (h : SameAt m m' r) (hreads : ∀ q ∈ i.reads, SameAt m m' q) :
    SameAt (m.step i).1 (m'.step i).1 r := by
  cases heffect : i.effect with
  | error f => rwa [step_of_effect_error heffect, step_of_effect_error heffect]
  | ok e =>
    rw [step_of_effect heffect, step_of_effect heffect]
    cases Instruction.executes_of_effect heffect with
    | skip hop => exact h
    | stop hop => exact h
    | define d value hdest hdef => exact h.define d.register.number value
    | compute formula d factor hformula hdest hfactor =>
      have hvalue : formula.value m (m.register d.register) =
          formula.value m' (m'.register d.register) := by
        apply Formula.value_congr
        intro q hq
        exact (hreads q (Instruction.reads_of_formula hformula hdest q hq)).register_eq
      apply h.setWords
      intro hd
      subst hd
      rw [hvalue, h.words_eq]

end SameAt

theorem eq_of_sameAt {m m' : Machine} (h : ∀ r, SameAt m m' r) : m = m' :=
  eq_of_constant? (fun r _ => (h r).vectors_eq) fun r => (h r).constant_eq

theorem sameAt_define (m : Machine) {number : UInt32} {value : Definition} {r : Register}
    (hne : value.register number ≠ r) : SameAt (m.define number value) m r where
  vectors_eq := by
    rw [getElem?_vectors_define]
    cases value with
    | float v => exact if_neg hne
    | int v => rfl
    | bool b => rfl
  constant_eq := by rw [constant?_define, if_neg hne]

theorem sameAt_setWords (m : Machine) {q r : Register} (words : Vec4 UInt32) (hne : q ≠ r) :
    SameAt (m.setWords q words) m r where
  vectors_eq := by simp [setWords, Std.ExtTreeMap.getElem?_insert, hne]
  constant_eq := by simp [constant?_setWords, hne]

/-- An instruction leaves every register alone but the one that it writes. -/
theorem sameAt_step (m : Machine) {i : Instruction} {r : Register}
    (hwritten : r ∉ i.writtenRegister?) : SameAt (m.step i).1 m r := by
  have hne : ∀ d, i.written? = some d → d.register ≠ r := by
    rintro d hd rfl
    apply hwritten
    rw [Instruction.writtenRegister?, hd]
    rfl
  cases heffect : i.effect with
  | error f =>
    rw [step_of_effect_error heffect]
    exact ⟨rfl, rfl⟩
  | ok e =>
    rw [step_of_effect heffect]
    cases Instruction.executes_of_effect heffect with
    | skip hop => exact ⟨rfl, rfl⟩
    | stop hop => exact ⟨rfl, rfl⟩
    | define d value hdest hdef =>
      exact m.sameAt_define (hne _ (Instruction.written?_of_definition? hdest hdef))
    | compute formula d factor hformula hdest hfactor =>
      have hop := Instruction.computes_of_formula hformula
      exact m.sameAt_setWords _ (hne d ((Instruction.written?_of_computes hop).trans hdest))

theorem run_pair {m : Machine} {a b : Instruction} (ha : (m.step a).2 = .ok .next)
    (hb : (m.step b).2 = .ok .next) : m.run [a, b] = (((m.step a).1.step b).1, .ok 2) := by
  have hb' : ((m.step a).1.step b).2 = .ok .next := by rw [step_snd_eq _ m b, hb]
  rw [run_cons_of_next (Prod.ext rfl ha), run_cons_of_next (Prod.ext rfl hb')]
  rfl

/-- Away from what the second of two instructions writes, their order does not matter if the first
one reads nothing that the second one writes: there both orders leave what the first one does. -/
private theorem sameAt_step_step (m : Machine) {a b : Instruction} {r : Register}
    (hreads : ∀ q ∈ b.writtenRegister?, q ∉ a.reads) (hr : r ∉ b.writtenRegister?) :
    SameAt ((m.step a).1.step b).1 ((m.step b).1.step a).1 r := by
  have hsecond : SameAt ((m.step a).1.step b).1 (m.step a).1 r := (m.step a).1.sameAt_step hr
  have hfirst : SameAt ((m.step b).1.step a).1 (m.step a).1 r := by
    apply (m.sameAt_step hr).step
    intro q hq
    exact m.sameAt_step fun hwritten => hreads q hwritten hq
  exact hsecond.trans hfirst.symm

/-- Instructions that can be executed commute if neither writes the register that the other one
writes or a register that it reads: in both orders both are executed, and end in the same
machine. -/
theorem run_pair_comm {m : Machine} {a b : Instruction} (ha : (m.step a).2 = .ok .next)
    (hb : (m.step b).2 = .ok .next) (hab : ∀ r ∈ a.writtenRegister?, r ∉ b.reads)
    (hba : ∀ r ∈ b.writtenRegister?, r ∉ a.reads)
    (hne : ∀ r ∈ a.writtenRegister?, r ∉ b.writtenRegister?) :
    (m.run [a, b]).2 = .ok 2 ∧ (m.run [b, a]).2 = .ok 2 ∧
      (m.run [a, b]).1 = (m.run [b, a]).1 := by
  rw [run_pair ha hb, run_pair hb ha]
  refine ⟨rfl, rfl, eq_of_sameAt ?_⟩
  intro r
  by_cases hr : r ∈ b.writtenRegister?
  · exact (m.sameAt_step_step hab fun hwritten => hne r hwritten hr).symm
  · exact m.sameAt_step_step hba hr

theorem run_pair_comm_product :
    let m := Machine.empty.setRegister ⟨.temp, 0⟩ (Vec4.replicate 1.0)
    let product : Instruction :=
      { opcode := .m3x2
        operands := [.destination ⟨⟨.temp, 1⟩, ⟨true, true, true, false⟩⟩,
          .source { register := ⟨.temp, 0⟩ }, .source { register := ⟨.const, 4⟩ }] }
    let define := Instruction.defineFloat ⟨.const, 6⟩ ⟨0x40000000, 0, 0, 0⟩
    (m.run [product, define]).2 = .ok 2 ∧ (m.run [define, product]).2 = .ok 2 ∧
      (m.run [product, define]).1 = (m.run [define, product]).1 := by
  intro m product define
  exact run_pair_comm rfl rfl (by decide) (by decide) (by decide)

end Machine

end ShaderAssembly
