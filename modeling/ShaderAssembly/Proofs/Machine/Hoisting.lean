import ShaderAssembly.Proofs.Machine.Constants

namespace ShaderAssembly

/-- Whether the operation can stand in front of a program: it defines a constant or does nothing
when it is executed. -/
def Opcode.isPreamble : Opcode → Bool
  | .defFloat | .defInt | .defBool | .dcl | .nop | .comment => true
  | _ => false

namespace Machine

variable {m : Machine} {program pre post : List Instruction} {n : Nat}

theorem step_of_isPreamble (m : Machine) {i : Instruction} (hpreamble : i.opcode.isPreamble = true)
    (hop : i.opcode.isDefinition = false) : m.step i = (m, .ok .next) := by
  have heffect : i.effect = .ok .skip := by
    unfold Instruction.effect
    split <;> simp_all [Opcode.isPreamble, Opcode.isDefinition]
  exact step_of_effect heffect

/-- A preamble does what its definitions do. -/
private theorem run_of_isPreamble (hpreamble : ∀ i ∈ pre, i.opcode.isPreamble = true)
    (hdefs : (m.run (pre.filter fun i => i.opcode.isDefinition)).2 = .ok n) :
    m.run pre = ((m.run (pre.filter fun i => i.opcode.isDefinition)).1, .ok pre.length) := by
  induction pre generalizing m n with
  | nil => rfl
  | cons i rest ih =>
    have hrest := fun j hj => hpreamble j (List.mem_cons_of_mem i hj)
    cases hop : i.opcode.isDefinition with
    | true =>
      rw [List.filter_cons, if_pos hop] at hdefs ⊢
      obtain ⟨hstep, _⟩ | ⟨next, k, hstep, hdefs, _⟩ := exists_of_run_cons_eq_ok hdefs
      · cases (constant?_step hop hstep).1
      · rw [run_cons_of_next hstep, run_cons_of_next hstep, ih hrest hdefs]
        rfl
    | false =>
      have hstep := m.step_of_isPreamble (hpreamble i List.mem_cons_self) hop
      rw [List.filter_cons, if_neg (by simp [hop])] at hdefs ⊢
      rw [run_cons_of_next hstep, ih hrest hdefs]
      rfl

/-- Definitions leave the vectors alone in registers that are no float constants. -/
private theorem getElem?_vectors_run (hdefs : ∀ i ∈ program, i.opcode.isDefinition = true)
    (hrun : (m.run program).2 = .ok n) {r : Register} (hkind : r.kind ≠ .const) :
    (m.run program).1.vectors[r]? = m.vectors[r]? := by
  induction program generalizing m n with
  | nil => rfl
  | cons i rest ih =>
    have hop := hdefs i List.mem_cons_self
    obtain ⟨hstep, _⟩ | ⟨next, k, hstep, hrest, _⟩ := exists_of_run_cons_eq_ok hrun
    · cases (constant?_step hop hstep).1
    · rw [run_cons_of_next hstep, ih (fun j hj => hdefs j (List.mem_cons_of_mem i hj)) hrest]
      obtain ⟨d, value, _, _, _, rfl⟩ := exists_define_of_step hop hstep
      rw [getElem?_vectors_define]
      cases value with
      | float v =>
        apply if_neg
        rintro rfl
        exact hkind rfl
      | int v => rfl
      | bool b => rfl

/-- Definitions that are executed a second time change nothing. -/
theorem run_run (hdefs : ∀ i ∈ program, i.opcode.isDefinition = true)
    (hrun : (m.run program).2 = .ok n) : (m.run program).1.run program = m.run program := by
  have hagain : ((m.run program).1.run program).2 = .ok n := by rw [run_snd_eq _ m, hrun]
  refine Prod.ext ?_ (hagain.trans hrun.symm)
  apply eq_of_constant?
  · intro r hkind
    exact getElem?_vectors_run hdefs hagain hkind
  · intro r
    rw [constant?_run hdefs hagain, constant?_run hdefs hrun, ← Option.or_assoc, Option.or_self]

/-- A preamble that is run once more ends where it started. -/
theorem run_run_of_isPreamble (hpreamble : ∀ i ∈ pre, i.opcode.isPreamble = true)
    (hdefs : (m.run (pre.filter fun i => i.opcode.isDefinition)).2 = .ok n) :
    (m.run pre).1.run pre = ((m.run pre).1, .ok pre.length) := by
  have honce := run_of_isPreamble hpreamble hdefs
  have htwice := run_run (fun i hi => (List.mem_filter.1 hi).2) hdefs
  rw [honce, run_of_isPreamble hpreamble (by rw [htwice, hdefs]), htwice]

/-- Loading the constants of a program before it is run changes nothing about the run, neither how
it ends nor the machine that it ends in, when all definitions stand in a preamble. -/
theorem run_loadConstants (hpre : ∀ i ∈ pre, i.opcode.isPreamble = true)
    (hpost : ∀ i ∈ post, i.opcode.isDefinition = false)
    (hload : (m.loadConstants (pre ++ post)).2 = .ok ()) :
    (m.loadConstants (pre ++ post)).1.run (pre ++ post) = m.run (pre ++ post) := by
  have hnone : post.filter (fun i => i.opcode.isDefinition) = [] :=
    List.filter_eq_nil_iff.2 (by simpa using hpost)
  have hstops : ∀ i ∈ pre, i.opcode ≠ .endMark ∧ i.opcode ≠ .ret := by
    intro i hi
    have hpreamble := hpre i hi
    constructor <;> intro hop <;> rw [hop] at hpreamble <;> cases hpreamble
  obtain ⟨n, hrun⟩ := exists_run_of_loadConstants hload
  rw [loadConstants_eq]
  rw [List.filter_append, hnone, List.append_nil] at hrun ⊢
  have honce := run_of_isPreamble hpre hrun
  have hloaded := congrArg Prod.fst honce
  have htwice := run_run_of_isPreamble hpre hrun
  rw [hloaded] at htwice
  rw [run_append hstops (congrArg Prod.snd htwice), run_append hstops (congrArg Prod.snd honce),
    htwice, honce]

theorem run_loadConstants_redefined :
    let m := Machine.empty.setRegister ⟨.const, 0⟩ (Vec4.replicate 3.0)
    let define (word : UInt32) := Instruction.defineFloat ⟨.const, 0⟩ ⟨word, 0, 0, 0⟩
    let declare := Instruction.declare .position 0 ⟨.input, 0⟩ Mask.full
    let add : Instruction :=
      { opcode := .add
        operands := [.destination ⟨⟨.const, 0⟩, Mask.full⟩, .source { register := ⟨.const, 0⟩ },
          .source { register := ⟨.input, 0⟩ }] }
    let program := [define 0x3F800000, declare, define 0x40000000, add, add]
    (m.loadConstants program).2 = .ok () ∧
      (m.loadConstants program).1.run program = m.run program := by
  intro m define declare add program
  have hload : (m.loadConstants program).2 = .ok () := rfl
  have hpre : ∀ i ∈ [define 0x3F800000, declare, define 0x40000000], i.opcode.isPreamble = true := by
    decide
  have hpost : ∀ i ∈ [add, add], i.opcode.isDefinition = false := by decide
  exact ⟨hload, run_loadConstants hpre hpost hload⟩

end Machine

end ShaderAssembly
