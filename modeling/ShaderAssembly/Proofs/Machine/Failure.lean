import ShaderAssembly.Proofs.Machine.Frame

namespace ShaderAssembly.Machine

/-- The instructions that a run executes make a run of their own, which ends in the same machine and
has no fault. -/
theorem run_executed (m : Machine) (program : List Instruction) :
    m.run (m.executed program) = ((m.run program).1, .ok (m.executed program).length) := by
  induction program generalizing m with
  | nil => rfl
  | cons i rest ih =>
    obtain ⟨f, hstep⟩ | hstep | ⟨next, hstep⟩ := m.step_cases i
    · simp [executed, run, hstep]
    · simp [executed, run, hstep]
    · rw [executed_cons_of_next hstep, run_cons_of_next hstep, run_cons_of_next hstep, ih]
      rfl

/-- A failed run ends where the run of the instructions before the one at fault does. -/
theorem exists_run_of_run_eq_error {m : Machine} {program : List Instruction} {f : Fault}
    (hrun : (m.run program).2 = .error f) :
    ∃ pre i post, program = pre ++ i :: post ∧
      m.run pre = ((m.run program).1, .ok pre.length) ∧
      ((m.run program).1.step i).2 = .error f := by
  obtain ⟨i, post, hprogram, heffect⟩ := exists_of_run_eq_error hrun
  refine ⟨m.executed program, i, post, hprogram, m.run_executed program, ?_⟩
  rw [step_of_effect_error heffect]

/-- Loading goes over what is not a definition, and a failed loading ends where that of the
instructions before the definition at fault does. -/
theorem exists_loadConstants_of_eq_error {m : Machine} {program : List Instruction} {f : Fault}
    (hload : (m.loadConstants program).2 = .error f) :
    ∃ pre i post, program = pre ++ i :: post ∧ i.opcode.isDefinition = true ∧
      m.loadConstants pre = ((m.loadConstants program).1, .ok ()) ∧
      ((m.loadConstants program).1.step i).2 = .error f := by
  induction program generalizing m with
  | nil => cases hload
  | cons i rest ih =>
    cases hop : i.opcode.isDefinition with
    | false =>
      rw [loadConstants_cons_of_not hop] at hload ⊢
      obtain ⟨pre, j, post, rfl, hj, hpre, hfault⟩ := ih hload
      refine ⟨i :: pre, j, post, rfl, hj, ?_, hfault⟩
      rw [loadConstants_cons_of_not hop, hpre]
    | true =>
      cases hdefine : (m.attempt (Action.define i)).2 with
      | error g =>
        have hdefine := define_of_fault hdefine
        rw [loadConstants_cons_of_error hop hdefine] at hload ⊢
        cases hload
        refine ⟨[], i, rest, rfl, hop, rfl, ?_⟩
        rw [step_of_isDefinition m hop, hdefine]
        rfl
      | ok u =>
        rw [loadConstants_cons_of_ok hop (Prod.ext rfl hdefine)] at hload ⊢
        obtain ⟨pre, j, post, rfl, hj, hpre, hfault⟩ := ih hload
        refine ⟨i :: pre, j, post, rfl, hj, ?_, hfault⟩
        rw [loadConstants_cons_of_ok hop (Prod.ext rfl hdefine), hpre]

/-- Nothing is left half done. An instruction that faults leaves the machine as it was; a run that
fails leaves it as the successful run of the instructions before the first one at fault does; and so
does a loading of constants, with the definitions before the first one at fault. -/
theorem unchanged_of_fault (m : Machine) :
    (∀ i f, (m.step i).2 = .error f → (m.step i).1 = m) ∧
      (∀ program f, (m.run program).2 = .error f → ∃ pre i post, program = pre ++ i :: post ∧
        (m.run pre).2 = .ok pre.length ∧ ((m.run pre).1.step i).2 = .error f ∧
        (m.run program).1 = (m.run pre).1) ∧
      ∀ program f, (m.loadConstants program).2 = .error f →
        ∃ pre i post, program = pre ++ i :: post ∧ i.opcode.isDefinition = true ∧
          (m.loadConstants pre).2 = .ok () ∧ ((m.loadConstants pre).1.step i).2 = .error f ∧
          (m.loadConstants program).1 = (m.loadConstants pre).1 := by
  refine ⟨?_, ?_, ?_⟩
  · intro i f hstep
    exact Action.atomic_step i m f hstep
  · intro program f hrun
    obtain ⟨pre, i, post, hprogram, hpre, hfault⟩ := exists_run_of_run_eq_error hrun
    refine ⟨pre, i, post, hprogram, ?_, ?_, ?_⟩
    · rw [hpre]
    · rw [hpre, hfault]
    · rw [hpre]
  · intro program f hload
    obtain ⟨pre, i, post, hprogram, hop, hpre, hfault⟩ := exists_loadConstants_of_eq_error hload
    refine ⟨pre, i, post, hprogram, hop, ?_, ?_, ?_⟩
    · rw [hpre]
    · rw [hpre, hfault]
    · rw [hpre]

theorem unchanged_of_fault_past_end :
    let m := Machine.empty.setRegister ⟨.temp, 0⟩ (Vec4.replicate 1.0)
    let define := Instruction.defineFloat ⟨.const, 0⟩ ⟨0x40000000, 0, 0, 0⟩
    let product : Instruction :=
      { opcode := .m4x4
        operands := [.destination ⟨⟨.temp, 0⟩, Mask.full⟩, .source { register := ⟨.temp, 0⟩ },
          .source { register := ⟨.const, 0xFFFFFFFE⟩ }] }
    let truncated : Instruction :=
      { opcode := .defInt, operands := [.destination ⟨⟨.constInt, 0⟩, Mask.full⟩, .immediate 1] }
    let program := [define, product, truncated]
    (m.step product).1 = m ∧
      (∃ pre i post, program = pre ++ i :: post ∧ (m.run pre).2 = .ok pre.length ∧
        ((m.run pre).1.step i).2 = .error (.rangePastEnd .m4x4 ⟨.const, 0xFFFFFFFE⟩) ∧
        (m.run program).1 = (m.run pre).1) ∧
      ∃ pre i post, program = pre ++ i :: post ∧ i.opcode.isDefinition = true ∧
        (m.loadConstants pre).2 = .ok () ∧
        ((m.loadConstants pre).1.step i).2 = .error (.missingLiterals .defInt) ∧
        (m.loadConstants program).1 = (m.loadConstants pre).1 := by
  intro m define product truncated program
  obtain ⟨hstep, hrun, hload⟩ := m.unchanged_of_fault
  exact ⟨hstep product _ rfl, hrun program _ rfl, hload program _ rfl⟩

end ShaderAssembly.Machine
