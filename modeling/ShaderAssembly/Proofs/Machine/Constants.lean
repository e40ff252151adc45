import ShaderAssembly.Proofs.Machine.Step
import ShaderAssembly.Proofs.Symbols.Constants

namespace ShaderAssembly

variable {table : ConstantTable} {order : MatrixOrder} {program : List Instruction} {s : Symbols}
  {m : Machine}

namespace Machine

/-- A defining instruction that is executed does nothing but define its constant. -/
theorem exists_define_of_step {next : Machine} {i : Instruction} {flow : Flow}
    (hop : i.opcode.isDefinition = true) (hstep : m.step i = (next, .ok flow)) :
    ∃ d value, i.destination? = some d ∧ i.definition? = some value ∧ flow = .next ∧
      next = m.define d.register.number value := by
  obtain ⟨e, heffect⟩ := exists_effect_of_step (m := m) (by rw [hstep])
  obtain ⟨d, value, hdest, hdef, rfl⟩ := Instruction.exists_define_of_effect hop heffect
  rw [step_of_effect heffect] at hstep
  cases hstep
  exact ⟨d, value, hdest, hdef, rfl, rfl⟩

/-- A definition that is executed gives its constant to a register, and the run goes on. -/
theorem constant?_step {next : Machine} {i : Instruction} {flow : Flow}
    (hop : i.opcode.isDefinition = true) (hstep : m.step i = (next, .ok flow)) :
    flow = .next ∧ ∀ r, next.constant? r = (i.constant? r).or (m.constant? r) := by
  obtain ⟨d, value, hdest, hdef, rfl, rfl⟩ := exists_define_of_step hop hstep
  refine ⟨rfl, ?_⟩
  intro r
  rw [constant?_define, Instruction.constant?, hdest, hdef]
  simp only
  split <;> rfl

/-- A run of definitions leaves the last constant of the program in a register that it defines. -/
theorem constant?_run {n : Nat} (hdefs : ∀ i ∈ program, i.opcode.isDefinition = true)
    (hrun : (m.run program).2 = .ok n) (r : Register) :
    (m.run program).1.constant? r = (lastConstant? program r).or (m.constant? r) := by
  induction program generalizing m n with
  | nil => rfl
  | cons i rest ih =>
    have hop := hdefs i List.mem_cons_self
    obtain ⟨hstep, _⟩ | ⟨next, k, hstep, hrest, _⟩ := exists_of_run_cons_eq_ok hrun
    · cases (constant?_step hop hstep).1
    · rw [run_cons_of_next hstep, ih (fun j hj => hdefs j (List.mem_cons_of_mem i hj)) hrest,
        (constant?_step hop hstep).2, lastConstant?_cons, Option.or_assoc]

theorem exists_run_of_loadConstants (hload : (m.loadConstants program).2 = .ok ()) :
    ∃ n, (m.run (program.filter fun i => i.opcode.isDefinition)).2 = .ok n := by
  rw [loadConstants_eq] at hload
  cases hrun : (m.run (program.filter fun i => i.opcode.isDefinition)).2 with
  | error f =>
    rw [hrun] at hload
    cases hload
  | ok n => exact ⟨n, rfl⟩

theorem constant?_loadConstants (hload : (m.loadConstants program).2 = .ok ()) (r : Register) :
    (m.loadConstants program).1.constant? r = (lastConstant? program r).or (m.constant? r) := by
  obtain ⟨n, hrun⟩ := exists_run_of_loadConstants hload
  rw [loadConstants_eq, ← lastConstant?_filter_isDefinition program]
  exact constant?_run (fun i hi => (List.mem_filter.1 hi).2) hrun r

theorem constant?_const_eq_some_iff {n : UInt32} {words : Vec4 UInt32}
    (hsome : (m.constant? ⟨.const, n⟩).isSome = true) :
    m.constant? ⟨.const, n⟩ = some (.float words) ↔ m.words ⟨.const, n⟩ = words := by
  obtain ⟨d, hd⟩ := Option.isSome_iff_exists.1 hsome
  obtain ⟨held, hget, rfl⟩ := Option.map_eq_some_iff.1 hd
  rw [hd, Option.some_inj, Definition.float.injEq, Machine.words, hget]
  rfl

end Machine

/-- The symbols and the machine agree on the constants of a program that both can load, float
constants bit for bit, just where the first and the last definition of a register agree. The machine
replaces a constant by every later definition, and the symbols keep the first one. -/
theorem constants_agree_iff (hsymbols : Symbols.load table program order = .ok s)
    (hmachine : (Machine.empty.loadConstants program).2 = .ok ()) (n : UInt32) :
    let m := (Machine.empty.loadConstants program).1
    ((∀ words, s.floatWords? n = some words → m.words ⟨.const, n⟩ = words) ↔
        firstConstant? program ⟨.const, n⟩ = lastConstant? program ⟨.const, n⟩) ∧
      (s.int? n = m.int? n ↔
        firstConstant? program ⟨.constInt, n⟩ = lastConstant? program ⟨.constInt, n⟩) ∧
      (s.bool? n = m.bool? n ↔
        firstConstant? program ⟨.constBool, n⟩ = lastConstant? program ⟨.constBool, n⟩) := by
  intro m
  have hfirst := Symbols.constant?_load hsymbols
  have hlast : ∀ r, m.constant? r = lastConstant? program r := by
    intro r
    have hnone : Machine.empty.constant? r = none := by
      unfold Machine.constant?
      split <;> rfl
    rw [Machine.constant?_loadConstants hmachine, hnone, Option.or_none]
  refine ⟨?_, ?_, ?_⟩
  · have hsome := isSome_lastConstant? program ⟨.const, n⟩
    rw [← hfirst, ← hlast] at hsome ⊢
    cases hfloat : s.floatWords? n with
    | none =>
      have hs : s.constant? ⟨.const, n⟩ = none := Option.map_eq_none_iff.2 hfloat
      rw [hs, Option.isSome_none, Option.isSome_eq_false_iff, Option.isNone_iff_eq_none] at hsome
      simp [hs, hsome]
    | some words =>
      have hs : s.constant? ⟨.const, n⟩ = some (.float words) :=
        Option.map_eq_some_iff.2 ⟨words, hfloat, rfl⟩
      rw [hs] at hsome ⊢
      rw [eq_comm, Machine.constant?_const_eq_some_iff hsome]
      simp
  · rw [← hfirst, ← hlast]
    exact (Option.map_inj_right fun _ _ => Definition.int.inj).symm
  · rw [← hfirst, ← hlast]
    exact (Option.map_inj_right fun _ _ => Definition.bool.inj).symm

theorem constants_agree_iff_repeated :
    let float := Instruction.defineFloat ⟨.const, 0⟩ ⟨0x3F800000, 0x7FC00001, 0, 0⟩
    let copy : Instruction :=
      { opcode := .mov
        operands := [.destination ⟨⟨.temp, 0⟩, Mask.full⟩, .source { register := ⟨.const, 0⟩ }] }
    let program := [float, Instruction.defineInt ⟨.constInt, 0⟩ ⟨1, 0, 0, 0⟩, copy,
      Instruction.defineInt ⟨.constInt, 0⟩ ⟨2, 0, 0, 0⟩, float]
    let m := (Machine.empty.loadConstants program).1
    ∃ s, Symbols.load ⟨[]⟩ program .columnMajor = .ok s ∧
      (Machine.empty.loadConstants program).2 = .ok () ∧
      (∀ words, s.floatWords? 0 = some words → m.words ⟨.const, 0⟩ = words) ∧
      s.int? 0 ≠ m.int? 0 ∧
      s.bool? 0 = m.bool? 0 := by
  intro float copy program m
  have hsymbols : Symbols.load ⟨[]⟩ program .columnMajor = .ok _ := rfl
  have hmachine : (Machine.empty.loadConstants program).2 = .ok () := rfl
  obtain ⟨hfloat, hint, hbool⟩ := constants_agree_iff hsymbols hmachine 0
  exact ⟨_, hsymbols, hmachine, hfloat.2 rfl, mt hint.1 (by decide), hbool.2 rfl⟩

/-- Two definitions of a register with different bits set the symbols and the machine apart. -/
theorem constants_differ_redefined :
    let program := [Instruction.defineFloat ⟨.const, 0⟩ ⟨0x3F800000, 0, 0, 0⟩,
      Instruction.defineFloat ⟨.const, 0⟩ ⟨0x40000000, 0, 0, 0⟩,
      Instruction.defineInt ⟨.constInt, 0⟩ ⟨1, 0, 0, 0⟩,
      Instruction.defineInt ⟨.constInt, 0⟩ ⟨2, 0, 0, 0⟩,
      Instruction.defineBool ⟨.constBool, 0⟩ false, Instruction.defineBool ⟨.constBool, 0⟩ true]
    let m := (Machine.empty.loadConstants program).1
    ∃ s, Symbols.load ⟨[]⟩ program .columnMajor = .ok s ∧
      (Machine.empty.loadConstants program).2 = .ok () ∧
      (∃ words, s.floatWords? 0 = some words ∧ m.words ⟨.const, 0⟩ ≠ words) ∧
      s.int? 0 ≠ m.int? 0 ∧
      s.bool? 0 ≠ m.bool? 0 := by
  intro program m
  refine ⟨_, rfl, rfl, ⟨_, rfl, ?_⟩, ?_, ?_⟩
  · decide
  · decide
  · decide

end ShaderAssembly
