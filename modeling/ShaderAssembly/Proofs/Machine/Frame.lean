import ShaderAssembly.Proofs.Machine.Step

namespace ShaderAssembly

namespace Instruction

variable {i : Instruction} {d : Destination} {value : Definition}

/-- The register that an instruction writes when it is executed, and the lanes of it. -/
def written? (i : Instruction) : Option Destination :=
  match i.opcode with
  | .nop | .dcl | .comment | .endMark | .ret => none
  | .defFloat => i.destination?.map fun d => ⟨⟨.const, d.register.number⟩, Mask.full⟩
  | .defInt => i.destination?.map fun d => ⟨⟨.constInt, d.register.number⟩, Mask.full⟩
  | .defBool => i.destination?.map fun d => ⟨⟨.constBool, d.register.number⟩, Mask.full⟩
  | _ => i.destination?

theorem written?_of_definition? (hdest : i.destination? = some d)
    (hdef : i.definition? = some value) :
    i.written? = some ⟨value.register d.register.number, Mask.full⟩ := by
  unfold definition? at hdef
  split at hdef
  next hop =>
    obtain ⟨v, _, rfl⟩ := Option.map_eq_some_iff.1 hdef
    simp [written?, hop, hdest, Definition.register]
  next hop =>
    obtain ⟨v, _, rfl⟩ := Option.map_eq_some_iff.1 hdef
    simp [written?, hop, hdest, Definition.register]
  next hop =>
    obtain ⟨b, _, rfl⟩ := Option.map_eq_some_iff.1 hdef
    simp [written?, hop, hdest, Definition.register]
  next => cases hdef

theorem written?_of_computes (hop : i.opcode.computes = true) : i.written? = i.destination? := by
  unfold written?
  split <;> simp_all [Opcode.computes]

/-- The instruction writes lane `c` of `r` when it is executed. -/
def Writes (i : Instruction) (r : Register) (c : Component) : Prop :=
  ∃ d, i.written? = some d ∧ d.register = r ∧ d.mask.contains c = true

instance (i : Instruction) (r : Register) (c : Component) : Decidable (i.Writes r c) :=
  match h : i.written? with
  | none => isFalse (by simp [Writes, h])
  | some d => decidable_of_iff (d.register = r ∧ d.mask.contains c = true) (by simp [Writes, h])

end Instruction

namespace Machine

/-- The instructions of a program that a run executes without a fault, in order. -/
def executed (m : Machine) : List Instruction → List Instruction
  | [] => []
  | i :: rest =>
    match m.step i with
    | (_, .error _) => []
    | (_, .ok .stop) => [i]
    | (next, .ok .next) => i :: next.executed rest

theorem executed_cons_of_next {m next : Machine} {i : Instruction}
    (hstep : m.step i = (next, .ok .next)) (rest : List Instruction) :
    m.executed (i :: rest) = i :: next.executed rest := by
  rw [executed, hstep]

/-- A run that ends without a fault counts the instructions that it executes. -/
theorem executed_of_run_eq_ok {m : Machine} {program : List Instruction} {n : Nat}
    (hrun : (m.run program).2 = .ok n) : m.executed program = program.take n := by
  induction program generalizing m n with
  | nil => simp [executed]
  | cons i rest ih =>
    obtain ⟨hstep, rfl⟩ | ⟨next, k, hstep, hrest, rfl⟩ := exists_of_run_cons_eq_ok hrun
    · simp [executed, hstep]
    · rw [executed_cons_of_next hstep, ih hrest, List.take_succ_cons]

/-- A run that faults executes the instructions before the one at fault. -/
theorem exists_of_run_eq_error {m : Machine} {program : List Instruction} {f : Fault}
    (hrun : (m.run program).2 = .error f) :
    ∃ i post, program = m.executed program ++ i :: post ∧ i.effect = .error f := by
  induction program generalizing m with
  | nil => cases hrun
  | cons i rest ih =>
    obtain ⟨g, hstep⟩ | hstep | ⟨next, hstep⟩ := m.step_cases i
    · rw [run, hstep] at hrun
      cases hrun
      exact ⟨i, rest, by simp [executed, hstep], effect_of_step_error (by rw [hstep])⟩
    · rw [run, hstep] at hrun
      cases hrun
    · rw [run_cons_of_next hstep] at hrun
      cases hrest : (next.run rest).2 with
      | error g =>
        rw [hrest] at hrun
        cases hrun
        obtain ⟨j, post, hprogram, heffect⟩ := ih hrest
        refine ⟨j, post, ?_, heffect⟩
        rw [executed_cons_of_next hstep, List.cons_append, ← hprogram]
      | ok k =>
        rw [hrest] at hrun
        cases hrun

/-- A step changes only lanes that its instruction writes. -/
theorem get_register_step (m : Machine) {i : Instruction} {r : Register} {c : Component}
    (hwrites : ¬ i.Writes r c) : ((m.step i).1.register r).get c = (m.register r).get c := by
  cases heffect : i.effect with
  | error f => rw [step_of_effect_error heffect]
  | ok e =>
    rw [step_of_effect heffect]
    cases Instruction.executes_of_effect heffect with
    | skip hop => rfl
    | stop hop => rfl
    | define d value hdest hdef =>
      have hne : value.register d.register.number ≠ r := by
        intro heq
        exact hwrites ⟨_, Instruction.written?_of_definition? hdest hdef, heq, by cases c <;> rfl⟩
      change ((m.define _ value).register r).get c = _
      rw [register_define, if_neg hne]
    | compute formula d factor hformula hdest hfactor =>
      rw [get_register_perform_compute, if_neg]
      rintro ⟨hr, _, hc⟩
      have hop := Instruction.computes_of_formula hformula
      exact hwrites ⟨d, (Instruction.written?_of_computes hop).trans hdest, hr, hc⟩

private theorem get_register_run_or (m : Machine) (program : List Instruction) (r : Register)
    (c : Component) : ((m.run program).1.register r).get c = (m.register r).get c ∨
      ∃ i ∈ m.executed program, i.Writes r c := by
  induction program generalizing m with
  | nil => exact .inl rfl
  | cons i rest ih =>
    obtain ⟨f, hstep⟩ | hstep | ⟨next, hstep⟩ := m.step_cases i
    · left
      rw [run, hstep]
    · left
      rw [run, hstep]
    · rw [run_cons_of_next hstep, executed_cons_of_next hstep]
      by_cases hwrites : i.Writes r c
      · exact .inr ⟨i, List.mem_cons_self, hwrites⟩
      · have hsame := m.get_register_step hwrites
        rw [hstep] at hsame
        obtain hrest | ⟨j, hj, hwrites⟩ := ih next
        · exact .inl (hrest.trans hsame)
        · exact .inr ⟨j, List.mem_cons_of_mem i hj, hwrites⟩

/-- A run does not get past an instruction that stops or faults. It may also end before it comes to
that one. -/
theorem run_append_of_halt (m : Machine) (pre : List Instruction) {i : Instruction}
    (hhalt : i.opcode = .endMark ∨ i.opcode = .ret ∨ ∃ f, ((m.run pre).1.step i).2 = .error f)
    (post : List Instruction) :
    m.run (pre ++ i :: post) = m.run (pre ++ [i]) ∧
      m.executed (pre ++ i :: post) = m.executed (pre ++ [i]) := by
  induction pre generalizing m with
  | nil =>
    obtain ⟨f, hstep⟩ | hstep | ⟨next, hstep⟩ := m.step_cases i
    · simp [run, executed, hstep]
    · simp [run, executed, hstep]
    · exfalso
      obtain hop | hop | ⟨f, hfault⟩ := hhalt
      · simp [m.step_of_stop (.inl hop)] at hstep
      · simp [m.step_of_stop (.inr hop)] at hstep
      · simp [run, hstep] at hfault
  | cons j pre ih =>
    simp only [List.cons_append]
    obtain ⟨f, hstep⟩ | hstep | ⟨next, hstep⟩ := m.step_cases j
    · simp [run, executed, hstep]
    · simp [run, executed, hstep]
    · rw [run_cons_of_next hstep] at hhalt
      obtain ⟨hrun, hexecuted⟩ := ih next hhalt
      rw [run_cons_of_next hstep, run_cons_of_next hstep, executed_cons_of_next hstep,
        executed_cons_of_next hstep, hrun, hexecuted]
      exact ⟨rfl, rfl⟩

/-- Every lane of every register keeps its value through a run, however the run ends, unless one of
the instructions executed writes it. What follows an instruction that ends a run, by a stop or by a
fault, has no part in it. -/
theorem get_register_run (m : Machine) (program : List Instruction) :
    (∀ r c, (¬ ∃ i ∈ m.executed program, i.Writes r c) →
        ((m.run program).1.register r).get c = (m.register r).get c) ∧
      ∀ pre i post, program = pre ++ i :: post →
        (i.opcode = .endMark ∨ i.opcode = .ret ∨ ∃ f, ((m.run pre).1.step i).2 = .error f) →
        m.run program = m.run (pre ++ [i]) ∧ m.executed program = m.executed (pre ++ [i]) := by
  constructor
  · intro r c hkept
    exact (m.get_register_run_or program r c).resolve_right hkept
  · intro pre i post hprogram hhalt
    rw [hprogram]
    exact m.run_append_of_halt pre hhalt post

theorem get_register_run_faulting :
    let m := Machine.empty.setRegister ⟨.temp, 0⟩ (Vec4.replicate 1.0)
    let load := Instruction.defineFloat ⟨.const, 0⟩ ⟨0, 0, 0, 0⟩
    let copy (mask : Mask) : Instruction :=
      { opcode := .mov
        operands := [.destination ⟨⟨.temp, 0⟩, mask⟩, .source { register := ⟨.const, 0⟩ }] }
    let sample : Instruction :=
      { opcode := .texld
        operands := [.destination ⟨⟨.temp, 0⟩, Mask.full⟩, .source { register := ⟨.texture, 0⟩ }] }
    let program := [load, copy ⟨true, false, true, false⟩, sample, copy Mask.full]
    m.executed program = [load, copy ⟨true, false, true, false⟩] ∧
      m.run program = m.run [load, copy ⟨true, false, true, false⟩, sample] ∧
      ((m.run program).1.register ⟨.temp, 0⟩).get .y = 1.0 := by
  intro m load copy sample program
  obtain ⟨hlanes, hends⟩ := m.get_register_run program
  have hexecuted : m.executed program = [load, copy ⟨true, false, true, false⟩] := rfl
  refine ⟨hexecuted, ?_, ?_⟩
  · exact (hends [load, copy ⟨true, false, true, false⟩] sample [copy Mask.full] rfl
      (.inr (.inr ⟨.unsupportedOpcode .texld, rfl⟩))).1
  · rw [hlanes ⟨.temp, 0⟩ .y (by rw [hexecuted]; decide)]
    simp only [m, register_setRegister]
    rfl

end Machine

end ShaderAssembly
