import ShaderAssembly.Proofs.Machine.Frame

namespace ShaderAssembly

/-- Whether the operation stops a run. -/
def Opcode.stops : Opcode → Bool
  | .endMark | .ret => true
  | _ => false

theorem Opcode.stops_iff {o : Opcode} : o.stops = true ↔ o = .endMark ∨ o = .ret := by
  cases o <;> simp [stops]

namespace Machine

variable {m next : Machine} {i : Instruction} {program : List Instruction} {n : Nat}

private theorem stops_eq_false_of_next (hstep : m.step i = (next, .ok .next)) :
    i.opcode.stops = false := by
  cases hstops : i.opcode.stops with
  | false => rfl
  | true =>
    rw [m.step_of_stop (Opcode.stops_iff.1 hstops)] at hstep
    cases hstep

/-- A run that ends without a fault counts the instructions up to the first one that stops it. -/
theorem count_eq_of_run (hrun : (m.run program).2 = .ok n) :
    n = match program.findIdx? (·.opcode.stops) with
      | some k => k + 1
      | none => program.length := by
  induction program generalizing m n with
  | nil =>
    cases hrun
    rfl
  | cons i rest ih =>
    rw [List.findIdx?_cons]
    obtain ⟨hstep, rfl⟩ | ⟨next, k, hstep, hrest, rfl⟩ := exists_of_run_cons_eq_ok hrun
    · have hstops := Opcode.stops_iff.2 (opcode_of_step_stop (by rw [hstep]))
      simp [hstops]
    · rw [stops_eq_false_of_next hstep, ih hrest]
      cases rest.findIdx? (·.opcode.stops) <;> simp

/-- A run that executes an instruction that stops it ends there, without a fault. -/
private theorem exists_run_of_executed_stops
    (hstop : ∃ i ∈ m.executed program, i.opcode.stops = true) : ∃ n, (m.run program).2 = .ok n := by
  induction program generalizing m with
  | nil =>
    obtain ⟨_, hmem, _⟩ := hstop
    cases hmem
  | cons i rest ih =>
    obtain ⟨f, hstep⟩ | hstep | ⟨next, hstep⟩ := m.step_cases i
    · simp [executed, hstep] at hstop
    · exact ⟨1, by rw [run, hstep]⟩
    · rw [executed_cons_of_next hstep] at hstop
      have hlater : ∃ j ∈ next.executed rest, j.opcode.stops = true := by
        simpa [stops_eq_false_of_next hstep] using hstop
      obtain ⟨n, hrest⟩ := ih hlater
      exact ⟨n + 1, by rw [run_cons_of_next hstep, hrest]; rfl⟩

/-- Nothing that follows a program with a stop in it has a part in the run. -/
private theorem run_append_of_mem_stops (m : Machine) (hi : i ∈ program)
    (hstops : i.opcode.stops = true)
    (post : List Instruction) : m.run (program ++ post) = m.run program := by
  obtain ⟨before, after, rfl⟩ := List.append_of_mem hi
  have hhalt : i.opcode = .endMark ∨ i.opcode = .ret ∨
      ∃ f, ((m.run before).1.step i).2 = .error f :=
    (Opcode.stops_iff.1 hstops).imp_right .inl
  rw [List.append_assoc, List.cons_append, (m.run_append_of_halt before hhalt (after ++ post)).1,
    (m.run_append_of_halt before hhalt after).1]

private theorem mem_of_mem_executed (hi : i ∈ m.executed program) : i ∈ program := by
  cases hrun : (m.run program).2 with
  | error f =>
    obtain ⟨_, _, hprogram, _⟩ := exists_of_run_eq_error hrun
    rw [hprogram]
    exact List.mem_append_left _ hi
  | ok n =>
    rw [executed_of_run_eq_ok hrun] at hi
    exact List.mem_of_mem_take hi

/-- Runs compose. A program without a stop that runs to its end leaves the rest to a second run, of
which it keeps the fault or adds the count to its own; a program that is stopped takes no notice of
the rest. The count of a run is the place of the first stop, or the length of the program. -/
theorem run_composes (m : Machine) (first second : List Instruction) :
    (∀ n, (∀ i ∈ first, i.opcode.stops = false) → (m.run first).2 = .ok n →
        (m.run (first ++ second)).1 = ((m.run first).1.run second).1 ∧
          (m.run (first ++ second)).2 = match ((m.run first).1.run second).2 with
            | .ok k => .ok (n + k)
            | .error f => .error f) ∧
      ((∃ i ∈ m.executed first, i.opcode.stops = true) →
        ∃ n, (m.run first).2 = .ok n ∧ m.run (first ++ second) = m.run first) ∧
      ∀ n, (m.run first).2 = .ok n →
        n = match first.findIdx? (·.opcode.stops) with
          | some k => k + 1
          | none => first.length := by
  refine ⟨?_, ?_, ?_⟩
  · intro n hnone hfirst
    have hstops : ∀ i ∈ first, i.opcode ≠ .endMark ∧ i.opcode ≠ .ret := by
      intro i hi
      rw [← not_or, ← Opcode.stops_iff, hnone i hi]
      decide
    rw [run_append hstops hfirst]
    refine ⟨rfl, ?_⟩
    cases ((m.run first).1.run second).2 with
    | ok k => simp [Except.map, Nat.add_comm]
    | error f => rfl
  · intro hstop
    obtain ⟨n, hfirst⟩ := exists_run_of_executed_stops hstop
    obtain ⟨i, hi, hstops⟩ := hstop
    exact ⟨n, hfirst, m.run_append_of_mem_stops (mem_of_mem_executed hi) hstops second⟩
  · intro n hfirst
    exact count_eq_of_run hfirst

theorem run_composes_returned :
    let define := Instruction.defineFloat ⟨.const, 0⟩ ⟨0x3F800000, 0, 0, 0⟩
    let copy : Instruction :=
      { opcode := .mov
        operands := [.destination ⟨⟨.temp, 0⟩, Mask.full⟩, .source { register := ⟨.const, 0⟩ }] }
    let sample : Instruction :=
      { opcode := .texld
        operands := [.destination ⟨⟨.temp, 0⟩, Mask.full⟩, .source { register := ⟨.texture, 0⟩ }] }
    let ret : Instruction := { opcode := .ret, operands := [] }
    let m := Machine.empty
    (m.run ([define, copy] ++ [copy, ret, sample])).2 = .ok 4 ∧
      (m.run ([define, copy] ++ [sample])).2 = .error (.unsupportedOpcode .texld) ∧
      m.run ([define, ret, copy] ++ [sample]) = m.run [define, ret, copy] ∧
      ∀ n, (m.run [define, ret, copy]).2 = .ok n → n = 2 := by
  intro define copy sample ret m
  refine ⟨?_, ?_, ?_, ?_⟩
  · exact ((m.run_composes [define, copy] [copy, ret, sample]).1 2 (by decide) rfl).2.trans rfl
  · exact ((m.run_composes [define, copy] [sample]).1 2 (by decide) rfl).2.trans rfl
  · have hstop : ∃ i ∈ m.executed [define, ret, copy], i.opcode.stops = true := by
      have hexecuted : m.executed [define, ret, copy] = [define, ret] := rfl
      rw [hexecuted]
      decide
    obtain ⟨_, _, hsame⟩ := (m.run_composes [define, ret, copy] [sample]).2.1 hstop
    exact hsame
  · exact (m.run_composes [define, ret, copy] []).2.2

end Machine

end ShaderAssembly
