import ShaderAssembly.Proofs.Machine.Footprint

namespace ShaderAssembly

namespace Machine

variable {m : Machine} {i : Instruction} {d : Destination} {v : Value} {flow : Flow}

/-- The shifted and saturated result of an instruction that computes one. -/
def result? (m : Machine) (i : Instruction) : Option Value := do
  let formula ← i.formula.toOption
  let d ← i.destination?
  let factor ← i.result.shift.factor.toOption
  return (formula.value m (m.register d.register)).finish factor i.result.saturate

/-- After the instruction, the written lanes of its destination read as its result. -/
def ShowsResult (m : Machine) (i : Instruction) (d : Destination) : Prop :=
  ∃ v, m.result? i = some v ∧
    ∀ c, d.mask.contains c = true → ((m.step i).1.register d.register).get c = v.get c

private theorem result?_of_formula {formula : Formula} {factor : Float32}
    (hformula : i.formula = .ok formula) (hdest : i.destination? = some d)
    (hfactor : i.result.shift.factor = .ok factor) :
    m.result? i =
      some ((formula.value m (m.register d.register)).finish factor i.result.saturate) := by
  simp [result?, hformula, hdest, hfactor, Except.toOption]

/-- An operation that takes source operands has a result when it is executed. It goes to the written
lanes of the destination, and can be read there if the kind of the destination holds vectors. -/
theorem exists_result_of_step (hop : 0 < i.opcode.sourceCount) (hdest : i.destination? = some d)
    (hstep : (m.step i).2 = .ok flow) :
    ∃ v, m.result? i = some v ∧ ∀ q c, ((m.step i).1.register q).get c =
      if d.register = q ∧ q.kind.holdsVector = true ∧ d.mask.contains c = true then v.get c
      else (m.register q).get c := by
  obtain ⟨e, heffect⟩ := exists_effect_of_step hstep
  obtain ⟨formula, factor, hformula, hfactor, rfl⟩ :=
    Instruction.exists_compute_of_effect (Opcode.computes_of_sourceCount_pos hop) hdest heffect
  refine ⟨_, result?_of_formula hformula hdest hfactor, ?_⟩
  intro q c
  rw [step_of_effect heffect, get_register_perform_compute]
  split
  next hq => rw [hq.1]
  next => rfl

theorem register_empty (r : Register) : empty.register r = Value.zero := by
  unfold register
  split
  next => simp [int?, empty]
  next => simp [bool?, empty, Value.zero]
  next =>
    rw [vector, words, empty, Std.ExtTreeMap.getElem?_empty]
    rfl

/-- A register of a kind that holds no vectors does not show a one that is moved to it. -/
private theorem not_showsResult_mov {r : Register} (hr : r.kind.holdsVector = false) :
    let m := empty.setRegister ⟨.temp, 0⟩ (Vec4.replicate 1.0)
    let i : Instruction :=
      { opcode := .mov
        operands := [.destination ⟨r, Mask.full⟩, .source { register := ⟨.temp, 0⟩ }] }
    (m.step i).2 = .ok .next ∧ ¬ m.ShowsResult i ⟨r, Mask.full⟩ := by
  intro m i
  have hstep : (m.step i).2 = .ok .next := rfl
  refine ⟨hstep, ?_⟩
  rintro ⟨v, hresult, hread⟩
  obtain ⟨_, _, hlanes⟩ := exists_result_of_step (i := i) Nat.zero_lt_one rfl hstep
  have hx := hread .x rfl
  have hzero : m.register r = Value.zero := by
    rw [register_setRegister, if_neg (by simp [hr]), register_empty]
  rw [hlanes, if_neg (by simp [hr]), hzero] at hx
  have hone : m.register ⟨.temp, 0⟩ = Vec4.replicate 1.0 := by
    rw [register_setRegister, if_pos ⟨rfl, rfl⟩]
  cases hresult
  simp only [Value.get_finish, Formula.value, Fetch.value, hone] at hx
  change (0.0 : Float32) = Value.finishLane 1.0 false 1.0 at hx
  exact absurd hx (by decide)

/-- Of a write, operands see everything or nothing: it is visible exactly where the kind of the
register holds vectors, and it never changes another register. -/
theorem visible_iff (r : Register) :
    ((∀ (m : Machine) (v : Value), (m.setRegister r v).register r = v) ↔
      r.kind.holdsVector = true) ∧
    (∀ (m : Machine) (v : Value) (q : Register), q ≠ r →
      (m.setRegister r v).register q = m.register q) ∧
    ((∀ (m : Machine) (i : Instruction) (d : Destination) (flow : Flow),
      0 < i.opcode.sourceCount → i.destination? = some d → d.register = r →
        (m.step i).2 = .ok flow → m.ShowsResult i d) ↔ r.kind.holdsVector = true) ∧
    (r.kind.holdsVector = false → ∀ (m : Machine) (v : Value),
      (m.setRegister r v).register r = m.register r) := by
  have hlost : r.kind.holdsVector = false → ∀ (m : Machine) (v : Value),
      (m.setRegister r v).register r = m.register r := by
    intro hr m v
    rw [register_setRegister, if_neg (by simp [hr])]
  refine ⟨⟨?_, ?_⟩, ?_, ⟨?_, ?_⟩, hlost⟩
  · intro hvisible
    cases hr : r.kind.holdsVector with
    | true => rfl
    | false =>
      have hread := hlost hr empty (Vec4.replicate 1.0)
      rw [hvisible, register_empty] at hread
      exact absurd hread (by decide)
  · intro hr m v
    rw [register_setRegister, if_pos ⟨rfl, hr⟩]
  · intro m v q hq
    rw [register_setRegister, if_neg fun h => hq h.1.symm]
  · intro hshows
    cases hr : r.kind.holdsVector with
    | true => rfl
    | false =>
      obtain ⟨hstep, hhidden⟩ := not_showsResult_mov hr
      refine absurd (hshows _ _ _ _ ?_ rfl rfl hstep) hhidden
      exact Nat.zero_lt_one
  · intro hr m i d flow hop hdest hd hstep
    obtain ⟨v, hresult, hread⟩ := exists_result_of_step hop hdest hstep
    refine ⟨v, hresult, ?_⟩
    intro c hc
    rw [hread, if_pos ⟨rfl, by rw [hd, hr], hc⟩]

theorem visible_iff_output :
    let m := empty.setRegister ⟨.temp, 0⟩ ⟨0.25, -1.0, 3.0, 0.0⟩
    let d : Destination := ⟨⟨.colorOut, 0⟩, ⟨true, true, true, false⟩⟩
    let i : Instruction :=
      { opcode := .add
        operands := [.destination d, .source { register := ⟨.temp, 0⟩ },
          .source { register := ⟨.const, 0⟩ }]
        result := { saturate := true, shift := .times2 } }
    (m.setRegister d.register (Vec4.replicate 1.0)).register d.register = Vec4.replicate 1.0 ∧
      m.ShowsResult i d := by
  intro m d i
  obtain ⟨hwrite, _, hstep, _⟩ := visible_iff d.register
  exact ⟨hwrite.2 rfl m _, hstep.2 rfl m i d .next (by decide) rfl rfl rfl⟩

/-- Ones are written to an integer and to a boolean constant, and moved to the first of them. Both
read as zeros. -/
theorem ones_hidden :
    let ones : Value := Vec4.replicate 1.0
    let m := empty.setRegister ⟨.temp, 0⟩ ones
    let i : Instruction :=
      { opcode := .mov
        operands := [.destination ⟨⟨.constInt, 0⟩, Mask.full⟩, .source { register := ⟨.temp, 0⟩ }] }
    (empty.setRegister ⟨.constInt, 0⟩ ones).register ⟨.constInt, 0⟩ ≠ ones ∧
      (empty.setRegister ⟨.constBool, 0⟩ ones).register ⟨.constBool, 0⟩ ≠ ones ∧
      (m.step i).2 = .ok .next ∧ m.result? i = some ones ∧
      ((m.step i).1.register ⟨.constInt, 0⟩).x ≠ ones.x := by
  intro ones m i
  refine ⟨?_, ?_, rfl, ?_, ?_⟩
  · decide
  · decide
  · decide
  · decide

end Machine

end ShaderAssembly
