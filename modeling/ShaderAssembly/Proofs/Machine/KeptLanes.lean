import ShaderAssembly.Proofs.Binary32.Product
import ShaderAssembly.Proofs.Machine.Executable
import ShaderAssembly.Proofs.Machine.Visibility

namespace ShaderAssembly

/-- The number of leading lanes that an operation computes. It takes the others from the
destination. -/
def Opcode.computedLanes : Opcode → Nat
  | .crs => 3
  | .sincos => 2
  | o => match o.matrixShape? with
    | some (_, columns) => columns
    | none => 4

theorem Opcode.computedLanes_of_matrixShape? {op : Opcode} {rows columns : Nat}
    (hshape : op.matrixShape? = some (rows, columns)) : op.computedLanes = columns := by
  cases op <;> cases hshape <;> rfl

/-- Besides the matrix products there are two operations that leave lanes out. -/
private theorem Opcode.eq_of_computedLanes_lt {op : Opcode} (hshape : op.matrixShape? = none)
    (hlt : op.computedLanes < 4) : op = .crs ∨ op = .sincos := by
  unfold computedLanes at hlt
  split at hlt
  next => exact .inl rfl
  next => exact .inr rfl
  next =>
    rw [hshape] at hlt
    exact absurd hlt (Nat.lt_irrefl 4)

private theorem Opcode.sourceCount_pos_of_computedLanes_lt {op : Opcode}
    (hlt : op.computedLanes < 4) : 0 < op.sourceCount := by
  cases hshape : op.matrixShape? with
  | some shape =>
    rw [sourceCount_of_operation? (operation?_of_matrixShape? hshape)]
    exact Nat.zero_lt_two
  | none =>
    obtain rfl | rfl := eq_of_computedLanes_lt hshape hlt
    · exact Nat.zero_lt_two
    · exact Nat.zero_lt_one

private theorem Component.index_lt_four (c : Component) : c.index < 4 := by
  cases c <;> decide

/-- Nothing happens to a number that is neither scaled nor clamped. Two is changed by every scale
and by the clamp. -/
theorem finishLane_eq_self_iff {result : ResultModifier} {factor : Float32}
    (hfactor : result.shift.factor = .ok factor) :
    (∀ x, Value.finishLane factor result.saturate x = x) ↔
      result.shift = .unscaled ∧ result.saturate = false := by
  obtain ⟨saturate, shift⟩ := result
  constructor
  · intro h
    have htwo := h 2.0
    revert htwo
    cases shift <;> cases hfactor <;> cases saturate <;> decide
  · rintro ⟨rfl, rfl⟩ x
    cases hfactor
    exact Binary32.mul_one x

namespace Instruction

variable {i : Instruction} {c : Component} {formula : Formula}

private theorem length_of_matrix {rows columns : Nat}
    (hformula : i.matrix rows columns = .ok formula) :
    ∃ vector lines, formula = .matrix rows vector lines ∧ lines.length = columns := by
  obtain ⟨vector, _, hformula⟩ := exists_of_bind_eq_ok hformula
  obtain ⟨base, _, hformula⟩ := exists_of_bind_eq_ok hformula
  obtain ⟨_, _, hformula⟩ := exists_of_bind_eq_ok hformula
  obtain ⟨lines, hlines, hformula⟩ := exists_of_bind_eq_ok hformula
  cases hformula
  have hlength := congrArg List.length (map_eq_of_mapM_eq_ok hlines)
  simp only [List.length_map, List.length_range] at hlength
  exact ⟨vector, lines, rfl, hlength.symm⟩

/-- The lanes that are not computed are those of the destination. -/
theorem get_value_of_computedLanes_le (hkept : i.opcode.computedLanes ≤ c.index)
    (hformula : i.formula = .ok formula) (m : Machine) (old : Value) :
    (formula.value m old).get c = old.get c := by
  cases hshape : i.opcode.matrixShape? with
  | some shape =>
    obtain ⟨rows, columns⟩ := shape
    rw [formula_of_matrixShape? hshape] at hformula
    rw [Opcode.computedLanes_of_matrixShape? hshape] at hkept
    obtain ⟨vector, lines, rfl, hlength⟩ := length_of_matrix hformula
    rw [Formula.value, Value.get_overwrite, List.getElem?_eq_none]
    · rfl
    · rw [List.length_map, hlength]
      exact hkept
  | none =>
    have hlt : i.opcode.computedLanes < 4 := Nat.lt_of_le_of_lt hkept c.index_lt_four
    obtain hop | hop := Opcode.eq_of_computedLanes_lt hshape hlt
    · simp only [Instruction.formula, hop] at hformula
      obtain ⟨a, _, hformula⟩ := exists_of_bind_eq_ok hformula
      obtain ⟨b, _, hformula⟩ := exists_of_bind_eq_ok hformula
      obtain ⟨_, _, hformula⟩ := exists_of_bind_eq_ok hformula
      cases hformula
      rw [hop] at hkept
      cases c with
      | w => rfl
      | _ => simp [Opcode.computedLanes, Component.index] at hkept
    · simp only [Instruction.formula, hop] at hformula
      obtain ⟨a, _, hformula⟩ := exists_of_bind_eq_ok hformula
      obtain ⟨_, _, hformula⟩ := exists_of_bind_eq_ok hformula
      cases hformula
      rw [hop] at hkept
      cases c with
      | z => rfl
      | w => rfl
      | _ => simp [Opcode.computedLanes, Component.index] at hkept

end Instruction

namespace Machine

/-- What a lane that the operation does not compute holds after a step. It is written like any other
lane, with what it held before. -/
theorem get_register_step_of_computedLanes_le {i : Instruction} {d : Destination} {c : Component}
    (hkept : i.opcode.computedLanes ≤ c.index) (hdest : i.destination? = some d)
    (hexec : i.Executable) :
    ∃ factor, i.result.shift.factor = .ok factor ∧ ∀ m : Machine,
      ((m.step i).1.register d.register).get c =
        if d.register.kind.holdsVector = true ∧ d.mask.contains c = true then
          Value.finishLane factor i.result.saturate ((m.register d.register).get c)
        else (m.register d.register).get c := by
  have hlt : i.opcode.computedLanes < 4 := Nat.lt_of_le_of_lt hkept c.index_lt_four
  have hcount := Opcode.sourceCount_pos_of_computedLanes_lt hlt
  obtain ⟨e, heffect⟩ := Instruction.exists_effect_iff.2 hexec
  obtain ⟨formula, factor, hformula, hfactor, rfl⟩ :=
    Instruction.exists_compute_of_effect (Opcode.computes_of_sourceCount_pos hcount) hdest heffect
  refine ⟨factor, hfactor, ?_⟩
  intro m
  rw [step_of_effect heffect, get_register_perform_compute, Value.get_finish,
    Instruction.get_value_of_computedLanes_le hkept hformula]
  simp only [true_and]

/-- An operation that does not compute a lane leaves it as it was on every machine in three cases
only: the lane is not written, or the destination does not hold vectors at all, or the result is
neither scaled nor saturated. -/
theorem kept_lane_iff {i : Instruction} {d : Destination} {c : Component}
    (hkept : i.opcode.computedLanes ≤ c.index) (hdest : i.destination? = some d)
    (hexec : i.Executable) :
    (∀ m : Machine,
      ((m.step i).1.register d.register).get c = (m.register d.register).get c) ↔
      d.mask.contains c = false ∨ d.register.kind.holdsVector = false ∨
        (i.result.shift = .unscaled ∧ i.result.saturate = false) := by
  obtain ⟨factor, hfactor, hread⟩ := get_register_step_of_computedLanes_le hkept hdest hexec
  rw [← finishLane_eq_self_iff hfactor]
  simp only [hread]
  cases hkind : d.register.kind.holdsVector with
  | false => simp
  | true =>
    cases hmask : d.mask.contains c with
    | false => simp
    | true =>
      simp only [and_self, if_true, Bool.true_eq_false, false_or]
      constructor
      · intro h x
        have hx := h (empty.setRegister d.register (Vec4.replicate x))
        rwa [register_setRegister, if_pos ⟨rfl, hkind⟩, Vec4.get_replicate] at hx
      · intro h m
        exact h _

theorem kept_lane_iff_m3x2 :
    let d : Destination := ⟨⟨.temp, 0⟩, Mask.full⟩
    let i : Instruction :=
      { opcode := .m3x2
        operands := [.destination d, .source { register := ⟨.temp, 1⟩ },
          .source { register := ⟨.const, 0⟩, modifier := .negate }] }
    i.Executable ∧
      ∀ m : Machine, ((m.step i).1.register d.register).z = (m.register d.register).z := by
  intro d i
  have hexec : i.Executable := by decide
  have hkept : i.opcode.computedLanes ≤ Component.z.index := by decide
  exact ⟨hexec, (kept_lane_iff hkept rfl hexec).2 (.inr (.inr ⟨rfl, rfl⟩))⟩

/-- A cross product that saturates clamps the last lane of its destination, which it does not
compute. -/
theorem kept_lane_clamped :
    let r : Register := ⟨.temp, 0⟩
    let m := empty.setRegister r ⟨0.0, 0.0, 0.0, 2.0⟩
    let i : Instruction :=
      { opcode := .crs
        operands := [.destination ⟨r, Mask.full⟩, .source { register := ⟨.temp, 1⟩ },
          .source { register := ⟨.temp, 2⟩ }]
        result := { saturate := true } }
    (m.step i).2 = .ok .next ∧ (m.register r).w = 2.0 ∧ ((m.step i).1.register r).w = 1.0 := by
  intro r m i
  refine ⟨rfl, ?_, ?_⟩
  · decide
  · decide

end Machine

end ShaderAssembly
