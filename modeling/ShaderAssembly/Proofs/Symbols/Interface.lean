import ShaderAssembly.Proofs.Symbols.Recovery
import ShaderAssembly.Proofs.Symbols.Table

namespace ShaderAssembly.Symbols

/-- Declarations stand under their own register, the outputs are those of the output kinds, and the
inputs are some of those of the input kinds. The three maps are written in different places, each of
which keeps this. -/
structure Consistent (s : Symbols) : Prop where
  register_eq : ∀ (r : Register) (d : Declaration), s.declared[r]? = some d → d.register = r
  outputs_eq : ∀ r : Register, s.outputs[r]? = if r.kind.isOutput then s.declared[r]? else none
  inputs_declared : ∀ (r : Register) (d : Declaration),
    s.inputs[r]? = some d → s.declared[r]? = some d
  inputs_kind : ∀ (r : Register) (d : Declaration), s.inputs[r]? = some d → r.kind.isInput = true

namespace Consistent

variable {s next : Symbols} {i : Instruction}

/-- An input has a declaration, so a register without one is no input. -/
theorem inputs_eq_none (h : s.Consistent) {r : Register} (hfresh : r ∉ s.declared) :
    s.inputs[r]? = none := by
  cases hget : s.inputs[r]? with
  | none => rfl
  | some d =>
    have hdeclared := h.inputs_declared r d hget
    rw [Std.ExtTreeMap.getElem?_eq_none hfresh] at hdeclared
    cases hdeclared

/-- A first declaration replaces none, so the inputs stay what they are declared as. -/
theorem enter (h : s.Consistent) {d : Declaration} (hfresh : d.register ∉ s.declared) :
    (s.enter d).Consistent where
  register_eq r e hget := by
    rw [declared_enter] at hget
    split at hget
    next heq =>
      cases hget
      exact heq
    next => exact h.register_eq r e hget
  outputs_eq r := by
    rw [outputs_enter, declared_enter, h.outputs_eq]
    by_cases heq : d.register = r <;> cases r.kind.isOutput <;> simp [heq]
  inputs_declared r e hget := by
    rw [declared_enter]
    rw [inputs_enter] at hget
    by_cases heq : d.register = r
    · subst heq
      rw [h.inputs_eq_none hfresh] at hget
      split at hget
      next => simpa using hget
      next => cases hget
    · rw [if_neg heq]
      exact h.inputs_declared r e (by simpa [heq] using hget)
  inputs_kind r e hget := by
    rw [inputs_enter] at hget
    split at hget
    next hr => exact hr.2
    next => exact h.inputs_kind r e hget

/-- A write declares a register that is no input, and lists it when it is an output. -/
theorem touch (h : s.Consistent) (r : Register) : (s.touch r).Consistent where
  register_eq q e hget := by
    rw [declared_touch] at hget
    split at hget
    next hr =>
      cases hget
      exact hr.1
    next => exact h.register_eq q e hget
  outputs_eq q := by
    rw [outputs_touch, declared_touch, h.outputs_eq]
    by_cases heq : r = q
    · subst heq
      cases r.kind.isOutput <;> simp
    · simp [heq]
  inputs_declared q e hget := by
    rw [inputs_touch] at hget
    have hdeclared := h.inputs_declared q e hget
    rw [declared_touch, if_neg, hdeclared]
    rintro ⟨rfl, hfresh⟩
    rw [Std.ExtTreeMap.getElem?_eq_none hfresh] at hdeclared
    cases hdeclared
  inputs_kind q e hget := by
    rw [inputs_touch] at hget
    exact h.inputs_kind q e hget

/-- A definition is no declaration, except that the one of a boolean writes its register. -/
theorem define (h : s.Consistent) (r : Register) (value : Definition) :
    (s.define r value).Consistent := by
  have hsame (t : Symbols) (hdeclared : t.declared = s.declared) (hinputs : t.inputs = s.inputs)
      (houtputs : t.outputs = s.outputs) : t.Consistent := by
    refine ⟨?_, ?_, ?_, ?_⟩
    · simpa only [hdeclared] using h.register_eq
    · simpa only [houtputs, hdeclared] using h.outputs_eq
    · simpa only [hinputs, hdeclared] using h.inputs_declared
    · simpa only [hinputs] using h.inputs_kind
  cases value with
  | float v => exact hsame _ rfl rfl rfl
  | int v => exact hsame _ rfl rfl rfl
  | bool b =>
    exact (hsame { s with bools := s.bools ++ [Numbered.mk r.number b] } rfl rfl rfl).touch r

theorem step (h : s.Consistent) (hstep : s.Step i next) : next.Consistent := by
  cases hstep with
  | silent hdest => exact h
  | declare d hdest hop hfresh hkind => exact h.enter hfresh
  | define d value hdest hdef => exact h.define d.register value
  | write d hdest hop hdef => exact h.touch d.register

theorem ingestAll (h : s.Consistent) (program : List Instruction) :
    (s.ingestAll program).1.Consistent := by
  induction program generalizing s with
  | nil => exact h
  | cons i rest ih =>
    rw [ingestAll_cons_fst]
    obtain ⟨next, hingest, hstep⟩ | ⟨e, hingest⟩ := s.ingest_cases i
    · rw [hingest]
      exact ih (h.step hstep)
    · rw [hingest]
      exact ih h

end Consistent

/-- The symbols of a constant table have no interface yet, and constants are no outputs. -/
theorem FromTable.consistent {s : Symbols} (h : s.FromTable) : s.Consistent where
  register_eq r d hget := by
    rw [(h.declared_eq r d hget).1]
    rfl
  outputs_eq r := by
    rw [h.outputs_eq]
    cases hget : s.declared[r]? with
    | none => simp
    | some d =>
      have hconstant := (h.declared_eq r d hget).2
      have hkind : r.kind.isOutput = false := by
        cases hk : r.kind <;> simp_all [RegisterKind.isConstant, RegisterKind.isOutput]
      simp [hkind]
  inputs_declared r d hget := by simp [h.inputs_eq] at hget
  inputs_kind r d hget := by simp [h.inputs_eq] at hget

/-- A loaded shader has an interface that goes with its declarations. -/
theorem consistent_load {table : ConstantTable} {program : List Instruction} {order : MatrixOrder}
    {s : Symbols} (hload : load table program order = .ok s) : s.Consistent := by
  obtain ⟨start, hstart, hrun⟩ := load_eq_ok_iff.1 hload
  rw [← ingestAll_of_ingestStrictly hrun]
  exact (fromTable_of_ofTable hstart).consistent.ingestAll program

/-- A register joins the inputs by being declared, if its kind is one of inputs. -/
theorem Step.mem_inputs_iff {s next : Symbols} {i : Instruction} (hstep : s.Step i next)
    (r : Register) :
    r ∈ next.inputs ↔ r ∈ s.inputs ∨ (r.kind.isInput = true ∧ i.Declares r) := by
  cases hstep with
  | silent hdest => simp [Instruction.Declares, hdest]
  | declare d hdest hop hfresh hkind =>
    have hdeclares : i.Declares r ↔ d.register = r := by simp [Instruction.Declares, hdest, hop]
    rw [Std.ExtTreeMap.mem_iff_isSome_getElem?, Std.ExtTreeMap.mem_iff_isSome_getElem?,
      inputs_enter, hdeclares, Declaration.register_ofDestination]
    by_cases heq : d.register = r <;> cases r.kind.isInput <;> simp [heq]
  | define d value hdest hdef =>
    have hop : i.opcode ≠ .dcl := by
      intro hdcl
      have hdefines := Instruction.isDefinition_of_definition? hdef
      simp [hdcl, Opcode.isDefinition] at hdefines
    simp [Instruction.Declares, hop]
  | write d hdest hop hdef => simp [Instruction.Declares, hop]

/-- After a run the new inputs are the registers of an input kind that an accepted instruction
declares. -/
theorem mem_inputs_ingestAll_iff (s : Symbols) (program : List Instruction) (r : Register) :
    r ∈ (s.ingestAll program).1.inputs ↔
      r ∈ s.inputs ∨ (r.kind.isInput = true ∧ ∃ i ∈ s.accepted program, i.Declares r) := by
  induction program generalizing s with
  | nil => simp [ingestAll, accepted]
  | cons i rest ih =>
    rw [ingestAll_cons_fst]
    obtain ⟨next, hingest, hstep⟩ | ⟨e, hingest⟩ := s.ingest_cases i
    · rw [accepted_cons_of_ok hingest, hingest, ih next, hstep.mem_inputs_iff r]
      simp only [List.mem_cons, exists_eq_or_imp]
      rw [or_assoc, ← and_or_left]
    · rw [accepted_cons_of_error hingest, hingest, ih s]

/-- The interface of a shader after any run from a constant table, refusals included. Declarations
stand under their register; the outputs are the declarations of the output kinds; the inputs are the
declarations of the input and miscellaneous registers that an accepted instruction declares. -/
theorem interface_ingestAll {table : ConstantTable} {order : MatrixOrder} {start : Symbols}
    (hstart : ofTable table order = .ok start) (program : List Instruction) :
    let s := (start.ingestAll program).1
    (∀ r d, s.declaration? r = some d → d.register = r) ∧
      (∀ r : Register, s.outputs[r]? = if r.kind.isOutput then s.declaration? r else none) ∧
      (∀ (r : Register) d, s.inputs[r]? = some d → s.declaration? r = some d) ∧
      (∀ r, r ∈ s.inputs ↔
        (r.kind = .input ∨ r.kind = .misc) ∧ ∃ i ∈ start.accepted program, i.Declares r) ∧
      ∀ r, r ∈ s.inputs → r ∉ s.outputs := by
  intro s
  have hfresh := fromTable_of_ofTable hstart
  have h : s.Consistent := hfresh.consistent.ingestAll program
  refine ⟨h.register_eq, h.outputs_eq, h.inputs_declared, ?_, ?_⟩
  · intro r
    rw [mem_inputs_ingestAll_iff, hfresh.inputs_eq, RegisterKind.isInput_iff]
    simp
  · intro r hinput houtput
    rw [Std.ExtTreeMap.mem_iff_isSome_getElem?] at hinput
    obtain ⟨d, hget⟩ := Option.isSome_iff_exists.1 hinput
    have hkind := RegisterKind.isOutput_eq_false_of_isInput (h.inputs_kind r d hget)
    rw [Std.ExtTreeMap.mem_iff_isSome_getElem?, h.outputs_eq, hkind] at houtput
    cases houtput

theorem interface_ingestAll_declared_twice :
    let v : Register := ⟨.input, 0⟩
    let program := [Instruction.declare .position 0 v Mask.full,
      Instruction.declare .normal 0 v Mask.full,
      Instruction.declare .texCoord 0 ⟨.texture, 1⟩ Mask.full]
    ∃ start, ofTable ⟨[Constant.matrix "World" .matrixRows 0 4 4]⟩ .columnMajor = .ok start ∧
      v ∈ (start.ingestAll program).1.inputs ∧ v ∉ (start.ingestAll program).1.outputs := by
  intro v program
  have hstart : ofTable ⟨[Constant.matrix "World" .matrixRows 0 4 4]⟩ .columnMajor = .ok _ := rfl
  refine ⟨_, hstart, ?_⟩
  obtain ⟨_, _, _, hinputs, hdisjoint⟩ := interface_ingestAll hstart program
  have hinput := (hinputs v).2 ⟨.inl rfl, Instruction.declare .position 0 v Mask.full,
    by decide +kernel, rfl, ⟨v, Mask.full⟩, rfl, rfl⟩
  exact ⟨hinput, hdisjoint v hinput⟩

end ShaderAssembly.Symbols
