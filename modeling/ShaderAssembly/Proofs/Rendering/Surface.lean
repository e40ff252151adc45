import ShaderAssembly.Proofs.Rendering.Destination

namespace ShaderAssembly

/-- Whether registers of the kind are inputs or outputs that are named by their declarations. -/
def RegisterKind.isSurface : RegisterKind → Bool
  | .input | .texture | .output | .rastOut | .attrOut | .colorOut => true
  | _ => false

theorem RegisterKind.isDeclarable_iff_of_isSurface {k : RegisterKind} (h : k.isSurface = true) :
    k.isDeclarable = true ↔ k ≠ .texture := by
  cases k <;> simp_all [isSurface, isDeclarable, isInput, isOutput]

theorem RegisterKind.isConstant_eq_false_of_isDeclarable {k : RegisterKind}
    (h : k.isDeclarable = true) : k.isConstant = false := by
  cases k <;> simp_all [isConstant, isDeclarable, isInput, isOutput]

theorem Instruction.declares_declare_iff {usage : Usage} {index : UInt8} {r q : Register}
    {mask : Mask} : (Instruction.declare usage index r mask).Declares q ↔ r = q := by
  simp [Declares, declare, destination?]

/-- Every instruction declares a register, and no two of them the same one. -/
structure DeclaresOnly (program : List Instruction) : Prop where
  declares : ∀ i ∈ program, ∃ r, i.Declares r
  distinct : program.Pairwise fun i j => ∀ r, i.Declares r → ¬ j.Declares r

namespace DeclaresOnly

variable {table : ConstantTable} {program before after : List Instruction} {i : Instruction}
  {r : Register}

/-- A register that has not been declared yet can be occupied only by the table. -/
theorem not_occupied (h : DeclaresOnly (before ++ i :: after)) (table : ConstantTable)
    (hi : i.Declares r) (hr : r.kind.isConstant = false) : ¬ Occupied table before r := by
  rintro (⟨c, _, hc⟩ | ⟨j, hj, ⟨d, hdest, hd⟩, _⟩)
  · rw [hc.isConstant] at hr
    cases hr
  · obtain ⟨q, hdcl, _⟩ := h.declares j (List.mem_append_left _ hj)
    have hbefore := (List.pairwise_append.1 h.distinct).2.2 j hj i List.mem_cons_self
    exact hbefore r ⟨hdcl, d, hdest, hd⟩ hi

theorem loadable_iff (h : DeclaresOnly (before ++ i :: after)) (hi : i.Declares r) :
    i.Loadable table before ↔ r.kind.isDeclarable = true := by
  obtain ⟨hdcl, d, hdest, rfl⟩ := hi
  constructor
  · intro hloadable
    exact ((hloadable d hdest).1 hdcl).2
  · intro hkind e he
    rw [hdest] at he
    cases he
    have hfree := h.not_occupied table ⟨hdcl, d, hdest, rfl⟩
      (RegisterKind.isConstant_eq_false_of_isDeclarable hkind)
    simp [hdcl, hfree, hkind]

/-- Distinct registers of declarable kinds can be declared in any order. -/
theorem loadableProgram_iff (h : DeclaresOnly program) :
    LoadableProgram table program ↔
      ∀ i ∈ program, ∀ r, i.Declares r → r.kind.isDeclarable = true := by
  constructor
  · intro hprogram i hi r hr
    obtain ⟨before, after, rfl⟩ := List.append_of_mem hi
    exact (h.loadable_iff hr).1 (hprogram before i after rfl)
  · rintro hkinds before i after rfl
    have hi : i ∈ before ++ i :: after := by simp
    obtain ⟨r, hr⟩ := h.declares i hi
    exact (h.loadable_iff hr).2 (hkinds i hi r hr)

theorem append_left (h : DeclaresOnly (before ++ after)) : DeclaresOnly before :=
  ⟨fun i hi => h.declares i (List.mem_append_left _ hi), (List.pairwise_append.1 h.distinct).1⟩

end DeclaresOnly

namespace Symbols

variable {table : ConstantTable} {order : MatrixOrder} {program : List Instruction}
  {start s : Symbols} {i : Instruction} {d : Destination}

/-- A declared register has the width of the mask that declares it, unless the mask is empty. -/
theorem registerWidth_of_declares (hload : load table program order = .ok s) (hi : i ∈ program)
    (hdcl : i.opcode = .dcl) (hdest : i.destination? = some d)
    (hconst : d.register.kind ≠ .const) (hmask : d.mask ≠ Mask.empty) :
    s.registerWidth d.register = .ok d.mask.size := by
  have hdeclared := declaration?_load_of_declares hload hi ⟨hdcl, d, hdest, rfl⟩
  rw [Declaration.ofInstruction?, hdest] at hdeclared
  unfold registerWidth
  split
  next hkind => exact absurd hkind hconst
  next =>
    rw [hdeclared]
    change Except.ok (Declaration.ofDestination i.usage d).type.width = _
    rw [Declaration.width_ofDestination, if_neg hmask]

/-- A declaration of a register that nothing occupies is refused for the kind of the register. -/
theorem load_eq_undeclarableKind {before after : List Instruction} {r : Register}
    (hstart : ofTable table order = .ok start) (hprogram : DeclaresOnly (before ++ i :: after))
    (hbefore : LoadableProgram table before) (hi : i.Declares r)
    (hconstant : r.kind.isConstant = false) (hkind : r.kind.isDeclarable = false) :
    load table (before ++ i :: after) order = .error (.undeclarableKind r) := by
  have hrefused : ¬ i.Loadable table before := by
    rw [hprogram.loadable_iff hi, hkind]
    exact Bool.false_ne_true
  have hfree := hprogram.not_occupied table hi hconstant
  obtain ⟨hdcl, d, hdest, rfl⟩ := hi
  have hrefusal : i.refusal table before = .undeclarableKind d.register := by
    simp only [Instruction.refusal, hdcl, hdest, if_neg hfree]
  rw [load, hstart, ← hrefusal]
  exact ingestStrictly_eq_error hstart hbefore hrefused

/-- A program that declares distinct inputs and outputs, some components of each, loads with any
table that does, and with the declared widths, just when no texture register is among them. The
first texture register is refused. -/
theorem load_surface_iff (hstart : ofTable table order = .ok start)
    (hprogram : DeclaresOnly program)
    (hsurface : ∀ i ∈ program, ∀ d, i.destination? = some d →
      d.register.kind.isSurface = true ∧ d.mask ≠ Mask.empty) :
    ((∃ s, load table program order = .ok s ∧ ∀ i ∈ program, ∀ d, i.destination? = some d →
          s.registerWidth d.register = .ok d.mask.size) ↔
        ∀ i ∈ program, ∀ r, i.Declares r → r.kind ≠ .texture) ∧
      ∀ before i after r, program = before ++ i :: after →
        (∀ j ∈ before, ∀ q, j.Declares q → q.kind ≠ .texture) → i.Declares r →
          r.kind = .texture → load table program order = .error (.undeclarableKind r) := by
  have hdeclarable : ∀ i ∈ program, ∀ r, i.Declares r →
      (r.kind.isDeclarable = true ↔ r.kind ≠ .texture) := by
    rintro i hi r ⟨_, d, hdest, rfl⟩
    exact RegisterKind.isDeclarable_iff_of_isSurface (hsurface i hi d hdest).1
  refine ⟨⟨?_, ?_⟩, ?_⟩
  · rintro ⟨s, hload, _⟩ i hi r hr
    obtain ⟨_, hstart', hrun⟩ := load_eq_ok_iff.1 hload
    have hkinds := hprogram.loadableProgram_iff.1 ((exists_ingestStrictly_iff hstart').1 ⟨s, hrun⟩)
    exact (hdeclarable i hi r hr).1 (hkinds i hi r hr)
  · intro hkinds
    have hloadable : LoadableProgram table program := hprogram.loadableProgram_iff.2
      fun i hi r hr => (hdeclarable i hi r hr).2 (hkinds i hi r hr)
    obtain ⟨s, hrun⟩ := (exists_ingestStrictly_iff hstart).2 hloadable
    have hload := load_eq_ok_iff.2 ⟨start, hstart, hrun⟩
    refine ⟨s, hload, ?_⟩
    intro i hi d hdest
    obtain ⟨hkind, hmask⟩ := hsurface i hi d hdest
    obtain ⟨_, hdcl, _⟩ := hprogram.declares i hi
    have hconst : d.register.kind ≠ .const := by
      intro heq
      rw [heq] at hkind
      cases hkind
    exact registerWidth_of_declares hload hi hdcl hdest hconst hmask
  · rintro before i after r rfl hbefore hi htexture
    have hloadable : LoadableProgram table before := by
      apply hprogram.append_left.loadableProgram_iff.2
      intro j hj q hq
      exact (hdeclarable j (List.mem_append_left _ hj) q hq).2 (hbefore j hj q hq)
    exact load_eq_undeclarableKind hstart hprogram hloadable hi (by rw [htexture]; rfl)
      (by rw [htexture]; rfl)

theorem load_surface_iff_interpolators :
    let world := Constant.matrix "World" .matrixRows 0 4 4
    let v0 : Register := ⟨.input, 0⟩
    let t3 : Register := ⟨.texture, 3⟩
    let oD0 : Register := ⟨.attrOut, 0⟩
    let xy : Mask := ⟨true, true, false, false⟩
    let yw : Mask := ⟨false, true, false, true⟩
    let inOut := [Instruction.declare .normal 0 v0 (Mask.leading 3),
      Instruction.declare .color 0 oD0 yw]
    let interpolated := inOut ++ [Instruction.declare .texCoord 3 t3 xy]
    (∃ s, load ⟨[world]⟩ inOut .rowMajor = .ok s ∧ s.registerWidth v0 = .ok 3 ∧
        s.registerWidth oD0 = .ok 2) ∧
      load ⟨[world]⟩ interpolated .rowMajor = .error (.undeclarableKind t3) := by
  intro world v0 t3 oD0 xy yw inOut interpolated
  have hstart : ofTable ⟨[world]⟩ .rowMajor = .ok _ := rfl
  constructor
  · have hprogram : DeclaresOnly inOut := by
      constructor <;> simp [inOut, Instruction.declares_declare_iff, v0, oD0]
    obtain ⟨s, hload, hwidth⟩ := (load_surface_iff hstart hprogram (by decide)).1.2 (by
      simp [inOut, Instruction.declares_declare_iff, v0, oD0])
    have hv0 := hwidth (Instruction.declare .normal 0 v0 (Mask.leading 3)) (by simp [inOut]) _ rfl
    have hoD0 := hwidth (Instruction.declare .color 0 oD0 yw) (by simp [inOut]) _ rfl
    exact ⟨s, hload, hv0, hoD0⟩
  · have hprogram : DeclaresOnly interpolated := by
      constructor <;> simp [interpolated, inOut, Instruction.declares_declare_iff, v0, oD0, t3]
    apply (load_surface_iff hstart hprogram (by decide)).2 inOut _ [] t3 rfl
    · simp [inOut, Instruction.declares_declare_iff, v0, oD0]
    · exact Instruction.declares_declare_iff.2 rfl
    · rfl

/-- A register code stands for address registers in one stage and for texture registers in the
other. Only the former can be declared, though only the latter are inputs. -/
theorem texture_undeclarable :
    let texCoord (r : Register) := Instruction.declare .texCoord 0 r (Mask.leading 2)
    let a0 : Register := ⟨RegisterKind.ofToken 3 .vertex, 0⟩
    let t0 : Register := ⟨RegisterKind.ofToken 3 .pixel, 0⟩
    (∃ s, load ⟨[]⟩ [texCoord a0] .columnMajor = .ok s ∧ s.registerWidth a0 = .ok 2) ∧
      t0.kind.isSurface = true ∧
      load ⟨[]⟩ [texCoord t0] .columnMajor = .error (.undeclarableKind t0) := by
  intro texCoord a0 t0
  exact ⟨⟨_, rfl, rfl⟩, rfl, rfl⟩

end Symbols

end ShaderAssembly
