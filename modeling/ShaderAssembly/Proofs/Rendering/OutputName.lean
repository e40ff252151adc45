import Mathlib.Data.List.Pairwise
import ShaderAssembly.Proofs.Rendering.DeclarationName
import ShaderAssembly.Proofs.Symbols.FirstTouch
import ShaderAssembly.Proofs.Symbols.Interface
import ShaderAssembly.Rendering.Name

namespace ShaderAssembly

/-- The semantic of a usage and its index. -/
def UsageInfo.semantic? (info : UsageInfo) : Option Semantic :=
  info.usage.semantic?.map (⟨·, info.index.toNat⟩)

theorem UsageInfo.eq_of_semantic? {u v : UsageInfo} {semantic : Semantic}
    (hu : u.semantic? = some semantic) (hv : v.semantic? = some semantic) : u = v := by
  obtain ⟨base, hbase, rfl⟩ := Option.map_eq_some_iff.1 hu
  obtain ⟨base', hbase', heq⟩ := Option.map_eq_some_iff.1 hv
  obtain ⟨rfl, hindex⟩ := Semantic.mk.inj heq
  have husage := Usage.eq_of_semantic? hbase hbase'
  have hindex := UInt8.toNat_inj.1 hindex
  cases u
  cases v
  simp_all

/-- The usage and the index that an instruction declares an output with. -/
def Instruction.outputUsage? (i : Instruction) : Option UsageInfo :=
  match i.opcode, i.destination? with
  | .dcl, some d => if d.register.kind.isOutput then i.usage else none
  | _, _ => none

theorem Instruction.outputUsage?_of_declares {i : Instruction} {r : Register}
    (hdeclares : i.Declares r) (hr : r.kind.isOutput = true) : i.outputUsage? = i.usage := by
  obtain ⟨hdcl, d, hdest, rfl⟩ := hdeclares
  unfold outputUsage?
  rw [hdcl, hdest]
  exact if_pos hr

/-- The semantic that stands for a register: the one that the program declares for it or, when it
does not declare the register, the implied one. -/
def HasSemantic (program : List Instruction) (r : Register) (semantic : Semantic) : Prop :=
  (∃ i ∈ program, i.Declares r ∧ Declaration.declaredSemantic? i.usage r = some semantic) ∨
    (∀ i ∈ program, ¬ i.Declares r) ∧ Declaration.impliedSemantic? r = some semantic

namespace Declaration

variable {r : Register} {semantic : Semantic}

theorem declaredSemantic?_of_isOutput (usage : Option UsageInfo) (hr : r.kind.isOutput = true) :
    declaredSemantic? usage r = usage.bind UsageInfo.semantic? := by
  obtain ⟨kind, n⟩ := r
  cases usage with
  | none => cases kind <;> cases hr <;> rfl
  | some info =>
    cases h : info.usage.semantic? <;> cases kind <;> cases hr <;>
      simp [declaredSemantic?, UsageInfo.semantic?, h]

private theorem ofUsage_of_declaredSemantic? {usage : Option UsageInfo}
    (hr : r.kind.isOutput = true)
    (h : declaredSemantic? usage r = some semantic) : semantic.OfUsage := by
  rw [declaredSemantic?_of_isOutput usage hr] at h
  obtain ⟨info, _, hinfo⟩ := Option.bind_eq_some_iff.1 h
  obtain ⟨base, hbase, rfl⟩ := Option.map_eq_some_iff.1 hinfo
  exact ⟨info.usage, hbase⟩

private theorem ofUsage_of_impliedSemantic? (h : impliedSemantic? r = some semantic) :
    semantic.OfUsage := by
  unfold impliedSemantic? at h
  simp only at h
  split at h <;> cases h
  · exact ⟨.color, rfl⟩
  · exact ⟨.color, rfl⟩
  · exact ⟨.position, rfl⟩
  · exact ⟨.fog, rfl⟩
  · exact ⟨.pointSize, rfl⟩
  · exact ⟨.texCoord, rfl⟩
  · exact ⟨.texCoord, rfl⟩
  · exact ⟨.depth, rfl⟩

end Declaration

private theorem qualify_inj {scope name name' : String} {count : Nat} :
    qualify scope name count = qualify scope name' count ↔ name = name' := by
  unfold qualify
  split
  next => rfl
  next => exact String.append_right_inj _

namespace Symbols

variable {table : ConstantTable} {order : MatrixOrder} {program : List Instruction}
  {s : Symbols} {r q : Register} {d : Declaration} {i : Instruction} {semantic : Semantic}

/-- An output has a declaration, and is named for it. -/
theorem exists_declaration_of_mem_outputs (h : s.Consistent) (hr : r ∈ s.outputs) :
    ∃ d, s.declaration? r = some d ∧ d.register = r ∧ r.kind.isOutput = true ∧
      s.registerName r = .ok (qualify "o" d.name s.outputs.size) := by
  obtain ⟨d, hd⟩ := Option.isSome_iff_exists.1 (Std.ExtTreeMap.mem_iff_isSome_getElem?.1 hr)
  rw [h.outputs_eq] at hd
  split at hd
  next hkind =>
    have hdeclared : s.declaration? r = some d := hd
    refine ⟨d, hdeclared, h.register_eq r d hd, hkind, ?_⟩
    obtain ⟨kind, n⟩ := r
    cases kind <;> cases hkind <;> simp [registerName, hdeclared]
  next => cases hd

theorem semantic_of_declares (hload : load table program order = .ok s)
    (hd : s.declaration? r = some d) (hi : i ∈ program) (hdeclares : i.Declares r) :
    d.semantic = Declaration.declaredSemantic? i.usage r := by
  rw [declaration?_load_of_declares hload hi hdeclares] at hd
  obtain ⟨_, dest, hdest, rfl⟩ := hdeclares
  rw [Declaration.ofInstruction?, hdest] at hd
  cases hd
  rfl

/-- The semantic of a declaration is the one of the program. -/
theorem hasSemantic_iff (hload : load table program order = .ok s)
    (hd : s.declaration? r = some d) :
    HasSemantic program r semantic ↔ d.semantic = some semantic := by
  by_cases hdeclared : ∃ i ∈ program, i.Declares r
  · obtain ⟨i, hi, hdeclares⟩ := hdeclared
    constructor
    · rintro (⟨j, hj, hdeclares', hsemantic⟩ | ⟨hnone, _⟩)
      · exact (semantic_of_declares hload hd hj hdeclares').trans hsemantic
      · exact absurd hdeclares (hnone i hi)
    · intro hsemantic
      rw [semantic_of_declares hload hd hi hdeclares] at hsemantic
      exact .inl ⟨i, hi, hdeclares, hsemantic⟩
  · have hnone : ∀ i ∈ program, ¬ i.Declares r :=
      fun i hi hdeclares => hdeclared ⟨i, hi, hdeclares⟩
    rw [eq_implicit_of_load hload hnone hd]
    constructor
    · rintro (⟨j, hj, hdeclares, _⟩ | ⟨_, himplied⟩)
      · exact absurd hdeclares (hnone j hj)
      · exact himplied
    · exact fun himplied => .inr ⟨hnone, himplied⟩

theorem ofUsage_of_hasSemantic (hr : r.kind.isOutput = true) (h : HasSemantic program r semantic) :
    semantic.OfUsage := by
  obtain ⟨_, _, _, hdeclared⟩ | ⟨_, himplied⟩ := h
  · exact Declaration.ofUsage_of_declaredSemantic? hr hdeclared
  · exact Declaration.ofUsage_of_impliedSemantic? himplied

/-- Outputs share a name when they share a semantic. -/
theorem exists_outputNames (hload : load table program order = .ok s) (hr : r ∈ s.outputs)
    (hq : q ∈ s.outputs) (hne : r ≠ q) :
    ∃ name name', s.registerName r = .ok name ∧ s.registerName q = .ok name' ∧
      (name = name' ↔
        ∃ semantic, HasSemantic program r semantic ∧ HasSemantic program q semantic) := by
  have hconsistent := consistent_load hload
  obtain ⟨d, hd, rfl, hdkind, hdname⟩ := exists_declaration_of_mem_outputs hconsistent hr
  obtain ⟨e, he, rfl, hekind, hename⟩ := exists_declaration_of_mem_outputs hconsistent hq
  refine ⟨_, _, hdname, hename, ?_⟩
  rw [qualify_inj, Declaration.name_eq_iff hdkind hekind hne]
  · simp only [hasSemantic_iff hload hd, hasSemantic_iff hload he]
  · intro semantic hsemantic
    exact ofUsage_of_hasSemantic hdkind ((hasSemantic_iff hload hd).2 hsemantic)
  · intro semantic hsemantic
    exact ofUsage_of_hasSemantic hekind ((hasSemantic_iff hload he).2 hsemantic)

/-- Instructions that declare outputs with the same usage and index are the same, where usages and
indices are distinct. -/
theorem eq_of_outputUsage? {i j : Instruction} {usage : UsageInfo}
    (hdistinct : (program.filterMap (·.outputUsage?)).Nodup) (hi : i ∈ program) (hj : j ∈ program)
    (hiusage : i.outputUsage? = some usage) (hjusage : j.outputUsage? = some usage) : i = j := by
  have hpairwise := List.pairwise_filterMap.1 hdistinct
  have : Std.Symm fun i j : Instruction => ∀ u, i.outputUsage? = some u →
      ∀ v, j.outputUsage? = some v → u ≠ v :=
    ⟨fun i j h u hu v hv => (h v hv u hu).symm⟩
  by_contra hne
  exact hpairwise.forall hi hj hne usage hiusage usage hjusage rfl

/-- Where usages and indices are distinct, no two outputs are declared with one semantic. -/
theorem not_declares_of_hasSemantic (hdistinct : (program.filterMap (·.outputUsage?)).Nodup)
    (hr : r.kind.isOutput = true) (hq : q.kind.isOutput = true) (hne : r ≠ q)
    (hrsemantic : HasSemantic program r semantic) (hqsemantic : HasSemantic program q semantic) :
    (∀ i ∈ program, ¬ i.Declares r) ∨ ∀ i ∈ program, ¬ i.Declares q := by
  obtain ⟨i, hi, hri, hir⟩ | ⟨hnone, _⟩ := hrsemantic
  · obtain ⟨j, hj, hqj, hjq⟩ | ⟨hnone, _⟩ := hqsemantic
    · exfalso
      -- One semantic comes from one usage and index, so `i` and `j` are one declaration, but a
      -- declaration has one destination.
      rw [Declaration.declaredSemantic?_of_isOutput _ hr,
        ← Instruction.outputUsage?_of_declares hri hr] at hir
      rw [Declaration.declaredSemantic?_of_isOutput _ hq,
        ← Instruction.outputUsage?_of_declares hqj hq] at hjq
      obtain ⟨u, hiu, hu⟩ := Option.bind_eq_some_iff.1 hir
      obtain ⟨v, hjv, hv⟩ := Option.bind_eq_some_iff.1 hjq
      obtain rfl := UsageInfo.eq_of_semantic? hu hv
      obtain rfl := eq_of_outputUsage? hdistinct hi hj hiu hjv
      obtain ⟨_, d, hd, rfl⟩ := hri
      obtain ⟨_, e, he, rfl⟩ := hqj
      rw [hd] at he
      cases he
      exact hne rfl
    · exact .inr hnone
  · exact .inl hnone

/-- In a loaded program that declares its outputs with distinct usages and indices, outputs share a
name just when they share a semantic and the program leaves one of them undeclared. -/
theorem outputNames_eq_iff (hload : load table program order = .ok s)
    (hdistinct : (program.filterMap (·.outputUsage?)).Nodup) (hr : r ∈ s.outputs)
    (hq : q ∈ s.outputs) (hne : r ≠ q) :
    ∃ name name', s.registerName r = .ok name ∧ s.registerName q = .ok name' ∧
      (name = name' ↔
        ((∀ i ∈ program, ¬ i.Declares r) ∨ ∀ i ∈ program, ¬ i.Declares q) ∧
          ∃ semantic, HasSemantic program r semantic ∧ HasSemantic program q semantic) := by
  obtain ⟨name, name', hname, hname', hiff⟩ := exists_outputNames hload hr hq hne
  refine ⟨name, name', hname, hname', hiff.trans ?_⟩
  constructor
  · rintro ⟨semantic, hrsemantic, hqsemantic⟩
    have hconsistent := consistent_load hload
    obtain ⟨_, _, _, hrkind, _⟩ := exists_declaration_of_mem_outputs hconsistent hr
    obtain ⟨_, _, _, hqkind, _⟩ := exists_declaration_of_mem_outputs hconsistent hq
    refine ⟨?_, semantic, hrsemantic, hqsemantic⟩
    exact not_declares_of_hasSemantic hdistinct hrkind hqkind hne hrsemantic hqsemantic
  · rintro ⟨_, hsemantic⟩
    exact hsemantic

theorem outputNames_eq_iff_texCoord :
    let o (n : UInt32) : Register := ⟨.output, n⟩
    let write : Instruction :=
      { opcode := .mov
        operands := [.destination ⟨o 0, Mask.full⟩, .source { register := ⟨.temp, 0⟩ }] }
    let program := [Instruction.declare .texCoord 0 (o 1) Mask.full,
      Instruction.declare .texCoord 1 (o 2) Mask.full, write]
    ∃ s, load ⟨[]⟩ program .columnMajor = .ok s ∧
      s.registerName (o 0) = s.registerName (o 1) ∧
      s.registerName (o 1) ≠ s.registerName (o 2) := by
  intro o write program
  have hload : load ⟨[]⟩ program .columnMajor = .ok _ := rfl
  have hwritten : HasSemantic program (o 0) ⟨"TEXCOORD", 0⟩ := .inr ⟨by decide, rfl⟩
  have hdeclared : HasSemantic program (o 1) ⟨"TEXCOORD", 0⟩ :=
    .inl ⟨Instruction.declare .texCoord 0 (o 1) Mask.full, by decide, by decide, rfl⟩
  obtain ⟨_, _, hzero, hone, hsame⟩ := outputNames_eq_iff (r := o 0) (q := o 1) hload (by decide)
    (by decide) (by decide) (by decide)
  obtain ⟨_, _, hone', htwo, hdiffer⟩ := outputNames_eq_iff (r := o 1) (q := o 2) hload (by decide)
    (by decide) (by decide) (by decide)
  refine ⟨_, hload, ?_, ?_⟩
  · rw [hzero, hone, hsame.2 ⟨.inl (by decide), _, hwritten, hdeclared⟩]
  · intro hnames
    rw [hone', htwo] at hnames
    have hnone := (hdiffer.1 (Except.ok.inj hnames)).1
    exact absurd hnone (by decide)

/-- An output that the program declares and one that it does not, under the same name. -/
theorem outputNames_clash :
    let o (n : UInt32) : Register := ⟨.output, n⟩
    let write : Instruction :=
      { opcode := .mov
        operands := [.destination ⟨o 0, Mask.full⟩, .source { register := ⟨.temp, 0⟩ }] }
    let program := [Instruction.declare .texCoord 0 (o 1) Mask.full, write]
    ∃ s, load ⟨[]⟩ program .columnMajor = .ok s ∧
      (program.filter (·.opcode = .dcl)).Pairwise (·.usage ≠ ·.usage) ∧
      o 0 ∈ s.outputs ∧ o 1 ∈ s.outputs ∧ o 0 ≠ o 1 ∧
      s.registerName (o 0) = .ok "o.texcoord" ∧ s.registerName (o 1) = .ok "o.texcoord" := by
  intro o write program
  have hload : load ⟨[]⟩ program .columnMajor = .ok _ := rfl
  have htext : qualify "o" (Semantic.variableName ⟨"TEXCOORD", 0⟩) 2 = "o.texcoord" := by
    decide +kernel
  refine ⟨_, hload, by decide, by decide, by decide, by decide, ?_, ?_⟩
  · exact congrArg Except.ok htext
  · exact congrArg Except.ok htext

end Symbols

end ShaderAssembly
