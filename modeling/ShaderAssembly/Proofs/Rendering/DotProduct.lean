import ShaderAssembly.Proofs.Rendering.Folding
import ShaderAssembly.Proofs.Symbols.Constants

namespace ShaderAssembly

/-- The number of lanes of its operands that a dot product reads. -/
def Instruction.dotLanes? (i : Instruction) : Option Nat :=
  match i.opcode with
  | .dp3 => some 3
  | .dp4 => some 4
  | _ => none

theorem Instruction.x_mem_of_dotLanes? {i : Instruction} {lanes : Nat}
    (hdot : i.dotLanes? = some lanes) : Component.x ∈ Component.all.take lanes := by
  unfold dotLanes? at hdot
  split at hdot <;> cases hdot <;> decide

/-- A float constant whose components are all finite and not zero. -/
def Value.FiniteNonzero (v : Value) : Prop := ∀ c, Binary32.FiniteNonzero (v.get c)

/-- The words of two in the marked lanes and of one in the others. -/
def markedWords (mark : Component → Bool) : Vec4 UInt32 :=
  Vec4.ofFn fun c => if mark c then 0x40000000 else 0x3F800000

/-- Two in the marked lanes and one in the others. -/
def markedValue (mark : Component → Bool) : Value := (markedWords mark).map Float32.ofBits

@[simp] private theorem get_markedValue (mark : Component → Bool) (c : Component) :
    (markedValue mark).get c =
      if mark c then Float32.ofBits 0x40000000 else Float32.ofBits 0x3F800000 := by
  rw [markedValue, Vec4.get_map, markedWords, Vec4.get_ofFn]
  exact apply_ite _ _ _ _

private theorem finiteNonzero_markedValue (mark : Component → Bool) :
    (markedValue mark).FiniteNonzero := by
  intro c
  rw [get_markedValue]
  cases mark c
  · exact ⟨by decide, by decide⟩
  · exact ⟨by decide, by decide⟩

private theorem floatDefinition?_defineMarked (n : UInt32) (mark : Component → Bool) :
    (Instruction.defineFloat ⟨.const, n⟩ (markedWords mark)).floatDefinition? n =
      some (markedValue mark) :=
  Instruction.floatDefinition?_defineFloat ⟨.const, n⟩ (markedWords mark)

namespace Symbols

variable {s₁ s₂ : Symbols} {i : Instruction} {k : Nat} {d : Destination} {src : Source}

/-- The literals of an unmodified operand are the same for two constants that are the same in the
lanes selected for the mask. -/
theorem exists_literals {v₁ v₂ : Value} (hdest : i.destination? = some d)
    (hmask : d.mask ≠ Mask.empty) (hsrc : i.source? k = some src)
    (hkind : src.register.kind = .const) (hplain : src.modifier = .plain)
    (h₁ : s₁.float? src.register.number = some v₁) (h₂ : s₂.float? src.register.number = some v₂) :
    ∃ t₁ t₂, s₁.resolveSource i k = .ok (.literal t₁) ∧
      s₂.resolveSource i k = .ok (.literal t₂) ∧
      ((∀ c ∈ d.mask.components, v₁.get (src.swizzle.get c) = v₂.get (src.swizzle.get c)) →
        t₁ = t₂) ∧
      (v₁.FiniteNonzero → v₂.FiniteNonzero → t₁ = t₂ →
        ∀ c ∈ d.mask.components, v₁.get (src.swizzle.get c) = v₂.get (src.swizzle.get c)) := by
  obtain ⟨c, cs, hcomponents⟩ := Mask.exists_components_eq_cons hmask
  have hfold : ∀ u, src.modifier.foldFloat u = .ok (u.map id) := by
    intro u
    rw [hplain]
    rfl
  refine ⟨_, _, resolveSource_const hdest hcomponents hsrc hkind h₁ hfold,
    resolveSource_const hdest hcomponents hsrc hkind h₂ hfold, ?_, ?_⟩
  · intro hagree
    rw [hcomponents] at hagree
    rw [hagree c List.mem_cons_self,
      List.map_congr_left fun c' hc' => congrArg id (hagree c' (List.mem_cons_of_mem c hc'))]
  · intro hv₁ hv₂ heq
    have hselected : ∀ {v : Value}, v.FiniteNonzero →
        ∀ x ∈ v.get (src.swizzle.get c) :: cs.map fun c => v.get (src.swizzle.get c),
          Binary32.FiniteNonzero x := by
      intro v hv x hx
      change x ∈ (c :: cs).map fun c => v.get (src.swizzle.get c) at hx
      obtain ⟨c', _, rfl⟩ := List.mem_map.1 hx
      exact hv _
    have hlists := LiteralStyle.faithful_floatExpression.expression_injective (hselected hv₁)
      (hselected hv₂) (by simp) heq
    rw [hcomponents]
    exact List.map_inj_left.1 hlists

/-- Two constants that differ in a marked lane have one literal, if another definition is in effect
or no marked lane is selected. -/
theorem exists_same_literal {table : ConstantTable} {order : MatrixOrder}
    {pre post : List Instruction} {j : Instruction} {n : UInt32} {v : Value} {s : Symbols}
    {mark : Component → Bool} {c : Component} (hdef : j.floatDefinition? n = some v)
    (hload : load table (pre ++ j :: post) order = .ok s) (hdest : i.destination? = some d)
    (hmask : d.mask ≠ Mask.empty) (hsrc : i.source? k = some src)
    (hregister : src.register = ⟨.const, n⟩) (hplain : src.modifier = .plain)
    (hmark : mark c = true)
    (hagree : ∀ c' ∈ d.mask.components, pre.findSome? (·.floatDefinition? n) ≠ none ∨
      mark (src.swizzle.get c') = false) :
    ∃ (j₁ j₂ : Instruction) (v₁ v₂ : Value) (s₁ s₂ : Symbols) (t : String),
      j₁.floatDefinition? n = some v₁ ∧ j₂.floatDefinition? n = some v₂ ∧
      load table (pre ++ j₁ :: post) order = .ok s₁ ∧
      load table (pre ++ j₂ :: post) order = .ok s₂ ∧
      v₁.FiniteNonzero ∧ v₂.FiniteNonzero ∧ v₁.get c ≠ v₂.get c ∧
      s₁.resolveSource i k = .ok (.literal t) ∧ s₂.resolveSource i k = .ok (.literal t) := by
  have hkind : src.register.kind = .const := by rw [hregister]
  have hnumber : src.register.number = n := by rw [hregister]
  have hdef₁ := floatDefinition?_defineMarked n fun _ => false
  have hdef₂ := floatDefinition?_defineMarked n mark
  obtain ⟨s₁, hload₁⟩ := exists_load_of_definition hdef hdef₁ hload
  obtain ⟨s₂, hload₂⟩ := exists_load_of_definition hdef hdef₂ hload
  have h₁ := float?_load_of_definition hdef₁ hload₁
  have h₂ := float?_load_of_definition hdef₂ hload₂
  rw [← hnumber] at h₁ h₂
  obtain ⟨t₁, t₂, ht₁, ht₂, hsame, _⟩ := exists_literals hdest hmask hsrc hkind hplain h₁ h₂
  have heq : t₁ = t₂ := by
    apply hsame
    intro c' hc'
    rw [hnumber]
    cases hfind : pre.findSome? (·.floatDefinition? n) with
    | some v => rfl
    | none =>
      obtain hdefined | hunmarked := hagree c' hc'
      · exact absurd hfind hdefined
      · simp only [Option.getD_none, get_markedValue, hunmarked]
  have hdiffer : (markedValue fun _ => false).get c ≠ (markedValue mark).get c := by
    simp only [get_markedValue, hmark]
    decide
  subst heq
  exact ⟨_, _, _, _, s₁, s₂, t₁, hdef₁, hdef₂, hload₁, hload₂, finiteNonzero_markedValue _,
    finiteNonzero_markedValue _, hdiffer, ht₁, ht₂⟩

/-- What the literal of a dot product's operand tells of the definition it comes from. It tells any
two values apart that differ in a component which the product reads, if and only if the number is
not defined before and every register lane that is read is selected for a written lane. -/
theorem dot_literals_differ_iff {table : ConstantTable} {order : MatrixOrder}
    {pre post : List Instruction} {j : Instruction} {n : UInt32} {v : Value} {s : Symbols}
    {lanes : Nat} (hdef : j.floatDefinition? n = some v)
    (hload : load table (pre ++ j :: post) order = .ok s) (hdot : i.dotLanes? = some lanes)
    (hdest : i.destination? = some d) (hmask : d.mask ≠ Mask.empty)
    (hsrc : i.source? k = some src) (hregister : src.register = ⟨.const, n⟩)
    (hplain : src.modifier = .plain) :
    (∀ (j₁ j₂ : Instruction) (v₁ v₂ : Value) (s₁ s₂ : Symbols),
        j₁.floatDefinition? n = some v₁ → j₂.floatDefinition? n = some v₂ →
        load table (pre ++ j₁ :: post) order = .ok s₁ →
        load table (pre ++ j₂ :: post) order = .ok s₂ → v₁.FiniteNonzero → v₂.FiniteNonzero →
        (∃ c ∈ Component.all.take lanes,
          v₁.get (src.swizzle.get c) ≠ v₂.get (src.swizzle.get c)) →
        ∃ t₁ t₂, s₁.resolveSource i k = .ok (.literal t₁) ∧
          s₂.resolveSource i k = .ok (.literal t₂) ∧ t₁ ≠ t₂) ↔
      (∀ i' ∈ pre, i'.floatDefinition? n = none) ∧
        ∀ c ∈ Component.all.take lanes, ∃ c' ∈ d.mask.components,
          src.swizzle.get c' = src.swizzle.get c := by
  have hkind : src.register.kind = .const := by rw [hregister]
  have hnumber : src.register.number = n := by rw [hregister]
  constructor
  · intro hlaw
    have hclash : ∀ (mark : Component → Bool), ∀ c ∈ Component.all.take lanes,
        mark (src.swizzle.get c) = true →
        ¬ ∀ c' ∈ d.mask.components, pre.findSome? (·.floatDefinition? n) ≠ none ∨
          mark (src.swizzle.get c') = false := by
      intro mark c hc hmark hagree
      obtain ⟨j₁, j₂, v₁, v₂, s₁, s₂, t, hdef₁, hdef₂, hload₁, hload₂, hv₁, hv₂, hdiffer, ht₁,
        ht₂⟩ := exists_same_literal hdef hload hdest hmask hsrc hregister hplain hmark hagree
      obtain ⟨t₁, t₂, ht₁', ht₂', hne⟩ :=
        hlaw j₁ j₂ v₁ v₂ s₁ s₂ hdef₁ hdef₂ hload₁ hload₂ hv₁ hv₂ ⟨c, hc, hdiffer⟩
      rw [ht₁, Except.ok.injEq, SourceText.literal.injEq] at ht₁'
      rw [ht₂, Except.ok.injEq, SourceText.literal.injEq] at ht₂'
      exact hne (ht₁'.symm.trans ht₂')
    constructor
    · rw [← List.findSome?_eq_none_iff]
      by_contra hdefined
      apply hclash (fun _ => true) .x (Instruction.x_mem_of_dotLanes? hdot) rfl
      intro c _
      exact .inl hdefined
    · intro c hc
      by_contra hcover
      -- the register lane of `c` is read, and no written lane selects it
      apply hclash (fun lane => lane == src.swizzle.get c) c hc (beq_self_eq_true _)
      intro c' hc'
      right
      rw [beq_eq_false_iff_ne]
      intro hlane
      exact hcover ⟨c', hc', hlane⟩
  · rintro ⟨hfresh, hcover⟩ j₁ j₂ v₁ v₂ s₁ s₂ hdef₁ hdef₂ hload₁ hload₂ hv₁ hv₂ ⟨c, hc, hne⟩
    have h₁ := float?_load_of_definition hdef₁ hload₁
    have h₂ := float?_load_of_definition hdef₂ hload₂
    rw [List.findSome?_eq_none_iff.2 hfresh, Option.getD_none, ← hnumber] at h₁ h₂
    obtain ⟨t₁, t₂, ht₁, ht₂, _, hdistinct⟩ :=
      exists_literals hdest hmask hsrc hkind hplain h₁ h₂
    refine ⟨t₁, t₂, ht₁, ht₂, ?_⟩
    intro heq
    obtain ⟨c', hc', hlane⟩ := hcover c hc
    have hagree := hdistinct hv₁ hv₂ heq c' hc'
    rw [hlane] at hagree
    exact hne hagree

theorem dot_literals_differ_three_lanes :
    let r : Register := ⟨.const, 0⟩
    let swizzle : Swizzle := ⟨.w, .x, .y, .z⟩
    let i : Instruction :=
      { opcode := .dp3
        operands := [.destination ⟨⟨.temp, 0⟩, Mask.leading 3⟩,
          .source { register := ⟨.temp, 1⟩ }, .source { register := r, swizzle }] }
    ∀ (j₁ j₂ : Instruction) (v₁ v₂ : Value) (s₁ s₂ : Symbols),
      j₁.floatDefinition? 0 = some v₁ → j₂.floatDefinition? 0 = some v₂ →
      load ⟨[]⟩ [j₁, i] .columnMajor = .ok s₁ → load ⟨[]⟩ [j₂, i] .columnMajor = .ok s₂ →
      v₁.FiniteNonzero → v₂.FiniteNonzero →
      (∃ c ∈ Component.all.take 3, v₁.get (swizzle.get c) ≠ v₂.get (swizzle.get c)) →
      ∃ t₁ t₂, s₁.resolveSource i 1 = .ok (.literal t₁) ∧
        s₂.resolveSource i 1 = .ok (.literal t₂) ∧ t₁ ≠ t₂ := by
  intro r swizzle i
  have hdef := floatDefinition?_defineMarked 0 fun _ => true
  have hload : load ⟨[]⟩
    ([] ++ Instruction.defineFloat r (markedWords fun _ => true) :: [i]) .columnMajor = .ok _ := rfl
  exact (dot_literals_differ_iff (i := i) (k := 1) hdef hload rfl rfl (by decide) rfl rfl rfl).2
    ⟨by simp, by decide⟩

/-- A product that writes one lane reads three, and the literal has only the first of them: the two
constants here have different products and one literal. -/
theorem dot_literals_agree_one_lane :
    let r : Register := ⟨.const, 0⟩
    let i : Instruction :=
      { opcode := .dp3
        operands := [.destination ⟨⟨.temp, 0⟩, Mask.single .x⟩,
          .source { register := ⟨.temp, 1⟩ }, .source { register := r }] }
    let words₁ : Vec4 UInt32 := ⟨0x3F800000, 0x40000000, 0x40400000, 0x40800000⟩
    let words₂ : Vec4 UInt32 := ⟨0x3F800000, 0x40A00000, 0x40400000, 0x40800000⟩
    let v₁ : Value := words₁.map Float32.ofBits
    let v₂ : Value := words₂.map Float32.ofBits
    v₁.FiniteNonzero ∧ v₂.FiniteNonzero ∧
      Value.dot 3 (Vec4.replicate 1.0) v₁ ≠ Value.dot 3 (Vec4.replicate 1.0) v₂ ∧
      ∃ s₁ s₂, load ⟨[]⟩ [Instruction.defineFloat r words₁, i] .columnMajor = .ok s₁ ∧
        load ⟨[]⟩ [Instruction.defineFloat r words₂, i] .columnMajor = .ok s₂ ∧
        s₁.resolveSource i 1 = .ok (.literal "1") ∧
        s₂.resolveSource i 1 = .ok (.literal "1") := by
  intro r i words₁ words₂ v₁ v₂
  have hload₁ : load ⟨[]⟩ ([] ++ Instruction.defineFloat r words₁ :: [i]) .columnMajor = .ok _ :=
    rfl
  have hload₂ : load ⟨[]⟩ ([] ++ Instruction.defineFloat r words₂ :: [i]) .columnMajor = .ok _ :=
    rfl
  have h₁ := float?_load_of_definition (Instruction.floatDefinition?_defineFloat r words₁) hload₁
  have h₂ := float?_load_of_definition (Instruction.floatDefinition?_defineFloat r words₂) hload₂
  have hcomponents : (Mask.single .x).components = [.x] := rfl
  refine ⟨?_, ?_, by decide +kernel, _, _, hload₁, hload₂, ?_, ?_⟩
  · intro c
    cases c <;> exact ⟨by decide, by decide⟩
  · intro c
    cases c <;> exact ⟨by decide, by decide⟩
  · rw [resolveSource_const (f := id) rfl hcomponents rfl rfl h₁ fun _ => rfl, Except.ok.injEq,
      SourceText.literal.injEq]
    decide +kernel
  · rw [resolveSource_const (f := id) rfl hcomponents rfl rfl h₂ fun _ => rfl, Except.ok.injEq,
      SourceText.literal.injEq]
    decide +kernel

end Symbols

end ShaderAssembly
