import ShaderAssembly.Proofs.Rendering.Constant

namespace ShaderAssembly

theorem Modifier.decorate_injective {m : Modifier} {name name' text : String}
    (h : m.decorate name = .ok text) (h' : m.decorate name' = .ok text) : name = name' := by
  have hsame := h.trans h'.symm
  cases m with
  | complement => cases h
  | not => cases h
  | unknown code => cases h
  | _ => simpa [decorate] using hsame

/-- Operands with one swizzle have one suffix in all instructions that write the same components. -/
theorem Instruction.swizzleText_congr {i j : Instruction} {src src' : Source}
    (hmask : i.destination?.map (·.mask) = j.destination?.map (·.mask))
    (hswizzle : src.swizzle = src'.swizzle) : i.swizzleText src = j.swizzleText src' := by
  have hselection : i.selection src = j.selection src' := by
    unfold selection
    cases hi : i.destination? <;> cases hj : j.destination? <;> simp_all
  have hwidth : i.renderedWidth = j.renderedWidth := by
    unfold renderedWidth writtenSize?
    cases hi : i.destination? <;> cases hj : j.destination? <;> simp_all
  simp only [swizzleText, hselection, hwidth]

namespace Constant

variable {table : ConstantTable} {c : Constant} {n n' : UInt32}

/-- No other constant of the same type has a register in common with this one. -/
def AloneIn (c : Constant) (table : ConstantTable) : Prop :=
  ∀ d ∈ table.constants, d.type = c.type → ∀ n, c.contains n = true → d.contains n = true → d = c

/-- Ranges that end where others start, or before, have no register in common. -/
theorem aloneIn_of_apart (h : ∀ d ∈ table.constants, d.type = c.type → d ≠ c →
    d.start.toNat + d.count.toNat ≤ c.start.toNat ∨ c.start.toNat + c.count.toNat ≤ d.start.toNat) :
    c.AloneIn table := by
  intro d hd htype n hcn hdn
  by_contra hne
  simp only [contains, decide_eq_true_eq] at hcn hdn
  have hapart := h d hd htype hne
  omega

theorem AloneIn.findType?_eq (halone : c.AloneIn table) (hc : c ∈ table.constants)
    (hn : c.contains n = true) : table.findType? c.type n = some c := by
  cases hfind : table.findType? c.type n with
  | none =>
    have hother := List.find?_eq_none.1 hfind c hc
    simp [hn] at hother
  | some d =>
    have hd := List.find?_some hfind
    rw [Bool.and_eq_true, beq_iff_eq] at hd
    rw [halone d (List.mem_of_find?_eq_some hfind) hd.1 n hn hd.2]

/-- Different registers of a constant have different names just when it is a matrix that is stored
by rows. -/
theorem sourceName_ne_iff (hne : n ≠ n') :
    c.sourceName n ≠ c.sourceName n' ↔ c.shape = .matrixRows := by
  unfold sourceName
  split
  next hshape =>
    simp only [hshape, iff_true]
    intro hnames
    have hnumbers : (n - c.start).toNat.repr = (n' - c.start).toNat.repr := by
      simpa [String.append_assoc] using hnames
    have hoffsets := UInt32.toNat_inj.1 (Nat.repr_injective hnumbers)
    exact hne (by simpa using hoffsets)
  next hshape => simp [hshape]

end Constant

namespace Symbols

variable {table : ConstantTable} {order : MatrixOrder} {program : List Instruction} {s : Symbols}
  {i₁ i₂ : Instruction} {k : Nat} {c : Constant} {n₁ n₂ : UInt32} {swizzle : Swizzle}
  {modifier : Modifier}

/-- A float register that the shader does not define is named for the constant that has it to
itself. -/
theorem resolveSource_of_aloneIn {i : Instruction} {n : UInt32}
    (hload : load table program order = .ok s) (hc : c ∈ table.constants) (htype : c.type = .float)
    (halone : c.AloneIn table) (hn : c.contains n = true) (hfree : s.float? n = none)
    (hsrc : i.source? k = some ⟨⟨.const, n⟩, swizzle, modifier⟩) :
    s.resolveSource i k = namedText i ⟨⟨.const, n⟩, swizzle, modifier⟩ (c.sourceName n) := by
  have hliteral : s.literal? ⟨.const, n⟩ = none := by simpa [literal?, float?] using hfree
  have hfind : s.table.findType? .float n = some c := by
    rw [table_load hload, ← htype]
    exact halone.findType?_eq hc hn
  rw [resolveSource, hsrc]
  exact (sourceText_of_literal?_eq_none rfl hliteral).trans (tableText_eq_namedText hfind)

/-- An instruction that reads one register of a float constant, and the same one with another
register of the constant in the place of the first: the texts of the operands are different just
when the modifier has a text and the constant is a matrix that is stored by rows. -/
theorem element_reads_differ_iff (hload : load table program order = .ok s)
    (hc : c ∈ table.constants) (htype : c.type = .float) (halone : c.AloneIn table)
    (hn₁ : c.contains n₁ = true) (hn₂ : c.contains n₂ = true) (hne : n₁ ≠ n₂)
    (hfree₁ : s.float? n₁ = none) (hfree₂ : s.float? n₂ = none)
    (hmask : i₁.destination?.map (·.mask) = i₂.destination?.map (·.mask))
    (hsrc₁ : i₁.source? k = some ⟨⟨.const, n₁⟩, swizzle, modifier⟩)
    (hsrc₂ : i₂.source? k = some ⟨⟨.const, n₂⟩, swizzle, modifier⟩) :
    (∃ t₁ t₂, s.resolveSource i₁ k = .ok t₁ ∧ s.resolveSource i₂ k = .ok t₂ ∧
        t₁.text ≠ t₂.text) ↔
      modifier.hasText = true ∧ c.shape = .matrixRows := by
  rw [resolveSource_of_aloneIn hload hc htype halone hn₁ hfree₁ hsrc₁,
    resolveSource_of_aloneIn hload hc htype halone hn₂ hfree₂ hsrc₂,
    ← Constant.sourceName_ne_iff (c := c) hne]
  have hsuffix : i₁.swizzleText ⟨⟨.const, n₁⟩, swizzle, modifier⟩ =
      i₂.swizzleText ⟨⟨.const, n₂⟩, swizzle, modifier⟩ :=
    Instruction.swizzleText_congr hmask rfl
  simp only [namedText, hsuffix]
  generalize i₂.swizzleText ⟨⟨.const, n₂⟩, swizzle, modifier⟩ = suffix
  cases hm : modifier.hasText with
  | false =>
    simp only [Modifier.decorate_eq_error hm]
    constructor
    · rintro ⟨_, _, h, _⟩
      cases h
    · rintro ⟨h, _⟩
      cases h
  | true =>
    obtain ⟨text₁, htext₁⟩ := Modifier.exists_decorate hm (c.sourceName n₁ ++ suffix)
    obtain ⟨text₂, htext₂⟩ := Modifier.exists_decorate hm (c.sourceName n₂ ++ suffix)
    rw [htext₁, htext₂]
    constructor
    · rintro ⟨_, _, h₁, h₂, hdiffer⟩
      cases h₁
      cases h₂
      refine ⟨rfl, ?_⟩
      intro hnames
      rw [hnames, htext₂] at htext₁
      exact hdiffer (Except.ok.inj htext₁).symm
    · rintro ⟨_, hnames⟩
      refine ⟨_, _, rfl, rfl, ?_⟩
      rintro rfl
      exact hnames ((String.append_left_inj suffix).1 (Modifier.decorate_injective htext₁ htext₂))

theorem element_reads_differ_iff_two_shapes :
    let world := Constant.matrix "World" .matrixRows 0 4 4
    let lights : Constant := { Constant.vector "Lights" 10 4 with count := 4, elements := 4 }
    let i (n : UInt32) : Instruction :=
      { opcode := .dp4
        operands := [.destination ⟨⟨.temp, 0⟩, Mask.single .x⟩,
          .source { register := ⟨.temp, 1⟩ }, .source ⟨⟨.const, n⟩, Swizzle.identity, .negate⟩] }
    ∃ s, load ⟨[lights, world]⟩ [] .columnMajor = .ok s ∧
      (∃ t₁ t₂, s.resolveSource (i 1) 1 = .ok t₁ ∧ s.resolveSource (i 2) 1 = .ok t₂ ∧
        t₁.text ≠ t₂.text) ∧
      ¬ ∃ t₁ t₂, s.resolveSource (i 10) 1 = .ok t₁ ∧ s.resolveSource (i 13) 1 = .ok t₂ ∧
        t₁.text ≠ t₂.text := by
  intro world lights i
  obtain ⟨s, hload, hfree⟩ : ∃ s, load ⟨[lights, world]⟩ [] .columnMajor = .ok s ∧
      ∀ n, s.float? n = none := ⟨_, rfl, fun _ => rfl⟩
  have hworld : world.AloneIn ⟨[lights, world]⟩ := Constant.aloneIn_of_apart (by decide)
  have hlights : lights.AloneIn ⟨[lights, world]⟩ := Constant.aloneIn_of_apart (by decide)
  have hmask (n n' : UInt32) :
      (i n).destination?.map (·.mask) = (i n').destination?.map (·.mask) := rfl
  have hsrc (n : UInt32) :
      (i n).source? 1 = some ⟨⟨.const, n⟩, Swizzle.identity, .negate⟩ := rfl
  have hrows := element_reads_differ_iff hload (by simp) rfl hworld (by decide) (by decide)
    (by decide) (hfree 1) (hfree 2) (hmask 1 2) (hsrc 1) (hsrc 2)
  have helements := element_reads_differ_iff hload (by simp) rfl hlights (by decide) (by decide)
    (by decide) (hfree 10) (hfree 13) (hmask 10 13) (hsrc 10) (hsrc 13)
  exact ⟨s, hload, hrows.2 ⟨rfl, rfl⟩, fun h => absurd (helements.1 h).2 (by decide)⟩

/-- The elements of an array that is declared as such, under one name. -/
theorem array_elements_alike :
    let lights : Constant := { Constant.vector "Lights" 10 4 with count := 4, elements := 4 }
    lights.shape = .vector ∧ lights.declarationText = "float4 Lights[4];" ∧
      ∃ s, load ⟨[lights]⟩ [] .columnMajor = .ok s ∧ s.float? 10 = none ∧ s.float? 11 = none ∧
        s.resolveSource (Instruction.copy ⟨.const, 10⟩) 0 = .ok (.named "Lights") ∧
        s.resolveSource (Instruction.copy ⟨.const, 11⟩) 0 = .ok (.named "Lights") := by
  intro lights
  exact ⟨rfl, by decide, _, rfl, by decide, by decide, by decide, by decide⟩

end Symbols

end ShaderAssembly
