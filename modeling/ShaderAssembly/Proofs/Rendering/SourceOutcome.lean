import ShaderAssembly.Proofs.Rendering.SourceText
import ShaderAssembly.Proofs.Symbols.Table

namespace ShaderAssembly

/-- The outcome for an operand whose register has a literal. If both the modifier and the mask are
at fault, the modifier is blamed. -/
structure LiteralOutcome (i : Instruction) (src : Source) (value : Definition)
    (outcome : Except RenderError SourceText) : Prop where
  unsupported : src.modifier.folds value = false →
    outcome = .error (.unsupportedModifier src.modifier value.context)
  unwritten : src.modifier.folds value = true → value.isVector = true → i.WritesNothing →
    outcome = .error (.invalidWidth 0)
  literal : src.modifier.folds value = true → ¬ (value.isVector = true ∧ i.WritesNothing) →
    ∃ text, i.literalText src value = .ok text ∧ outcome = .ok (.literal text)

theorem LiteralOutcome.unique {i : Instruction} {src : Source} {value : Definition}
    {o o' : Except RenderError SourceText} (h : LiteralOutcome i src value o)
    (h' : LiteralOutcome i src value o') : o = o' := by
  cases hfolds : src.modifier.folds value with
  | false => rw [h.unsupported hfolds, h'.unsupported hfolds]
  | true =>
    by_cases hwrites : value.isVector = true ∧ i.WritesNothing
    · obtain ⟨hvector, hnothing⟩ := hwrites
      rw [h.unwritten hfolds hvector hnothing, h'.unwritten hfolds hvector hnothing]
    · obtain ⟨text, htext, rfl⟩ := h.literal hfolds hwrites
      obtain ⟨text', htext', rfl⟩ := h'.literal hfolds hwrites
      rw [htext] at htext'
      cases htext'
      rfl

/-- The outcome for an operand that has a name: it stands with its swizzle under the modifier, if
this has a text. -/
structure NamedOutcome (i : Instruction) (src : Source) (name : String)
    (outcome : Except RenderError SourceText) : Prop where
  unsupported : src.modifier.hasText = false →
    outcome = .error (.unsupportedModifier src.modifier .register)
  named : src.modifier.hasText = true →
    ∃ text, src.modifier.decorate (name ++ i.swizzleText src) = .ok text ∧
      outcome = .ok (.named text)

theorem NamedOutcome.unique {i : Instruction} {src : Source} {name : String}
    {o o' : Except RenderError SourceText} (h : NamedOutcome i src name o)
    (h' : NamedOutcome i src name o') : o = o' := by
  cases hm : src.modifier.hasText with
  | false => rw [h.unsupported hm, h'.unsupported hm]
  | true =>
    obtain ⟨text, htext, rfl⟩ := h.named hm
    obtain ⟨text', htext', rfl⟩ := h'.named hm
    rw [htext] at htext'
    cases htext'
    rfl

namespace Symbols

variable {s : Symbols} {i : Instruction} {src : Source}

/-- The outcome for a source operand. The cases exclude each other, and are checked in this order:
does the shader define the constant, does the table name it, does the register have a name. -/
structure SourceOutcome (s : Symbols) (i : Instruction) (src : Source)
    (outcome : Except RenderError SourceText) : Prop where
  /-- A constant that the shader defines. -/
  defined : ∀ value, s.literal? src.register = some value → LiteralOutcome i src value outcome
  /-- A constant that neither the shader nor the table knows. -/
  unknown : src.register.kind.isConstant = true → s.literal? src.register = none →
    (∀ c ∈ s.table.constants, c.type = src.register.kind.constantType →
      c.contains src.register.number = false) →
    outcome = .ok (.placeholder
      ("Error " ++ src.register.kind.name ++ toString src.register.number.toNat))
  /-- A row of a matrix in the table. -/
  row : src.register.kind.isConstant = true → s.literal? src.register = none →
    ∀ c, s.table.findType? src.register.kind.constantType src.register.number = some c →
      c.shape = .matrixRows →
      ∃ offset : Nat, src.register.number.toNat = c.start.toNat + offset ∧
        offset < c.count.toNat ∧
        NamedOutcome i src (c.name ++ "[" ++ toString offset ++ "]") outcome
  /-- Any other constant of the table. -/
  whole : src.register.kind.isConstant = true → s.literal? src.register = none →
    ∀ c, s.table.findType? src.register.kind.constantType src.register.number = some c →
      c.shape ≠ .matrixRows → NamedOutcome i src c.name outcome
  /-- A register that is no constant and has a name. -/
  register : src.register.kind.isConstant = false →
    ∀ name, s.registerName src.register = .ok name → NamedOutcome i src name outcome
  /-- A register that is no constant and has no name. -/
  nameless : src.register.kind.isConstant = false →
    ∀ e, s.registerName src.register = .error e → outcome = .error e

/-- The cases leave no operand out, and each determines the outcome. -/
theorem SourceOutcome.unique {o o' : Except RenderError SourceText} (h : s.SourceOutcome i src o)
    (h' : s.SourceOutcome i src o') : o = o' := by
  cases hliteral : s.literal? src.register with
  | some value => exact (h.defined value hliteral).unique (h'.defined value hliteral)
  | none =>
    cases hkind : src.register.kind.isConstant with
    | false =>
      cases hname : s.registerName src.register with
      | ok name => exact (h.register hkind name hname).unique (h'.register hkind name hname)
      | error e => rw [h.nameless hkind e hname, h'.nameless hkind e hname]
    | true =>
      cases hfind : s.table.findType? src.register.kind.constantType src.register.number with
      | none =>
        have hunknown := ConstantTable.findType?_eq_none_iff.1 hfind
        rw [h.unknown hkind hliteral hunknown, h'.unknown hkind hliteral hunknown]
      | some c =>
        by_cases hshape : c.shape = .matrixRows
        · obtain ⟨offset, hoffset, _, hnamed⟩ := h.row hkind hliteral c hfind hshape
          obtain ⟨offset', hoffset', _, hnamed'⟩ := h'.row hkind hliteral c hfind hshape
          obtain rfl : offset = offset' := by omega
          exact hnamed.unique hnamed'
        · exact (h.whole hkind hliteral c hfind hshape).unique
            (h'.whole hkind hliteral c hfind hshape)

theorem literalOutcome (i : Instruction) (src : Source) (value : Definition) :
    LiteralOutcome i src value (.literal <$> i.literalText src value) where
  unsupported hfolds := by
    rw [Instruction.literalText_of_not_folds hfolds]
    rfl
  unwritten hfolds hvector hnothing := by
    rw [Instruction.literalText_of_writesNothing hfolds hvector hnothing]
    rfl
  literal hfolds hwrites := by
    obtain ⟨text, htext⟩ := Instruction.exists_literalText hfolds hwrites
    refine ⟨text, htext, ?_⟩
    rw [htext]
    rfl

theorem namedOutcome (i : Instruction) (src : Source) (name : String) :
    NamedOutcome i src name (namedText i src name) where
  unsupported hm := by
    rw [namedText, Modifier.decorate_eq_error hm]
    rfl
  named hm := by
    obtain ⟨text, htext⟩ := Modifier.exists_decorate hm (name ++ i.swizzleText src)
    refine ⟨text, htext, ?_⟩
    rw [namedText, htext]
    rfl

theorem sourceOutcome (s : Symbols) (i : Instruction) (src : Source) :
    s.SourceOutcome i src (s.sourceText i src) where
  defined value h := by
    rw [sourceText_of_literal? h]
    exact literalOutcome i src value
  unknown hkind h hunknown := by
    rw [sourceText_of_literal?_eq_none hkind h]
    exact tableText_eq_placeholder (ConstantTable.findType?_eq_none_iff.2 hunknown)
  row hkind h c hfind hshape := by
    obtain ⟨offset, hnumber, hcount, rfl⟩ := ConstantTable.exists_offset_of_findType? hfind
    refine ⟨_, hnumber, hcount, ?_⟩
    rw [sourceText_of_literal?_eq_none hkind h, tableText_eq_namedText hfind, Constant.sourceName,
      if_pos hshape]
    exact namedOutcome i src _
  whole hkind h c hfind hshape := by
    rw [sourceText_of_literal?_eq_none hkind h, tableText_eq_namedText hfind, Constant.sourceName,
      if_neg hshape]
    exact namedOutcome i src _
  register hkind name hname := by
    rw [sourceText_of_isConstant_eq_false hkind, hname]
    exact namedOutcome i src name
  nameless hkind e hname := by
    rw [sourceText_of_isConstant_eq_false hkind, hname]
    rfl

/-- Resolving a source operand fails for want of it when the instruction has no more than `n`
sources. Otherwise the outcome is the one that the cases of `SourceOutcome` determine. -/
theorem resolveSource_outcome (s : Symbols) (i : Instruction) (n : Nat) :
    (i.sources.length ≤ n → s.resolveSource i n = .error (.missingOperand i.opcode .source)) ∧
      ∀ (h : n < i.sources.length) (outcome : Except RenderError SourceText),
        s.resolveSource i n = outcome ↔ s.SourceOutcome i i.sources[n] outcome := by
  constructor
  · intro h
    rw [resolveSource, Instruction.source?, List.getElem?_eq_none h]
  · intro h outcome
    rw [resolveSource, Instruction.source?, List.getElem?_eq_getElem h]
    have hactual := s.sourceOutcome i i.sources[n]
    constructor
    · rintro rfl
      exact hactual
    · intro houtcome
      exact hactual.unique houtcome

theorem resolveSource_outcome_three_constants :
    let bones := Constant.matrix "Bones" .matrixRows 4 3 4
    let one := Instruction.defineFloat ⟨.const, 0⟩ (Vec4.replicate 0x3F800000)
    let i : Instruction :=
      { opcode := .mad
        operands := [.destination ⟨⟨.temp, 0⟩, Mask.full⟩,
          .source { register := ⟨.const, 5⟩, modifier := .negate },
          .source { register := ⟨.const, 9⟩, modifier := .not },
          .source { register := ⟨.const, 0⟩, modifier := .bias }] }
    ∃ s, load ⟨[bones]⟩ [one, i] .columnMajor = .ok s ∧
      s.resolveSource i 0 = .ok (.named "-Bones[1]") ∧
      s.resolveSource i 1 = .ok (.placeholder "Error Const9") ∧
      s.resolveSource i 2 = .error (.unsupportedModifier .bias .float) ∧
      s.resolveSource i 3 = .error (.missingOperand .mad .source) := by
  intro bones one i
  obtain ⟨s, hload, hc0, hc5, hc9, htable⟩ : ∃ s, load ⟨[bones]⟩ [one, i] .columnMajor = .ok s ∧
      s.literal? ⟨.const, 0⟩ = some (.float (Vec4.replicate 0x3F800000)) ∧
      s.literal? ⟨.const, 5⟩ = none ∧ s.literal? ⟨.const, 9⟩ = none ∧ s.table = ⟨[bones]⟩ :=
    ⟨_, rfl, by decide +kernel, by decide +kernel, by decide +kernel, rfl⟩
  have houtcome := fun n h => ((resolveSource_outcome s i n).2 h _).1 rfl
  refine ⟨s, hload, ?_, ?_, ?_, (resolveSource_outcome s i 3).1 (by decide)⟩
  · obtain ⟨offset, hoffset, _, hnamed⟩ :=
      (houtcome 0 (by decide)).row rfl hc5 bones (by rw [htable]; decide) rfl
    change 5 = 4 + offset at hoffset
    obtain rfl : offset = 1 := by omega
    obtain ⟨text, htext, hresolve⟩ := hnamed.named rfl
    rw [hresolve, ← Except.ok.inj htext]
    decide
  · rw [(houtcome 1 (by decide)).unknown rfl hc9 (by rw [htable]; decide)]
    decide
  · exact ((houtcome 2 (by decide)).defined _ hc0).unsupported rfl

end Symbols

end ShaderAssembly
