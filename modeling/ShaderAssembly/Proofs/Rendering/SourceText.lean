import ShaderAssembly.Proofs.Rendering.Folding

namespace ShaderAssembly

theorem LiteralStyle.exists_collapse_iff {style : LiteralStyle α} {constructorName : String}
    {width : Nat} {v : Vec4 α} :
    (∃ text, style.collapse constructorName width v = .ok text) ↔ 1 ≤ width ∧ width ≤ 4 := by
  unfold collapse
  split
  next hwidth =>
    simp only
    split <;> simp [hwidth]
  next hwidth => simp [hwidth]

/-- The name of register `number` of a constant in a source operand. -/
def Constant.sourceName (c : Constant) (number : UInt32) : String :=
  if c.shape = .matrixRows then c.name ++ "[" ++ toString (number - c.start).toNat ++ "]"
  else c.name

namespace Definition

/-- What a modifier is applied to in the literal of the value. -/
def context : Definition → ModifierContext
  | .float _ => .float
  | .int _ => .integer
  | .bool _ => .boolean

/-- Whether the value has four components. A truth value is the same for all components. -/
def isVector : Definition → Bool
  | .float _ | .int _ => true
  | .bool _ => false

end Definition

namespace Modifier

/-- Whether the modifier folds into the literal of the value. -/
def folds (m : Modifier) : Definition → Bool
  | .float _ => m.foldsFloat
  | .int _ => m == .plain || m == .negate
  | .bool _ => m == .plain

/-- Whether the modifier can be written around the name of a register. -/
def hasText : Modifier → Bool
  | .complement | .not | .unknown _ => false
  | _ => true

theorem exists_foldFloat_iff {m : Modifier} {v : Vec4 Float32} :
    (∃ u, m.foldFloat v = .ok u) ↔ m.foldsFloat = true := by
  cases m <;> simp [foldFloat, foldsFloat]

private theorem exists_foldInt {m : Modifier} {v : Vec4 Int32} (h : m.folds (.int v) = true)
    (u : Vec4 Int32) : ∃ folded, m.foldInt u = .ok folded := by
  cases m <;> first | exact ⟨_, rfl⟩ | cases h

private theorem exists_foldBool {m : Modifier} {b : Bool} (h : m.folds (.bool b) = true) :
    ∃ text, m.foldBool b = .ok text := by
  cases m <;> first | exact ⟨_, rfl⟩ | cases h

theorem exists_decorate {m : Modifier} (h : m.hasText = true) (name : String) :
    ∃ text, m.decorate name = .ok text := by
  cases m <;> first | exact ⟨_, rfl⟩ | cases h

theorem decorate_eq_error {m : Modifier} (h : m.hasText = false) (name : String) :
    m.decorate name = .error (.unsupportedModifier m .register) := by
  cases m <;> first | rfl | cases h

end Modifier

namespace Instruction

variable {i : Instruction} {src : Source} {value : Definition}

/-- The instruction has a destination, under the empty mask. -/
def WritesNothing (i : Instruction) : Prop := ∃ d, i.destination? = some d ∧ d.mask = Mask.empty

theorem renderedWidth_le_four (i : Instruction) : i.renderedWidth ≤ 4 := by
  unfold renderedWidth writtenSize?
  cases i.destination? with
  | none => exact Nat.le_refl 4
  | some d => exact d.mask.size_le_four

theorem renderedWidth_eq_zero_iff : i.renderedWidth = 0 ↔ i.WritesNothing := by
  unfold renderedWidth writtenSize? WritesNothing
  cases i.destination? with
  | none => simp
  | some d => simp [Mask.size_eq_zero_iff]

/-- The literal of a value in a source operand. -/
def literalText (i : Instruction) (src : Source) : Definition → Except RenderError String
  | .float words => src.modifier.foldFloat ((i.selection src).map words.floats.get) >>=
      LiteralStyle.floatExpression.collapse "float" i.renderedWidth
  | .int v => src.modifier.foldInt ((i.selection src).map v.get) >>=
      LiteralStyle.integer.collapse "int" i.renderedWidth
  | .bool b => src.modifier.foldBool b

theorem literalText_of_not_folds (h : src.modifier.folds value = false) :
    i.literalText src value = .error (.unsupportedModifier src.modifier value.context) := by
  obtain ⟨r, swizzle, m⟩ := src
  cases value <;> cases m <;> first | rfl | cases h

/-- The literal of four components is made of as many of them as are written. -/
theorem exists_literalText_eq_collapse (hfolds : src.modifier.folds value = true)
    (hvector : value.isVector = true) :
    ∃ (α : Type) (style : LiteralStyle α) (constructorName : String) (v : Vec4 α),
      i.literalText src value = style.collapse constructorName i.renderedWidth v := by
  cases value with
  | float words =>
    obtain ⟨folded, hfold⟩ := Modifier.exists_foldFloat_iff.2 hfolds
    refine ⟨_, LiteralStyle.floatExpression, "float", folded, ?_⟩
    rw [literalText, hfold]
    rfl
  | int v =>
    obtain ⟨folded, hfold⟩ := Modifier.exists_foldInt hfolds ((i.selection src).map v.get)
    refine ⟨_, LiteralStyle.integer, "int", folded, ?_⟩
    rw [literalText, hfold]
    rfl
  | bool b => cases hvector

theorem literalText_of_writesNothing (hfolds : src.modifier.folds value = true)
    (hvector : value.isVector = true) (hnothing : i.WritesNothing) :
    i.literalText src value = .error (.invalidWidth 0) := by
  obtain ⟨_, _, _, _, hcollapse⟩ := i.exists_literalText_eq_collapse hfolds hvector
  rw [hcollapse, renderedWidth_eq_zero_iff.2 hnothing]
  rfl

theorem exists_literalText (hfolds : src.modifier.folds value = true)
    (hwrites : ¬ (value.isVector = true ∧ i.WritesNothing)) :
    ∃ text, i.literalText src value = .ok text := by
  by_cases hvector : value.isVector = true
  · have hwidth : i.renderedWidth ≠ 0 := fun h =>
      hwrites ⟨hvector, renderedWidth_eq_zero_iff.1 h⟩
    obtain ⟨_, _, _, _, hcollapse⟩ := i.exists_literalText_eq_collapse hfolds hvector
    rw [hcollapse]
    exact LiteralStyle.exists_collapse_iff.2 ⟨Nat.pos_of_ne_zero hwidth, i.renderedWidth_le_four⟩
  · cases value with
    | bool b => exact Modifier.exists_foldBool hfolds
    | _ => exact absurd rfl hvector

/-- A value has a literal when the modifier folds into it and, unless it is a truth value, something
is written. -/
theorem exists_literalText_iff : (∃ text, i.literalText src value = .ok text) ↔
    src.modifier.folds value = true ∧ ¬ (value.isVector = true ∧ i.WritesNothing) := by
  constructor
  · rintro ⟨text, htext⟩
    have hfolds : src.modifier.folds value = true := by
      by_contra h
      rw [literalText_of_not_folds (Bool.eq_false_of_not_eq_true h)] at htext
      cases htext
    refine ⟨hfolds, ?_⟩
    rintro ⟨hvector, hnothing⟩
    rw [literalText_of_writesNothing hfolds hvector hnothing] at htext
    cases htext
  · rintro ⟨hfolds, hwrites⟩
    exact exists_literalText hfolds hwrites

end Instruction

namespace Symbols

variable {s : Symbols} {i : Instruction} {src : Source} {value : Definition} {c : Constant}

theorem namedText_of_plain (hplain : src.modifier = .plain) (name : String) :
    namedText i src name = .ok (.named (name ++ i.swizzleText src)) := by
  rw [namedText, hplain]
  rfl

/-- The text of an operand that reads a constant without a literal: the table names it, or nothing
is known of it. -/
def tableText (s : Symbols) (i : Instruction) (src : Source) : Except RenderError SourceText :=
  let r := src.register
  match s.table.findType? r.kind.constantType r.number with
  | none => .ok (.placeholder ("Error " ++ r.kind.name ++ toString r.number.toNat))
  | some c => namedText i src (c.sourceName r.number)

theorem tableText_eq_namedText
    (hfind : s.table.findType? src.register.kind.constantType src.register.number = some c) :
    s.tableText i src = namedText i src (c.sourceName src.register.number) := by
  simp only [tableText, hfind]

theorem tableText_eq_placeholder
    (hnone : s.table.findType? src.register.kind.constantType src.register.number = none) :
    s.tableText i src = .ok (.placeholder
      ("Error " ++ src.register.kind.name ++ toString src.register.number.toNat)) := by
  simp only [tableText, hnone]

private theorem tableText_ne_literal (s : Symbols) (i : Instruction) (src : Source)
    (text : String) : s.tableText i src ≠ .ok (.literal text) := by
  simp only [tableText]
  split
  next => simp
  next c _ =>
    unfold namedText
    cases src.modifier.decorate (c.sourceName src.register.number ++ i.swizzleText src) <;> nofun

theorem sourceText_of_isConstant (hkind : src.register.kind.isConstant = true) :
    s.sourceText i src = (s.literalText? i src).bind fun
      | some text => .ok (.literal text)
      | none => s.tableText i src := by
  simp only [sourceText, hkind, if_true, tableText, Constant.sourceName]
  rfl

/-- The value that literals of a constant register have. Unlike `Symbols.constant?` it is the same
for registers of different float files. -/
def literal? (s : Symbols) (r : Register) : Option Definition :=
  match r.kind with
  | .const | .const2 | .const3 | .const4 => (s.floatWords? r.number).map .float
  | .constInt => (s.int? r.number).map .int
  | .constBool => (s.bool? r.number).map .bool
  | _ => none

theorem isConstant_of_literal? {r : Register} (h : s.literal? r = some value) :
    r.kind.isConstant = true := by
  unfold literal? at h
  split at h <;> simp_all [RegisterKind.isConstant]

theorem literalText?_of_literal?_eq_none (h : s.literal? src.register = none) :
    s.literalText? i src = .ok none := by
  unfold literal? at h
  unfold literalText? float?
  split <;> simp_all

theorem literalText?_of_literal? (h : s.literal? src.register = some value) :
    s.literalText? i src = some <$> i.literalText src value := by
  unfold literal? at h
  unfold literalText?
  -- one case for each kind of constant; a register of another kind has no literal
  split at h
  case h_1 | h_2 | h_3 | h_4 | h_5 =>
    obtain ⟨v, hv, rfl⟩ := Option.map_eq_some_iff.1 h
    simp only [*, float?, Option.map_some, Instruction.literalText, map_bind]
  case h_6 =>
    obtain ⟨b, hb, rfl⟩ := Option.map_eq_some_iff.1 h
    simp only [*, Instruction.literalText]
  case h_7 => cases h

theorem sourceText_of_literal? (h : s.literal? src.register = some value) :
    s.sourceText i src = .literal <$> i.literalText src value := by
  rw [sourceText_of_isConstant (isConstant_of_literal? h), literalText?_of_literal? h]
  cases i.literalText src value <;> rfl

theorem sourceText_of_literal?_eq_none (hkind : src.register.kind.isConstant = true)
    (h : s.literal? src.register = none) : s.sourceText i src = s.tableText i src := by
  rw [sourceText_of_isConstant hkind, literalText?_of_literal?_eq_none h]
  rfl

theorem sourceText_of_isConstant_eq_false (hkind : src.register.kind.isConstant = false) :
    s.sourceText i src = s.registerName src.register >>= namedText i src := by
  simp only [sourceText, hkind, Bool.false_eq_true, if_false]

theorem sourceText_eq_literal_iff (hkind : src.register.kind.isConstant = true) {text : String} :
    s.sourceText i src = .ok (.literal text) ↔
      ∃ value, s.literal? src.register = some value ∧ i.literalText src value = .ok text := by
  cases hliteral : s.literal? src.register with
  | none =>
    rw [sourceText_of_literal?_eq_none hkind hliteral]
    simp [tableText_ne_literal]
  | some value =>
    rw [sourceText_of_literal? hliteral]
    cases hvalue : i.literalText src value <;> simp [hvalue]

end Symbols

end ShaderAssembly
