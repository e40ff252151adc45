import ShaderAssembly.Proofs.Machine.MatrixProduct
import ShaderAssembly.Proofs.Rendering.SourceOutcome

namespace ShaderAssembly

/-- The component with a letter. -/
def Component.ofLetter? : Char → Option Component
  | 'x' => some .x
  | 'y' => some .y
  | 'z' => some .z
  | 'w' => some .w
  | _ => none

@[simp] private theorem Component.ofLetter?_letter (c : Component) :
    ofLetter? c.letter = some c := by
  cases c <;> rfl

theorem Component.mapM_ofLetter?_letters (cs : List Component) :
    (cs.map letter).mapM ofLetter? = some cs := by
  induction cs with
  | nil => rfl
  | cons c cs ih => simp [ih]

/-- The lanes that a swizzle stands for where `n` of them are wanted: the first ones if nothing is
written, one lane throughout if one letter is, and the lanes of the letters if there are `n`. -/
def swizzleLanes? (n : Nat) (text : String) : Option (List Component) :=
  match text.toList with
  | [] => some (Component.all.take n)
  | ['.', a] => (Component.ofLetter? a).map (List.replicate n)
  | '.' :: letters => if letters.length = n then letters.mapM Component.ofLetter? else none
  | _ => none

private theorem swizzleLanes?_letter (n : Nat) (c : Component) :
    swizzleLanes? n (String.ofList ['.', c.letter]) = some (List.replicate n c) := by
  simp [swizzleLanes?]

theorem swizzleLanes?_letters (cs : List Component) :
    swizzleLanes? cs.length (String.ofList ('.' :: cs.map Component.letter)) = some cs := by
  match cs with
  | [] => rfl
  | [c] => exact swizzleLanes?_letter 1 c
  | c :: c' :: cs =>
    rw [← Component.mapM_ofLetter?_letters (c :: c' :: cs)]
    simp [swizzleLanes?]

namespace Instruction

variable {i : Instruction} {src : Source} {d : Destination} {n : Nat}

/-- The swizzle of an operand stands for the lanes that feed the components written. -/
theorem swizzleLanes?_swizzleText (hdest : i.destination? = some d) (hmask : d.mask ≠ Mask.empty) :
    swizzleLanes? d.mask.size (i.swizzleText src) =
      some (d.mask.components.map src.swizzle.get) := by
  have hselection := selection_of_destination? hdest src
  have hwidth : max 1 (min 4 i.renderedWidth) = d.mask.size := by
    have hpos := Mask.size_pos hmask
    have hle := d.mask.size_le_four
    rw [renderedWidth_of_destination? hdest]
    omega
  have hlanes := src.swizzle.packs_masked d.mask
  rw [Mask.Packs] at hlanes
  have hsize : d.mask.size = (d.mask.components.map src.swizzle.get).length := by
    rw [List.length_map, Mask.size]
  simp only [swizzleText, hselection, hwidth, hlanes]
  generalize d.mask.components.map src.swizzle.get = lanes at hsize
  rw [hsize]
  split
  next hleading =>
    rw [beq_iff_eq] at hleading
    rw [hleading]
    simp [swizzleLanes?]
  next =>
    split
    next hall =>
      simp only [List.all_eq_true, beq_iff_eq] at hall
      rw [swizzleLanes?_letter, ← List.eq_replicate_of_mem hall]
    next => exact swizzleLanes?_letters lanes

end Instruction

namespace Symbols

variable {s : Symbols} {i : Instruction} {src : Source} {d : Destination} {n : Nat} {text : String}

/-- The names that a register has as an operand. -/
inductive Names (s : Symbols) (r : Register) : String → Prop
  /-- A row of a matrix in the table. -/
  | row (c : Constant) (offset : Nat) (hkind : r.kind.isConstant = true)
      (hfind : s.table.findType? r.kind.constantType r.number = some c)
      (hshape : c.shape = .matrixRows) (hoffset : r.number.toNat = c.start.toNat + offset) :
      Names s r (c.name ++ "[" ++ toString offset ++ "]")
  /-- Any other constant of the table. -/
  | whole (c : Constant) (hkind : r.kind.isConstant = true)
      (hfind : s.table.findType? r.kind.constantType r.number = some c)
      (hshape : c.shape ≠ .matrixRows) : Names s r c.name
  /-- A register that is no constant. -/
  | register (name : String) (hkind : r.kind.isConstant = false)
      (hname : s.registerName r = .ok name) : Names s r name

theorem Names.sourceName {r : Register} {c : Constant} (hkind : r.kind.isConstant = true)
    (hfind : s.table.findType? r.kind.constantType r.number = some c) :
    s.Names r (c.sourceName r.number) := by
  unfold Constant.sourceName
  split
  next hshape =>
    obtain ⟨offset, hoffset, _, hdifference⟩ := ConstantTable.exists_offset_of_findType? hfind
    rw [hdifference]
    exact .row c offset hkind hfind hshape hoffset
  next hshape => exact .whole c hkind hfind hshape

/-- An operand without a modifier that is named has its name and its swizzle for a text. -/
theorem exists_name_of_sourceText (hplain : src.modifier = .plain)
    (htext : s.sourceText i src = .ok (.named text)) :
    ∃ name, s.Names src.register name ∧ text = name ++ i.swizzleText src := by
  cases hkind : src.register.kind.isConstant with
  | false =>
    rw [sourceText_of_isConstant_eq_false hkind] at htext
    obtain ⟨name, hname, htext⟩ := exists_of_bind_eq_ok htext
    rw [namedText_of_plain hplain] at htext
    cases htext
    exact ⟨name, .register name hkind hname, rfl⟩
  | true =>
    cases hliteral : s.literal? src.register with
    | some value =>
      rw [sourceText_of_literal? hliteral] at htext
      cases hvalue : i.literalText src value <;> rw [hvalue] at htext <;> cases htext
    | none =>
      rw [sourceText_of_literal?_eq_none hkind hliteral] at htext
      cases hfind : s.table.findType? src.register.kind.constantType src.register.number with
      | none =>
        rw [tableText_eq_placeholder hfind] at htext
        cases htext
      | some c =>
        rw [tableText_eq_namedText hfind, namedText_of_plain hplain] at htext
        cases htext
        exact ⟨_, .sourceName hkind hfind, rfl⟩

/-- The swizzle in the text of an operand names the lanes that the machine reads: on every machine,
the components that the instruction writes are fed with the lanes that the swizzle stands for. -/
theorem named_lanes (hdest : i.destination? = some d) (hmask : d.mask ≠ Mask.empty)
    (hsrc : i.source? n = some src) (hplain : src.modifier = .plain)
    (htext : s.resolveSource i n = .ok (.named text)) :
    ∃ name suffix lanes fetch, s.Names src.register name ∧ text = name ++ suffix ∧
      swizzleLanes? d.mask.size suffix = some lanes ∧ i.fetch n = .ok fetch ∧
      ∀ m : Machine, d.mask.components.map (fetch.value m).get =
        lanes.map (m.register src.register).get := by
  rw [resolveSource, hsrc] at htext
  obtain ⟨name, hname, rfl⟩ := exists_name_of_sourceText hplain htext
  have hfetch : i.fetch n = .ok ⟨src.register, src.swizzle, id⟩ := by
    rw [Instruction.fetch_of_source? hsrc]
    exact Source.fetch_of_arithmetic (by rw [hplain]; rfl) _
  refine ⟨name, _, _, _, hname, rfl, Instruction.swizzleLanes?_swizzleText hdest hmask, hfetch, ?_⟩
  intro m
  rw [List.map_map]
  apply List.map_congr_left
  intro c _
  exact Swizzle.get_select _ _ c

/-- Two components in the middle are fed with the first two lanes, so no swizzle is written. -/
theorem named_lanes_row :
    let bones := Constant.matrix "Bones" .matrixRows 4 3 4
    let d : Destination := ⟨⟨.temp, 0⟩, ⟨false, true, true, false⟩⟩
    let r : Register := ⟨.const, 5⟩
    let i : Instruction :=
      { opcode := .mov, operands := [.destination d, .source ⟨r, ⟨.w, .x, .y, .z⟩, .plain⟩] }
    ∃ s, load ⟨[bones]⟩ [i] .columnMajor = .ok s ∧
      s.resolveSource i 0 = .ok (.named "Bones[1]") ∧
      ∃ name suffix lanes fetch, s.Names r name ∧ "Bones[1]" = name ++ suffix ∧
        swizzleLanes? 2 suffix = some lanes ∧ i.fetch 0 = .ok fetch ∧
        ∀ m : Machine, [Component.y, .z].map (fetch.value m).get =
          lanes.map (m.register r).get := by
  intro bones d r i
  obtain ⟨s, hload, htext⟩ : ∃ s, load ⟨[bones]⟩ [i] .columnMajor = .ok s ∧
      s.resolveSource i 0 = .ok (.named "Bones[1]") := ⟨_, rfl, by decide +kernel⟩
  exact ⟨s, hload, htext, named_lanes (d := d) rfl (by decide) rfl rfl htext⟩

end Symbols

end ShaderAssembly
