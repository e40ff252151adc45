import ShaderAssembly.Machine.Run
import ShaderAssembly.Rendering.Source
import ShaderAssembly.Proofs.Binary32.Negation
import ShaderAssembly.Proofs.Rendering.Literal

namespace ShaderAssembly

private theorem Vec4.get_map_comp (f : α → β) (v : Vec4 α) : (v.map f).get = f ∘ v.get :=
  funext (Vec4.get_map f v)

/-- `packed` starts with the lanes of `v` that the mask selects, in lane order. -/
def Mask.Packs (m : Mask) (v packed : Vec4 α) : Prop :=
  packed.toList.take m.size = m.components.map v.get

theorem Mask.exists_components_eq_cons {m : Mask} (hmask : m ≠ Mask.empty) :
    ∃ c cs, m.components = c :: cs := by
  cases hcomponents : m.components with
  | nil =>
    have hsize : m.size = 0 := by rw [Mask.size, hcomponents]; rfl
    exact absurd (Mask.size_eq_zero_iff.1 hsize) hmask
  | cons c cs => exact ⟨c, cs, rfl⟩

theorem Swizzle.packs_masked (s : Swizzle) (m : Mask) : m.Packs s (s.masked m) := by
  obtain ⟨x, y, z, w⟩ := m
  cases x <;> cases y <;> cases z <;> cases w <;> rfl

theorem Mask.Packs.map {m : Mask} {v packed : Vec4 α} (h : m.Packs v packed) (f : α → β) :
    m.Packs (v.map f) (packed.map f) := by
  change (packed.toList.map f).take m.size = _
  rw [← List.map_take, h, List.map_map, Vec4.get_map_comp]

/-- Every vector can be packed: its lanes are read in the order in which `Swizzle.masked` packs
them. -/
theorem Mask.packs_masked_identity (m : Mask) (v : Vec4 α) :
    m.Packs v ((Swizzle.identity.masked m).map v.get) :=
  (Swizzle.identity.packs_masked m).map v.get

namespace Modifier

/-- The modifiers that fold into a float literal. -/
def foldsFloat : Modifier → Bool
  | .plain | .negate | .abs | .absNegate | .double | .doubleNegate => true
  | _ => false

/-- A modifier that folds does the same to a lane in a literal and on the machine. -/
theorem exists_lane_of_foldsFloat {m : Modifier} (hm : m.foldsFloat = true) :
    ∃ f : Float32 → Float32,
      (∀ v, m.foldFloat v = .ok (v.map f)) ∧ m.arithmetic = .ok (Vec4.map f) := by
  cases m with
  | plain => exact ⟨id, fun _ => rfl, rfl⟩
  | negate => exact ⟨_, fun _ => rfl, rfl⟩
  | abs => exact ⟨_, fun _ => rfl, rfl⟩
  | absNegate => exact ⟨_, fun _ => rfl, rfl⟩
  | double => exact ⟨_, fun _ => rfl, rfl⟩
  | doubleNegate =>
    refine ⟨fun x => -(x * 2.0), fun v => ?_, rfl⟩
    simp only [foldFloat, Binary32.mul_neg_two]
  | _ => cases hm

end Modifier

namespace Instruction

variable {i : Instruction} {d : Destination}

theorem selection_of_destination? (hdest : i.destination? = some d) (src : Source) :
    i.selection src = src.swizzle.masked d.mask := by
  simp [selection, hdest]

theorem renderedWidth_of_destination? (hdest : i.destination? = some d) :
    i.renderedWidth = d.mask.size := by
  simp [renderedWidth, writtenSize?, hdest]

end Instruction

namespace Symbols

variable {s : Symbols} {i : Instruction} {n : Nat} {d : Destination} {src : Source}
  {v : Vec4 Float32}

theorem sourceText_of_literalText? {text : String} (hkind : src.register.kind.isConstant = true)
    (hliteral : s.literalText? i src = .ok (some text)) :
    s.sourceText i src = .ok (.literal text) := by
  simp only [sourceText, hkind, if_true, hliteral]
  rfl

/-- The literal of a float constant that the shader defines: its lanes through the swizzle and the
modifier, as many as the instruction writes. -/
theorem resolveSource_const {f : Float32 → Float32} {c : Component} {cs : List Component}
    (hdest : i.destination? = some d) (hcomponents : d.mask.components = c :: cs)
    (hsrc : i.source? n = some src) (hkind : src.register.kind = .const)
    (hfloat : s.float? src.register.number = some v)
    (hfold : ∀ u, src.modifier.foldFloat u = .ok (u.map f)) :
    s.resolveSource i n = .ok (.literal (LiteralStyle.floatExpression.expression "float"
      (f (v.get (src.swizzle.get c))) (cs.map fun c => f (v.get (src.swizzle.get c))))) := by
  have hselection := Instruction.selection_of_destination? hdest src
  have hwidth := Instruction.renderedWidth_of_destination? hdest
  have hpacks := ((src.swizzle.packs_masked d.mask).map v.get).map f
  rw [Mask.Packs, hcomponents, List.map_cons] at hpacks
  have hcollapse := LiteralStyle.floatExpression.collapse_eq "float" hpacks d.mask.size_le_four
  simp only [Vec4.get_map_comp, Function.comp_apply] at hcollapse
  have hliteral : s.literalText? i src = some <$> LiteralStyle.floatExpression.collapse "float"
      d.mask.size (((src.swizzle.masked d.mask).map v.get).map f) := by
    simp only [literalText?, hkind, hfloat, hselection, hwidth, hfold]
    rfl
  rw [hcollapse] at hliteral
  unfold resolveSource
  rw [hsrc]
  exact sourceText_of_literalText? (by rw [hkind]; rfl) hliteral

/-- A source operand that reads a float constant of the shader becomes the literal of the values
that the machine reads there, in the components that the instruction writes. The machine reads all
four lanes and then applies the modifier; rendering packs the written ones to the front first. The
modifiers that fold work on each lane alone, so the order makes no difference. -/
theorem resolveSource_eq_collapse {m : Machine} (hdest : i.destination? = some d)
    (hmask : d.mask ≠ Mask.empty) (hsrc : i.source? n = some src)
    (hkind : src.register.kind = .const) (hfloat : s.float? src.register.number = some v)
    (hvalue : m.register src.register = v) (hmodifier : src.modifier.foldsFloat = true) :
    ∃ fetch text, i.fetch n = .ok fetch ∧
      s.resolveSource i n = .ok (.literal text) ∧
      (∃ packed, d.mask.Packs (fetch.value m) packed) ∧
      ∀ packed, d.mask.Packs (fetch.value m) packed →
        LiteralStyle.floatExpression.collapse "float" d.mask.size packed = .ok text := by
  obtain ⟨f, hfold, hadjust⟩ := Modifier.exists_lane_of_foldsFloat hmodifier
  obtain ⟨c, cs, hcomponents⟩ := Mask.exists_components_eq_cons hmask
  have hfetch : i.fetch n = .ok ⟨src.register, src.swizzle, Vec4.map f⟩ := by
    have hoperand : i.operand n = .ok src := by simp [Instruction.operand, hsrc]
    unfold Instruction.fetch
    rw [hoperand]
    change src.fetch src.register = _
    unfold Source.fetch
    rw [hadjust]
    rfl
  refine ⟨_, _, hfetch, resolveSource_const hdest hcomponents hsrc hkind hfloat hfold,
    ⟨_, d.mask.packs_masked_identity _⟩, ?_⟩
  intro packed hpacks
  rw [Mask.Packs, hcomponents, List.map_cons] at hpacks
  rw [LiteralStyle.floatExpression.collapse_eq "float" hpacks d.mask.size_le_four]
  simp only [Fetch.value, hvalue, Swizzle.select, Vec4.get_map_comp, Function.comp_apply]
  rfl

theorem resolveSource_eq_collapse_reversed :
    let v : Vec4 Float32 := ⟨1.0, 2.0, 3.0, 4.0⟩
    let r : Register := ⟨.const, 3⟩
    let d : Destination := ⟨⟨.temp, 0⟩, ⟨true, false, true, false⟩⟩
    let i : Instruction :=
      { opcode := .mov
        operands := [.destination d, .source ⟨r, ⟨.w, .z, .y, .x⟩, .doubleNegate⟩] }
    let s := Symbols.define { order := .columnMajor, table := ⟨[]⟩ } r (.float v.words)
    let m := Machine.empty.setRegister r v
    s.float? 3 = some v ∧ m.register r = v ∧
      ∃ fetch, i.fetch 0 = .ok fetch ∧
        s.resolveSource i 0 = .ok (.literal "float2(-8, -4)") ∧
        ∀ packed, d.mask.Packs (fetch.value m) packed →
          LiteralStyle.floatExpression.collapse "float" 2 packed = .ok "float2(-8, -4)" := by
  intro v r d i s m
  have hfloat : s.float? 3 = some v := by decide +kernel
  have hvalue : m.register r = v := by decide +kernel
  obtain ⟨fetch, text, hfetch, hresolve, _, hcollapse⟩ :=
    resolveSource_eq_collapse (s := s) (i := i) (n := 0) (d := d) (m := m) rfl (by decide) rfl rfl
      hfloat hvalue rfl
  have htext : s.resolveSource i 0 = .ok (.literal "float2(-8, -4)") := by
    have hcomponents : d.mask.components = [.x, .z] := rfl
    rw [resolveSource_const rfl hcomponents rfl rfl hfloat fun _ => rfl, Except.ok.injEq,
      SourceText.literal.injEq]
    decide +kernel
  obtain rfl : text = "float2(-8, -4)" := by simpa [htext] using hresolve.symm
  exact ⟨hfloat, hvalue, fetch, hfetch, htext, hcollapse⟩

end Symbols

end ShaderAssembly
