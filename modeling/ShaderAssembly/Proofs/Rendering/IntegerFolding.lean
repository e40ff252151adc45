import ShaderAssembly.Proofs.Binary32.Integer
import ShaderAssembly.Proofs.Machine.MatrixProduct
import ShaderAssembly.Proofs.Rendering.SourceText

namespace ShaderAssembly

/-- A modifier that folds does to an integer what it does to the number on the machine, unless it
negates the least integer. -/
theorem Modifier.exists_lane_of_folds_int {m : Modifier} (hm : m = .plain ∨ m = .negate) :
    ∃ (f : Int32 → Int32) (g : Float32 → Float32),
      (∀ v, m.foldInt v = .ok (v.map f)) ∧ m.arithmetic = .ok (Vec4.map g) ∧
        ∀ n, (Binary32.ofInt32 (f n) == g (Binary32.ofInt32 n)) = true ↔
          ¬ (m = .negate ∧ n = Int32.minValue) := by
  obtain rfl | rfl := hm
  · refine ⟨id, id, fun _ => rfl, rfl, fun n => ?_⟩
    have hself := (Binary32.isNearest_ofInt32 n).beq (Binary32.isNearest_ofInt32 n)
    simpa using hself
  · refine ⟨_, _, fun _ => rfl, rfl, fun n => ?_⟩
    simpa using Binary32.ofInt32_neg_beq_iff n

namespace Symbols

variable {s : Symbols} {i : Instruction} {n : Nat} {d : Destination} {src : Source}
  {v : Vec4 Int32}

/-- A source operand that reads an integer constant of the shader becomes the literal of its
integers under the modifier, in the components that the instruction writes. The machine reads the
numbers nearest to them there, except for the negative of the least integer. -/
theorem folded_integers_agree_iff {m : Machine} (hdest : i.destination? = some d)
    (hmask : d.mask ≠ Mask.empty) (hsrc : i.source? n = some src)
    (hkind : src.register.kind = .constInt) (hint : s.int? src.register.number = some v)
    (hmachine : m.int? src.register.number = some v)
    (hmodifier : src.modifier = .plain ∨ src.modifier = .negate) :
    ∃ fetch folded lanes text, i.fetch n = .ok fetch ∧
      src.modifier.foldInt ((i.selection src).map v.get) = .ok folded ∧
      LiteralStyle.integer.collapse "int" d.mask.size folded = .ok text ∧
      s.resolveSource i n = .ok (.literal text) ∧
      d.mask.Packs lanes folded ∧
      ∀ c, d.mask.contains c = true →
        ((Binary32.ofInt32 (lanes.get c) == (fetch.value m).get c) = true ↔
          ¬ (src.modifier = .negate ∧ v.get (src.swizzle.get c) = Int32.minValue)) := by
  obtain ⟨f, g, hfold, hadjust, hagree⟩ := Modifier.exists_lane_of_folds_int hmodifier
  have hfetch : i.fetch n = .ok ⟨src.register, src.swizzle, Vec4.map g⟩ :=
    (Instruction.fetch_of_source? hsrc).trans (Source.fetch_of_arithmetic hadjust _)
  have hvalue : m.register src.register = v.map Binary32.ofInt32 := by
    simp only [Machine.register, hkind, hmachine]
  obtain ⟨text, htext⟩ : ∃ text, LiteralStyle.integer.collapse "int" d.mask.size
      (((i.selection src).map v.get).map f) = .ok text :=
    LiteralStyle.exists_collapse_iff.2 ⟨Mask.size_pos hmask, d.mask.size_le_four⟩
  have hliteral : s.literal? src.register = some (.int v) := by
    simp only [literal?, hkind, hint, Option.map_some]
  have hresolve : s.resolveSource i n = .ok (.literal text) := by
    unfold resolveSource
    rw [hsrc]
    change s.sourceText i src = _
    rw [sourceText_of_literal? hliteral, Instruction.literalText, hfold,
      Instruction.renderedWidth_of_destination? hdest]
    exact congrArg (Functor.map SourceText.literal) htext
  refine ⟨_, _, (src.swizzle.select v).map f, text, hfetch, hfold _, htext, hresolve, ?_,
    fun c _ => ?_⟩
  · rw [Instruction.selection_of_destination? hdest]
    exact ((src.swizzle.packs_masked d.mask).map v.get).map f
  · have hlane := hagree (v.get (src.swizzle.get c))
    simpa [Fetch.value, hvalue] using hlane

theorem folded_integers_agree_iff_two_lanes :
    let v : Vec4 Int32 := ⟨1, Int32.minValue, 3, 16777217⟩
    let src : Source := ⟨⟨.constInt, 3⟩, ⟨.w, .z, .y, .x⟩, .negate⟩
    let d : Destination := ⟨⟨.temp, 0⟩, ⟨true, false, true, false⟩⟩
    let i : Instruction := { opcode := .mov, operands := [.destination d, .source src] }
    let s := Symbols.define { order := .columnMajor, table := ⟨[]⟩ } src.register (.int v)
    let m := Machine.empty.define 3 (.int v)
    s.int? 3 = some v ∧ m.int? 3 = some v ∧
      ∃ fetch folded lanes, i.fetch 0 = .ok fetch ∧
        Modifier.negate.foldInt ((i.selection src).map v.get) = .ok folded ∧
        s.resolveSource i 0 = .ok (.literal "int2(-16777217, -2147483648)") ∧
        d.mask.Packs lanes folded ∧
        (Binary32.ofInt32 (lanes.get .x) == (fetch.value m).get .x) = true ∧
        (Binary32.ofInt32 (lanes.get .z) == (fetch.value m).get .z) = false := by
  intro v src d i s m
  have hint : s.int? 3 = some v := by decide +kernel
  have hmachine : m.int? 3 = some v := by decide +kernel
  obtain ⟨fetch, folded, lanes, text, hfetch, hfold, htext, hresolve, hpacks, hagree⟩ :=
    folded_integers_agree_iff (s := s) (i := i) (n := 0) (d := d) (v := v) (m := m)
      rfl (by decide) rfl rfl hint hmachine (.inr rfl)
  obtain rfl : text = "int2(-16777217, -2147483648)" := by
    cases hfold
    exact (Except.ok.inj htext).symm.trans (by decide +kernel)
  refine ⟨hint, hmachine, fetch, folded, lanes, hfetch, hfold, hresolve, hpacks, ?_, ?_⟩
  · exact (hagree .x rfl).2 (by decide)
  · exact Bool.eq_false_of_not_eq_true fun h => (hagree .z rfl).1 h ⟨rfl, by decide⟩

/-- The least integer of the shader is written under a minus sign as it is, and the machine reads
its magnitude. -/
theorem least_integer_read_differs :
    let program := [Instruction.defineInt ⟨.constInt, 0⟩ ⟨Int32.minValue, 0, 0, 0⟩]
    let src : Source := ⟨⟨.constInt, 0⟩, Swizzle.identity, .negate⟩
    let i : Instruction :=
      { opcode := .mov
        operands := [.destination ⟨⟨.temp, 0⟩, Mask.single .x⟩, .source src] }
    let m := (Machine.empty.loadConstants program).1
    ∃ s v folded fetch, Symbols.load ⟨[]⟩ program .columnMajor = .ok s ∧
      (Machine.empty.loadConstants program).2 = .ok () ∧
      s.int? 0 = some v ∧ m.int? 0 = some v ∧
      Modifier.negate.foldInt ((i.selection src).map v.get) = .ok folded ∧
      s.resolveSource i 0 = .ok (.literal "-2147483648") ∧ i.fetch 0 = .ok fetch ∧
      folded.x = Int32.minValue ∧ (fetch.value m).x = 2147483648.0 ∧
      (Binary32.ofInt32 folded.x == (fetch.value m).x) = false := by
  intro program src i m
  refine ⟨_, _, _, _, rfl, rfl, rfl, rfl, rfl, ?_, rfl, ?_, ?_, ?_⟩
  · decide +kernel
  · decide +kernel
  · decide +kernel
  · decide +kernel

end Symbols

end ShaderAssembly
