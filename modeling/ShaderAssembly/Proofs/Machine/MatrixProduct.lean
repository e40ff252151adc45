import ShaderAssembly.Proofs.Machine.Step

namespace ShaderAssembly

/-- The place of a component among the lanes. -/
def Component.index : Component → Nat
  | .x => 0
  | .y => 1
  | .z => 2
  | .w => 3

/-- The register `k` numbers on. -/
def Register.after (r : Register) (k : Nat) : Register :=
  ⟨r.kind, UInt32.ofNat (r.number.toNat + k)⟩

/-- The same operand, `k` registers on. -/
def Source.after (src : Source) (k : Nat) : Source :=
  { src with register := src.register.after k }

theorem Value.get_overwrite (old : Value) (xs : List Float32) (c : Component) :
    (old.overwrite xs).get c = xs[c.index]?.getD (old.get c) := by
  unfold overwrite
  split <;> cases c <;> rfl

/-- What is written to a lane for the number computed there: it is scaled, and clamped to [0, 1] if
the result saturates. -/
def Value.finishLane (factor : Float32) (saturate : Bool) (x : Float32) : Float32 :=
  if saturate then Binary32.clamp 0.0 1.0 (x * factor) else x * factor

theorem Value.get_finish (v : Value) (factor : Float32) (saturate : Bool) (c : Component) :
    (v.finish factor saturate).get c = finishLane factor saturate (v.get c) := by
  unfold finish finishLane
  split <;> simp

theorem Value.get_finish_congr {u v : Value} {c : Component} (h : u.get c = v.get c)
    (factor : Float32) (saturate : Bool) :
    (u.finish factor saturate).get c = (v.finish factor saturate).get c := by
  rw [get_finish, get_finish, h]

@[simp] theorem Mask.contains_single (c e : Component) : (Mask.single c).contains e = (c == e) := by
  cases c <;> cases e <;> rfl

private theorem getElem?_of_mapM_eq_ok {f : α → Except ε β} {as : List α} {bs : List β}
    (h : as.mapM f = .ok bs) {k : Nat} {a : α} (ha : as[k]? = some a) :
    ∃ b, bs[k]? = some b ∧ f a = .ok b := by
  have hmap := congrArg (·[k]?) (map_eq_of_mapM_eq_ok h)
  simp only [List.getElem?_map, ha, Option.map_some] at hmap
  obtain ⟨b, hb, hfirst⟩ := Option.map_eq_some_iff.1 hmap.symm
  exact ⟨b, hb, hfirst.symm⟩

/-- A source operand can be read when its modifier is arithmetic, whatever its register. -/
theorem Source.fetch_of_arithmetic {src : Source} {adjust : Value → Value}
    (hmodifier : src.modifier.arithmetic = .ok adjust) (r : Register) :
    src.fetch r = .ok ⟨r, src.swizzle, adjust⟩ := by
  unfold fetch
  rw [hmodifier]
  rfl

theorem Source.exists_arithmetic_of_fetch {src : Source} {r : Register} {f : Fetch}
    (hfetch : src.fetch r = .ok f) :
    ∃ adjust, src.modifier.arithmetic = .ok adjust ∧ f = ⟨r, src.swizzle, adjust⟩ := by
  obtain ⟨adjust, hmodifier, h⟩ := exists_of_bind_eq_ok hfetch
  cases h
  exact ⟨adjust, hmodifier, rfl⟩

/-- The rows and columns of a matrix product. -/
def Opcode.matrixShape? : Opcode → Option (Nat × Nat)
  | .m4x4 => some (4, 4)
  | .m4x3 => some (4, 3)
  | .m3x4 => some (3, 4)
  | .m3x3 => some (3, 3)
  | .m3x2 => some (3, 2)
  | _ => none

theorem Opcode.computes_of_matrixShape? {op : Opcode} {rows columns : Nat}
    (hshape : op.matrixShape? = some (rows, columns)) : op.computes = true := by
  unfold matrixShape? at hshape
  split at hshape <;> cases hshape <;> rfl

theorem Opcode.operation?_of_matrixShape? {op : Opcode} {rows columns : Nat}
    (hshape : op.matrixShape? = some (rows, columns)) :
    op.operation? = some (.matrix rows columns) := by
  unfold matrixShape? at hshape
  split at hshape <;> cases hshape <;> rfl

theorem Opcode.bounds_of_matrixShape? {op : Opcode} {rows columns : Nat}
    (hshape : op.matrixShape? = some (rows, columns)) : (rows = 3 ∨ rows = 4) ∧ 0 < columns := by
  unfold matrixShape? at hshape
  split at hshape <;> cases hshape <;> simp

namespace Instruction

theorem formula_of_matrixShape? {i : Instruction} {rows columns : Nat}
    (hshape : i.opcode.matrixShape? = some (rows, columns)) :
    i.formula = i.matrix rows columns := by
  rw [Instruction.formula, Opcode.operation?_of_matrixShape? hshape]

/-- The dot product for one component of a matrix product: the vector against the line of the matrix
that has the place of the component. -/
def dotProduct (rows : Nat) (result : ResultModifier) (r : Register) (vector matrix : Source)
    (c : Component) : Instruction :=
  { opcode := if rows = 3 then .dp3 else .dp4
    operands := [.destination ⟨r, Mask.single c⟩, .source vector, .source (matrix.after c.index)]
    result }

theorem fetch_of_source? {i : Instruction} {n : Nat} {src : Source}
    (hsrc : i.source? n = some src) : i.fetch n = src.fetch src.register := by
  unfold fetch operand
  rw [hsrc]
  rfl

private theorem formula_of_binary {i : Instruction} {f : Value → Value → Value} {a b : Fetch}
    (hop : i.opcode.operation? = some (.binary f)) (ha : i.fetch 0 = .ok a)
    (hb : i.fetch 1 = .ok b) : i.formula = .ok (.binary f a b) := by
  rw [Instruction.formula, hop, ha, hb]
  rfl

private theorem effect_dotProduct {rows : Nat} (hrows : rows = 3 ∨ rows = 4)
    {result : ResultModifier}
    {vector matrix : Source} {f g : Value → Value} {factor : Float32}
    (hvector : vector.modifier.arithmetic = .ok f) (hmatrix : matrix.modifier.arithmetic = .ok g)
    (hfactor : result.shift.factor = .ok factor) (r : Register) (c : Component) :
    (dotProduct rows result r vector matrix c).effect =
      .ok (.compute (.binary (fun a b => Vec4.replicate (Value.dot rows a b))
          ⟨vector.register, vector.swizzle, f⟩
          ⟨matrix.register.after c.index, matrix.swizzle, g⟩)
        ⟨r, Mask.single c⟩ factor result.saturate) := by
  refine effect_of_formula ?_ rfl hfactor
  have hfetch₀ := Source.fetch_of_arithmetic hvector vector.register
  have hfetch₁ : (matrix.after c.index).fetch (matrix.register.after c.index) =
      .ok ⟨matrix.register.after c.index, matrix.swizzle, g⟩ :=
    Source.fetch_of_arithmetic hmatrix _
  obtain rfl | rfl := hrows
  · exact formula_of_binary rfl hfetch₀ hfetch₁
  · exact formula_of_binary rfl hfetch₀ hfetch₁

/-- What it takes for a matrix product to have a formula. -/
private theorem matrix_eq_ok {i : Instruction} {rows columns : Nat} {vector matrix : Source}
    {formula : Formula} (hcolumns : 0 < columns) (hvector : i.source? 0 = some vector)
    (hmatrix : i.source? 1 = some matrix) (hformula : i.matrix rows columns = .ok formula) :
    ∃ f g lines, vector.modifier.arithmetic = .ok f ∧ matrix.modifier.arithmetic = .ok g ∧
      formula = .matrix rows ⟨vector.register, vector.swizzle, f⟩ lines ∧
      ∀ k < columns, lines[k]? = some ⟨matrix.register.after k, matrix.swizzle, g⟩ := by
  unfold Instruction.matrix at hformula
  obtain ⟨a, ha, hformula⟩ := exists_of_bind_eq_ok hformula
  obtain ⟨base, hbase, hformula⟩ := exists_of_bind_eq_ok hformula
  obtain ⟨d, _, hformula⟩ := exists_of_bind_eq_ok hformula
  obtain ⟨lines, hlines, hformula⟩ := exists_of_bind_eq_ok hformula
  cases hformula
  rw [fetch_of_source? hvector] at ha
  obtain ⟨f, hf, rfl⟩ := Source.exists_arithmetic_of_fetch ha
  obtain rfl : base = matrix := by
    unfold operand at hbase
    rw [hmatrix] at hbase
    cases hbase
    rfl
  have hline : ∀ k < columns, ∃ line, lines[k]? = some line ∧
      base.fetch (base.register.after k) = .ok line := by
    intro k hk
    obtain ⟨line, hline, hfetch⟩ := getElem?_of_mapM_eq_ok hlines (List.getElem?_range hk)
    simp only [matrixLine] at hfetch
    split at hfetch
    next => exact ⟨line, hline, hfetch⟩
    next => cases hfetch
  obtain ⟨first, _, hfirst⟩ := hline 0 hcolumns
  obtain ⟨g, hg, _⟩ := Source.exists_arithmetic_of_fetch hfirst
  refine ⟨f, g, lines, hf, hg, rfl, ?_⟩
  intro k hk
  obtain ⟨line, hline, hfetch⟩ := hline k hk
  rw [Source.fetch_of_arithmetic hg] at hfetch
  cases hfetch
  exact hline

/-- What it takes to execute a matrix product, and what is executed then. -/
theorem exists_of_effect_matrix {i : Instruction} {rows columns : Nat} {d : Destination}
    {vector matrix : Source} {e : Effect} (hshape : i.opcode.matrixShape? = some (rows, columns))
    (hdest : i.destination? = some d) (hvector : i.source? 0 = some vector)
    (hmatrix : i.source? 1 = some matrix) (heffect : i.effect = .ok e) :
    ∃ f g lines factor, vector.modifier.arithmetic = .ok f ∧ matrix.modifier.arithmetic = .ok g ∧
      i.result.shift.factor = .ok factor ∧
      e = .compute (.matrix rows ⟨vector.register, vector.swizzle, f⟩ lines) d factor
        i.result.saturate ∧
      ∀ k < columns, lines[k]? = some ⟨matrix.register.after k, matrix.swizzle, g⟩ := by
  have hcolumns := (Opcode.bounds_of_matrixShape? hshape).2
  obtain ⟨formula, factor, hformula, hfactor, rfl⟩ :=
    exists_compute_of_effect (Opcode.computes_of_matrixShape? hshape) hdest heffect
  rw [formula_of_matrixShape? hshape] at hformula
  obtain ⟨f, g, lines, hf, hg, rfl, hlines⟩ := matrix_eq_ok hcolumns hvector hmatrix hformula
  exact ⟨f, g, lines, factor, hf, hg, hfactor, rfl, hlines⟩

end Instruction

namespace Machine

section DotProducts

variable {rows columns : Nat} {result : ResultModifier} {r : Register} {vector matrix : Source}
  {f g : Value → Value} {factor : Float32}

/-- What the dot product for one component of a matrix product writes to that component. -/
def dotResult (m : Machine) (rows : Nat) (vector matrix : Source) (f g : Value → Value)
    (factor : Float32) (saturate : Bool) (c : Component) : Float32 :=
  let a := Fetch.value ⟨vector.register, vector.swizzle, f⟩ m
  let b := Fetch.value ⟨matrix.register.after c.index, matrix.swizzle, g⟩ m
  (Value.finish factor saturate (Vec4.replicate (Value.dot rows a b))).get c

theorem step_dotProduct (m : Machine) (hrows : rows = 3 ∨ rows = 4)
    (hvector : vector.modifier.arithmetic = .ok f) (hmatrix : matrix.modifier.arithmetic = .ok g)
    (hfactor : result.shift.factor = .ok factor) (r : Register) (c : Component) :
    ∃ next, m.step (Instruction.dotProduct rows result r vector matrix c) = (next, .ok .next) ∧
      ∀ q e, (next.register q).get e =
        if r = q ∧ q.kind.holdsVector = true ∧ e = c then
          m.dotResult rows vector matrix f g factor result.saturate e
        else (m.register q).get e := by
  refine ⟨_, step_of_effect
    (Instruction.effect_dotProduct hrows hvector hmatrix hfactor r c), ?_⟩
  intro q e
  rw [get_register_perform_compute]
  by_cases he : e = c
  · subst he
    simp only [Mask.contains_single, beq_self_eq_true]
    rfl
  · simp [he, Ne.symm he]

/-- The dot products for some components write just these components, each as if it were the only
one: none of them writes a register that another one reads. -/
theorem get_register_run_dotProducts (m : Machine) (cs : List Component)
    (hrows : rows = 3 ∨ rows = 4) (hvector : vector.modifier.arithmetic = .ok f)
    (hmatrix : matrix.modifier.arithmetic = .ok g) (hfactor : result.shift.factor = .ok factor)
    (hne : r ≠ vector.register) (hlines : ∀ c ∈ cs, r ≠ matrix.register.after c.index) :
    (m.run (cs.map (Instruction.dotProduct rows result r vector matrix))).2 = .ok cs.length ∧
      ∀ q e, ((m.run (cs.map (Instruction.dotProduct rows result r vector matrix))).1.register
          q).get e =
        if r = q ∧ q.kind.holdsVector = true ∧ e ∈ cs then
          m.dotResult rows vector matrix f g factor result.saturate e
        else (m.register q).get e := by
  induction cs generalizing m with
  | nil => simp [run]
  | cons c cs ih =>
    obtain ⟨next, hstep, hnext⟩ := m.step_dotProduct hrows hvector hmatrix hfactor r c
    have hkeep : ∀ q, r ≠ q → next.register q = m.register q := by
      intro q hq
      apply Vec4.ext_get
      intro e
      rw [hnext, if_neg fun h => hq h.1]
    obtain ⟨hrun, hlanes⟩ := ih next fun e he => hlines e (List.mem_cons_of_mem c he)
    rw [List.map_cons, run_cons_of_next hstep]
    refine ⟨by rw [hrun]; rfl, ?_⟩
    intro q e
    rw [hlanes, hnext]
    by_cases he : e ∈ cs
    · -- A later dot product reads `next`, but the vector and its line there are those of `m`.
      have hresult : next.dotResult rows vector matrix f g factor result.saturate e =
          m.dotResult rows vector matrix f g factor result.saturate e := by
        have hline := hlines e (List.mem_cons_of_mem c he)
        simp only [dotResult, Fetch.value, hkeep _ hne, hkeep _ hline]
      rw [hresult]
      grind
    · simp [he]

/-- When a matrix product can be executed, the dot products for the components that it writes can be
executed in its place, and leave every register with the same value. The destination may not be the
vector or a line of the matrix, since the second dot product would read what the first one wrote. -/
theorem run_dotProducts {m : Machine} {i : Instruction} {d : Destination} {flow : Flow}
    (hshape : i.opcode.matrixShape? = some (rows, columns)) (hdest : i.destination? = some d)
    (hvector : i.source? 0 = some vector) (hmatrix : i.source? 1 = some matrix)
    (hmask : ∀ c, d.mask.contains c = true → c.index < columns)
    (hne : d.register ≠ vector.register)
    (hlines : ∀ k < columns, d.register ≠ matrix.register.after k)
    (hstep : (m.step i).2 = .ok flow) :
    let dots := d.mask.components.map
      (Instruction.dotProduct rows i.result d.register vector matrix)
    (m.run dots).2 = .ok dots.length ∧
      ∀ q, (m.run dots).1.register q = (m.step i).1.register q := by
  intro dots
  have hrows := (Opcode.bounds_of_matrixShape? hshape).1
  obtain ⟨e, heffect⟩ := exists_effect_of_step hstep
  obtain ⟨f, g, lines, factor, hf, hg, hfactor, rfl, hline⟩ :=
    Instruction.exists_of_effect_matrix hshape hdest hvector hmatrix heffect
  obtain ⟨hrun, hlanes⟩ := m.get_register_run_dotProducts d.mask.components hrows hf hg
    hfactor hne fun c hc => hlines c.index (hmask c (Mask.mem_components.1 hc))
  refine ⟨by rw [hrun, List.length_map], ?_⟩
  intro q
  apply Vec4.ext_get
  intro c
  rw [hlanes, step_of_effect heffect, get_register_perform_compute]
  simp only [Mask.mem_components]
  split
  next hwritten =>
    apply Value.get_finish_congr
    rw [Formula.value, Value.get_overwrite, List.getElem?_map,
      hline c.index (hmask c hwritten.2.2)]
    exact Vec4.get_replicate _ c
  next => rfl

theorem run_dotProducts_m4x3 :
    let r : Register := ⟨.temp, 0⟩
    let m := Machine.empty.setRegister ⟨.input, 0⟩ ⟨1.0, 2.0, 3.0, 4.0⟩
      |>.setRegister r ⟨5.0, 6.0, 7.0, 8.0⟩
      |>.setRegister ⟨.const, 10⟩ ⟨-0.25, 0.5, -0.5, 0.25⟩
      |>.setRegister ⟨.const, 11⟩ ⟨9.0, -9.0, 9.0, -9.0⟩
      |>.setRegister ⟨.const, 12⟩ ⟨-0.5, -0.5, 0.25, -0.5⟩
    let vector : Source := { register := ⟨.input, 0⟩, swizzle := ⟨.w, .z, .y, .x⟩ }
    let line (k : UInt32) : Source := { register := ⟨.const, k⟩, modifier := .negate }
    let result : ResultModifier := { saturate := true, shift := .times2 }
    let product : Instruction :=
      { opcode := .m4x3
        operands := [.destination ⟨r, ⟨true, false, true, false⟩⟩, .source vector,
          .source (line 10)]
        result }
    let dot (c : Component) (k : UInt32) : Instruction :=
      { opcode := .dp4
        operands := [.destination ⟨r, Mask.single c⟩, .source vector, .source (line k)]
        result }
    (m.step product).1.register r = ⟨0.5, 6.0, 1.0, 8.0⟩ ∧
      (m.run [dot .x 10, dot .z 12]).2 = .ok 2 ∧
      ∀ q, (m.run [dot .x 10, dot .z 12]).1.register q = (m.step product).1.register q := by
  intro r m vector line result product dot
  have hmask : ∀ c, (⟨true, false, true, false⟩ : Mask).contains c = true → c.index < 3 := by
    intro c
    cases c <;> decide
  refine ⟨by decide +kernel, ?_⟩
  exact run_dotProducts (m := m) (i := product) rfl rfl rfl rfl hmask (by decide) (by decide)
    (rfl : (m.step product).2 = .ok .next)

end DotProducts

end Machine

end ShaderAssembly
