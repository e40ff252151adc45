import ShaderAssembly.Proofs.Symbols.Recovery
import ShaderAssembly.Proofs.Symbols.Table

namespace ShaderAssembly

/-- The float constant that an instruction defines under this number. Its register may be of any
kind. -/
def Instruction.floatDefinition? (i : Instruction) (number : UInt32) : Option (Vec4 Float32) :=
  match i.destination?, i.definition? with
  | some d, some (.float words) => if d.register.number = number then some words.floats else none
  | _, _ => none

theorem Instruction.floatDefinition?_defineFloat (r : Register) (words : Vec4 UInt32) :
    (defineFloat r words).floatDefinition? r.number = some words.floats := by
  have hdef : (defineFloat r words).definition? = some (.float words) := rfl
  have hdest : (defineFloat r words).destination? = some ⟨r, Mask.full⟩ := rfl
  rw [floatDefinition?, hdest, hdef]
  exact if_pos rfl

theorem Instruction.floatDefinition?_eq (i : Instruction) (number : UInt32) :
    i.floatDefinition? number = (i.constant? ⟨.const, number⟩).map Definition.value := by
  unfold constant? floatDefinition?
  cases i.destination? with
  | none => rfl
  | some d =>
    cases i.definition? with
    | none => rfl
    | some value => cases value <;> simp [Definition.register, Definition.value, apply_ite]

namespace Symbols

variable {table : ConstantTable} {order : MatrixOrder} {program pre post : List Instruction}
  {s t next : Symbols} {i : Instruction} {n : UInt32} {v : Vec4 Float32}

/-- The constant of the shader in a register. -/
def constant? (s : Symbols) (r : Register) : Option Definition :=
  match r.kind with
  | .const => (s.floatWords? r.number).map .float
  | .constInt => (s.int? r.number).map .int
  | .constBool => (s.bool? r.number).map .bool
  | _ => none

private theorem constant?_touch (s : Symbols) (r q : Register) :
    (s.touch r).constant? q = s.constant? q := by
  unfold touch
  split <;> rfl

/-- A definition adds its constant unless its register has one. -/
theorem constant?_define (s : Symbols) (r : Register) (value : Definition) (q : Register) :
    (s.define r value).constant? q =
      (s.constant? q).or (if value.register r.number = q then some value else none) := by
  obtain ⟨kind, n⟩ := q
  cases value with
  | float words =>
    cases kind <;> simp [constant?, define, floatWords?, int?, bool?, Definition.register,
      Option.map_or, apply_ite (Option.map Definition.float)]
  | int v =>
    cases kind <;> simp [constant?, define, floatWords?, int?, bool?, Definition.register,
      Option.map_or, apply_ite (Option.map Definition.int)]
  | bool b =>
    simp only [define, constant?_touch]
    cases kind <;> simp [constant?, floatWords?, int?, bool?, Definition.register,
      Option.map_or, apply_ite (Option.map Definition.bool)]

/-- An instruction that is taken in adds its constant, unless the register has one. -/
theorem Step.constant?_eq (hstep : s.Step i next) (r : Register) :
    next.constant? r = (s.constant? r).or (i.constant? r) := by
  cases hstep with
  | silent hdest => simp [Instruction.constant?, hdest]
  | declare d hdest hop hfresh hkind =>
    rw [Instruction.constant?_eq_none
      (Instruction.definition?_eq_none (by rw [hop]; rfl)), Option.or_none]
    rfl
  | define d value hdest hdef => rw [constant?_define, Instruction.constant?, hdest, hdef]
  | write d hdest hop hnone =>
    rw [Instruction.constant?_eq_none (Instruction.definition?_eq_none hnone), Option.or_none,
      constant?_touch]

/-- The first constant of a program stays in its register, unless one is there before. -/
theorem constant?_ingestStrictly (hrun : s.ingestStrictly program = .ok t) (r : Register) :
    t.constant? r = (s.constant? r).or (firstConstant? program r) := by
  induction program generalizing s with
  | nil =>
    cases hrun
    exact Option.or_none.symm
  | cons i rest ih =>
    obtain ⟨next, _, hstep, hrest⟩ := exists_of_ingestStrictly_cons hrun
    rw [ih hrest, hstep.constant?_eq, Option.or_assoc, firstConstant?, firstConstant?,
      List.findSome?_cons]
    cases i.constant? r <;> rfl

/-- The constant of a register after loading is the first one that the program defines in it. -/
theorem constant?_load (hload : load table program order = .ok s) (r : Register) :
    s.constant? r = firstConstant? program r := by
  obtain ⟨start, hstart, hrun⟩ := load_eq_ok_iff.1 hload
  have hnone : start.constant? r = none := by
    have htable := fromTable_of_ofTable hstart
    unfold constant? floatWords? int? bool?
    rw [htable.floats_eq, htable.ints_eq, htable.bools_eq]
    split <;> rfl
  rw [constant?_ingestStrictly hrun, hnone, Option.none_or]

/-- The table of a loaded shader is the one that it is loaded with. -/
theorem table_load (hload : load table program order = .ok s) : s.table = table := by
  obtain ⟨start, hstart, hrun⟩ := load_eq_ok_iff.1 hload
  obtain ⟨_, rfl, _⟩ := exists_of_ingestConstants hstart
  exact table_ingestStrictly hrun

/-- The definition in effect after loading is the first one of the program. -/
theorem float?_load (hload : load table program order = .ok s) (n : UInt32) :
    s.float? n = program.findSome? (·.floatDefinition? n) := by
  have hvalue : s.float? n = (s.constant? ⟨.const, n⟩).map Definition.value := by
    rw [float?, constant?, Option.map_map]
    rfl
  rw [hvalue, constant?_load hload, firstConstant?, List.map_findSome?]
  congr 1
  funext i
  exact (i.floatDefinition?_eq n).symm

/-- A definition is in effect unless its number is defined before. -/
theorem float?_load_of_definition (hdef : i.floatDefinition? n = some v)
    (hload : load table (pre ++ i :: post) order = .ok s) :
    s.float? n = some ((pre.findSome? (·.floatDefinition? n)).getD v) := by
  rw [float?_load hload, List.findSome?_append, List.findSome?_cons, hdef]
  cases pre.findSome? (·.floatDefinition? n) <;> rfl

/-- How an instruction is taken in depends on the declarations alone, and so does what it
declares. -/
theorem ingest_congr (h : s.declared = t.declared) (i : Instruction) :
    (s.ingest i).2 = (t.ingest i).2 ∧ (s.ingest i).1.declared = (t.ingest i).1.declared := by
  have htouch : ∀ {u v : Symbols}, u.declared = v.declared → ∀ r : Register,
      (u.touch r).declared = (v.touch r).declared := by
    intro u v huv r
    unfold touch
    rw [huv]
    split
    next => exact huv
    next => rfl
  cases hdest : i.destination? with
  | none => simp [ingest, hdest, h]
  | some d =>
    by_cases hdcl : i.opcode = .dcl
    · simp only [ingest, hdest, hdcl, declare_eq, h]
      split
      next => exact ⟨rfl, h⟩
      next =>
        split
        next => exact ⟨rfl, by simp only [enter, h]⟩
        next => exact ⟨rfl, h⟩
    · cases hop : i.opcode.isDefinition with
      | true =>
        rw [ingest_of_isDefinition hdest hop, ingest_of_isDefinition hdest hop]
        cases hdef : i.definition? with
        | none => exact ⟨rfl, h⟩
        | some value =>
          refine ⟨rfl, ?_⟩
          cases value with
          | float v => exact h
          | int v => exact h
          | bool b =>
            refine htouch ?_ d.register
            exact h
      | false =>
        rw [ingest_of_write hdest hdcl hop, ingest_of_write hdest hdcl hop]
        exact ⟨rfl, htouch h d.register⟩

private theorem exists_ingestStrictly (h : s.declared = t.declared)
    (hrun : s.ingestStrictly program = .ok next) :
    ∃ next', t.ingestStrictly program = .ok next' := by
  induction program generalizing s t with
  | nil => exact ⟨t, rfl⟩
  | cons i rest ih =>
    obtain ⟨houtcome, hdeclared⟩ := ingest_congr h i
    obtain ⟨first, hingest, _, hrest⟩ := exists_of_ingestStrictly_cons hrun
    obtain ⟨first', hingest', _⟩ | ⟨e, hingest'⟩ := t.ingest_cases i
    · rw [ingestStrictly_cons_of_ok hingest']
      rw [hingest, hingest'] at hdeclared
      exact ih hdeclared hrest
    · rw [hingest, hingest'] at houtcome
      cases houtcome

theorem exists_ingest_of_floatDefinition? (s : Symbols) (hdef : i.floatDefinition? n = some v) :
    ∃ next, s.ingest i = (next, .ok ()) ∧ next.declared = s.declared := by
  unfold Instruction.floatDefinition? at hdef
  split at hdef
  next d u hdest hvalue =>
    rw [ingest_of_isDefinition hdest (Instruction.isDefinition_of_definition? hvalue), hvalue]
    exact ⟨_, rfl, rfl⟩
  next => cases hdef

/-- A program with a definition of a float constant loads with any other one in its place. -/
theorem exists_load_of_definition {j : Instruction} {w : Vec4 Float32}
    (hi : i.floatDefinition? n = some v) (hj : j.floatDefinition? n = some w)
    (hload : load table (pre ++ i :: post) order = .ok s) :
    ∃ s', load table (pre ++ j :: post) order = .ok s' := by
  obtain ⟨start, hstart, hrun⟩ := load_eq_ok_iff.1 hload
  rw [ingestStrictly_append] at hrun
  cases hpre : start.ingestStrictly pre with
  | error e =>
    rw [hpre] at hrun
    cases hrun
  | ok middle =>
    obtain ⟨nexti, hingesti, hdeclaredi⟩ := middle.exists_ingest_of_floatDefinition? hi
    obtain ⟨nextj, hingestj, hdeclaredj⟩ := middle.exists_ingest_of_floatDefinition? hj
    rw [hpre] at hrun
    change middle.ingestStrictly (i :: post) = _ at hrun
    rw [ingestStrictly_cons_of_ok hingesti] at hrun
    obtain ⟨s', hrun'⟩ := exists_ingestStrictly (hdeclaredi.trans hdeclaredj.symm) hrun
    refine ⟨s', load_eq_ok_iff.2 ⟨start, hstart, ?_⟩⟩
    rw [ingestStrictly_append, hpre]
    change middle.ingestStrictly (j :: post) = _
    rw [ingestStrictly_cons_of_ok hingestj]
    exact hrun'

end Symbols

end ShaderAssembly
