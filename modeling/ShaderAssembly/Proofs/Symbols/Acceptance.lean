import Mathlib.Data.List.Find
import Mathlib.Data.List.Induction
import ShaderAssembly.Proofs.Symbols.FirstTouch

namespace ShaderAssembly

/-- The instruction has the register as its destination, and is more than the definition of a float
or an integer under its number. -/
def Instruction.Targets (i : Instruction) (r : Register) : Prop :=
  (∃ d, i.destination? = some d ∧ d.register = r) ∧ i.opcode ≠ .defFloat ∧ i.opcode ≠ .defInt

instance (i : Instruction) (r : Register) : Decidable (i.Targets r) :=
  inferInstanceAs (Decidable ((∃ d ∈ i.destination?, d.register = r) ∧ _ ∧ _))

/-- The register is one of the table, or the destination of one of the instructions. From then on it
can no longer be declared. -/
def Occupied (table : ConstantTable) (before : List Instruction) (r : Register) : Prop :=
  table.Covers r ∨ ∃ i ∈ before, i.Targets r

instance (table : ConstantTable) (before : List Instruction) (r : Register) :
    Decidable (Occupied table before r) :=
  inferInstanceAs (Decidable (_ ∨ _))

namespace Constant

/-- The constant is a sampler, or its register set is known and its range ends at the last register
number or before. -/
def Loadable (c : Constant) : Prop :=
  c.set = .sampler ∨ c.set.kind?.isSome = true ∧ c.start.toNat + c.count.toNat ≤ 0x100000000

instance (c : Constant) : Decidable c.Loadable :=
  inferInstanceAs (Decidable (_ ∨ _))

/-- The error with which the constant is refused. -/
def refusal (c : Constant) : LoadError :=
  match c.set with
  | .unknown code => .unknownRegisterSet code
  | _ => .rangePastEnd c.name c.start c.count

end Constant

namespace Instruction

/-- The instruction can be taken in after the others: if it declares its destination, the register
is not occupied and of a kind that can be declared, and if it defines a constant, it has the words
for it. -/
def Loadable (i : Instruction) (table : ConstantTable) (before : List Instruction) : Prop :=
  ∀ d, i.destination? = some d →
    (i.opcode = .dcl →
      ¬ Occupied table before d.register ∧ d.register.kind.isDeclarable = true) ∧
    (i.opcode = .defFloat ∨ i.opcode = .defInt → 4 ≤ i.immediates.length) ∧
    (i.opcode = .defBool → 1 ≤ i.immediates.length)

instance (i : Instruction) (table : ConstantTable) (before : List Instruction) :
    Decidable (i.Loadable table before) :=
  inferInstanceAs (Decidable (∀ d ∈ i.destination?, _ ∧ _ ∧ _))

/-- The error with which the instruction is refused after the others. -/
def refusal (i : Instruction) (table : ConstantTable) (before : List Instruction) : LoadError :=
  match i.opcode, i.destination? with
  | .dcl, some d =>
    if Occupied table before d.register then .duplicateDeclaration d.register
    else .undeclarableKind d.register
  | _, _ => .missingLiterals i.opcode

end Instruction

/-- Every instruction of the program can be taken in after those before it. -/
def LoadableProgram (table : ConstantTable) (program : List Instruction) : Prop :=
  ∀ before i after, program = before ++ i :: after → i.Loadable table before

private theorem loadableProgram_nil (table : ConstantTable) : LoadableProgram table [] := by
  intro before i after hsplit
  simp at hsplit

theorem loadableProgram_concat_iff {table : ConstantTable} {program : List Instruction}
    {i : Instruction} :
    LoadableProgram table (program ++ [i]) ↔
      LoadableProgram table program ∧ i.Loadable table program := by
  constructor
  · intro h
    refine ⟨?_, h program i [] rfl⟩
    intro before j after hsplit
    exact h before j (after ++ [i]) (by simp [hsplit])
  · rintro ⟨hprogram, hi⟩ before j after hsplit
    obtain rfl | ⟨after, last, rfl⟩ := after.eq_nil_or_concat
    · obtain ⟨rfl, hlast⟩ := List.append_inj' hsplit rfl
      cases hlast
      exact hi
    · rw [List.concat_eq_append, ← List.cons_append, ← List.append_assoc] at hsplit
      obtain ⟨rfl, _⟩ := List.append_inj' hsplit rfl
      exact hprogram before j after rfl

/-- A defining instruction has the words for its constant when it has four of them, or one for a
boolean. -/
theorem Instruction.loadable_iff_of_isDefinition {i : Instruction} {d : Destination}
    {table : ConstantTable} {before : List Instruction} (hdest : i.destination? = some d)
    (hop : i.opcode.isDefinition = true) :
    i.Loadable table before ↔ i.definition?.isSome = true := by
  rw [isSome_definition?_iff hop]
  unfold Opcode.isDefinition at hop
  split at hop
  case h_4 => cases hop
  all_goals simp [Loadable, Opcode.wordCount, *]

namespace Symbols

variable {table : ConstantTable} {order : MatrixOrder} {program before after : List Instruction}
  {s t next start : Symbols} {i : Instruction} {r : Register}

section Table

/-- A constant is taken in or refused, as can be seen from it. -/
theorem ingestConstant_cases (s : Symbols) (c : Constant) :
    (c.Loadable ∧ ∃ next, s.ingestConstant c = .ok next) ∨
      ¬ c.Loadable ∧ s.ingestConstant c = .error c.refusal := by
  have hrange : ∀ kind, c.set.kind? = some kind →
      (c.Loadable ∧ ∃ next, s.declareConstant c kind = .ok next) ∨
        ¬ c.Loadable ∧ s.declareConstant c kind = .error c.refusal := by
    intro kind hkind
    have hrefusal : c.refusal = .rangePastEnd c.name c.start c.count := by
      unfold Constant.refusal
      cases hset : c.set <;> simp_all [RegisterSet.kind?]
    have hsampler : c.set ≠ .sampler := by
      intro hset
      rw [hset] at hkind
      cases hkind
    rw [declareConstant_eq]
    split
    next hend => exact .inl ⟨.inr ⟨by rw [hkind]; rfl, hend⟩, _, rfl⟩
    next hend =>
      rw [hrefusal]
      refine .inr ⟨?_, rfl⟩
      rintro (hset | ⟨_, hbound⟩)
      · exact hsampler hset
      · exact hend hbound
  unfold ingestConstant
  split
  next hset => exact hrange .constBool (by rw [hset]; rfl)
  next hset => exact hrange .constInt (by rw [hset]; rfl)
  next hset => exact hrange .const (by rw [hset]; rfl)
  next hset => exact .inl ⟨.inl hset, s, rfl⟩
  next code hset =>
    exact .inr ⟨by simp [Constant.Loadable, hset, RegisterSet.kind?],
      by simp [Constant.refusal, hset]⟩

theorem exists_ingestConstants_iff {constants : List Constant} :
    (∃ next, constants.foldlM ingestConstant s = .ok next) ↔ ∀ c ∈ constants, c.Loadable := by
  induction constants generalizing s with
  | nil => exact ⟨fun _ => List.forall_mem_nil _, fun _ => ⟨s, rfl⟩⟩
  | cons c rest ih =>
    rw [List.foldlM_cons, List.forall_mem_cons]
    obtain ⟨hc, first, hfirst⟩ | ⟨hc, herror⟩ := s.ingestConstant_cases c
    · rw [hfirst]
      exact ih.trans (and_iff_right hc).symm
    · rw [herror]
      exact ⟨nofun, fun h => absurd h.1 hc⟩

/-- The first constant that cannot be taken in is refused. -/
theorem ofTable_eq_error {pre post : List Constant} {c : Constant}
    (hsplit : table.constants = pre ++ c :: post) (hpre : ∀ b ∈ pre, b.Loadable)
    (hc : ¬ c.Loadable) : ofTable table order = .error c.refusal := by
  obtain ⟨middle, hmiddle⟩ := exists_ingestConstants_iff (s := { order, table }).2 hpre
  obtain ⟨hc', _⟩ | ⟨_, herror⟩ := middle.ingestConstant_cases c
  · exact absurd hc' hc
  · rw [ofTable, hsplit, List.foldlM_append, hmiddle]
    change (c :: post).foldlM ingestConstant middle = _
    rw [List.foldlM_cons, herror]
    rfl

end Table

section Program

theorem step_of_ingest (hingest : s.ingest i = (next, .ok ())) : s.Step i next := by
  obtain ⟨first, hfirst, hstep⟩ | ⟨e, herror⟩ := s.ingest_cases i
  · rw [hingest] at hfirst
    cases hfirst
    exact hstep
  · rw [hingest] at herror
    cases herror

/-- An instruction that is taken in touches the register that it targets. -/
theorem Step.touches_iff (hstep : s.Step i next) : i.touches r = true ↔ i.Targets r := by
  cases hstep with
  | silent hdest => simp [Instruction.touches, Instruction.Targets, hdest]
  | declare d hdest hop hfresh hkind =>
    by_cases heq : d.register = r
    · subst heq
      simp [Instruction.touches, Instruction.Targets, hdest, hop, hkind]
    · simp [Instruction.touches, Instruction.Targets, hdest, heq]
  | define d value hdest hdef =>
    unfold Instruction.definition? at hdef
    split at hdef
    next hop => simp [Instruction.touches, Instruction.Targets, hop]
    next hop => simp [Instruction.touches, Instruction.Targets, hop]
    next hop =>
      obtain ⟨b, hword, _⟩ := Option.map_eq_some_iff.1 hdef
      simp [Instruction.touches, Instruction.Targets, hdest, hop, hword]
    next => cases hdef
  | write d hdest hop hdef =>
    unfold Opcode.isDefinition at hdef
    unfold Instruction.touches Instruction.Targets
    split at hdef <;> simp_all

theorem touches_iff_of_mem (hrun : s.ingestStrictly program = .ok t) (hi : i ∈ program) :
    i.touches r = true ↔ i.Targets r := by
  obtain ⟨u, next, hingest⟩ := exists_ingest_of_mem hrun hi
  exact (step_of_ingest hingest).touches_iff

theorem mem_declared_ingestAll_iff (s : Symbols) (program : List Instruction) (r : Register) :
    r ∈ (s.ingestAll program).1.declared ↔
      r ∈ s.declared ∨ ∃ i ∈ program, i.touches r = true := by
  rw [Std.ExtTreeMap.mem_iff_isSome_getElem?, Std.ExtTreeMap.mem_iff_isSome_getElem?,
    getElem?_ingestAll, Option.isSome_or, Bool.or_eq_true, ← List.find?_isSome]
  apply or_congr_right
  cases hfind : program.find? (·.touches r) with
  | none => rfl
  | some i =>
    have htouch := List.find?_some hfind
    simp [Instruction.isSome_declarationOf? htouch]

/-- After a run from a constant table, without a refusal, the declared registers are the occupied
ones. -/
theorem mem_declared_ingestStrictly_iff (hstart : ofTable table order = .ok start)
    (hrun : start.ingestStrictly program = .ok s) :
    r ∈ s.declared ↔ Occupied table program r := by
  have htable : r ∈ start.declared ↔ table.Covers r := by
    rw [Std.ExtTreeMap.mem_iff_isSome_getElem?, getElem?_ofTable hstart]
    split <;> simp_all
  have hprogram : (∃ i ∈ program, i.touches r = true) ↔ ∃ i ∈ program, i.Targets r := by
    constructor
    · rintro ⟨i, hi, htouch⟩
      exact ⟨i, hi, (touches_iff_of_mem hrun hi).1 htouch⟩
    · rintro ⟨i, hi, htarget⟩
      exact ⟨i, hi, (touches_iff_of_mem hrun hi).2 htarget⟩
  rw [← ingestAll_of_ingestStrictly hrun, mem_declared_ingestAll_iff, htable, hprogram]
  rfl

/-- Where the declared registers are the occupied ones, an instruction is taken in or refused, as
can be seen from the table and the instructions before it. -/
private theorem ingest_cases_of_occupied (hoccupied : ∀ r, r ∈ s.declared ↔ Occupied table before r)
    (i : Instruction) : (i.Loadable table before ∧ ∃ next, s.ingest i = (next, .ok ())) ∨
      ¬ i.Loadable table before ∧ s.ingest i = (s, .error (i.refusal table before)) := by
  cases hdest : i.destination? with
  | none =>
    left
    refine ⟨?_, s, by simp [ingest, hdest]⟩
    intro d hd
    rw [hdest] at hd
    cases hd
  | some d =>
    by_cases hdcl : i.opcode = .dcl
    · have hloadable : i.Loadable table before ↔
          ¬ Occupied table before d.register ∧ d.register.kind.isDeclarable = true := by
        simp [Instruction.Loadable, hdest, hdcl]
      rw [hloadable, ingest_of_dcl hdest hdcl, declare_eq]
      simp only [Declaration.register_ofDestination, hoccupied, Instruction.refusal, hdcl, hdest]
      by_cases htaken : Occupied table before d.register
      · simp [htaken]
      · by_cases hkind : d.register.kind.isDeclarable = true <;> simp [htaken, hkind]
    · cases hop : i.opcode.isDefinition with
      | true =>
        rw [Instruction.loadable_iff_of_isDefinition hdest hop, ingest_of_isDefinition hdest hop]
        have hrefusal : i.refusal table before = .missingLiterals i.opcode := by
          unfold Instruction.refusal
          split <;> simp_all
        cases i.definition? <;> simp [hrefusal]
      | false =>
        left
        refine ⟨?_, _, ingest_of_write hdest hdcl hop⟩
        intro e _
        unfold Opcode.isDefinition at hop
        split at hop <;> simp_all

/-- A program is taken in when each of its instructions can be, after those before it. -/
theorem exists_ingestStrictly_iff (hstart : ofTable table order = .ok start) :
    (∃ s, start.ingestStrictly program = .ok s) ↔ LoadableProgram table program := by
  induction program using List.reverseRecOn with
  | nil => exact ⟨fun _ => loadableProgram_nil table, fun _ => ⟨start, rfl⟩⟩
  | append_singleton before i ih =>
    rw [loadableProgram_concat_iff, ← ih, ingestStrictly_append]
    cases hbefore : start.ingestStrictly before with
    | error e =>
      constructor
      · rintro ⟨_, h⟩
        cases h
      · rintro ⟨⟨_, h⟩, _⟩
        cases h
    | ok t =>
      have hcases := ingest_cases_of_occupied
        (fun r => mem_declared_ingestStrictly_iff (r := r) hstart hbefore) i
      change (∃ s, t.ingestStrictly [i] = .ok s) ↔ _
      rw [and_iff_right ⟨t, rfl⟩]
      obtain ⟨hi, next, hnext⟩ | ⟨hi, herror⟩ := hcases
      · exact ⟨fun _ => hi, fun _ => ⟨next, by rw [ingestStrictly_cons_of_ok hnext]; rfl⟩⟩
      · rw [ingestStrictly, herror]
        constructor
        · rintro ⟨_, h⟩
          cases h
        · intro h
          exact absurd h hi

/-- The first instruction that cannot be taken in after those before it is refused. -/
theorem ingestStrictly_eq_error (hstart : ofTable table order = .ok start)
    (hbefore : LoadableProgram table before) (hi : ¬ i.Loadable table before) :
    start.ingestStrictly (before ++ i :: after) = .error (i.refusal table before) := by
  obtain ⟨t, ht⟩ := (exists_ingestStrictly_iff hstart).2 hbefore
  have hcases := ingest_cases_of_occupied
    (fun r => mem_declared_ingestStrictly_iff (r := r) hstart ht) i
  obtain ⟨hi', _⟩ | ⟨_, herror⟩ := hcases
  · exact absurd hi' hi
  · rw [ingestStrictly_append, ht]
    change t.ingestStrictly (i :: after) = _
    rw [ingestStrictly, herror]

end Program

/-- What loads and what does not. A shader loads just when every constant of its table can be taken
in, and every instruction of its program can be taken in after those before it. Otherwise it fails
with the error of the first constant that cannot or, if there is none, of the first instruction. -/
theorem load_outcome (table : ConstantTable) (program : List Instruction) (order : MatrixOrder) :
    ((∃ s, load table program order = .ok s) ↔
        (∀ c ∈ table.constants, c.Loadable) ∧ LoadableProgram table program) ∧
      (∀ pre c post, table.constants = pre ++ c :: post → (∀ b ∈ pre, b.Loadable) →
        ¬ c.Loadable → load table program order = .error c.refusal) ∧
      ∀ before i after, (∀ c ∈ table.constants, c.Loadable) → program = before ++ i :: after →
        LoadableProgram table before → ¬ i.Loadable table before →
          load table program order = .error (i.refusal table before) := by
  refine ⟨?_, ?_, ?_⟩
  · rw [← exists_ingestConstants_iff (s := { order, table })]
    constructor
    · rintro ⟨s, hload⟩
      obtain ⟨start, hstart, hrun⟩ := load_eq_ok_iff.1 hload
      exact ⟨⟨start, hstart⟩, (exists_ingestStrictly_iff hstart).1 ⟨s, hrun⟩⟩
    · rintro ⟨⟨start, hstart⟩, hprogram⟩
      obtain ⟨s, hrun⟩ := (exists_ingestStrictly_iff hstart).2 hprogram
      exact ⟨s, load_eq_ok_iff.2 ⟨start, hstart, hrun⟩⟩
  · intro pre c post hsplit hpre hc
    rw [load, ofTable_eq_error hsplit hpre hc]
    rfl
  · intro before i after htable hsplit hbefore hi
    obtain ⟨start, hstart⟩ := exists_ingestConstants_iff (s := { order, table }).2 htable
    have hstart : ofTable table order = .ok start := hstart
    rw [load, hstart, hsplit]
    exact ingestStrictly_eq_error hstart hbefore hi

theorem load_outcome_last_register :
    let bones := Constant.matrix "Bones" .matrixRows 0xFFFFFFFD 3 4
    let steps : Constant := { Constant.vector "Steps" 0xFFFFFFFF 1 with set := .int4, count := 0 }
    let tint : Constant := { Constant.vector "Tint" 0xFFFFFFFF 4 with count := 2 }
    let o : Register := ⟨.output, 0⟩
    let flag := Instruction.defineBool o true
    let declare := Instruction.declare .texCoord 0 o Mask.full
    (∃ s, load ⟨[bones, steps]⟩ [declare] .columnMajor = .ok s) ∧
      load ⟨[bones, tint, steps]⟩ [declare] .columnMajor =
        .error (.rangePastEnd "Tint" 0xFFFFFFFF 2) ∧
      load ⟨[bones, steps]⟩ [flag, declare, flag] .columnMajor =
        .error (.duplicateDeclaration o) := by
  intro bones steps tint o flag declare
  have halone : ∀ i : Instruction, i.Loadable ⟨[bones, steps]⟩ [] →
      LoadableProgram ⟨[bones, steps]⟩ [i] := by
    intro i hi
    rw [← List.nil_append [i], loadableProgram_concat_iff]
    exact ⟨loadableProgram_nil _, hi⟩
  refine ⟨?_, ?_, ?_⟩
  · exact (load_outcome ⟨[bones, steps]⟩ [declare] .columnMajor).1.2
      ⟨by decide, halone declare (by decide)⟩
  · exact (load_outcome ⟨[bones, tint, steps]⟩ [declare] .columnMajor).2.1 [bones] tint [steps] rfl
      (by decide) (by decide)
  · exact (load_outcome ⟨[bones, steps]⟩ [flag, declare, flag] .columnMajor).2.2 [flag] declare
      [flag] (by decide) rfl (halone flag (by decide)) (by decide)

end Symbols

end ShaderAssembly
