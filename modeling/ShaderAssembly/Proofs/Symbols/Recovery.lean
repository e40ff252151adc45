import ShaderAssembly.Proofs.Symbols.Step

namespace ShaderAssembly.Symbols

/-- The instructions of a program that are taken in when taking in goes on after every refusal. -/
def accepted (s : Symbols) (program : List Instruction) : List Instruction :=
  (program.zip (s.ingestAll program).2).filterMap fun (i, outcome) =>
    match outcome with
    | .ok () => some i
    | .error _ => none

/-- Taking in a program ends where taking in its rest from the symbols after its first instruction
does. -/
theorem ingestAll_cons_fst (s : Symbols) (i : Instruction) (rest : List Instruction) :
    (s.ingestAll (i :: rest)).1 = ((s.ingest i).1.ingestAll rest).1 := rfl

theorem ingestAll_append_fst (s : Symbols) (first second : List Instruction) :
    (s.ingestAll (first ++ second)).1 = ((s.ingestAll first).1.ingestAll second).1 := by
  induction first generalizing s with
  | nil => rfl
  | cons i rest ih => rw [List.cons_append, ingestAll_cons_fst, ih, ingestAll_cons_fst]

theorem accepted_cons_of_ok {s next : Symbols} {i : Instruction}
    (hingest : s.ingest i = (next, .ok ())) (rest : List Instruction) :
    s.accepted (i :: rest) = i :: next.accepted rest := by
  simp [accepted, ingestAll, hingest]

theorem accepted_cons_of_error {s : Symbols} {i : Instruction} {e : LoadError}
    (hingest : s.ingest i = (s, .error e)) (rest : List Instruction) :
    s.accepted (i :: rest) = s.accepted rest := by
  simp [accepted, ingestAll, hingest]

theorem ingestStrictly_cons_of_ok {s next : Symbols} {i : Instruction} {rest : List Instruction}
    (hingest : s.ingest i = (next, .ok ())) :
    s.ingestStrictly (i :: rest) = next.ingestStrictly rest := by
  rw [ingestStrictly, hingest]

/-- In a program without a refusal the first instruction is taken in, and the others follow from
there. -/
theorem exists_of_ingestStrictly_cons {s t : Symbols} {i : Instruction} {rest : List Instruction}
    (hrun : s.ingestStrictly (i :: rest) = .ok t) :
    ∃ next, s.ingest i = (next, .ok ()) ∧ s.Step i next ∧ next.ingestStrictly rest = .ok t := by
  obtain ⟨next, hingest, hstep⟩ | ⟨e, hingest⟩ := s.ingest_cases i
  · rw [ingestStrictly_cons_of_ok hingest] at hrun
    exact ⟨next, hingest, hstep, hrun⟩
  · rw [ingestStrictly, hingest] at hrun
    cases hrun

theorem ingestStrictly_append (s : Symbols) (first second : List Instruction) :
    s.ingestStrictly (first ++ second) =
      (s.ingestStrictly first).bind (·.ingestStrictly second) := by
  induction first generalizing s with
  | nil => rfl
  | cons i rest ih =>
    obtain ⟨next, hingest, _⟩ | ⟨e, hingest⟩ := s.ingest_cases i
    · rw [List.cons_append, ingestStrictly_cons_of_ok hingest, ih,
        ingestStrictly_cons_of_ok hingest]
    · simp only [List.cons_append, ingestStrictly, hingest]
      rfl

/-- A program without a refusal ends in the same symbols when refusals are passed over. -/
theorem ingestAll_of_ingestStrictly {s t : Symbols} {program : List Instruction}
    (hrun : s.ingestStrictly program = .ok t) : (s.ingestAll program).1 = t := by
  induction program generalizing s with
  | nil => exact Except.ok.inj hrun
  | cons i rest ih =>
    obtain ⟨next, hingest, _, hrest⟩ := exists_of_ingestStrictly_cons hrun
    rw [ingestAll_cons_fst, hingest, ih hrest]

/-- In a program without a refusal every instruction is taken in. -/
theorem exists_ingest_of_mem {s t : Symbols} {program : List Instruction}
    (hrun : s.ingestStrictly program = .ok t) {i : Instruction} (hi : i ∈ program) :
    ∃ u next : Symbols, u.ingest i = (next, .ok ()) := by
  induction program generalizing s with
  | nil => cases hi
  | cons j rest ih =>
    obtain ⟨next, hingest, _, hrest⟩ := exists_of_ingestStrictly_cons hrun
    obtain rfl | hi := List.mem_cons.1 hi
    · exact ⟨s, next, hingest⟩
    · exact ih hrest hi

/-- Loading keeps the constant table. -/
theorem table_ingestStrictly {s t : Symbols} {program : List Instruction}
    (hrun : s.ingestStrictly program = .ok t) : t.table = s.table := by
  induction program generalizing s with
  | nil =>
    cases hrun
    rfl
  | cons i rest ih =>
    obtain ⟨next, _, hstep, hrest⟩ := exists_of_ingestStrictly_cons hrun
    rw [ih hrest, hstep.table_eq]

theorem load_eq_ok_iff {table : ConstantTable} {program : List Instruction} {order : MatrixOrder}
    {s : Symbols} : load table program order = .ok s ↔
      ∃ start, ofTable table order = .ok start ∧ start.ingestStrictly program = .ok s := by
  unfold load
  cases hstart : ofTable table order with
  | error e =>
    constructor
    · intro h
      cases h
    · rintro ⟨_, h, _⟩
      cases h
  | ok start =>
    constructor
    · intro h
      exact ⟨start, rfl, h⟩
    · rintro ⟨_, h, hrun⟩
      cases h
      exact hrun

/-- The accepted instructions are taken in one after the other, and lead to the symbols of the whole
program. -/
theorem ingestStrictly_accepted (s : Symbols) (program : List Instruction) :
    s.ingestStrictly (s.accepted program) = .ok (s.ingestAll program).1 := by
  induction program generalizing s with
  | nil => rfl
  | cons i rest ih =>
    rw [ingestAll_cons_fst]
    obtain ⟨next, hingest, _⟩ | ⟨e, hingest⟩ := s.ingest_cases i
    · rw [accepted_cons_of_ok hingest, ingestStrictly_cons_of_ok hingest, hingest]
      exact ih next
    · rw [accepted_cons_of_error hingest, hingest]
      exact ih s

/-- Loading just the accepted instructions succeeds with the symbols that taking in the whole
program ends in, and a refusal anywhere on the way changes nothing. -/
theorem load_accepted {table : ConstantTable} {order : MatrixOrder} {start : Symbols}
    (hstart : ofTable table order = .ok start) (program : List Instruction) :
    load table (start.accepted program) order = .ok (start.ingestAll program).1 ∧
      ∀ (i : Instruction) (e : LoadError), ((start.ingestAll program).1.ingest i).2 = .error e →
        ((start.ingestAll program).1.ingest i).1 = (start.ingestAll program).1 := by
  constructor
  · exact load_eq_ok_iff.2 ⟨start, hstart, start.ingestStrictly_accepted program⟩
  · intro i e herror
    exact ingest_of_error herror

theorem load_accepted_declared_twice :
    let v : Register := ⟨.input, 0⟩
    let first := Instruction.declare .position 0 v Mask.full
    let second := Instruction.declare .normal 0 v Mask.full
    let table : ConstantTable := ⟨[Constant.matrix "World" .matrixRows 0 4 4]⟩
    ∃ start, ofTable table .columnMajor = .ok start ∧
      start.accepted [first, second] = [first] ∧
      load table [first] .columnMajor = .ok (start.ingestAll [first, second]).1 ∧
      ((start.ingestAll [first]).1.ingest second).1 = (start.ingestAll [first]).1 := by
  intro v first second table
  have hstart : ofTable table .columnMajor = .ok _ := rfl
  refine ⟨_, hstart, by decide +kernel, ?_, ?_⟩
  · exact (load_accepted hstart [first, second]).1
  · exact (load_accepted hstart [first]).2 second (.duplicateDeclaration v) rfl

end ShaderAssembly.Symbols
