import ShaderAssembly.Proofs.Symbols.Recovery
import ShaderAssembly.Proofs.Symbols.Table

namespace ShaderAssembly

namespace Instruction

/-- Whether the instruction declares `r` if nothing has before. Definitions of floats and integers
leave their register alone, a boolean without its word is refused, and so is a declaration of a kind
that has none. -/
def touches (i : Instruction) (r : Register) : Bool :=
  i.destination?.any (·.register == r) &&
    match i.opcode with
    | .dcl => r.kind.isDeclarable
    | .defFloat | .defInt => false
    | .defBool => i.boolLiteral?.isSome
    | _ => true

/-- What a register is declared as by an instruction that touches it. -/
def declarationOf? (i : Instruction) (r : Register) : Option Declaration :=
  if i.opcode = .dcl then Declaration.ofInstruction? i else some (Declaration.implicit r)

theorem isSome_declarationOf? {i : Instruction} {r : Register} (htouch : i.touches r = true) :
    (i.declarationOf? r).isSome = true := by
  unfold declarationOf?
  split
  next =>
    cases hdest : i.destination? with
    | none => simp [touches, hdest] at htouch
    | some d => simp [Declaration.ofInstruction?, hdest]
  next => rfl

end Instruction

namespace Symbols

/-- A write declares its register unless that is done before it. -/
theorem getElem?_touch (s : Symbols) (r q : Register) :
    (s.touch r).declared[q]? =
      s.declared[q]?.or (if r = q then some (Declaration.implicit q) else none) := by
  rw [declared_touch]
  by_cases heq : r = q
  · subst heq
    by_cases hmem : r ∈ s.declared <;> simp [hmem]
  · simp [heq]

theorem getElem?_declare (s : Symbols) (d : Declaration) (r : Register) :
    (s.declare d).1.declared[r]? =
      s.declared[r]?.or (if d.register == r && r.kind.isDeclarable then some d else none) := by
  rw [declare_eq]
  by_cases heq : d.register = r
  · subst heq
    by_cases hmem : d.register ∈ s.declared
    · simp [hmem]
    · cases d.register.kind.isDeclarable <;> simp [hmem]
  · split
    next => simp [heq]
    next => split <;> simp [heq]

/-- Of the definitions only those of booleans declare their register. -/
theorem getElem?_define (s : Symbols) (r : Register) (value : Definition) (q : Register) :
    (s.define r value).declared[q]? =
      s.declared[q]?.or (match value with
        | .bool _ => if r = q then some (Declaration.implicit q) else none
        | _ => none) := by
  cases value with
  | float v => exact Option.or_none.symm
  | int v => exact Option.or_none.symm
  | bool b => exact getElem?_touch { s with bools := s.bools ++ [Numbered.mk r.number b] } r q

/-- An instruction adds at most the declaration of the register that it touches, and only if the
register has none. -/
theorem getElem?_ingest (s : Symbols) (i : Instruction) (r : Register) :
    (s.ingest i).1.declared[r]? =
      s.declared[r]?.or (if i.touches r then i.declarationOf? r else none) := by
  cases hdest : i.destination? with
  | none => simp [ingest, Instruction.touches, hdest]
  | some d =>
    simp only [ingest, Instruction.touches, Instruction.declarationOf?, hdest, Option.any_some]
    split
    next hop => simp [hop, getElem?_declare, Declaration.ofInstruction?, hdest]
    next hop =>
      cases hwords : i.floatWords? <;>
        simp [Instruction.definition?, hop, hwords, getElem?_define]
    next hop =>
      cases hwords : i.intLiterals? <;>
        simp [Instruction.definition?, hop, hwords, getElem?_define]
    next hop =>
      cases hword : i.boolLiteral? <;>
        simp [Instruction.definition?, hop, hword, getElem?_define]
    next hdcl hfloat hint hbool =>
      rw [getElem?_touch]
      split <;> simp_all

/-- An instruction that declares a register and is taken in is the first to do so. -/
theorem Step.exists_of_declares {s next : Symbols} {i : Instruction} {r : Register}
    (hstep : s.Step i next) (hdeclares : i.Declares r) :
    ∃ d, Declaration.ofInstruction? i = some d ∧ next.declared[r]? = some d := by
  obtain ⟨hdcl, d, hdest, rfl⟩ := hdeclares
  have hentered : next = s.enter (Declaration.ofDestination i.usage d) := by
    cases hstep with
    | silent hnone => simp [hnone] at hdest
    | declare d' hdest' hop hfresh hkind =>
      rw [hdest] at hdest'
      cases hdest'
      rfl
    | define d' value hdest' hdef =>
      have hdefines := Instruction.isDefinition_of_definition? hdef
      simp [hdcl, Opcode.isDefinition] at hdefines
    | write d' hdest' hop hdef => exact absurd hdcl hop
  refine ⟨Declaration.ofDestination i.usage d, ?_, ?_⟩
  · rw [Declaration.ofInstruction?, hdest]
    rfl
  · rw [hentered, declared_enter]
    exact if_pos rfl

/-- A register without a declaration gets the one of the first instruction that touches it. -/
theorem getElem?_ingestAll (s : Symbols) (program : List Instruction) (r : Register) :
    (s.ingestAll program).1.declared[r]? =
      s.declared[r]?.or ((program.find? (·.touches r)).bind (·.declarationOf? r)) := by
  induction program generalizing s with
  | nil => simp [ingestAll]
  | cons i rest ih =>
    rw [ingestAll_cons_fst, ih, getElem?_ingest, Option.or_assoc, List.find?_cons]
    cases htouch : i.touches r with
    | false => simp
    | true =>
      obtain ⟨d, hd⟩ := Option.isSome_iff_exists.1 (Instruction.isSome_declarationOf? htouch)
      simp [hd]

/-- In a program without a refusal the register of a declaring instruction is declared by it. -/
private theorem getElem?_ingestStrictly_of_declares {s t : Symbols} {program : List Instruction}
    {i : Instruction} {r : Register} (hrun : s.ingestStrictly program = .ok t) (hi : i ∈ program)
    (hdeclares : i.Declares r) : t.declared[r]? = Declaration.ofInstruction? i := by
  induction program generalizing s with
  | nil => cases hi
  | cons j rest ih =>
    obtain ⟨next, _, hstep, hrest⟩ := exists_of_ingestStrictly_cons hrun
    obtain rfl | hi := List.mem_cons.1 hi
    · obtain ⟨d, hd, hfirst⟩ := hstep.exists_of_declares hdeclares
      rw [← ingestAll_of_ingestStrictly hrest, getElem?_ingestAll, hfirst, hd, Option.some_or]
    · exact ih hrest hi

/-- A register that no instruction of a program declares is left as it was, or written. -/
private theorem getElem?_ingestAll_of_not_declares {s : Symbols} {program : List Instruction}
    {r : Register} {d : Declaration} (hnone : ∀ i ∈ program, ¬ i.Declares r)
    (hd : (s.ingestAll program).1.declared[r]? = some d) :
    s.declared[r]? = some d ∨ d = Declaration.implicit r := by
  rw [getElem?_ingestAll, Option.or_eq_some_iff] at hd
  obtain hd | ⟨_, hd⟩ := hd
  · exact .inl hd
  · obtain ⟨i, hfind, hi⟩ := Option.bind_eq_some_iff.1 hd
    have hdcl : i.opcode ≠ .dcl := by
      intro hdcl
      have htouch := List.find?_some hfind
      rw [Instruction.touches, Bool.and_eq_true, Option.any_eq_true] at htouch
      obtain ⟨⟨dest, hdest, hregister⟩, _⟩ := htouch
      exact hnone i (List.mem_of_find?_eq_some hfind) ⟨hdcl, dest, hdest, eq_of_beq hregister⟩
    rw [Instruction.declarationOf?, if_neg hdcl] at hi
    exact .inr (Option.some_inj.1 hi).symm

/-- The declaration of a register after any run from a constant table, refusals included. A register
of the table is declared implicitly, and any other one by the first instruction that touches it, if
there is one. No later instruction changes a declaration or takes it back. -/
theorem declaration?_ingestAll {table : ConstantTable} {order : MatrixOrder} {start : Symbols}
    (hstart : ofTable table order = .ok start) (program : List Instruction) (r : Register) :
    (start.ingestAll program).1.declaration? r =
        (if table.Covers r then some (Declaration.implicit r)
          else (program.find? (·.touches r)).bind (·.declarationOf? r)) ∧
      ∀ d, (start.ingestAll program).1.declaration? r = some d →
        ∀ later, (start.ingestAll (program ++ later)).1.declaration? r = some d := by
  constructor
  · rw [declaration?, getElem?_ingestAll, getElem?_ofTable hstart]
    split <;> simp
  · intro d hd later
    rw [declaration?] at hd
    rw [declaration?, ingestAll_append_fst, getElem?_ingestAll, hd, Option.some_or]

theorem declaration?_ingestAll_written_first :
    let o : Register := ⟨.output, 0⟩
    let refused := Instruction.declare .color 0 ⟨.temp, 0⟩ Mask.full
    let write : Instruction :=
      { opcode := .mov
        operands := [.destination ⟨o, Mask.full⟩, .source { register := ⟨.temp, 0⟩ }] }
    let late := Instruction.declare .position 0 o Mask.full
    ∃ start, ofTable ⟨[Constant.matrix "World" .matrixRows 0 4 4]⟩ .columnMajor = .ok start ∧
      (start.ingestAll [refused, write]).1.declaration? o = some (Declaration.implicit o) ∧
      (start.ingestAll [refused, write, late]).1.declaration? o = some (Declaration.implicit o) ∧
      (start.ingestAll [refused, write, late]).1.declaration? ⟨.temp, 0⟩ = none ∧
      (start.ingestAll [refused, write, late]).1.declaration? ⟨.const, 3⟩ =
        some (Declaration.implicit ⟨.const, 3⟩) := by
  intro o refused write late
  have hstart : ofTable ⟨[Constant.matrix "World" .matrixRows 0 4 4]⟩ .columnMajor = .ok _ := rfl
  obtain ⟨hfirst, hstays⟩ := declaration?_ingestAll hstart [refused, write] o
  have hwritten : _ = some (Declaration.implicit o) := hfirst.trans (by decide)
  refine ⟨_, hstart, hwritten, hstays _ hwritten [late], ?_, ?_⟩
  · exact (declaration?_ingestAll hstart [refused, write, late] ⟨.temp, 0⟩).1.trans (by decide)
  · exact (declaration?_ingestAll hstart [refused, write, late] ⟨.const, 3⟩).1.trans (by decide)

/-- The declaration of a register in a loaded shader is the one that the program makes of it. -/
theorem declaration?_load_of_declares {table : ConstantTable} {order : MatrixOrder}
    {program : List Instruction} {s : Symbols} {i : Instruction} {r : Register}
    (hload : load table program order = .ok s) (hi : i ∈ program) (hdeclares : i.Declares r) :
    s.declaration? r = Declaration.ofInstruction? i := by
  obtain ⟨start, _, hrun⟩ := load_eq_ok_iff.1 hload
  exact getElem?_ingestStrictly_of_declares hrun hi hdeclares

/-- A register that the program of a loaded shader does not declare has no declaration other than
the implicit one. -/
theorem eq_implicit_of_load {table : ConstantTable} {order : MatrixOrder}
    {program : List Instruction} {s : Symbols} {r : Register} {d : Declaration}
    (hload : load table program order = .ok s) (hnone : ∀ i ∈ program, ¬ i.Declares r)
    (hd : s.declaration? r = some d) : d = Declaration.implicit r := by
  obtain ⟨start, hstart, hrun⟩ := load_eq_ok_iff.1 hload
  rw [declaration?, ← ingestAll_of_ingestStrictly hrun] at hd
  obtain hd | rfl := getElem?_ingestAll_of_not_declares hnone hd
  · exact ((fromTable_of_ofTable hstart).declared_eq r d hd).1
  · rfl

end Symbols

end ShaderAssembly
