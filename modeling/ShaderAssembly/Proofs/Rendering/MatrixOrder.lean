import ShaderAssembly.Proofs.Symbols.Constants
import ShaderAssembly.Rendering.Source

namespace ShaderAssembly

/-- The constant that names a float register, if it has not just one row. -/
def ConstantTable.matrixAt? (t : ConstantTable) (r : Register) : Option Constant :=
  if r.kind = .const then (t.findType? .float r.number).filter (·.rows != 1) else none

theorem ConstantTable.matrixAt?_eq_some_iff {t : ConstantTable} {r : Register} {c : Constant} :
    t.matrixAt? r = some c ↔
      r.kind = .const ∧ t.findType? .float r.number = some c ∧ c.rows ≠ 1 := by
  unfold matrixAt?
  split
  next hkind => simp [hkind, Option.filter_eq_some_iff]
  next hkind => simp [hkind]

theorem Constant.start_le_of_findType? {t : ConstantTable} {type : ConstantType} {n : UInt32}
    {c : Constant} (hfind : t.findType? type n = some c) : c.start.toNat ≤ n.toNat := by
  obtain ⟨offset, hoffset, _⟩ := ConstantTable.exists_offset_of_findType? hfind
  omega

namespace Symbols

variable {s : Symbols} {r : Register} {c : Constant}

/-- The same symbols with another order of matrices. -/
def withOrder (s : Symbols) (order : MatrixOrder) : Symbols := { s with order }

section Loading

private theorem ingestConstant_withOrder (s : Symbols) (order : MatrixOrder) (c : Constant) :
    (s.withOrder order).ingestConstant c = (s.ingestConstant c).map (·.withOrder order) := by
  have hdeclare : ∀ kind, (s.withOrder order).declareConstant c kind =
      (s.declareConstant c kind).map (·.withOrder order) := by
    intro kind
    rw [declareConstant_eq, declareConstant_eq]
    split <;> rfl
  unfold ingestConstant
  split
  next => exact hdeclare .constBool
  next => exact hdeclare .constInt
  next => exact hdeclare .const
  next => rfl
  next => rfl

theorem ofTable_withOrder (table : ConstantTable) (order order' : MatrixOrder) :
    ofTable table order' = (ofTable table order).map (·.withOrder order') := by
  have hfold : ∀ (constants : List Constant) (s : Symbols),
      constants.foldlM ingestConstant (s.withOrder order') =
        (constants.foldlM ingestConstant s).map (·.withOrder order') := by
    intro constants
    induction constants with
    | nil =>
      intro s
      rfl
    | cons c rest ih =>
      intro s
      rw [List.foldlM_cons, List.foldlM_cons, ingestConstant_withOrder]
      cases s.ingestConstant c with
      | error e => rfl
      | ok next => exact ih next
  exact hfold table.constants { order, table }

private theorem touch_withOrder (s : Symbols) (order : MatrixOrder) (r : Register) :
    (s.withOrder order).touch r = (s.touch r).withOrder order := by
  unfold touch
  change (if s.declared.contains r then _ else _) = _
  split <;> rfl

private theorem declare_withOrder (s : Symbols) (order : MatrixOrder) (d : Declaration) :
    (s.withOrder order).declare d = ((s.declare d).1.withOrder order, (s.declare d).2) := by
  have hdeclared : (s.withOrder order).declared = s.declared := rfl
  rw [declare_eq, declare_eq, hdeclared]
  by_cases hmem : d.register ∈ s.declared
  · rw [if_pos hmem, if_pos hmem]
  · rw [if_neg hmem, if_neg hmem]
    split <;> rfl

private theorem define_withOrder (s : Symbols) (order : MatrixOrder) (r : Register)
    (value : Definition) :
    (s.withOrder order).define r value = (s.define r value).withOrder order := by
  cases value with
  | float v => rfl
  | int v => rfl
  | bool b =>
    exact touch_withOrder { s with bools := s.bools ++ [Numbered.mk r.number b] } order r

theorem ingest_withOrder (s : Symbols) (order : MatrixOrder) (i : Instruction) :
    (s.withOrder order).ingest i = ((s.ingest i).1.withOrder order, (s.ingest i).2) := by
  cases hdest : i.destination? with
  | none => simp [ingest, hdest]
  | some d =>
    by_cases hdcl : i.opcode = .dcl
    · simp only [ingest, hdest, hdcl, declare_withOrder]
    · cases hop : i.opcode.isDefinition with
      | true =>
        rw [ingest_of_isDefinition hdest hop, ingest_of_isDefinition hdest hop]
        cases hdef : i.definition? with
        | none => rfl
        | some value => simp [define_withOrder]
      | false =>
        rw [ingest_of_write hdest hdcl hop, ingest_of_write hdest hdcl hop, touch_withOrder]

theorem ingestStrictly_withOrder (s : Symbols) (order : MatrixOrder) (program : List Instruction) :
    (s.withOrder order).ingestStrictly program =
      (s.ingestStrictly program).map (·.withOrder order) := by
  induction program generalizing s with
  | nil => rfl
  | cons i rest ih =>
    obtain ⟨next, hingest, _⟩ | ⟨e, hingest⟩ := s.ingest_cases i
    · rw [ingestStrictly_cons_of_ok hingest, ← ih next]
      apply ingestStrictly_cons_of_ok
      rw [ingest_withOrder, hingest]
    · rw [ingestStrictly, ingestStrictly, ingest_withOrder, hingest]
      rfl

/-- Loading with another order succeeds or fails in the same way, with the same symbols but for the
order. -/
theorem load_withOrder (table : ConstantTable) (program : List Instruction)
    (order order' : MatrixOrder) :
    load table program order' = (load table program order).map (·.withOrder order') := by
  unfold load
  rw [ofTable_withOrder table order order']
  cases ofTable table order with
  | error e => rfl
  | ok start => exact ingestStrictly_withOrder start order' program

end Loading

section Queries

theorem registerName_of_findType? (hkind : r.kind = .const)
    (hfind : s.table.findType? .float r.number = some c) :
    s.registerName r = .ok (s.constantName c r.number) := by
  simp only [registerName, hkind, hfind]

/-- Without a matrix in it a register has the same name in both orders. -/
theorem registerName_withOrder (order : MatrixOrder) (hnone : s.table.matrixAt? r = none) :
    (s.withOrder order).registerName r = s.registerName r := by
  by_cases hkind : r.kind = .const
  · cases hfind : s.table.findType? .float r.number with
    | none =>
      have hfind' : (s.withOrder order).table.findType? .float r.number = none := hfind
      simp only [registerName, hkind, hfind, hfind']
    | some c =>
      have hrows : c.rows = 1 := by simpa [ConstantTable.matrixAt?, hkind, hfind] using hnone
      have hfind' : (s.withOrder order).table.findType? .float r.number = some c := hfind
      rw [registerName_of_findType? hkind hfind, registerName_of_findType? hkind hfind',
        constantName, constantName, if_pos hrows, if_pos hrows]
  · unfold registerName
    split <;> first | rfl | contradiction

theorem destinationText_withOrder {i : Instruction} (order : MatrixOrder)
    (hnone : ∀ d, i.destination? = some d → s.table.matrixAt? d.register = none) :
    (s.withOrder order).destinationText i = s.destinationText i := by
  unfold destinationText
  cases hdest : i.destination? with
  | none => rfl
  | some d =>
    simp only
    rw [registerName_withOrder order (hnone d hdest)]
    rfl

/-- A constant in a source operand is not named by `registerName`, so no source operand shows the
order. -/
theorem resolveSource_withOrder (s : Symbols) (order : MatrixOrder) (i : Instruction) (n : Nat) :
    (s.withOrder order).resolveSource i n = s.resolveSource i n := by
  unfold resolveSource
  cases i.source? n with
  | none => rfl
  | some src =>
    simp only [sourceText]
    cases hkind : src.register.kind.isConstant with
    | true => rfl
    | false =>
      have hnone : s.table.matrixAt? src.register = none := by
        apply if_neg
        intro hconst
        rw [hconst] at hkind
        cases hkind
      rw [registerName_withOrder order hnone]
      rfl

/-- A register of a matrix is named by its offset in the matrix. -/
theorem constantName_of_rows_ne_one (s : Symbols) {n : UInt32} (hrows : c.rows ≠ 1) :
    s.constantName c n = match s.order with
      | .columnMajor => "transpose(" ++ c.name ++ ")[" ++ toString (n - c.start).toNat ++ "]"
      | .rowMajor => c.name ++ "[" ++ toString (n - c.start).toNat ++ "]" := by
  have hbrackets : ")" ++ "[" = ")[" := rfl
  rw [constantName, if_neg hrows]
  cases s.order <;> simp only [← String.append_assoc, ← hbrackets]

theorem destinationText_of_matrixAt? {i : Instruction} {d : Destination}
    (hmatrix : s.table.matrixAt? d.register = some c) (hdest : i.destination? = some d) :
    s.destinationText i = .ok (s.constantName c d.register.number ++
      if d.mask.isLeading c.columns.toNat then "" else d.mask.suffix) := by
  obtain ⟨hkind, hfind, _⟩ := ConstantTable.matrixAt?_eq_some_iff.1 hmatrix
  have hwidth : s.registerWidth d.register = .ok c.columns.toNat := by
    simp only [registerWidth, hkind, hfind]
  unfold destinationText
  rw [hdest]
  simp only
  rw [registerName_of_findType? hkind hfind, hwidth]
  change Except.ok (if _ then _ else _) = _
  split <;> simp

end Queries

/-- What the order of matrices is confined to. `columns` and `rows` are told apart only by the names
of float registers that hold a matrix of the table. -/
structure DifferByOrder (table : ConstantTable) (columns rows : Symbols) : Prop where
  declared_eq : columns.declared = rows.declared
  inputs_eq : columns.inputs = rows.inputs
  outputs_eq : columns.outputs = rows.outputs
  floats_eq : columns.floats = rows.floats
  ints_eq : columns.ints = rows.ints
  bools_eq : columns.bools = rows.bools
  registerWidth_eq : ∀ r, columns.registerWidth r = rows.registerWidth r
  resolveSource_eq : ∀ i n, columns.resolveSource i n = rows.resolveSource i n
  registerName_eq : ∀ r, table.matrixAt? r = none → columns.registerName r = rows.registerName r
  destinationText_eq : ∀ i : Instruction,
    (∀ d, i.destination? = some d → table.matrixAt? d.register = none) →
      columns.destinationText i = rows.destinationText i
  matrix_names : ∀ r c, table.matrixAt? r = some c →
    ∃ offset : Nat, r.number.toNat = c.start.toNat + offset ∧
      let column := "transpose(" ++ c.name ++ ")[" ++ toString offset ++ "]"
      let row := c.name ++ "[" ++ toString offset ++ "]"
      columns.registerName r = .ok column ∧ rows.registerName r = .ok row ∧
        ∀ (i : Instruction) d, i.destination? = some d → d.register = r →
          let suffix := if d.mask.isLeading c.columns.toNat then "" else d.mask.suffix
          columns.destinationText i = .ok (column ++ suffix) ∧
            rows.destinationText i = .ok (row ++ suffix)

theorem differByOrder_withOrder (horder : s.order = .columnMajor) :
    DifferByOrder s.table s (s.withOrder .rowMajor) where
  declared_eq := rfl
  inputs_eq := rfl
  outputs_eq := rfl
  floats_eq := rfl
  ints_eq := rfl
  bools_eq := rfl
  registerWidth_eq _ := rfl
  resolveSource_eq i n := (s.resolveSource_withOrder .rowMajor i n).symm
  registerName_eq r hnone := (registerName_withOrder .rowMajor hnone).symm
  destinationText_eq i hnone := (destinationText_withOrder .rowMajor hnone).symm
  matrix_names r c hmatrix := by
    obtain ⟨hkind, hfind, hrows⟩ := ConstantTable.matrixAt?_eq_some_iff.1 hmatrix
    have hstart := Constant.start_le_of_findType? hfind
    have hcolumn := s.constantName_of_rows_ne_one (n := r.number) hrows
    have hrow := (s.withOrder .rowMajor).constantName_of_rows_ne_one (n := r.number) hrows
    rw [horder] at hcolumn
    refine ⟨(r.number - c.start).toNat, ?_, ?_, ?_, ?_⟩
    · rw [UInt32.toNat_sub_of_le _ _ (UInt32.le_iff_toNat_le.2 hstart)]
      omega
    · rw [registerName_of_findType? hkind hfind, hcolumn]
    · have hfind' : (s.withOrder .rowMajor).table.findType? .float r.number = some c := hfind
      rw [registerName_of_findType? hkind hfind', hrow]
      rfl
    · intro i d hdest hd
      subst hd
      have hmatrix' : (s.withOrder .rowMajor).table.matrixAt? d.register = some c := hmatrix
      rw [destinationText_of_matrixAt? hmatrix hdest, hcolumn,
        destinationText_of_matrixAt? hmatrix' hdest, hrow]
      exact ⟨rfl, rfl⟩

/-- The order of matrices has no say in whether and how a program loads, and of what the symbols
tell only in the names of float registers that hold a matrix. -/
theorem load_differByOrder (table : ConstantTable) (program : List Instruction) :
    match load table program .columnMajor, load table program .rowMajor with
    | .ok columns, .ok rows => DifferByOrder table columns rows
    | .error e, .error e' => e = e'
    | _, _ => False := by
  rw [load_withOrder table program .columnMajor .rowMajor]
  cases hload : load table program .columnMajor with
  | error e => rfl
  | ok s =>
    have hself := load_withOrder table program .columnMajor .columnMajor
    rw [hload] at hself
    have horder : s.order = .columnMajor := congrArg order (Except.ok.inj hself)
    have hdiffer := differByOrder_withOrder horder
    rw [table_load hload] at hdiffer
    exact hdiffer

theorem load_differByOrder_world :
    let table : ConstantTable :=
      ⟨[Constant.matrix "World" .matrixRows 0 4 3, Constant.vector "Tint" 4 4]⟩
    let write : Instruction :=
      { opcode := .mov
        operands := [.destination ⟨⟨.const, 2⟩, ⟨true, true, false, false⟩⟩,
          .source { register := ⟨.const, 2⟩ }] }
    ∃ columns rows, load table [write] .columnMajor = .ok columns ∧
      load table [write] .rowMajor = .ok rows ∧
      columns.destinationText write = .ok "transpose(World)[2].xy" ∧
      rows.destinationText write = .ok "World[2].xy" ∧
      columns.registerName ⟨.const, 4⟩ = rows.registerName ⟨.const, 4⟩ ∧
      columns.resolveSource write 0 = rows.resolveSource write 0 := by
  intro table write
  have hcolumns : load table [write] .columnMajor = .ok _ := rfl
  have hrows : load table [write] .rowMajor = .ok _ := rfl
  have hdiffer := load_differByOrder table [write]
  rw [hcolumns, hrows] at hdiffer
  obtain ⟨offset, hoffset, _, _, htexts⟩ := hdiffer.matrix_names ⟨.const, 2⟩ _ rfl
  obtain ⟨hcolumn, hrow⟩ := htexts write _ rfl rfl
  have hoffset : 2 = 0 + offset := hoffset
  obtain rfl : 2 = offset := by omega
  exact ⟨_, _, hcolumns, hrows, hcolumn, hrow, hdiffer.registerName_eq _ rfl,
    hdiffer.resolveSource_eq write 0⟩

end Symbols

end ShaderAssembly
