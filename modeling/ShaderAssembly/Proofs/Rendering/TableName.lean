import ShaderAssembly.Proofs.Rendering.Constant

namespace ShaderAssembly

namespace Symbols

variable {table : ConstantTable} {order : MatrixOrder} {program : List Instruction}
  {s : Symbols} {i : Instruction} {src : Source} {r : Register} {set : RegisterSet}
  {first : Constant}

/-- The registers that the table can declare are each of one file, so their literals have the value
of the constant. -/
private theorem literal?_of_kind? (hset : set.kind? = some r.kind) :
    s.literal? r = s.constant? r := by
  unfold literal? constant?
  obtain hkind | hkind | hkind := RegisterSet.kind_of_kind? hset <;> simp [hkind]

/-- The operand is left to the table. -/
theorem resolveSource_of_constant?_eq_none {n : Nat} (hset : set.kind? = some src.register.kind)
    (hnone : s.constant? src.register = none) (hsrc : i.source? n = some src) :
    s.resolveSource i n = s.tableText i src := by
  have hkind : src.register.kind.isConstant = true := by
    obtain hkind | hkind | hkind := RegisterSet.kind_of_kind? hset <;> rw [hkind] <;> rfl
  have hliteral : s.literal? src.register = none := by rw [literal?_of_kind? hset, hnone]
  rw [resolveSource, hsrc]
  exact sourceText_of_literal?_eq_none hkind hliteral

theorem tableText_of_findType? {c : Constant} (hplain : src.modifier = .plain)
    (hfind : s.table.findType? src.register.kind.constantType src.register.number = some c) :
    s.tableText i src = .ok (.named (c.sourceName src.register.number ++ i.swizzleText src)) := by
  rw [tableText_eq_namedText hfind, namedText_of_plain hplain]

/-- A register that the table declares is named after the first constant of its register set, in
every instruction that reads it, just when the first constant of the type for its kind is there and
has a name that starts so. -/
theorem named_by_register_set_iff (hload : load table program order = .ok s)
    (hset : set.kind? = some r.kind) (hfirst : table.findSet? set r.number = some first)
    (hnone : s.constant? r = none) :
    (∀ i n src, i.source? n = some src → src.register = r → src.modifier = .plain →
        ∃ text, s.resolveSource i n = .ok (.named text) ∧ first.name.toList <+: text.toList) ↔
      ∃ c, table.findType? r.kind.constantType r.number = some c ∧
        first.name.toList <+: (c.sourceName r.number).toList := by
  rw [← table_load hload]
  constructor
  · intro hnamed
    have hsrc : (Instruction.copy r).source? 0 = some { register := r } := rfl
    obtain ⟨text, htext, hstarts⟩ := hnamed _ 0 _ hsrc rfl rfl
    rw [resolveSource_of_constant?_eq_none hset hnone hsrc] at htext
    cases hfind : s.table.findType? r.kind.constantType r.number with
    | none =>
      simp only [tableText, hfind] at htext
      cases htext
    | some c =>
      -- the copy reads every lane in its place, so its text is the name alone
      have hswizzle : (Instruction.copy r).swizzleText { register := r } = "" := rfl
      rw [tableText_of_findType? rfl hfind, hswizzle, String.append_empty] at htext
      cases htext
      exact ⟨c, rfl, hstarts⟩
  · rintro ⟨c, hfind, hstarts⟩ i n src hsrc hr hplain
    subst hr
    refine ⟨_, (resolveSource_of_constant?_eq_none hset hnone hsrc).trans
      (tableText_of_findType? hplain hfind), ?_⟩
    rw [String.toList_append]
    exact hstarts.trans (List.prefix_append _ _)

theorem named_by_register_set_iff_matrix :
    let world := Constant.matrix "World" .matrixRows 0 4 4
    let count : Constant :=
      { Constant.vector "LightCount" 2 1 with set := .int4, type := .int }
    let c2 : Register := ⟨.const, 2⟩
    ∃ s, load ⟨[count, world]⟩ [] .columnMajor = .ok s ∧
      ∀ i n src, i.source? n = some src → src.register = c2 → src.modifier = .plain →
        ∃ text, s.resolveSource i n = .ok (.named text) ∧ "World".toList <+: text.toList := by
  intro world count c2
  have hload : load ⟨[count, world]⟩ [] .columnMajor = .ok _ := rfl
  have hfirst : ConstantTable.findSet? ⟨[count, world]⟩ .float4 c2.number = some world := rfl
  exact ⟨_, hload, (named_by_register_set_iff hload rfl hfirst (by decide)).2
    ⟨world, rfl, by decide⟩⟩

/-- Two flags, one in a float register and one in a boolean register of the same number. The first
has no name in its register, and the second has that of the first. -/
theorem flags_misnamed :
    let useFog : Constant := { Constant.vector "UseFog" 0 1 with type := .bool }
    let fogEnabled : Constant :=
      { Constant.vector "FogEnabled" 0 1 with set := .bool, type := .bool }
    let table : ConstantTable := ⟨[useFog, fogEnabled]⟩
    ∃ s, load table [] .columnMajor = .ok s ∧
      table.findSet? .float4 0 = some useFog ∧ s.constant? ⟨.const, 0⟩ = none ∧
      s.resolveSource (Instruction.copy ⟨.const, 0⟩) 0 = .ok (.placeholder "Error Const0") ∧
      table.findSet? .bool 0 = some fogEnabled ∧ s.constant? ⟨.constBool, 0⟩ = none ∧
      s.resolveSource (Instruction.copy ⟨.constBool, 0⟩) 0 = .ok (.named "UseFog") := by
  intro useFog fogEnabled table
  exact ⟨_, rfl, rfl, by decide, by decide, rfl, by decide, by decide⟩

end Symbols

end ShaderAssembly
