import ShaderAssembly.Proofs.Symbols.Acceptance
import ShaderAssembly.Rendering.Name

namespace ShaderAssembly

/-- Whether registers of the kind are variables of the shader, each with its own declaration. -/
def RegisterKind.isVariable : RegisterKind → Bool
  | .temp | .texture | .input | .output | .rastOut | .attrOut | .colorOut => true
  | _ => false

theorem RegisterKind.isConstant_eq_false_of_isVariable {k : RegisterKind}
    (h : k.isVariable = true) : k.isConstant = false := by
  cases k <;> simp_all [isVariable, isConstant]

/-- The number of components that an instruction gives a register by being the first to target it:
those in the mask of a declaration, and four if the mask is empty or nothing is declared. -/
def Instruction.declaredSize (i : Instruction) : Nat :=
  match i.opcode, i.destination? with
  | .dcl, some d => if d.mask = Mask.empty then 4 else d.mask.size
  | _, _ => 4

/-- The number of components of a register in a program. -/
def widthIn (program : List Instruction) (r : Register) : Nat :=
  ((program.find? (·.Targets r)).map (·.declaredSize)).getD 4

namespace Mask

private theorem isLeading_iff {m : Mask} {n : Nat} (hn : n ≤ 4) :
    m.isLeading n = true ↔ m.components = Component.all.take n := by
  obtain ⟨x, y, z, w⟩ := m
  revert n x y z w
  decide

/-- The letters of a mask, unless it is empty or stands for the leading components. -/
private theorem suffix_eq (m : Mask) {n : Nat} (hn : n ≤ 4) :
    (if m.isLeading n then "" else m.suffix) =
      if m.components = [] ∨ m.components = Component.all.take n then ""
      else String.ofList ('.' :: m.components.map Component.letter) := by
  simp only [isLeading_iff hn, suffix]
  cases hcomponents : m.components <;> simp

end Mask

namespace Declaration

theorem width_ofDestination (usage : Option UsageInfo) (d : Destination) :
    (ofDestination usage d).type.width = if d.mask = Mask.empty then 4 else d.mask.size := by
  obtain ⟨r, mask⟩ := d
  change ((ElementType.ofWidth? mask.size).getD .float4).width =
    if mask = Mask.empty then 4 else mask.size
  obtain ⟨x, y, z, w⟩ := mask
  revert x y z w
  decide

theorem width_of_declarationOf? {i : Instruction} {r : Register} {d : Declaration}
    (hd : i.declarationOf? r = some d) : d.type.width = i.declaredSize := by
  unfold Instruction.declarationOf? at hd
  unfold Instruction.declaredSize
  split at hd
  next hdcl =>
    obtain ⟨dest, hdest, rfl⟩ := Option.map_eq_some_iff.1 hd
    rw [hdcl, hdest]
    exact width_ofDestination i.usage dest
  next hdcl =>
    cases hd
    split
    next hop _ => exact absurd hop hdcl
    next => rfl

private theorem width_le_four (d : Declaration) : d.type.width ≤ 4 := by
  cases d.type <;> decide

end Declaration

namespace Symbols

variable {table : ConstantTable} {order : MatrixOrder} {program : List Instruction} {s t : Symbols}
  {i : Instruction} {d : Destination} {r : Register} {e : Declaration} {name : String}

/-- After a run without a refusal a register that was not declared before has the declaration of the
first instruction that targets it. -/
theorem getElem?_ingestStrictly (hrun : s.ingestStrictly program = .ok t) (r : Register) :
    t.declared[r]? =
      s.declared[r]?.or ((program.find? (·.Targets r)).bind (·.declarationOf? r)) := by
  have hsame : program.find? (·.touches r) = program.find? (·.Targets r) := by
    apply List.find?_congr
    intro i hi
    rw [Bool.eq_iff_iff, decide_eq_true_eq]
    exact touches_iff_of_mem hrun hi
  rw [← ingestAll_of_ingestStrictly hrun, getElem?_ingestAll, hsame]

/-- A register that some instruction of a loaded program targets is declared, with the width that
the first of them gives it. -/
theorem exists_declaration?_load (hload : load table program order = .ok s) (hi : i ∈ program)
    (htarget : i.Targets r) (hr : r.kind.isConstant = false) :
    ∃ d, s.declaration? r = some d ∧ d.type.width = widthIn program r := by
  obtain ⟨start, hstart, hrun⟩ := load_eq_ok_iff.1 hload
  have hnone : start.declared[r]? = none := by
    rw [getElem?_ofTable hstart, if_neg]
    rintro ⟨c, _, hc⟩
    rw [hc.isConstant] at hr
    cases hr
  obtain ⟨j, hfind⟩ : ∃ j, program.find? (·.Targets r) = some j := by
    apply Option.isSome_iff_exists.1
    rw [List.find?_isSome]
    exact ⟨i, hi, decide_eq_true htarget⟩
  have hfirst := List.find?_some hfind
  rw [decide_eq_true_eq, ← touches_iff_of_mem hrun (List.mem_of_find?_eq_some hfind)] at hfirst
  obtain ⟨d, hd⟩ := Option.isSome_iff_exists.1 (Instruction.isSome_declarationOf? hfirst)
  refine ⟨d, ?_, ?_⟩
  · rw [declaration?, getElem?_ingestStrictly hrun, hnone, hfind]
    exact hd
  · rw [widthIn, hfind]
    exact Declaration.width_of_declarationOf? hd

/-- A variable has a name, with a declaration or without. -/
theorem exists_registerName (s : Symbols) (hr : r.kind.isVariable = true) :
    ∃ name, s.registerName r = .ok name := by
  unfold registerName
  cases s.declaration? r <;> cases hkind : r.kind <;> simp_all [RegisterKind.isVariable]

theorem destinationText_of_declaration? (hdest : i.destination? = some d)
    (hname : s.registerName d.register = .ok name) (hr : d.register.kind ≠ .const)
    (hd : s.declaration? d.register = some e) :
    s.destinationText i =
      .ok (name ++ if d.mask.isLeading e.type.width then "" else d.mask.suffix) := by
  have hwidth : s.registerWidth d.register = .ok e.type.width := by
    unfold registerWidth
    split
    next hconst => exact absurd hconst hr
    next => rw [hd]
  unfold destinationText
  rw [hdest]
  simp only
  rw [hname, hwidth]
  change Except.ok (if _ then _ else _) = _
  split <;> simp

/-- The destination of any instruction of a loaded program can be rendered when it is a variable,
unless the instruction defines a float or an integer under its number. The text is the name of the
register, followed by the letters of the mask unless this is empty or consists of just the leading
components in the width of the register. -/
theorem destinationText_load (hload : load table program order = .ok s) (hi : i ∈ program)
    (hfloat : i.opcode ≠ .defFloat) (hint : i.opcode ≠ .defInt)
    (hdest : i.destination? = some d) (hr : d.register.kind.isVariable = true) :
    ∃ name, s.registerName d.register = .ok name ∧
      s.destinationText i = .ok (name ++
        if d.mask.components = [] ∨
            d.mask.components = Component.all.take (widthIn program d.register) then ""
        else String.ofList ('.' :: d.mask.components.map Component.letter)) := by
  have hconstant := RegisterKind.isConstant_eq_false_of_isVariable hr
  have htarget : i.Targets d.register := ⟨⟨d, hdest, rfl⟩, hfloat, hint⟩
  obtain ⟨e, he, hwidth⟩ := exists_declaration?_load hload hi htarget hconstant
  obtain ⟨name, hname⟩ := s.exists_registerName hr
  have hconst : d.register.kind ≠ .const := by
    intro hkind
    rw [hkind] at hconstant
    cases hconstant
  refine ⟨name, hname, ?_⟩
  rw [destinationText_of_declaration? hdest hname hconst he, Mask.suffix_eq _ e.width_le_four,
    hwidth]

theorem destinationText_load_two_components :
    let o : Register := ⟨.output, 0⟩
    let r : Register := ⟨.temp, 0⟩
    let xy : Mask := ⟨true, true, false, false⟩
    let xz : Mask := ⟨true, false, true, false⟩
    let write (q : Register) (mask : Mask) : Instruction :=
      { opcode := .mov
        operands := [.destination ⟨q, mask⟩, .source { register := ⟨.temp, 1⟩ }] }
    let program :=
      [Instruction.declare .texCoord 0 o xy, write o xy, write o xz, write r xy, write r xz]
    ∃ s, load ⟨[]⟩ program .columnMajor = .ok s ∧
      (∃ name, s.registerName o = .ok name ∧ s.destinationText (write o xy) = .ok name ∧
        s.destinationText (write o xz) = .ok (name ++ ".xz")) ∧
      ∃ name, s.registerName r = .ok name ∧ s.destinationText (write r xy) = .ok (name ++ ".xy") := by
  intro o r xy xz write program
  have hload : load ⟨[]⟩ program .columnMajor = .ok _ := rfl
  have htext : ∀ q mask, write q mask ∈ program → q.kind.isVariable = true → _ :=
    fun q mask hi hq => destinationText_load hload hi (by simp [write]) (by simp [write])
      (rfl : (write q mask).destination? = some ⟨q, mask⟩) hq
  obtain ⟨name, hname, hwhole⟩ := htext o xy (by simp [program]) rfl
  obtain ⟨name', hname', hpart⟩ := htext o xz (by simp [program]) rfl
  rw [hname] at hname'
  cases hname'
  refine ⟨_, hload, ⟨name, hname, ?_, hpart⟩, htext r xy (by simp [program]) rfl⟩
  rw [hwhole, if_pos (by decide), String.append_empty]

end Symbols

end ShaderAssembly
