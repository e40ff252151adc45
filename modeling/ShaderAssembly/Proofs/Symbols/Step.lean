import ShaderAssembly.Proofs.Definition
import ShaderAssembly.Symbols

namespace ShaderAssembly

/-- Whether registers of the kind become inputs of the shader when they are declared. -/
def RegisterKind.isInput : RegisterKind → Bool
  | .input | .misc => true
  | _ => false

/-- Whether an instruction can declare registers of the kind. -/
def RegisterKind.isDeclarable (k : RegisterKind) : Bool :=
  k.isInput || k.isOutput || k == .sampler || k == .address

theorem RegisterKind.isInput_iff {k : RegisterKind} :
    k.isInput = true ↔ k = .input ∨ k = .misc := by
  cases k <;> simp [isInput]

theorem RegisterKind.isOutput_eq_false_of_isInput {k : RegisterKind} (h : k.isInput = true) :
    k.isOutput = false := by
  cases k <;> simp_all [isInput, isOutput]

/-- The instruction is a declaration of the register. -/
def Instruction.Declares (i : Instruction) (r : Register) : Prop :=
  i.opcode = .dcl ∧ ∃ d, i.destination? = some d ∧ d.register = r

instance (i : Instruction) (r : Register) : Decidable (i.Declares r) :=
  inferInstanceAs (Decidable (_ ∧ ∃ d ∈ i.destination?, d.register = r))

namespace Symbols

/-- Makes the first declaration of a register and lists it by its kind. -/
def enter (s : Symbols) (d : Declaration) : Symbols :=
  { s with
    declared := s.declared.insert d.register d
    inputs := if d.register.kind.isInput then s.inputs.insert d.register d else s.inputs
    outputs := if d.register.kind.isOutput then s.outputs.insert d.register d else s.outputs }

@[simp] theorem declared_enter (s : Symbols) (d : Declaration) (r : Register) :
    (s.enter d).declared[r]? = if d.register = r then some d else s.declared[r]? := by
  simp [enter, Std.ExtTreeMap.getElem?_insert]

@[simp] theorem inputs_enter (s : Symbols) (d : Declaration) (r : Register) :
    (s.enter d).inputs[r]? =
      if d.register = r ∧ r.kind.isInput then some d else s.inputs[r]? := by
  unfold enter
  by_cases heq : d.register = r
  · subst heq
    cases d.register.kind.isInput <;> simp
  · cases d.register.kind.isInput <;> simp [heq, Std.ExtTreeMap.getElem?_insert]

@[simp] theorem outputs_enter (s : Symbols) (d : Declaration) (r : Register) :
    (s.enter d).outputs[r]? =
      if d.register = r ∧ r.kind.isOutput then some d else s.outputs[r]? := by
  unfold enter
  by_cases heq : d.register = r
  · subst heq
    cases d.register.kind.isOutput <;> simp
  · cases d.register.kind.isOutput <;> simp [heq, Std.ExtTreeMap.getElem?_insert]

/-- A declaration is refused when the register has one, and otherwise when its kind has none. -/
theorem declare_eq (s : Symbols) (d : Declaration) :
    s.declare d =
      if d.register ∈ s.declared then (s, .error (.duplicateDeclaration d.register))
      else if d.register.kind.isDeclarable then (s.enter d, .ok ())
      else (s, .error (.undeclarableKind d.register)) := by
  by_cases hmem : d.register ∈ s.declared
  · simp [declare, hmem]
  · cases hkind : d.register.kind <;>
      simp [declare, enter, hmem, hkind, RegisterKind.isDeclarable, RegisterKind.isInput,
        RegisterKind.isOutput]

@[simp] theorem inputs_touch (s : Symbols) (r : Register) : (s.touch r).inputs = s.inputs := by
  unfold touch
  split <;> rfl

@[simp] theorem outputs_touch (s : Symbols) (r q : Register) :
    (s.touch r).outputs[q]? =
      if r = q ∧ r ∉ s.declared ∧ r.kind.isOutput then some (Declaration.implicit r)
      else s.outputs[q]? := by
  unfold touch
  split
  next hmem => simp [Std.ExtTreeMap.contains_iff_mem.1 hmem]
  next hmem =>
    have hfresh : r ∉ s.declared := fun h => hmem (Std.ExtTreeMap.contains_iff_mem.2 h)
    cases hkind : r.kind.isOutput <;> simp [hfresh, Std.ExtTreeMap.getElem?_insert]

@[simp] theorem inputs_define (s : Symbols) (r : Register) (value : Definition) :
    (s.define r value).inputs = s.inputs := by
  cases value with
  | float v => rfl
  | int v => rfl
  | bool b => exact inputs_touch _ r

/-- The symbols after an instruction that is taken in: it has no destination, or it makes the first
declaration of a register, or it defines a constant, or it writes a register. -/
inductive Step (s : Symbols) (i : Instruction) : Symbols → Prop
  | silent (hdest : i.destination? = none) : Step s i s
  | declare (d : Destination) (hdest : i.destination? = some d) (hop : i.opcode = .dcl)
      (hfresh : d.register ∉ s.declared) (hkind : d.register.kind.isDeclarable = true) :
      Step s i (s.enter (Declaration.ofDestination i.usage d))
  | define (d : Destination) (value : Definition) (hdest : i.destination? = some d)
      (hdef : i.definition? = some value) : Step s i (s.define d.register value)
  | write (d : Destination) (hdest : i.destination? = some d) (hop : i.opcode ≠ .dcl)
      (hdef : i.opcode.isDefinition = false) : Step s i (s.touch d.register)

theorem Step.table_eq {s next : Symbols} {i : Instruction} (hstep : s.Step i next) :
    next.table = s.table := by
  have htouch (t : Symbols) (r : Register) : (t.touch r).table = t.table := by
    unfold touch
    split <;> rfl
  cases hstep with
  | silent hdest => rfl
  | declare d hdest hop hfresh hkind => rfl
  | define d value hdest hdef =>
    cases value with
    | float v => rfl
    | int v => rfl
    | bool b => exact htouch _ d.register
  | write d hdest hop hdef => exact htouch s d.register

theorem ingest_of_dcl {s : Symbols} {i : Instruction} {d : Destination}
    (hdest : i.destination? = some d) (hdcl : i.opcode = .dcl) :
    s.ingest i = s.declare (Declaration.ofDestination i.usage d) := by
  simp [ingest, hdest, hdcl]

/-- A defining instruction is taken in when it has the words for its constant. -/
theorem ingest_of_isDefinition {s : Symbols} {i : Instruction} {d : Destination}
    (hdest : i.destination? = some d) (hop : i.opcode.isDefinition = true) :
    s.ingest i = (i.definition?.map (s.define d.register ·, .ok ())).getD
      (s, .error (.missingLiterals i.opcode)) := by
  unfold ingest
  rw [hdest]
  unfold Opcode.isDefinition at hop
  cases hdef : i.definition? <;> split at hop <;> simp_all

/-- Every other instruction with a destination writes it. -/
theorem ingest_of_write {s : Symbols} {i : Instruction} {d : Destination}
    (hdest : i.destination? = some d) (hdcl : i.opcode ≠ .dcl)
    (hop : i.opcode.isDefinition = false) : s.ingest i = (s.touch d.register, .ok ()) := by
  unfold ingest
  rw [hdest]
  unfold Opcode.isDefinition at hop
  split at hop <;> simp_all

/-- Taking in an instruction is a step, or a refusal that leaves the symbols as they were. -/
theorem ingest_cases (s : Symbols) (i : Instruction) :
    (∃ next, s.ingest i = (next, .ok ()) ∧ s.Step i next) ∨ ∃ e, s.ingest i = (s, .error e) := by
  cases hdest : i.destination? with
  | none => exact .inl ⟨s, by simp [ingest, hdest], .silent hdest⟩
  | some d =>
    by_cases hdcl : i.opcode = .dcl
    · rw [ingest_of_dcl hdest hdcl, declare_eq]
      split
      next => exact .inr ⟨_, rfl⟩
      next hfresh =>
        split
        next hkind => exact .inl ⟨_, rfl, .declare d hdest hdcl hfresh hkind⟩
        next => exact .inr ⟨_, rfl⟩
    · cases hop : i.opcode.isDefinition with
      | true =>
        rw [ingest_of_isDefinition hdest hop]
        cases hdef : i.definition? with
        | none => exact .inr ⟨_, rfl⟩
        | some value => exact .inl ⟨_, rfl, .define d value hdest hdef⟩
      | false => exact .inl ⟨_, ingest_of_write hdest hdcl hop, .write d hdest hdcl hop⟩

/-- A refused instruction leaves the symbols as they were. -/
theorem ingest_of_error {s : Symbols} {i : Instruction} {e : LoadError}
    (herror : (s.ingest i).2 = .error e) : (s.ingest i).1 = s := by
  obtain ⟨next, hingest, _⟩ | ⟨_, hingest⟩ := s.ingest_cases i
  · simp [hingest] at herror
  · rw [hingest]

end Symbols

end ShaderAssembly
