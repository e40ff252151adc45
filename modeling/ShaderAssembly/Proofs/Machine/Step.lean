import ShaderAssembly.Proofs.Definition
import ShaderAssembly.Proofs.Machine.Atomicity
import ShaderAssembly.Proofs.Machine.Effect

namespace ShaderAssembly

theorem exists_of_bind_eq_ok {x : Except ε α} {f : α → Except ε β} {b : β}
    (h : x >>= f = .ok b) : ∃ a, x = .ok a ∧ f a = .ok b := by
  cases x with
  | error e => cases h
  | ok a => exact ⟨a, rfl, h⟩

/-- A traversal that succeeds does so at every member, and keeps their order. -/
theorem map_eq_of_mapM_eq_ok {f : α → Except ε β} {as : List α} {bs : List β}
    (h : as.mapM f = .ok bs) : as.map f = bs.map .ok := by
  induction as generalizing bs with
  | nil =>
    cases h
    rfl
  | cons a as ih =>
    rw [List.mapM_cons] at h
    obtain ⟨b, hfirst, h⟩ := exists_of_bind_eq_ok h
    obtain ⟨bs', hrest, h⟩ := exists_of_bind_eq_ok h
    cases h
    rw [List.map_cons, List.map_cons, hfirst, ih hrest]

/-- Whether operands see the vectors that are written to registers of the kind. -/
def RegisterKind.holdsVector : RegisterKind → Bool
  | .constInt | .constBool => false
  | _ => true

namespace Machine

variable {m m' : Machine} {r : Register}

theorem register_of_holdsVector (m : Machine) (hr : r.kind.holdsVector = true) :
    m.register r = m.vector r := by
  unfold register
  split <;> simp_all [RegisterKind.holdsVector]

@[simp] theorem register_setWords (m : Machine) (r q : Register) (words : Vec4 UInt32) :
    (m.setWords r words).register q =
      if r = q ∧ q.kind.holdsVector = true then words.floats else m.register q := by
  cases hq : q.kind.holdsVector with
  | true =>
    rw [register_of_holdsVector _ hq, register_of_holdsVector _ hq, vector_setWords]
    simp
  | false =>
    simp only [Bool.false_eq_true, and_false, if_false]
    unfold register
    split
    next => rfl
    next => rfl
    next kind _ _ => cases kind <;> simp_all [RegisterKind.holdsVector]

@[simp] theorem register_setRegister (m : Machine) (r q : Register) (v : Value) :
    (m.setRegister r v).register q =
      if r = q ∧ q.kind.holdsVector = true then v else m.register q := by
  rw [setRegister, register_setWords, Vec4.floats_words]

/-- The constant of the machine in a register. -/
def constant? (m : Machine) (r : Register) : Option Definition :=
  match r.kind with
  | .const => m.vectors[r]?.map .float
  | .constInt => (m.int? r.number).map .int
  | .constBool => (m.bool? r.number).map .bool
  | _ => none

/-- A definition replaces the constant of one register. -/
theorem constant?_define (m : Machine) (number : UInt32) (d : Definition) (q : Register) :
    (m.define number d).constant? q =
      if d.register number = q then some d else m.constant? q := by
  obtain ⟨kind, n⟩ := q
  cases d with
  | float words =>
    cases kind <;> simp [constant?, define, setWords, int?, bool?, Definition.register,
      Std.ExtTreeMap.getElem?_insert]
    split <;> rfl
  | int v =>
    cases kind <;> simp [constant?, define, int?, bool?, Definition.register,
      Std.ExtTreeMap.getElem?_insert]
    split <;> rfl
  | bool b =>
    cases kind <;> simp [constant?, define, int?, bool?, Definition.register,
      Std.ExtTreeMap.getElem?_insert]
    split <;> rfl

theorem getElem?_vectors_define (m : Machine) (number : UInt32) (d : Definition) (q : Register) :
    (m.define number d).vectors[q]? =
      match d with
      | .float words => if (⟨.const, number⟩ : Register) = q then some words else m.vectors[q]?
      | _ => m.vectors[q]? := by
  cases d with
  | float words => simp [define, setWords, Std.ExtTreeMap.getElem?_insert]
  | int v => rfl
  | bool b => rfl

/-- Of the constants only a float can be replaced by a vector. -/
theorem constant?_setWords (m : Machine) (r : Register) (words : Vec4 UInt32) (q : Register) :
    (m.setWords r words).constant? q =
      if r = q ∧ q.kind = .const then some (.float words) else m.constant? q := by
  obtain ⟨kind, n⟩ := q
  cases kind <;> simp [constant?, setWords, int?, bool?, Std.ExtTreeMap.getElem?_insert]
  split <;> rfl

/-- A machine is its constants and the vectors in registers that hold none. -/
theorem eq_of_constant? (hvectors : ∀ r : Register, r.kind ≠ .const → m.vectors[r]? = m'.vectors[r]?)
    (hconstants : ∀ r, m.constant? r = m'.constant? r) : m = m' := by
  have hvectors : m.vectors = m'.vectors := by
    apply Std.ExtTreeMap.ext_getElem?
    intro r
    by_cases hkind : r.kind = .const
    · have hconstant := hconstants r
      simp only [constant?, hkind] at hconstant
      exact (Option.map_inj_right fun _ _ => Definition.float.inj).1 hconstant
    · exact hvectors r hkind
  have hints : m.ints = m'.ints := by
    apply Std.ExtTreeMap.ext_getElem?
    intro n
    exact (Option.map_inj_right fun _ _ => Definition.int.inj).1 (hconstants ⟨.constInt, n⟩)
  have hbools : m.bools = m'.bools := by
    apply Std.ExtTreeMap.ext_getElem?
    intro n
    exact (Option.map_inj_right fun _ _ => Definition.bool.inj).1 (hconstants ⟨.constBool, n⟩)
  cases m
  cases m'
  simp_all

private theorem vector_define_of_ne (m : Machine) {number : UInt32} {d : Definition}
    (hne : d.register number ≠ r) : (m.define number d).vector r = m.vector r := by
  cases d with
  | float words =>
    rw [define, vector_setWords]
    exact if_neg hne
  | int v => rfl
  | bool b => rfl

theorem register_of_constant? {d : Definition} (hconstant : m.constant? r = some d) :
    m.register r = d.value := by
  obtain ⟨kind, n⟩ := r
  unfold constant? at hconstant
  split at hconstant
  next hkind =>
    obtain ⟨words, hget, rfl⟩ := Option.map_eq_some_iff.1 hconstant
    cases hkind
    simp only [register, vector, Machine.words, hget]
    rfl
  next hkind =>
    obtain ⟨v, hget, rfl⟩ := Option.map_eq_some_iff.1 hconstant
    cases hkind
    simp only [register, hget]
    rfl
  next hkind =>
    obtain ⟨b, hget, rfl⟩ := Option.map_eq_some_iff.1 hconstant
    cases hkind
    simp only [register, hget]
    rfl
  next => cases hconstant

/-- What an operand reads depends on the vector and the constant in its register. -/
theorem register_eq_of_constant? (hvector : m'.vector r = m.vector r)
    (hconstant : m'.constant? r = m.constant? r) : m'.register r = m.register r := by
  unfold constant? at hconstant
  unfold register
  split
  next hkind =>
    simp only [hkind] at hconstant
    rw [(Option.map_inj_right fun _ _ => Definition.int.inj).1 hconstant]
  next hkind =>
    simp only [hkind] at hconstant
    rw [(Option.map_inj_right fun _ _ => Definition.bool.inj).1 hconstant]
  next => exact hvector

/-- A definition gives its value to one register. -/
@[simp] theorem register_define (m : Machine) (number : UInt32) (d : Definition) (q : Register) :
    (m.define number d).register q = if d.register number = q then d.value else m.register q := by
  split
  next heq => exact register_of_constant? (by rw [constant?_define, if_pos heq])
  next hne =>
    refine register_eq_of_constant? (m.vector_define_of_ne hne) ?_
    rw [constant?_define, if_neg hne]

/-- A computed value goes to the written lanes of the destination, where operands see it unless the
destination is an integer or boolean constant. -/
theorem get_register_perform_compute (m : Machine) (formula : Formula) (d : Destination)
    (factor : Float32) (saturate : Bool) (q : Register) (c : Component) :
    ((m.perform (.compute formula d factor saturate)).1.register q).get c =
      if d.register = q ∧ q.kind.holdsVector = true ∧ d.mask.contains c = true then
        ((formula.value m (m.register q)).finish factor saturate).get c
      else (m.register q).get c := by
  unfold perform
  rw [register_setWords]
  by_cases hq : d.register = q ∧ q.kind.holdsVector = true
  · obtain ⟨rfl, hkind⟩ := hq
    rw [if_pos ⟨rfl, hkind⟩, Mask.floats_merge, Mask.get_merge, Vec4.floats_words,
      register_of_holdsVector m hkind, vector]
    simp only [hkind, true_and]
  · rw [if_neg hq, if_neg fun h => hq ⟨h.1, h.2.1⟩]

theorem step_of_effect {i : Instruction} {e : Effect} (heffect : i.effect = .ok e) :
    m.step i = ((m.perform e).1, .ok (m.perform e).2) := by
  rw [step_eq, heffect]

theorem step_of_effect_error {i : Instruction} {f : Fault} (heffect : i.effect = .error f) :
    m.step i = (m, .error f) := by
  rw [step_eq, heffect]

theorem exists_effect_of_step {i : Instruction} {flow : Flow} (hstep : (m.step i).2 = .ok flow) :
    ∃ e, i.effect = .ok e := by
  cases heffect : i.effect with
  | error f =>
    rw [step_of_effect_error heffect] at hstep
    cases hstep
  | ok e => exact ⟨e, rfl⟩

theorem effect_of_step_error {i : Instruction} {f : Fault} (hstep : (m.step i).2 = .error f) :
    i.effect = .error f := by
  cases heffect : i.effect with
  | error g =>
    rw [step_of_effect_error heffect] at hstep
    cases hstep
    rfl
  | ok e =>
    rw [step_of_effect heffect] at hstep
    cases hstep

end Machine

namespace Instruction

variable {i : Instruction} {d : Destination} {formula : Formula} {factor : Float32} {e : Effect}

theorem computes_of_formula (hformula : i.formula = .ok formula) : i.opcode.computes = true := by
  unfold Opcode.computes
  split
  all_goals first | rfl | simp [Instruction.formula, Opcode.operation?, *] at hformula

/-- The effects that an instruction can have, with what it takes for each of them. -/
inductive Executes (i : Instruction) : Effect → Prop
  | skip (hop : i.opcode = .nop ∨ i.opcode = .dcl ∨ i.opcode = .comment) : Executes i .skip
  | stop (hop : i.opcode = .endMark ∨ i.opcode = .ret) : Executes i .stop
  | define (d : Destination) (value : Definition) (hdest : i.destination? = some d)
      (hdef : i.definition? = some value) : Executes i (.define d.register.number value)
  | compute (formula : Formula) (d : Destination) (factor : Float32)
      (hformula : i.formula = .ok formula) (hdest : i.destination? = some d)
      (hfactor : i.result.shift.factor = .ok factor) :
      Executes i (.compute formula d factor i.result.saturate)

theorem target_of_destination? (hdest : i.destination? = some d) : i.target = .ok d := by
  simp only [target, hdest]

/-- A computing instruction can do nothing but write the value of its formula. -/
theorem exists_compute_of_effect (hop : i.opcode.computes = true) (hdest : i.destination? = some d)
    (heffect : i.effect = .ok e) :
    ∃ formula factor, i.formula = .ok formula ∧ i.result.shift.factor = .ok factor ∧
      e = .compute formula d factor i.result.saturate := by
  rw [effect_of_computes hop, target_of_destination? hdest] at heffect
  obtain ⟨formula, hformula, heffect⟩ := exists_of_bind_eq_ok heffect
  obtain ⟨_, htarget, heffect⟩ := exists_of_bind_eq_ok heffect
  obtain ⟨factor, hfactor, heffect⟩ := exists_of_bind_eq_ok heffect
  cases htarget
  cases heffect
  exact ⟨formula, factor, hformula, hfactor, rfl⟩

/-- A defining instruction can do nothing but define its constant. -/
theorem exists_define_of_effect (hop : i.opcode.isDefinition = true) (heffect : i.effect = .ok e) :
    ∃ d value, i.destination? = some d ∧ i.definition? = some value ∧
      e = .define d.register.number value := by
  rw [effect_of_isDefinition hop] at heffect
  obtain ⟨d, htarget, heffect⟩ := exists_of_bind_eq_ok heffect
  cases hdef : i.definition? with
  | none =>
    rw [hdef] at heffect
    cases heffect
  | some value =>
    rw [hdef] at heffect
    cases heffect
    exact ⟨d, value, destination?_of_target htarget, rfl, rfl⟩

theorem executes_of_effect (heffect : i.effect = .ok e) : i.Executes e := by
  have hdefine : i.opcode.isDefinition = true → i.Executes e := by
    intro hop
    obtain ⟨d, value, hdest, hdef, rfl⟩ := exists_define_of_effect hop heffect
    exact .define d value hdest hdef
  unfold effect at heffect
  split at heffect
  next hop =>
    cases heffect
    exact .skip (.inl hop)
  next hop =>
    cases heffect
    exact .skip (.inr (.inl hop))
  next hop =>
    cases heffect
    exact .skip (.inr (.inr hop))
  next hop =>
    cases heffect
    exact .stop (.inl hop)
  next hop =>
    cases heffect
    exact .stop (.inr hop)
  next hop => exact hdefine (by rw [hop]; rfl)
  next hop => exact hdefine (by rw [hop]; rfl)
  next hop => exact hdefine (by rw [hop]; rfl)
  next =>
    obtain ⟨formula, hformula, heffect⟩ := exists_of_bind_eq_ok heffect
    obtain ⟨d, htarget, heffect⟩ := exists_of_bind_eq_ok heffect
    obtain ⟨factor, hfactor, heffect⟩ := exists_of_bind_eq_ok heffect
    cases heffect
    exact .compute formula d factor hformula (destination?_of_target htarget) hfactor

theorem effect_of_formula (hformula : i.formula = .ok formula) (hdest : i.destination? = some d)
    (hfactor : i.result.shift.factor = .ok factor) :
    i.effect = .ok (.compute formula d factor i.result.saturate) := by
  rw [effect_of_computes (computes_of_formula hformula), hformula, target_of_destination? hdest,
    hfactor]
  rfl

end Instruction

namespace Machine

theorem step_of_stop (m : Machine) {i : Instruction} (hop : i.opcode = .endMark ∨ i.opcode = .ret) :
    m.step i = (m, .ok .stop) := by
  have heffect : i.effect = .ok .stop := by
    obtain hop | hop := hop <;> simp [Instruction.effect, hop]
  exact step_of_effect heffect

theorem opcode_of_step_stop {m : Machine} {i : Instruction} (hstep : (m.step i).2 = .ok .stop) :
    i.opcode = .endMark ∨ i.opcode = .ret := by
  obtain ⟨e, heffect⟩ := exists_effect_of_step hstep
  rw [step_of_effect heffect] at hstep
  cases Instruction.executes_of_effect heffect with
  | skip hop => cases hstep
  | stop hop => exact hop
  | define d value hdest hdef => cases hstep
  | compute formula d factor hformula hdest hfactor => cases hstep

/-- A step faults, or stops the run, or goes on; only in the last case can the machine change. -/
theorem step_cases (m : Machine) (i : Instruction) :
    (∃ f, m.step i = (m, .error f)) ∨ m.step i = (m, .ok .stop) ∨
      ∃ next, m.step i = (next, .ok .next) := by
  cases hstep : (m.step i).2 with
  | error f => exact .inl ⟨f, step_of_fault hstep⟩
  | ok flow =>
    cases flow with
    | next => exact .inr (.inr ⟨(m.step i).1, Prod.ext rfl hstep⟩)
    | stop => exact .inr (.inl (m.step_of_stop (opcode_of_step_stop hstep)))

theorem run_cons_of_next {m next : Machine} {i : Instruction} (hstep : m.step i = (next, .ok .next))
    (rest : List Instruction) :
    m.run (i :: rest) = ((next.run rest).1, (next.run rest).2.map (· + 1)) := by
  rw [run, hstep]

theorem loadConstants_cons_of_not {m : Machine} {i : Instruction}
    (hop : i.opcode.isDefinition = false) (rest : List Instruction) :
    m.loadConstants (i :: rest) = m.loadConstants rest := by
  rw [loadConstants, hop]
  rfl

theorem loadConstants_cons_of_ok {m next : Machine} {i : Instruction}
    (hop : i.opcode.isDefinition = true) (hdefine : m.attempt (Action.define i) = (next, .ok ()))
    (rest : List Instruction) : m.loadConstants (i :: rest) = next.loadConstants rest := by
  rw [loadConstants, if_pos hop, hdefine]

theorem loadConstants_cons_of_error {m next : Machine} {i : Instruction} {f : Fault}
    (hop : i.opcode.isDefinition = true)
    (hdefine : m.attempt (Action.define i) = (next, .error f)) (rest : List Instruction) :
    m.loadConstants (i :: rest) = (next, .error f) := by
  rw [loadConstants, if_pos hop, hdefine]

/-- Loading the constants of a program is a run of its definitions. -/
theorem loadConstants_eq (m : Machine) (program : List Instruction) :
    m.loadConstants program =
      ((m.run (program.filter fun i => i.opcode.isDefinition)).1,
        (m.run (program.filter fun i => i.opcode.isDefinition)).2.map fun _ => ()) := by
  induction program generalizing m with
  | nil => rfl
  | cons i rest ih =>
    cases hop : i.opcode.isDefinition with
    | false => rw [loadConstants_cons_of_not hop, List.filter_cons_of_neg (by simp [hop]), ih]
    | true =>
      have hstep := m.step_of_isDefinition hop
      rw [List.filter_cons, if_pos hop]
      cases hdefine : m.attempt (Action.define i) with
      | mk next outcome =>
        rw [hdefine] at hstep
        cases outcome with
        | error f =>
          rw [loadConstants_cons_of_error hop hdefine, run, hstep]
          rfl
        | ok u =>
          rw [loadConstants_cons_of_ok hop hdefine, run_cons_of_next hstep, ih]
          cases (next.run (rest.filter fun i => i.opcode.isDefinition)).2 <;> rfl

/-- In a run that ends without a fault the first instruction stops it, or the others follow in a run
of the same sort. -/
theorem exists_of_run_cons_eq_ok {m : Machine} {i : Instruction} {rest : List Instruction} {n : Nat}
    (hrun : (m.run (i :: rest)).2 = .ok n) :
    (m.step i = (m, .ok .stop) ∧ n = 1) ∨
      ∃ next k, m.step i = (next, .ok .next) ∧ (next.run rest).2 = .ok k ∧ n = k + 1 := by
  obtain ⟨f, hstep⟩ | hstep | ⟨next, hstep⟩ := m.step_cases i
  · rw [run, hstep] at hrun
    cases hrun
  · rw [run, hstep] at hrun
    cases hrun
    exact .inl ⟨hstep, rfl⟩
  · rw [run_cons_of_next hstep] at hrun
    cases hrest : (next.run rest).2 with
    | error f =>
      rw [hrest] at hrun
      cases hrun
    | ok k =>
      rw [hrest] at hrun
      cases hrun
      exact .inr ⟨next, k, hstep, hrest, rfl⟩

/-- Whether an instruction is executed, and whether it stops a run, is the same on every machine. -/
theorem step_snd_eq (m m' : Machine) (i : Instruction) : (m.step i).2 = (m'.step i).2 := by
  cases heffect : i.effect with
  | error f => rw [step_of_effect_error heffect, step_of_effect_error heffect]
  | ok e =>
    rw [step_of_effect heffect, step_of_effect heffect]
    cases e <;> rfl

/-- How a run ends is the same on every machine: no instruction looks at a register to decide what
is executed. -/
theorem run_snd_eq (m m' : Machine) (program : List Instruction) :
    (m.run program).2 = (m'.run program).2 := by
  induction program generalizing m m' with
  | nil => rfl
  | cons i rest ih =>
    have hsame := step_snd_eq m m' i
    obtain ⟨f, hstep⟩ | hstep | ⟨next, hstep⟩ := m.step_cases i
    · have hstep' : m'.step i = ((m'.step i).1, .error f) :=
        Prod.ext rfl (by rw [← hsame, hstep])
      rw [run, run, hstep, hstep']
    · have hstep' : m'.step i = ((m'.step i).1, .ok .stop) :=
        Prod.ext rfl (by rw [← hsame, hstep])
      rw [run, run, hstep, hstep']
    · have hstep' : m'.step i = ((m'.step i).1, .ok .next) :=
        Prod.ext rfl (by rw [← hsame, hstep])
      rw [run_cons_of_next hstep, run_cons_of_next hstep', ih next]

/-- A run over instructions that do not stop it goes on with what follows them. -/
theorem run_append {m : Machine} {pre : List Instruction} {n : Nat}
    (hstops : ∀ i ∈ pre, i.opcode ≠ .endMark ∧ i.opcode ≠ .ret) (hpre : (m.run pre).2 = .ok n)
    (post : List Instruction) :
    m.run (pre ++ post) =
      (((m.run pre).1.run post).1, ((m.run pre).1.run post).2.map (· + n)) := by
  induction pre generalizing m n with
  | nil =>
    cases hpre
    change m.run post = ((m.run post).1, (m.run post).2.map (· + 0))
    obtain ⟨final, outcome⟩ := m.run post
    cases outcome <;> rfl
  | cons i rest ih =>
    obtain ⟨hstep, _⟩ | ⟨next, k, hstep, hrest, rfl⟩ := exists_of_run_cons_eq_ok hpre
    · obtain ⟨hend, hret⟩ := hstops i List.mem_cons_self
      obtain hop | hop := opcode_of_step_stop (by rw [hstep])
      · exact absurd hop hend
      · exact absurd hop hret
    · rw [List.cons_append, run_cons_of_next hstep, run_cons_of_next hstep,
        ih (fun j hj => hstops j (List.mem_cons_of_mem i hj)) hrest]
      cases ((next.run rest).1.run post).2 <;> simp [Except.map, Nat.add_assoc]

end Machine

end ShaderAssembly
