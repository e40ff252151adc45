import Mathlib
import ShaderAssembly.Machine.Run

namespace ShaderAssembly

@[simp] theorem Vec4.floats_words (v : Vec4 Float32) : v.words.floats = v := by
  simp [floats, words, map]

/-- Lanes that are set one after the other hold their new values, and the others the old ones. -/
private theorem Vec4.get_foldl_set (f : Component → α) (cs : List Component) (old : Vec4 α)
    (e : Component) :
    (cs.foldl (fun v c => v.set c (f c)) old).get e = if e ∈ cs then f e else old.get e := by
  induction cs generalizing old with
  | nil => simp
  | cons c cs ih =>
    rw [List.foldl_cons, ih, Vec4.get_set]
    by_cases hc : e = c <;> by_cases hcs : e ∈ cs <;> simp [hc, hcs]

/-- The new values in the lanes of the mask and the old ones elsewhere. -/
def Mask.merge (m : Mask) (new old : Vec4 α) : Vec4 α :=
  Vec4.ofFn fun c => if m.contains c then new.get c else old.get c

@[simp] theorem Mask.get_merge (m : Mask) (new old : Vec4 α) (c : Component) :
    (m.merge new old).get c = if m.contains c then new.get c else old.get c :=
  Vec4.get_ofFn _ c

theorem Mask.floats_merge (m : Mask) (new old : Vec4 UInt32) :
    (m.merge new old).floats = m.merge new.floats old.floats := by
  apply Vec4.ext_get
  intro c
  rw [get_merge, Vec4.floats, Vec4.floats, Vec4.floats, Vec4.get_map, Vec4.get_map, Vec4.get_map,
    get_merge, apply_ite Float32.ofBits]

/-- How the value of an instruction is computed from the registers it reads. -/
inductive Formula where
  | unary (f : Value → Value) (a : Fetch)
  | binary (f : Value → Value → Value) (a b : Fetch)
  | ternary (f : Value → Value → Value → Value) (a b c : Fetch)
  | unaryOnto (f : (old : Value) → Value → Value) (a : Fetch)
  | binaryOnto (f : (old : Value) → Value → Value → Value) (a b : Fetch)
  | matrix (rows : Nat) (vector : Fetch) (lines : List Fetch)

/-- The value of a formula for a destination that holds `old`. -/
def Formula.value (m : Machine) (old : Value) : Formula → Value
  | .unary f a => f (a.value m)
  | .binary f a b => f (a.value m) (b.value m)
  | .ternary f a b c => f (a.value m) (b.value m) (c.value m)
  | .unaryOnto f a => f old (a.value m)
  | .binaryOnto f a b => f old (a.value m) (b.value m)
  | .matrix rows vector lines =>
    old.overwrite (lines.map fun line => Value.dot rows (vector.value m) (line.value m))

/-- What an instruction does. -/
inductive Effect where
  | skip
  | stop
  | define (number : UInt32) (value : Definition)
  | compute (formula : Formula) (target : Destination) (factor : Float32) (saturate : Bool)

/-- Whether the operation computes a value, if the machine knows it at all. -/
def Opcode.computes : Opcode → Bool
  | .nop | .dcl | .comment | .endMark | .ret | .defFloat | .defInt | .defBool => false
  | _ => true

namespace Instruction

/-- The formula for the product of the first source operand and the matrix that starts at the
second. -/
def matrix (i : Instruction) (rows columns : Nat) : Except Fault Formula := do
  let vector ← i.fetch 0
  let base ← i.operand 1
  let _ ← i.target
  return .matrix rows vector (← (List.range columns).mapM (i.matrixLine base))

/-- The formula of an instruction that computes a value. -/
def formula (i : Instruction) : Except Fault Formula :=
  match i.opcode.operation? with
  | some (.unary f) => do return .unary f (← i.fetch 0)
  | some (.binary f) => do return .binary f (← i.fetch 0) (← i.fetch 1)
  | some (.ternary f) => do return .ternary f (← i.fetch 0) (← i.fetch 1) (← i.fetch 2)
  | some (.unaryOnto f) => do
    let a ← i.fetch 0
    let _ ← i.target
    return .unaryOnto f a
  | some (.binaryOnto f) => do
    let a ← i.fetch 0
    let b ← i.fetch 1
    let _ ← i.target
    return .binaryOnto f a b
  | some (.matrix rows columns) => i.matrix rows columns
  | none => .error (.unsupportedOpcode i.opcode)

/-- What the instruction does, or why it does nothing. The machine has no part in it. -/
def effect (i : Instruction) : Except Fault Effect :=
  match i.opcode with
  | .nop | .dcl | .comment => .ok .skip
  | .endMark | .ret => .ok .stop
  | .defFloat | .defInt | .defBool => do
    let d ← i.target
    match i.definition? with
    | some value => return .define d.register.number value
    | none => throw (.missingLiterals i.opcode)
  | _ => do
    let formula ← i.formula
    let d ← i.target
    let factor ← i.result.shift.factor
    return .compute formula d factor i.result.saturate

theorem effect_of_computes {i : Instruction} (hop : i.opcode.computes = true) :
    i.effect = do
      let formula ← i.formula
      let d ← i.target
      let factor ← i.result.shift.factor
      return .compute formula d factor i.result.saturate := by
  unfold effect
  split <;> simp_all [Opcode.computes]

theorem effect_of_isDefinition {i : Instruction} (hop : i.opcode.isDefinition = true) :
    i.effect = (do
      let d ← i.target
      match i.definition? with
      | some value => return .define d.register.number value
      | none => throw (.missingLiterals i.opcode)) := by
  unfold Opcode.isDefinition at hop
  unfold effect
  split at hop <;> simp_all

theorem destination?_of_target {i : Instruction} {d : Destination} (htarget : i.target = .ok d) :
    i.destination? = some d := by
  unfold target at htarget
  split at htarget
  next hdest =>
    cases htarget
    exact hdest
  next => cases htarget

/-- What the machine holds in the destination. -/
def kept (i : Instruction) (m : Machine) : Value :=
  match i.destination? with
  | some d => m.register d.register
  | none => Value.zero

end Instruction

namespace Machine

/-- Carries out an effect. -/
def perform (m : Machine) : Effect → Machine × Flow
  | .skip => (m, .next)
  | .stop => (m, .stop)
  | .define number value => (m.define number value, .next)
  | .compute formula d factor saturate =>
    let value := (formula.value m (m.register d.register)).finish factor saturate
    (m.setWords d.register (d.mask.merge value.words (m.words d.register)), .next)

theorem setWords_setWords (m : Machine) (r : Register) (u v : Vec4 UInt32) :
    (m.setWords r u).setWords r v = m.setWords r v := by
  unfold setWords
  congr 1
  apply Std.ExtTreeMap.ext_getElem?
  intro q
  rw [Std.ExtTreeMap.getElem?_insert, Std.ExtTreeMap.getElem?_insert,
    Std.ExtTreeMap.getElem?_insert]
  split <;> rfl

private theorem setLane_setWords (m : Machine) (r : Register) (old : Vec4 UInt32) (c : Component)
    (word : UInt32) : (m.setWords r old).setLane r c word = m.setWords r (old.set c word) := by
  rw [setLane, words_setWords, if_pos rfl, setWords_setWords]

private theorem attempt_forM_setLane (m : Machine) (r : Register) (word : Component → UInt32)
    (cs : List Component) (old : Vec4 UInt32) :
    (m.setWords r old).attempt (cs.forM fun c => modify (·.setLane r c (word c))) =
      (m.setWords r (cs.foldl (fun v c => v.set c (word c)) old), .ok ()) := by
  induction cs generalizing old with
  | nil => rfl
  | cons c cs ih =>
    rw [List.forM_eq_forM, List.forM_cons, attempt_bind, attempt_modify]
    simp only [setLane_setWords]
    exact ih (old.set c (word c))

/-- The lanes of the mask are written and the others stay, unless the shift has no factor. -/
theorem attempt_write (m : Machine) (d : Destination) (result : ResultModifier) (v : Value) :
    m.attempt (Action.write d result v) =
      match result.shift.factor with
      | .ok factor =>
        (m.setWords d.register
          (d.mask.merge (v.finish factor result.saturate).words (m.words d.register)), .ok ())
      | .error f => (m, .error f) := by
  unfold Action.write
  rw [attempt_bind, attempt_ofExcept]
  cases result.shift.factor with
  | error f => rfl
  | ok factor =>
    simp only [attempt_bind, attempt_modify]
    rw [attempt_forM_setLane]
    congr 2
    apply Vec4.ext_get
    intro c
    rw [Vec4.get_foldl_set, Mask.get_merge, Vec4.words, Vec4.get_map]
    simp only [Mask.mem_components]

theorem attempt_read (m : Machine) (fetch : Except Fault Fetch) :
    m.attempt (Action.read fetch) = (m, fetch.map (·.value m)) := by
  cases fetch <;> rfl

theorem attempt_operand (m : Machine) (i : Instruction) (n : Nat) :
    m.attempt (Action.operand i n) = (m, (i.fetch n).map (·.value m)) :=
  m.attempt_read (i.fetch n)

theorem attempt_current (m : Machine) (i : Instruction) :
    m.attempt (Action.current i) = (m, i.target.map fun _ => i.kept m) := by
  unfold Action.current Instruction.target Instruction.kept
  cases i.destination? <;> rfl

/-- A traversal by actions that only look at the machine. -/
private theorem attempt_mapM (m : Machine) {g : α → Action γ} {f : α → Except Fault β} {v : β → γ}
    (h : ∀ a, m.attempt (g a) = (m, (f a).map v)) (as : List α) :
    m.attempt (as.mapM g) = (m, (as.mapM f).map (List.map v)) := by
  induction as with
  | nil => rfl
  | cons a as ih =>
    rw [List.mapM_cons, List.mapM_cons, attempt_bind, h]
    cases f a with
    | error e => rfl
    | ok b =>
      change m.attempt (as.mapM g >>= _) = _
      rw [attempt_bind, ih]
      cases as.mapM f <;> rfl

theorem attempt_matrix (m : Machine) (i : Instruction) (rows columns : Nat) :
    m.attempt (Action.matrix i rows columns) =
      (m, (i.matrix rows columns).map fun formula => formula.value m (i.kept m)) := by
  unfold Action.matrix Instruction.matrix
  rw [attempt_bind, attempt_operand]
  cases i.fetch 0 with
  | error f => rfl
  | ok vector =>
    simp only [Except.map, attempt_bind, attempt_ofExcept]
    cases i.operand 1 with
    | error f => rfl
    | ok base =>
      simp only [attempt_current]
      cases i.target with
      | error f => rfl
      | ok d =>
        have hline : ∀ k, m.attempt (do
            return Value.dot rows (vector.value m) (← Action.read (i.matrixLine base k))) =
              (m, (i.matrixLine base k).map fun line =>
                Value.dot rows (vector.value m) (line.value m)) := by
          intro k
          rw [attempt_bind, attempt_read]
          cases i.matrixLine base k <;> rfl
        simp only [Except.map, attempt_mapM m hline]
        change _ = (m, (do
          return Formula.matrix rows vector (← (List.range columns).mapM (i.matrixLine base)) :
            Except Fault Formula).map fun formula => formula.value m (i.kept m))
        cases (List.range columns).mapM (i.matrixLine base) <;> rfl

/-- The value that an instruction computes is that of its formula. -/
theorem attempt_value (m : Machine) (i : Instruction) :
    m.attempt (Action.value i) = (m, i.formula.map fun formula => formula.value m (i.kept m)) := by
  cases hop : i.opcode.operation? with
  | none =>
    simp only [Action.value, Instruction.formula, hop]
    rfl
  | some op =>
    simp only [Action.value, Instruction.formula, hop]
    cases op with
    | unary f =>
      simp only [attempt_bind, attempt_operand]
      cases i.fetch 0 <;> rfl
    | binary f =>
      simp only [attempt_bind, attempt_operand]
      cases i.fetch 0 <;> cases i.fetch 1 <;> rfl
    | ternary f =>
      simp only [attempt_bind, attempt_operand]
      cases i.fetch 0 <;> cases i.fetch 1 <;> cases i.fetch 2 <;> rfl
    | unaryOnto f =>
      simp only [attempt_bind, attempt_operand, attempt_current]
      cases i.fetch 0 <;> cases i.target <;> rfl
    | binaryOnto f =>
      simp only [attempt_bind, attempt_operand, attempt_current]
      cases i.fetch 0 <;> cases i.fetch 1 <;> cases i.target <;> rfl
    | matrix rows columns => exact m.attempt_matrix i rows columns

theorem attempt_define (m : Machine) {i : Instruction} (hop : i.opcode.isDefinition = true) :
    m.attempt (Action.define i) =
      match i.effect with
      | .ok e => ((m.perform e).1, .ok ())
      | .error f => (m, .error f) := by
  unfold Action.define
  rw [attempt_bind, attempt_ofExcept, Instruction.effect_of_isDefinition hop]
  cases i.target with
  | error f => rfl
  | ok d =>
    simp only [hop, if_true]
    cases i.definition? <;> rfl

theorem step_of_isDefinition (m : Machine) {i : Instruction} (hop : i.opcode.isDefinition = true) :
    m.step i =
      ((m.attempt (Action.define i)).1, (m.attempt (Action.define i)).2.map fun _ => .next) := by
  have hstep : Action.step i = do Action.define i; return Flow.next := by
    unfold Opcode.isDefinition at hop
    unfold Action.step
    split at hop <;> simp_all
  rw [step, hstep, attempt_bind]
  obtain ⟨next, outcome⟩ := m.attempt (Action.define i)
  cases outcome <;> rfl

theorem step_of_computes (m : Machine) {i : Instruction} (hop : i.opcode.computes = true) :
    m.step i = m.attempt (do
      let v ← Action.value i
      let d ← ofExcept i.target
      Action.write d i.result v
      return .next) := by
  unfold step Action.step
  split <;> simp_all [Opcode.computes]

/-- An instruction with an effect is executed by carrying that out; the others fault, and do
nothing. -/
theorem step_eq (m : Machine) (i : Instruction) :
    m.step i =
      match i.effect with
      | .ok e => ((m.perform e).1, .ok (m.perform e).2)
      | .error f => (m, .error f) := by
  cases hdefinition : i.opcode.isDefinition with
  | true =>
    rw [m.step_of_isDefinition hdefinition, m.attempt_define hdefinition,
      Instruction.effect_of_isDefinition hdefinition]
    cases i.target with
    | error f => rfl
    | ok d => cases i.definition? <;> rfl
  | false =>
    cases hcomputes : i.opcode.computes with
    | true =>
      rw [m.step_of_computes hcomputes, Instruction.effect_of_computes hcomputes, attempt_bind,
        attempt_value]
      cases i.formula with
      | error f => rfl
      | ok formula =>
        simp only [Except.map, attempt_bind, attempt_ofExcept]
        cases htarget : i.target with
        | error f => rfl
        | ok d =>
          simp only [attempt_write]
          cases i.result.shift.factor with
          | error f => rfl
          | ok factor =>
            have hkept : i.kept m = m.register d.register := by
              rw [Instruction.kept, Instruction.destination?_of_target htarget]
            simp only [hkept]
            rfl
    | false =>
      unfold Opcode.computes at hcomputes
      unfold step Action.step Instruction.effect
      split at hcomputes <;> simp_all [Opcode.isDefinition, perform]

end Machine

end ShaderAssembly
