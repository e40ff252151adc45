import ShaderAssembly.Machine.Basic

namespace ShaderAssembly

/-- What is done to a machine step by step, and may end in a fault. What was done before a fault is
not taken back. -/
abbrev Action := EStateM Fault Machine

/-- Carries out an action, and tells what it leaves behind as well as how it ended. -/
def Machine.attempt (m : Machine) (a : Action α) : Machine × Except Fault α :=
  match a.run m with
  | .ok v next => (next, .ok v)
  | .error fault next => (next, .error fault)

/-- Whether execution goes on after an instruction. -/
inductive Flow where
  | next
  | stop
deriving DecidableEq, Repr

namespace Instruction

/-- The destination, which the instruction must have. -/
def target (i : Instruction) : Except Fault Destination :=
  match i.destination? with
  | some d => .ok d
  | none => .error (.missingOperand i.opcode .destination)

/-- The source operand with `n` before it, which the instruction must have. -/
def operand (i : Instruction) (n : Nat) : Except Fault Source :=
  match i.source? n with
  | some src => .ok src
  | none => .error (.missingOperand i.opcode .source)

end Instruction

/-- A source operand that can be read: a register, the lanes read and the arithmetic on them. -/
structure Fetch where
  register : Register
  swizzle : Swizzle
  adjust : Value → Value

/-- The value that an operand reads. -/
def Fetch.value (f : Fetch) (m : Machine) : Value :=
  f.adjust (f.swizzle.select (m.register f.register))

/-- The way a source operand reads the register `r`. -/
def Source.fetch (src : Source) (r : Register) : Except Fault Fetch := do
  return ⟨r, src.swizzle, ← src.modifier.arithmetic⟩

namespace Instruction

/-- The source operand with `n` before it, as it is read. -/
def fetch (i : Instruction) (n : Nat) : Except Fault Fetch := do
  let src ← i.operand n
  src.fetch src.register

/-- Line `k` of the matrix that starts at a source operand: the same operand, `k` registers on. -/
def matrixLine (i : Instruction) (src : Source) (k : Nat) : Except Fault Fetch :=
  let r := src.register
  if r.number.toNat + k < 0x100000000 then
    src.fetch ⟨r.kind, UInt32.ofNat (r.number.toNat + k)⟩
  else
    .error (.rangePastEnd i.opcode r)

end Instruction

namespace Action

/-- Reads a register the way that was found for it, if one was. -/
def read (fetch : Except Fault Fetch) : Action Value := do
  let fetch ← ofExcept fetch
  return fetch.value (← get)

/-- Reads the source operand with `n` before it. -/
def operand (i : Instruction) (n : Nat) : Action Value := read (i.fetch n)

/-- Reads the destination, for an operation that keeps some lanes of it. -/
def current (i : Instruction) : Action Value := do
  let d ← ofExcept i.target
  return (← get).register d.register

/-- Multiplies the first source operand with the matrix that starts at the second, line by line. The
products go to the leading lanes of what the destination holds. -/
def matrix (i : Instruction) (rows columns : Nat) : Action Value := do
  let vector ← operand i 0
  let base ← ofExcept (i.operand 1)
  let old ← current i
  let products ← (List.range columns).mapM fun k => do
    return Value.dot rows vector (← read (i.matrixLine base k))
  return old.overwrite products

/-- Computes the value of an instruction, before it is scaled and clamped. -/
def value (i : Instruction) : Action Value :=
  match i.opcode.operation? with
  | some (.unary f) => do return f (← operand i 0)
  | some (.binary f) => do return f (← operand i 0) (← operand i 1)
  | some (.ternary f) => do return f (← operand i 0) (← operand i 1) (← operand i 2)
  | some (.unaryOnto f) => do
    let a ← operand i 0
    return f (← current i) a
  | some (.binaryOnto f) => do
    let a ← operand i 0
    let b ← operand i 1
    return f (← current i) a b
  | some (.matrix rows columns) => matrix i rows columns
  | none => throw (.unsupportedOpcode i.opcode)

/-- Defines a constant under the number of the destination. -/
def define (i : Instruction) : Action Unit := do
  let d ← ofExcept i.target
  if i.opcode.isDefinition then
    match i.definition? with
    | some value => modify (·.define d.register.number value)
    | none => throw (.missingLiterals i.opcode)
  else
    throw (.unsupportedOpcode i.opcode)

/-- Writes a result, lane by lane. The register is there afterwards even if no lane is written. -/
def write (d : Destination) (result : ResultModifier) (v : Value) : Action Unit := do
  let factor ← ofExcept result.shift.factor
  let finished := v.finish factor result.saturate
  modify fun m => m.setWords d.register (m.words d.register)
  d.mask.components.forM fun c => modify (·.setLane d.register c (finished.get c).toBits)

/-- Executes an instruction. -/
def step (i : Instruction) : Action Flow :=
  match i.opcode with
  | .nop | .dcl | .comment => return .next
  | .endMark | .ret => return .stop
  | .defFloat | .defInt | .defBool => do
    define i
    return .next
  | _ => do
    let v ← value i
    let d ← ofExcept i.target
    write d i.result v
    return .next

end Action

namespace Machine

@[simp] theorem attempt_pure (m : Machine) (v : α) : m.attempt (pure v) = (m, .ok v) := rfl

@[simp] theorem attempt_modify (m : Machine) (f : Machine → Machine) :
    m.attempt (modify f) = (f m, .ok ()) := rfl

@[simp] theorem attempt_ofExcept (m : Machine) (x : Except Fault α) :
    m.attempt (ofExcept x) = (m, x) := by
  cases x <;> rfl

@[simp] theorem attempt_bind (m : Machine) (a : Action α) (k : α → Action β) :
    m.attempt (a >>= k) =
      match m.attempt a with
      | (next, .ok v) => next.attempt (k v)
      | (next, .error fault) => (next, .error fault) := by
  change Machine.attempt m (EStateM.bind a k) = _
  unfold attempt EStateM.run EStateM.bind
  cases a m <;> rfl

end Machine

end ShaderAssembly
