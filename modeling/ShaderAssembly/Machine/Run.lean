import ShaderAssembly.Machine.Action

namespace ShaderAssembly.Machine

/-- Executes an instruction. The machine is given back after a fault too, so that execution can go
on. -/
def step (m : Machine) (i : Instruction) : Machine × Except Fault Flow := m.attempt (Action.step i)

/-- Executes a program up to and including the first instruction that stops it, and counts the
instructions executed. A fault ends the run and leaves the machine as it is by then. -/
def run (m : Machine) : List Instruction → Machine × Except Fault Nat
  | [] => (m, .ok 0)
  | i :: rest =>
    match m.step i with
    | (next, .error fault) => (next, .error fault)
    | (next, .ok .stop) => (next, .ok 1)
    | (next, .ok .next) =>
      let (final, outcome) := next.run rest
      (final, outcome.map (· + 1))

/-- Executes the definitions of constants in a program and nothing else. -/
def loadConstants (m : Machine) : List Instruction → Machine × Except Fault Unit
  | [] => (m, .ok ())
  | i :: rest =>
    if i.opcode.isDefinition then
      match m.attempt (Action.define i) with
      | (next, .error fault) => (next, .error fault)
      | (next, .ok ()) => next.loadConstants rest
    else
      m.loadConstants rest

end ShaderAssembly.Machine
