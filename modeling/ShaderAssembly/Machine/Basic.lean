import ShaderAssembly.Machine.Arithmetic

namespace ShaderAssembly

/-- The contents of a machine. Registers that were never written hold zeros. Vectors are kept by
their bits, and apart from the integer and the boolean constants. -/
structure Machine where
  vectors : RegisterMap (Vec4 UInt32) := ∅
  ints : NumberMap (Vec4 Int32) := ∅
  bools : NumberMap Bool := ∅

namespace Machine

/-- The machine in which nothing was written. -/
def empty : Machine := {}

def int? (m : Machine) (number : UInt32) : Option (Vec4 Int32) := m.ints[number]?

def bool? (m : Machine) (number : UInt32) : Option Bool := m.bools[number]?

/-- The bits of the last vector written to a register. -/
def words (m : Machine) (r : Register) : Vec4 UInt32 := m.vectors[r]?.getD (Vec4.replicate 0)

/-- The last vector written to a register. -/
def vector (m : Machine) (r : Register) : Value := (m.words r).floats

/-- The value that an operand reads from a register. The kind of the register tells which of the
three stores it is in. Integer constants are converted to the nearest floats, and a boolean constant
reads as one or zero. -/
def register (m : Machine) (r : Register) : Value :=
  match r.kind with
  | .constInt =>
    match m.int? r.number with
    | some v => v.map Binary32.ofInt32
    | none => Value.zero
  | .constBool => Vec4.replicate (if (m.bool? r.number).getD false then 1.0 else 0.0)
  | _ => m.vector r

/-- Writes the bits of a vector. A vector written to an integer or boolean constant is out of the
reach of operands. -/
def setWords (m : Machine) (r : Register) (words : Vec4 UInt32) : Machine :=
  { m with vectors := m.vectors.insert r words }

/-- Writes the bits of one lane. -/
def setLane (m : Machine) (r : Register) (c : Component) (word : UInt32) : Machine :=
  m.setWords r ((m.words r).set c word)

/-- Writes a vector. -/
def setRegister (m : Machine) (r : Register) (v : Value) : Machine := m.setWords r v.words

/-- Defines a constant. A float constant is a vector like any other. -/
def define (m : Machine) (number : UInt32) : Definition → Machine
  | .float words => m.setWords ⟨.const, number⟩ words
  | .int v => { m with ints := m.ints.insert number v }
  | .bool b => { m with bools := m.bools.insert number b }

@[simp] theorem words_setWords (m : Machine) (r q : Register) (words : Vec4 UInt32) :
    (m.setWords r words).words q = if r = q then words else m.words q := by
  unfold Machine.words setWords
  rw [Std.ExtTreeMap.getElem?_insert]
  by_cases hrq : r = q <;> simp [hrq]

@[simp] theorem vector_setWords (m : Machine) (r q : Register) (words : Vec4 UInt32) :
    (m.setWords r words).vector q = if r = q then words.floats else m.vector q := by
  rw [vector, words_setWords, apply_ite Vec4.floats, vector]

end Machine

end ShaderAssembly
