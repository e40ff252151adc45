import ShaderAssembly.Binary32.Elementary
import ShaderAssembly.Machine.Fault

namespace ShaderAssembly

/-- The contents of a register, as numbers. Every operation on them is rounded on its own, and in
the order written here: no product is fused with a sum, and a dot product is added from the left. -/
abbrev Value := Vec4 Float32

namespace Value

def zero : Value := Vec4.replicate 0.0

/-- The dot product of the first `n` lanes. A sum starts from the negative zero, which is neutral,
so that negative zeros add up to a negative zero. -/
def dot (n : Nat) (a b : Value) : Float32 :=
  ((Vec4.zipWith (· * ·) a b).toList.take n).foldl (· + ·) (-0.0)

/-- `a * b + c` in each lane. -/
def multiplyAdd (a b c : Value) : Value := Vec4.zipWith (· + ·) (Vec4.zipWith (· * ·) a b) c

/-- From `c` to `b` as `a` goes from zero to one. -/
def interpolate (a b c : Value) : Value :=
  Vec4.zipWith (· + ·) (Vec4.zipWith (· * ·) a b)
    (Vec4.zipWith (· * ·) (a.map fun x => 1.0 - x) c)

/-- The lanes of `b` where `a` is not negative, and those of `c` elsewhere. -/
def choose (a b c : Value) : Value :=
  Vec4.ofFn fun k => if 0.0 ≤ a.get k then b.get k else c.get k

/-- One where a relation holds and zero where it does not. -/
def indicator (holds : Float32 → Float32 → Bool) : Value → Value → Value :=
  Vec4.zipWith fun x y => if holds x y then 1.0 else 0.0

/-- The sign of a number; that of a NaN is zero. -/
def signum (x : Float32) : Float32 := if 0.0 < x then 1.0 else if x < 0.0 then -1.0 else 0.0

/-- The part of a number above its floor. -/
def fraction (x : Float32) : Float32 := x - Binary32.floor x

/-- The cross product of the first three lanes. The last lane of `old` is kept. -/
def cross (old a b : Value) : Value :=
  ⟨a.y * b.z - a.z * b.y, a.z * b.x - a.x * b.z, a.x * b.y - a.y * b.x, old.w⟩

/-- The vector divided by the length of its first three lanes. -/
def normalize (a : Value) : Value :=
  let scale := 1.0 / (dot 3 a a).sqrt
  a.map (· * scale)

/-- The distance vector of `(·, d², d², ·)` and `(·, 1/d, ·, 1/d)`. -/
def distance (a b : Value) : Value := ⟨1.0, a.y * b.y, a.z, b.w⟩

/-- The magnitude to which a specular power is limited. -/
def specularLimit : Float32 := 127.9961

/-- Lighting coefficients: ambient, diffuse from the first lane and specular from the second to the
power of the last. A surface that is turned away has neither diffuse nor specular light. -/
def light (a : Value) : Value :=
  let power := Binary32.clamp (-specularLimit) specularLimit a.w
  if 0.0 < a.x then
    ⟨1.0, a.x, if 0.0 < a.y then Binary32.powAbs a.y power else 0.0, 1.0⟩
  else
    ⟨1.0, 0.0, 0.0, 1.0⟩

/-- The cosine and the sine of the first lane. The other two lanes of `old` are kept. -/
def cosineSine (old a : Value) : Value := ⟨Binary32.cos a.x, Binary32.sin a.x, old.z, old.w⟩

/-- The value with its leading lanes taken from a list. -/
def overwrite (old : Value) : List Float32 → Value
  | [] => old
  | [x] => ⟨x, old.y, old.z, old.w⟩
  | [x, y] => ⟨x, y, old.z, old.w⟩
  | [x, y, z] => ⟨x, y, z, old.w⟩
  | x :: y :: z :: w :: _ => ⟨x, y, z, w⟩

/-- A result as it is written: scaled, and clamped to [0, 1] if it saturates. -/
def finish (factor : Float32) (saturate : Bool) (v : Value) : Value :=
  let scaled := v.map (· * factor)
  if saturate then scaled.map (Binary32.clamp 0.0 1.0) else scaled

end Value

/-- How the value of an instruction is computed from those of its source operands. -/
inductive Operation where
  | unary (f : Value → Value)
  | binary (f : Value → Value → Value)
  | ternary (f : Value → Value → Value → Value)
  /-- A unary operation that keeps some lanes of the destination. -/
  | unaryOnto (f : (old : Value) → Value → Value)
  /-- A binary operation that keeps some lanes of the destination. -/
  | binaryOnto (f : (old : Value) → Value → Value → Value)
  /-- The dot products, over the first `rows` lanes, of a vector and each of so many lines of a
  matrix. -/
  | matrix (rows columns : Nat)

/-- The operation of an opcode that computes a value. -/
def Opcode.operation? : Opcode → Option Operation
  | .mov => some (.unary id)
  | .add => some (.binary (Vec4.zipWith (· + ·)))
  | .sub => some (.binary (Vec4.zipWith (· - ·)))
  | .mul => some (.binary (Vec4.zipWith (· * ·)))
  | .mad => some (.ternary Value.multiplyAdd)
  | .lrp => some (.ternary Value.interpolate)
  | .min => some (.binary (Vec4.zipWith Binary32.lesser))
  | .max => some (.binary (Vec4.zipWith Binary32.greater))
  | .slt => some (.binary (Value.indicator fun x y => x < y))
  | .sge => some (.binary (Value.indicator fun x y => y ≤ x))
  | .cmp => some (.ternary Value.choose)
  | .dp2add => some (.ternary fun a b c => Vec4.replicate (Value.dot 2 a b + c.x))
  | .dp3 => some (.binary fun a b => Vec4.replicate (Value.dot 3 a b))
  | .dp4 => some (.binary fun a b => Vec4.replicate (Value.dot 4 a b))
  | .abs => some (.unary (Vec4.map Float32.abs))
  | .frc => some (.unary (Vec4.map Value.fraction))
  | .sgn => some (.unary (Vec4.map Value.signum))
  | .rcp => some (.unary fun a => Vec4.replicate (1.0 / a.x))
  | .rsq => some (.unary fun a => Vec4.replicate (1.0 / a.x.abs.sqrt))
  | .exp => some (.unary fun a => Vec4.replicate (Binary32.exp2 a.x))
  | .log => some (.unary fun a => Vec4.replicate (Binary32.log2Abs a.x))
  | .pow => some (.binary fun a b => Vec4.replicate (Binary32.powAbs a.x b.x))
  | .crs => some (.binaryOnto Value.cross)
  | .nrm => some (.unary Value.normalize)
  | .dst => some (.binary Value.distance)
  | .lit => some (.unary Value.light)
  | .sincos => some (.unaryOnto Value.cosineSine)
  | .m4x4 => some (.matrix 4 4)
  | .m4x3 => some (.matrix 4 3)
  | .m3x4 => some (.matrix 3 4)
  | .m3x3 => some (.matrix 3 3)
  | .m3x2 => some (.matrix 3 2)
  | _ => none

/-- What a source modifier does to the value it reads. Two modifiers divide by a lane of the value
itself. The logical and the unknown ones are not arithmetic. -/
def Modifier.arithmetic (m : Modifier) : Except Fault (Value → Value) :=
  match m with
  | .plain => .ok id
  | .negate => .ok fun v => v.map fun x => -x
  | .bias => .ok fun v => v.map fun x => x - 0.5
  | .biasNegate => .ok fun v => v.map fun x => -(x - 0.5)
  | .sign => .ok fun v => v.map fun x => x * 2.0 - 1.0
  | .signNegate => .ok fun v => v.map fun x => -(x * 2.0 - 1.0)
  | .complement => .ok fun v => v.map fun x => 1.0 - x
  | .double => .ok fun v => v.map fun x => x * 2.0
  | .doubleNegate => .ok fun v => v.map fun x => -(x * 2.0)
  | .divideByZ => .ok fun v => v.map fun x => x / v.z
  | .divideByW => .ok fun v => v.map fun x => x / v.w
  | .abs => .ok fun v => v.map fun x => x.abs
  | .absNegate => .ok fun v => v.map fun x => -x.abs
  | .not | .unknown _ => .error (.unsupportedModifier m)

/-- The factor of a result shift. -/
def ResultShift.factor : ResultShift → Except Fault Float32
  | .unscaled => .ok 1.0
  | .times2 => .ok 2.0
  | .times4 => .ok 4.0
  | .times8 => .ok 8.0
  | .half => .ok 0.5
  | .quarter => .ok 0.25
  | .eighth => .ok 0.125
  | .unknown code => .error (.unsupportedShift code)

end ShaderAssembly
