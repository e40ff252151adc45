import ShaderAssembly.Vector

namespace ShaderAssembly

/-- The set of components that a destination writes. It may be empty. -/
structure Mask where
  x : Bool
  y : Bool
  z : Bool
  w : Bool
deriving DecidableEq, Repr, Inhabited

namespace Mask

def empty : Mask := ⟨false, false, false, false⟩

def full : Mask := ⟨true, true, true, true⟩

def contains (m : Mask) : Component → Bool
  | .x => m.x
  | .y => m.y
  | .z => m.z
  | .w => m.w

/-- The mask whose members are those of the four lowest bits, `x` in the lowest. -/
def ofBits (bits : Nat) : Mask :=
  ⟨bits.testBit 0, bits.testBit 1, bits.testBit 2, bits.testBit 3⟩

/-- The members as bits, `x` in the lowest. -/
def toBits (m : Mask) : Nat :=
  m.x.toNat + 2 * m.y.toNat + 4 * m.z.toNat + 8 * m.w.toNat

/-- The mask of a destination token, where an empty field stands for all components. -/
def ofToken (raw : UInt8) : Mask :=
  let m := ofBits raw.toNat
  if m = empty then full else m

/-- The mask of one component. -/
def single (c : Component) : Mask :=
  ⟨c == .x, c == .y, c == .z, c == .w⟩

/-- The members in lane order. -/
def components (m : Mask) : List Component := Component.all.filter m.contains

/-- The number of members. -/
def size (m : Mask) : Nat := m.components.length

/-- The mask of the first `n` components. -/
def leading (n : Nat) : Mask := ⟨0 < n, 1 < n, 2 < n, 3 < n⟩

/-- Whether the members are exactly the first `n` components, for an `n` of at most four. -/
def isLeading (m : Mask) (n : Nat) : Bool := decide (n ≤ 4) && m == leading n

/-- The members after a point, as in `.xz`; nothing for the empty mask. -/
def suffix (m : Mask) : String :=
  match m.components with
  | [] => ""
  | cs => String.ofList ('.' :: cs.map Component.letter)

@[simp] theorem mem_components {m : Mask} {c : Component} :
    c ∈ m.components ↔ m.contains c = true := by
  simp [components, Component.mem_all]

theorem size_le_four (m : Mask) : m.size ≤ 4 :=
  List.length_filter_le m.contains Component.all

theorem size_eq_zero_iff {m : Mask} : m.size = 0 ↔ m = empty := by
  obtain ⟨x, y, z, w⟩ := m
  revert x y z w
  decide

theorem size_pos {m : Mask} (hmask : m ≠ empty) : 0 < m.size :=
  Nat.pos_of_ne_zero fun h => hmask (size_eq_zero_iff.1 h)

end Mask

/-- For each lane of an operand, the register lane that it reads. -/
abbrev Swizzle := Vec4 Component

namespace Swizzle

/-- Every lane reads itself. -/
def identity : Swizzle := ⟨.x, .y, .z, .w⟩

/-- The swizzle of a source token: two bits a lane, `x` in the lowest. -/
def ofToken (raw : UInt8) : Swizzle :=
  Vec4.map Component.ofBits
    ⟨raw.toNat, raw.toNat >>> 2, raw.toNat >>> 4, raw.toNat >>> 6⟩

/-- The letters of the lanes read, as in `wzyx`. -/
def letters (s : Swizzle) : String := String.ofList (s.toList.map Component.letter)

/-- The value of the operand that reads `v` through the swizzle. -/
def select (s : Swizzle) (v : Vec4 α) : Vec4 α := s.map v.get

/-- The lanes that feed the components of `m`, packed to the front. The last one is repeated in the
slots left over, and a swizzle under the empty mask stays as it is. -/
def masked (s : Swizzle) (m : Mask) : Vec4 Component :=
  match m.components.map s.get with
  | [] => s
  | [a] => ⟨a, a, a, a⟩
  | [a, b] => ⟨a, b, b, b⟩
  | [a, b, c] => ⟨a, b, c, c⟩
  | a :: b :: c :: d :: _ => ⟨a, b, c, d⟩

@[simp] theorem get_select (s : Swizzle) (v : Vec4 α) (c : Component) :
    (s.select v).get c = v.get (s.get c) :=
  Vec4.get_map v.get s c

end Swizzle

end ShaderAssembly
