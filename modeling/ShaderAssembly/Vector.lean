namespace ShaderAssembly

/-- The name of a lane. -/
inductive Component where
  | x
  | y
  | z
  | w
deriving DecidableEq, Repr, Inhabited

namespace Component

/-- The components in lane order. -/
def all : List Component := [.x, .y, .z, .w]

def letter : Component → Char
  | .x => 'x'
  | .y => 'y'
  | .z => 'z'
  | .w => 'w'

/-- The component that the two lowest bits of `bits` select. -/
def ofBits (bits : Nat) : Component :=
  match bits % 4 with
  | 0 => .x
  | 1 => .y
  | 2 => .z
  | _ => .w

theorem mem_all (c : Component) : c ∈ all := by cases c <;> decide

end Component

/-- Four values, one for each component. -/
structure Vec4 (α : Type u) where
  x : α
  y : α
  z : α
  w : α
deriving DecidableEq, Repr, Inhabited

namespace Vec4

variable {α : Type u} {β : Type v} {γ : Type w}

/-- The value in lane `c`. -/
def get (v : Vec4 α) : Component → α
  | .x => v.x
  | .y => v.y
  | .z => v.z
  | .w => v.w

/-- The vector whose lane `c` holds `f c`. -/
def ofFn (f : Component → α) : Vec4 α := ⟨f .x, f .y, f .z, f .w⟩

/-- The same value in every lane. -/
def replicate (a : α) : Vec4 α := ⟨a, a, a, a⟩

def map (f : α → β) (v : Vec4 α) : Vec4 β := ⟨f v.x, f v.y, f v.z, f v.w⟩

def zipWith (f : α → β → γ) (u : Vec4 α) (v : Vec4 β) : Vec4 γ :=
  ⟨f u.x v.x, f u.y v.y, f u.z v.z, f u.w v.w⟩

/-- The vector with `a` in lane `c`. -/
def set (v : Vec4 α) (c : Component) (a : α) : Vec4 α :=
  match c with
  | .x => { v with x := a }
  | .y => { v with y := a }
  | .z => { v with z := a }
  | .w => { v with w := a }

/-- The numbers with these bits. The bits tell NaNs apart, and the numbers do not. -/
def floats (words : Vec4 UInt32) : Vec4 Float32 := words.map Float32.ofBits

/-- The bits of the numbers. -/
def words (v : Vec4 Float32) : Vec4 UInt32 := v.map Float32.toBits

def toList (v : Vec4 α) : List α := [v.x, v.y, v.z, v.w]

/-- The first four values of a list, when it has four. -/
def ofList? : List α → Option (Vec4 α)
  | a :: b :: c :: d :: _ => some ⟨a, b, c, d⟩
  | _ => none

theorem ext_get {u v : Vec4 α} (h : ∀ c, u.get c = v.get c) : u = v := by
  obtain ⟨_, _, _, _⟩ := u
  obtain ⟨_, _, _, _⟩ := v
  have hx := h .x
  have hy := h .y
  have hz := h .z
  have hw := h .w
  simp only [get] at hx hy hz hw
  simp [hx, hy, hz, hw]

@[simp] theorem get_ofFn (f : Component → α) (c : Component) : (ofFn f).get c = f c := by
  cases c <;> rfl

@[simp] theorem get_replicate (a : α) (c : Component) : (replicate a).get c = a := by
  cases c <;> rfl

@[simp] theorem get_map (f : α → β) (v : Vec4 α) (c : Component) :
    (v.map f).get c = f (v.get c) := by
  cases c <;> rfl

@[simp] theorem get_set (v : Vec4 α) (c e : Component) (a : α) :
    (v.set c a).get e = if e = c then a else v.get e := by
  cases c <;> cases e <;> rfl

end Vec4

end ShaderAssembly
