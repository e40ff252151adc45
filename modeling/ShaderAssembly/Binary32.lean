namespace ShaderAssembly

/-- The number `± significand * 2 ^ exponent`. Zero has a sign too. -/
structure Scaled where
  negative : Bool
  significand : Nat
  exponent : Int
deriving DecidableEq, Repr

namespace Scaled

/-- The number `n * 2 ^ exponent`. -/
def ofInt (n : Int) (exponent : Int) : Scaled := ⟨decide (n < 0), n.natAbs, exponent⟩

/-- The quotient of `n` by `2 ^ k` rounded to nearest, a tie to the even neighbour. -/
def shiftRightNearest (n k : Nat) : Nat :=
  let q := n >>> k
  let twice := 2 * (n - q <<< k)
  if twice < 1 <<< k ∨ (twice = 1 <<< k ∧ q % 2 = 0) then q else q + 1

/-- The bits of the binary32 number nearest to the magnitude. The unit is a power of two, 2 ^ -149
at the least, for which the magnitude has at most 24 bits; adding the rounded significand to the
unit's place carries into the exponent field by itself. -/
def magnitudeBits (v : Scaled) : Nat :=
  let unit := max (v.exponent + v.significand.log2 - 23) (-149)
  let rounded :=
    if v.exponent < unit then shiftRightNearest v.significand (unit - v.exponent).toNat
    else v.significand <<< (v.exponent - unit).toNat
  min ((unit + 149).toNat <<< 23 + rounded) 0x7F800000

/-- The binary32 number nearest to the value, a tie to the one with an even significand. -/
def round (v : Scaled) : Float32 :=
  let magnitude := if v.significand = 0 then 0 else v.magnitudeBits
  Float32.ofBits (UInt32.ofNat (if v.negative then magnitude + 0x80000000 else magnitude))

end Scaled

namespace Binary32

/-- The value of a finite number. An infinity or a NaN yields a number of no meaning, with a
positive exponent. -/
def decode (x : Float32) : Scaled :=
  let bits := x.toBits.toNat
  let field := bits >>> 23 % 256
  let fraction := bits % 0x800000
  { negative := bits.testBit 31
    significand := if field = 0 then fraction else fraction + 0x800000
    exponent := max field 1 - 150 }

def positiveInfinity : Float32 := Float32.ofBits 0x7F800000

def negativeInfinity : Float32 := Float32.ofBits 0xFF800000

def nan : Float32 := Float32.ofBits 0x7FC00000

def isNaN (x : Float32) : Bool := !(x == x)

/-- Whether the number is neither infinite nor a NaN. -/
def isFinite (x : Float32) : Bool := x.abs < positiveInfinity

/-- The greatest integer that is not above `x`. It has the sign of `x`, zero included, and a number
without a fraction, an infinity and a NaN are their own. -/
def floor (x : Float32) : Float32 :=
  let v := decode x
  if 0 ≤ v.exponent then x else
    let places := (-v.exponent).toNat
    let whole := v.significand >>> places
    let up := v.negative && whole <<< places != v.significand
    Scaled.round ⟨v.negative, if up then whole + 1 else whole, 0⟩

/-- The lesser of two numbers, or the other one when one is a NaN. -/
def lesser (a b : Float32) : Float32 :=
  if isNaN a then b else if isNaN b then a else if a < b then a else b

/-- The greater of two numbers, or the other one when one is a NaN. -/
def greater (a b : Float32) : Float32 :=
  if isNaN a then b else if isNaN b then a else if b < a then a else b

/-- The nearest number to `x` in the range from `lower` to `upper`. A NaN is left alone, and so is a
zero that equals a bound. -/
def clamp (lower upper x : Float32) : Float32 :=
  if x < lower then lower else if upper < x then upper else x

/-- The nearest number to an integer. -/
def ofInt32 (n : Int32) : Float32 := (Scaled.ofInt n.toInt 0).round

end Binary32

end ShaderAssembly
