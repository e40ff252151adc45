import ShaderAssembly.Binary32
import ShaderAssembly.Enclosure

namespace ShaderAssembly.Binary32

/-- The number with the significand rounded to 64 bits. -/
def shorten (v : Scaled) : Scaled :=
  let excess := v.significand.log2 - 63
  ⟨v.negative, Scaled.shiftRightNearest v.significand excess, v.exponent + excess⟩

/-- The binary32 number nearest to an enclosed value, when both ends of the enclosure have the same
one. The unit of the enclosure is `2 ^ exponent`. -/
def settled? (e : Enclosure) (exponent : Int) : Option Float32 :=
  let below := (Scaled.ofInt e.lower exponent).round
  if below = (Scaled.ofInt e.upper exponent).round then some below else none

/-- The binary32 number nearest to a real value, from its enclosures at any precision, each with the
exponent of its unit. An enclosure that still straddles the border between two numbers at the
greater precision is taken for the border, which is where an exact power can lie. -/
def nearest (enclose : (p : Nat) → Enclosure × Int) : Float32 :=
  let (coarse, exponent) := enclose 192
  match settled? coarse exponent with
  | some x => x
  | none =>
    let (fine, exponent) := enclose 1024
    match settled? fine exponent with
    | some x => x
    | none => (shorten (Scaled.ofInt (fine.lower + fine.upper) (exponent - 1))).round

/-- The enclosure of `2 ^ y` for an enclosed `y`: the power of the fraction, whose unit carries the
power of the integer. Beyond the exponents that binary32 can tell from zero and infinity the
integer is cut. -/
def encloseExp2 (p : Nat) (y : Enclosure) : Enclosure × Int :=
  let whole := y.lower >>> p
  let fraction : Enclosure := ⟨y.lower - whole <<< p, y.upper - whole <<< p⟩
  let power := Enclosure.exp p (fraction.mul p (Enclosure.log2 p))
  (power, max (-300) (min 300 whole) - p)

/-- The binary logarithm of a positive number: its exponent and the logarithm of its significand `m`
in [1, 2), which is `2 artanh ((m - 1) / (m + 1))` over the logarithm of two. -/
def encloseLog2 (p : Nat) (v : Scaled) : Enclosure :=
  let one : Int := 1 <<< v.significand.log2
  let z : Enclosure := Enclosure.div p
    (Enclosure.exact (v.significand - one)) (Enclosure.exact (v.significand + one))
  let fraction := Enclosure.div p ((Enclosure.artanh p z).mulRatio 2 1) (Enclosure.log2 p)
  (Enclosure.exact ((v.exponent + v.significand.log2) <<< p)).add fraction

/-- Two to the power `x`. -/
def exp2 (x : Float32) : Float32 :=
  if isNaN x then nan
  else if x == positiveInfinity then positiveInfinity
  else if x == negativeInfinity then 0.0
  else
    let v := decode x
    nearest fun p =>
      encloseExp2 p ((Enclosure.exact (if v.negative then -1 else 1)).mulScaled
        v.significand (v.exponent + p))

/-- The binary logarithm of the magnitude of `x`. -/
def log2Abs (x : Float32) : Float32 :=
  if isNaN x then nan
  else if !isFinite x then positiveInfinity
  else if x == 0.0 then negativeInfinity
  else if x.abs == 1.0 then 0.0
  else nearest fun p => (encloseLog2 p (decode x), -p)

/-- The magnitude of `base` to the power `exponent`. The exponent zero and the base one give one,
whatever the other number is. -/
def powAbs (base exponent : Float32) : Float32 :=
  let b := base.abs
  if exponent == 0.0 || b == 1.0 then 1.0
  else if isNaN b || isNaN exponent then nan
  else if !isFinite exponent || !isFinite b || b == 0.0 then
    if (1.0 < b) == (0.0 < exponent) then positiveInfinity else 0.0
  else
    let e := decode exponent
    let factor : Int := if e.negative then -e.significand else e.significand
    nearest fun p =>
      encloseExp2 p ((encloseLog2 p (decode b)).mulScaled factor e.exponent)

/-- The number of right angles nearest to an angle that is not negative, and the enclosure of what
is left. The right angle is taken with so many more bits that the greatest number still leaves an
angle at precision `p`. -/
def reduceAngle (p : Nat) (v : Scaled) : Nat × Enclosure :=
  let extra := 160
  let right := Enclosure.rightAngle (p + extra)
  let angle : Int := (v.significand : Int) <<< (v.exponent + (p + extra : Nat)).toNat
  let turns := (angle + right.lower / 2) / right.lower
  (turns.toNat,
    ((Enclosure.exact angle).add (right.mulScaled turns 0).neg).coarsen extra)

/-- The sine of an angle that exceeds `v` by `quarters` right angles. -/
def encloseSin (quarters : Nat) (v : Scaled) (p : Nat) : Enclosure :=
  let (turns, rest) := reduceAngle p v
  match (turns + quarters) % 4 with
  | 0 => Enclosure.sin p rest
  | 1 => Enclosure.cos p rest
  | 2 => (Enclosure.sin p rest).neg
  | _ => (Enclosure.cos p rest).neg

/-- The sine of an angle. A zero keeps its sign. -/
def sin (x : Float32) : Float32 :=
  if !isFinite x then nan
  else if x == 0.0 then x
  else
    let v := decode x
    nearest fun p =>
      let value := encloseSin 0 v p
      (if v.negative then value.neg else value, -p)

/-- The cosine of an angle, which is the sine of the angle a quarter turn ahead. -/
def cos (x : Float32) : Float32 :=
  if !isFinite x then nan
  else nearest fun p => (encloseSin 1 (decode x) p, -p)

end ShaderAssembly.Binary32
