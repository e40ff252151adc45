import ShaderAssembly.Binary32

namespace ShaderAssembly.Binary32

/-- A decimal number `digits * 10 ^ exponent`. -/
structure Decimal where
  digits : Nat
  exponent : Int
deriving DecidableEq, Repr

/-- A positive number and the ends of the interval that rounds to it, in one common unit. The ends
themselves round to the number when `closed` holds. -/
structure Interval where
  lower : Nat
  value : Nat
  upper : Nat
  closed : Bool

namespace Interval

/-- The interval of a positive number, in quarters of its last place. Below a power of two the
neighbour is half as far, except where the subnormal numbers begin. A tie rounds to the even
significand, which so owns both ends. -/
def ofScaled (v : Scaled) : Interval :=
  let m := v.significand
  let halfGap := if m = 0x800000 ∧ -149 < v.exponent then 1 else 2
  ⟨4 * m - halfGap, 4 * m, 4 * m + 2, m % 2 == 0⟩

def contains (i : Interval) (n : Nat) : Bool :=
  if i.closed then decide (i.lower ≤ n ∧ n ≤ i.upper) else decide (i.lower < n ∧ n < i.upper)

def scale (i : Interval) (k : Nat) : Interval := ⟨i.lower * k, i.value * k, i.upper * k, i.closed⟩

/-- The multiple of `unit` in the interval that is nearest to the value, divided by the unit. Of two
equally near ones it is the upper. -/
def nearestMultiple? (i : Interval) (unit : Nat) : Option Nat :=
  let below := i.value / unit
  let above := below + 1
  match i.contains (below * unit), i.contains (above * unit) with
  | true, true =>
    if i.value - below * unit < above * unit - i.value then some below else some above
  | true, false => some below
  | false, true => some above
  | false, false => none

end Interval

/-- The point of the grid of multiples of `10 ^ exponent` that reads back as `v`, when there is
one. -/
def gridPoint? (v : Scaled) (exponent : Int) : Option Nat :=
  let binary := v.exponent - 2
  let unit := Nat.pow 10 exponent.toNat <<< (-binary).toNat
  ((Interval.ofScaled v).scale (Nat.pow 10 (-exponent).toNat <<< binary.toNat)).nearestMultiple?
    unit

/-- Searches the grids of `10 ^ exponent` and the `finer` ones after it. -/
def searchGrids (v : Scaled) : (finer : Nat) → (exponent : Int) → Decimal
  | 0, exponent => ⟨0, exponent⟩
  | finer + 1, exponent =>
    match gridPoint? v exponent with
    | some n => ⟨n, exponent⟩
    | none => searchGrids v finer (exponent - 1)

/-- The shortest decimal that rounds to the magnitude of `v`: the coarsest grid with a point in the
interval gives the fewest digits. Powers of ten from 39, above every finite number, down to -54,
where the subnormal numbers have nine digits, are enough. -/
def shortest (v : Scaled) : Decimal :=
  if v.significand = 0 then ⟨0, 0⟩ else searchGrids v 94 39

/-- The decimal in positional notation, without a needless point or zero. -/
def Decimal.text (d : Decimal) : String :=
  let digits := Nat.toDigits 10 d.digits
  let places := (-d.exponent).toNat
  if places = 0 then
    String.ofList (digits ++ List.replicate d.exponent.toNat '0')
  else
    let padded := List.replicate (places + 1 - digits.length) '0' ++ digits
    let whole := padded.length - places
    String.ofList (padded.take whole ++ '.' :: padded.drop whole)

/-- The shortest text that reads back as a finite number. -/
def finiteText (x : Float32) : String :=
  let v := decode x
  (if v.negative then "-" else "") ++ (shortest v).text

end ShaderAssembly.Binary32
