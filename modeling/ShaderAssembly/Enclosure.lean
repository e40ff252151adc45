namespace ShaderAssembly

/-- The integers around a real number, in units that the context fixes. Every operation rounds
outwards, so that enclosures of the arguments yield an enclosure of the result. -/
structure Enclosure where
  lower : Int
  upper : Int
deriving DecidableEq, Repr

namespace Enclosure

/-- The enclosure of a number of units. -/
def exact (n : Int) : Enclosure := ⟨n, n⟩

/-- `n / 2 ^ k` rounded up. -/
def shiftUp (n : Int) (k : Nat) : Int := -(-n >>> k)

def add (a b : Enclosure) : Enclosure := ⟨a.lower + b.lower, a.upper + b.upper⟩

def neg (a : Enclosure) : Enclosure := ⟨-a.upper, -a.lower⟩

/-- The product at precision `p`. -/
def mul (p : Nat) (a b : Enclosure) : Enclosure :=
  let ll := a.lower * b.lower
  let lu := a.lower * b.upper
  let ul := a.upper * b.lower
  let uu := a.upper * b.upper
  ⟨min (min ll lu) (min ul uu) >>> p, shiftUp (max (max ll lu) (max ul uu)) p⟩

/-- The enclosure at a coarser precision, by `k` bits. -/
def coarsen (k : Nat) (a : Enclosure) : Enclosure := ⟨a.lower >>> k, shiftUp a.upper k⟩

/-- The product by `n * 2 ^ exponent`. -/
def mulScaled (a : Enclosure) (n : Int) (exponent : Int) : Enclosure :=
  let product := if 0 ≤ n then Enclosure.mk (a.lower * n) (a.upper * n)
    else ⟨a.upper * n, a.lower * n⟩
  if 0 ≤ exponent then
    ⟨product.lower <<< exponent.toNat, product.upper <<< exponent.toNat⟩
  else
    product.coarsen (-exponent).toNat

/-- The product by `n / d`. -/
def mulRatio (a : Enclosure) (n d : Nat) : Enclosure :=
  ⟨a.lower * n / d, -(-(a.upper * n) / d)⟩

/-- The quotient at precision `p` of a number that is not negative by one that is positive. -/
def div (p : Nat) (a b : Enclosure) : Enclosure :=
  ⟨a.lower <<< p / b.upper, -(-(a.upper <<< p) / b.lower)⟩

/-- A bound on the distance from zero. -/
def magnitude (a : Enclosure) : Nat := max a.lower.natAbs a.upper.natAbs

/-- The sum of the series that starts with `term`, in which term `k + 1` is term `k` times
`u * (n / d)` where `ratio k = (n, d)`. It is cut where a term is at most one unit, and there the
ratio of the terms must not exceed a half: all that is left is then at most twice the term. -/
def series (p : Nat) (ratio : Nat → Nat × Nat) (u : Enclosure) :
    (fuel k : Nat) → (term : Enclosure) → Enclosure
  | 0, _, term => ⟨-2 * term.magnitude, 2 * term.magnitude⟩
  | fuel + 1, k, term =>
    if term.magnitude ≤ 1 then
      ⟨-2 * term.magnitude, 2 * term.magnitude⟩
    else
      let (n, d) := ratio k
      term.add (series p ratio u fuel (k + 1) ((term.mul p u).mulRatio n d))

/-- The power of `e` for an exponent between 0 and 0.7. -/
def exp (p : Nat) (t : Enclosure) : Enclosure :=
  series p (fun k => (1, k + 1)) t (2 * p) 0 (exact (1 <<< p))

/-- The odd series `z + z ^ 3 / 3 + z ^ 5 / 5 + …`, for a `z` between 0 and 0.4. -/
def artanh (p : Nat) (z : Enclosure) : Enclosure :=
  series p (fun k => (2 * k + 1, 2 * k + 3)) (z.mul p z) (2 * p) 0 z

/-- The alternating series `z - z ^ 3 / 3 + z ^ 5 / 5 - …`, for a `z` between 0 and 0.4. -/
def arctan (p : Nat) (z : Enclosure) : Enclosure :=
  series p (fun k => (2 * k + 1, 2 * k + 3)) (z.mul p z).neg (2 * p) 0 z

/-- The sine of an angle between -0.8 and 0.8. -/
def sin (p : Nat) (r : Enclosure) : Enclosure :=
  series p (fun k => (1, (2 * k + 2) * (2 * k + 3))) (r.mul p r).neg (2 * p) 0 r

/-- The cosine of an angle between -0.8 and 0.8. -/
def cos (p : Nat) (r : Enclosure) : Enclosure :=
  series p (fun k => (1, (2 * k + 1) * (2 * k + 2))) (r.mul p r).neg (2 * p) 0 (exact (1 <<< p))

/-- The enclosure of `1 / n`. -/
def reciprocal (p n : Nat) : Enclosure := (exact (1 <<< p)).mulRatio 1 n

/-- The natural logarithm of two, `2 artanh (1/3)`. -/
def log2 (p : Nat) : Enclosure := (artanh p (reciprocal p 3)).mulRatio 2 1

/-- A right angle, `8 arctan (1/5) - 2 arctan (1/239)`. -/
def rightAngle (p : Nat) : Enclosure :=
  ((arctan p (reciprocal p 5)).mulRatio 8 1).add
    ((arctan p (reciprocal p 239)).mulRatio 2 1).neg

end Enclosure

end ShaderAssembly
