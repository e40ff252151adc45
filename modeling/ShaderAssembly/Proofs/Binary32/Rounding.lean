import ShaderAssembly.Proofs.Binary32.Negation
import ShaderAssembly.Proofs.Binary32.Shortest

namespace ShaderAssembly

namespace Scaled

variable {v : Scaled}

/-- The magnitude of the value. -/
def magnitude (v : Scaled) : ℚ := v.significand * 2 ^ v.exponent

/-- `r` units are nearest to `x`. Between two numbers of units it is the even one. -/
structure NearestUnits (unit x : ℚ) (r : Nat) : Prop where
  lower_le : (2 * r - 1) * unit ≤ 2 * x
  le_upper : 2 * x ≤ (2 * r + 1) * unit
  interior : r % 2 = 1 → (2 * r - 1) * unit < 2 * x ∧ 2 * x < (2 * r + 1) * unit

private theorem two_pow_mul_zpow (k : Nat) (e : Int) : (2 : ℚ) ^ k * 2 ^ e = 2 ^ (k + e) := by
  rw [zpow_add₀ (by norm_num), zpow_natCast]

private theorem shiftRightNearest_bounds (n k : Nat) :
    2 * (shiftRightNearest n k * 2 ^ k) ≤ 2 * n + 2 ^ k ∧
      2 * n ≤ 2 * (shiftRightNearest n k * 2 ^ k) + 2 ^ k ∧
      (shiftRightNearest n k % 2 = 1 →
        2 * (shiftRightNearest n k * 2 ^ k) < 2 * n + 2 ^ k ∧
          2 * n < 2 * (shiftRightNearest n k * 2 ^ k) + 2 ^ k) := by
  have hquotient : n = n / 2 ^ k * 2 ^ k + n % 2 ^ k := (Nat.div_add_mod' n (2 ^ k)).symm
  have hrest : n % 2 ^ k < 2 ^ k := Nat.mod_lt n (by positivity)
  unfold shiftRightNearest
  simp only [Nat.shiftRight_eq_div_pow, Nat.shiftLeft_eq, Nat.one_mul]
  generalize n / 2 ^ k = quotient at *
  generalize n % 2 ^ k = rest at *
  generalize 2 ^ k = unit at *
  split
  next => exact ⟨by omega, by omega, by omega⟩
  next =>
    have hsucc : (quotient + 1) * unit = quotient * unit + unit := Nat.succ_mul _ _
    rw [hsucc]
    exact ⟨by omega, by omega, by omega⟩

/-- Units of `2 ^ k` times another unit, when that one divides the magnitude. -/
private theorem nearestUnits_shiftRightNearest {c : ℚ} (hc : 0 < c) (n k : Nat) :
    NearestUnits (2 ^ k * c) (n * c) (shiftRightNearest n k) := by
  obtain ⟨hlower, hupper, hodd⟩ := shiftRightNearest_bounds n k
  generalize shiftRightNearest n k = r at *
  have hscale : ∀ a : ℚ, a * (2 ^ k * c) = a * 2 ^ k * c := fun a => (mul_assoc a _ c).symm
  have hlower' : (2 * r - 1) * (2 : ℚ) ^ k ≤ 2 * n := by
    have hcast : (2 : ℚ) * (r * 2 ^ k) ≤ 2 * n + 2 ^ k := by exact_mod_cast hlower
    linarith
  have hupper' : 2 * (n : ℚ) ≤ (2 * r + 1) * 2 ^ k := by
    have hcast : 2 * (n : ℚ) ≤ 2 * (r * 2 ^ k) + 2 ^ k := by exact_mod_cast hupper
    linarith
  refine ⟨?_, ?_, fun h => ?_⟩
  · rw [hscale, ← mul_assoc]
    exact mul_le_mul_of_nonneg_right hlower' hc.le
  · rw [hscale, ← mul_assoc]
    exact mul_le_mul_of_nonneg_right hupper' hc.le
  · obtain ⟨hodd₁, hodd₂⟩ := hodd h
    have hcast₁ : (2 : ℚ) * (r * 2 ^ k) < 2 * n + 2 ^ k := by exact_mod_cast hodd₁
    have hcast₂ : 2 * (n : ℚ) < 2 * (r * 2 ^ k) + 2 ^ k := by exact_mod_cast hodd₂
    rw [hscale, hscale, ← mul_assoc]
    exact ⟨mul_lt_mul_of_pos_right (by linarith) hc, mul_lt_mul_of_pos_right (by linarith) hc⟩

private theorem nearestUnits_mul {unit : ℚ} (hunit : 0 < unit) (r : Nat) :
    NearestUnits unit (r * unit) r :=
  ⟨by linarith, by linarith, fun _ => ⟨by linarith, by linarith⟩⟩

/-- The exponent of the unit to which `magnitudeBits` rounds. -/
def unitExponent (v : Scaled) : Int := max (v.exponent + v.significand.log2 - 23) (-149)

/-- The number of units to which `magnitudeBits` rounds. -/
def units (v : Scaled) : Nat :=
  if v.exponent < v.unitExponent then
    shiftRightNearest v.significand (v.unitExponent - v.exponent).toNat
  else v.significand <<< (v.exponent - v.unitExponent).toNat

theorem magnitudeBits_eq (v : Scaled) :
    v.magnitudeBits = min ((v.unitExponent + 149).toNat * 2 ^ 23 + v.units) 0x7F800000 := by
  rw [← Nat.shiftLeft_eq]
  rfl

theorem nearestUnits_units (v : Scaled) :
    NearestUnits (2 ^ v.unitExponent) v.magnitude v.units := by
  unfold units
  split
  next hlt =>
    have hexponent : v.unitExponent = ((v.unitExponent - v.exponent).toNat : Int) + v.exponent := by
      omega
    have hunit : (2 : ℚ) ^ v.unitExponent =
        2 ^ (v.unitExponent - v.exponent).toNat * 2 ^ v.exponent := by
      rw [two_pow_mul_zpow, ← hexponent]
    rw [hunit]
    exact nearestUnits_shiftRightNearest (by positivity) _ _
  next hge =>
    have hexponent : v.exponent = ((v.exponent - v.unitExponent).toNat : Int) + v.unitExponent := by
      omega
    have hmagnitude : v.magnitude =
        (v.significand <<< (v.exponent - v.unitExponent).toNat : Nat) * 2 ^ v.unitExponent := by
      rw [magnitude, Nat.shiftLeft_eq]
      push_cast
      rw [mul_assoc, two_pow_mul_zpow, ← hexponent]
    rw [hmagnitude]
    exact nearestUnits_mul (by positivity) _

/-- The magnitude has at most 24 bits in front of the unit, and exactly as many if the unit is not
the least one. -/
private theorem magnitude_bounds (hpos : 0 < v.significand) :
    v.magnitude < 2 ^ 24 * 2 ^ v.unitExponent ∧
      (-149 < v.unitExponent → 2 ^ 23 * 2 ^ v.unitExponent ≤ v.magnitude) := by
  have hlower : (2 : ℚ) ^ v.significand.log2 ≤ v.significand := by
    exact_mod_cast Nat.log2_self_le (Nat.ne_of_gt hpos)
  have hupper : (v.significand : ℚ) < 2 ^ (v.significand.log2 + 1) := by
    exact_mod_cast Nat.lt_log2_self
  have hunit : (0 : ℚ) < 2 ^ v.exponent := by positivity
  unfold unitExponent
  constructor
  · calc
      v.magnitude < 2 ^ (v.significand.log2 + 1) * 2 ^ v.exponent :=
        mul_lt_mul_of_pos_right hupper hunit
      _ = 2 ^ (((v.significand.log2 + 1 : Nat) : Int) + v.exponent) := two_pow_mul_zpow _ _
      _ ≤ 2 ^ (((24 : Nat) : Int) + max (v.exponent + v.significand.log2 - 23) (-149)) :=
        zpow_le_zpow_right₀ (by norm_num) (by omega)
      _ = _ := (two_pow_mul_zpow 24 _).symm
  · intro hleast
    calc
      _ = (2 : ℚ) ^ (((23 : Nat) : Int) + max (v.exponent + v.significand.log2 - 23) (-149)) :=
        two_pow_mul_zpow 23 _
      _ = 2 ^ ((v.significand.log2 : Int) + v.exponent) := by
        congr 1
        omega
      _ = 2 ^ v.significand.log2 * 2 ^ v.exponent := (two_pow_mul_zpow _ _).symm
      _ ≤ v.magnitude := mul_le_mul_of_nonneg_right hlower hunit.le

theorem units_bounds (hpos : 0 < v.significand) :
    v.units ≤ 2 ^ 24 ∧ (-149 < v.unitExponent → 2 ^ 23 ≤ v.units) := by
  have hnearest := v.nearestUnits_units
  obtain ⟨hupper, hlower⟩ := magnitude_bounds hpos
  have hunit : (0 : ℚ) < 2 ^ v.unitExponent := by positivity
  constructor
  · have hlt : (2 * (v.units : ℚ) - 1) * 2 ^ v.unitExponent < 2 ^ 25 * 2 ^ v.unitExponent := by
      have h := hnearest.lower_le
      linarith
    have hunits : 2 * (v.units : ℚ) < 2 ^ 25 + 1 := by
      have h := lt_of_mul_lt_mul_right hlt hunit.le
      linarith
    have hnat : 2 * v.units < 2 ^ 25 + 1 := by exact_mod_cast hunits
    omega
  · intro hleast
    have hle : 2 ^ 24 * 2 ^ v.unitExponent ≤ (2 * (v.units : ℚ) + 1) * 2 ^ v.unitExponent := by
      have h := hnearest.le_upper
      have h' := hlower hleast
      linarith
    have hunits : 2 ^ 24 ≤ 2 * (v.units : ℚ) + 1 := le_of_mul_le_mul_right hle hunit
    have hnat : 2 ^ 24 ≤ 2 * v.units + 1 := by exact_mod_cast hunits
    omega

end Scaled

namespace Binary32

open Float.Model (Format UnpackedFloat)
open Float.Model.UnpackedFloat

private theorem toNat_packComponents (s : Sign) (E : BitVec 8) (M : BitVec 23) :
    (packComponents .binary32 s E M).toNat = s.toBitVec.toNat * 2 ^ 31 + E.toNat * 2 ^ 23 + M.toNat := by
  have hE := E.isLt
  have hM := M.isLt
  unfold packComponents
  rw [BitVec.toNat_append, ← Nat.shiftLeft_add_eq_or_of_lt hM, BitVec.toNat_append,
    ← Nat.shiftLeft_add_eq_or_of_lt hE, Nat.shiftLeft_eq, Nat.shiftLeft_eq]
  change (_ * 2 ^ 8 + _) * 2 ^ 23 + _ = _
  omega

/-- Negation turns the sign bit over. -/
private theorem toNat_toBits_neg {x : Float32} (hx : exponentField x ≠ 255) :
    (-x).toBits.toNat = (x.toBits.toNat + 2 ^ 31) % 2 ^ 32 := by
  have hnan : x.toModel.unpack ≠ .notANumber := by
    intro h
    have hbits : x.toBits.toBitVec = packedNaN .binary32 :=
      (unpack_eq_notANumber_iff_of_valid x.toModel.valid).1 h
    have hfield : exponentField x = (packedNaN .binary32).toNat >>> 23 % 256 := by
      rw [← hbits]
      rfl
    exact hx (hfield.trans (by decide))
  obtain ⟨s, E, M, _, hpack, hneg⟩ := exists_pack_eq_packComponents hnan
  have hbits : x.toBits.toNat = (packComponents .binary32 s E M).toNat := by
    rw [← hpack]
    exact congrArg BitVec.toNat (pack_unpack_of_valid x.toModel.valid).symm
  have hbits' : (-x).toBits.toNat = (packComponents .binary32 (-s) E M).toNat := by
    rw [← hneg]
    rfl
  have hE := E.isLt
  have hM := M.isLt
  rw [hbits, hbits', toNat_packComponents, toNat_packComponents]
  cases s
  · change 0 * 2 ^ 31 + _ + _ = (1 * 2 ^ 31 + _ + _ + 2 ^ 31) % 2 ^ 32
    omega
  · change 1 * 2 ^ 31 + _ + _ = (0 * 2 ^ 31 + _ + _ + 2 ^ 31) % 2 ^ 32
    omega

theorem exponentField_neg {x : Float32} (hx : exponentField x ≠ 255) :
    exponentField (-x) = exponentField x := by
  have hbits := toNat_toBits_neg hx
  unfold exponentField
  rw [Nat.shiftRight_eq_div_pow, Nat.shiftRight_eq_div_pow, hbits]
  omega

theorem decode_neg {x : Float32} (hx : exponentField x ≠ 255) :
    decode (-x) = ⟨!(decode x).negative, (decode x).significand, (decode x).exponent⟩ := by
  have hbits := toNat_toBits_neg hx
  have hlt := x.toBits.toNat_lt
  have hnegative : (decode (-x)).negative = !(decode x).negative := by
    change (-x).toBits.toNat.testBit 31 = !x.toBits.toNat.testBit 31
    rw [Nat.testBit_eq_decide_div_mod_eq, Nat.testBit_eq_decide_div_mod_eq, hbits,
      ← decide_not, decide_eq_decide]
    omega
  have hfraction : (-x).toBits.toNat % 0x800000 = x.toBits.toNat % 0x800000 := by
    rw [hbits]
    omega
  have hsignificand : (decode (-x)).significand = (decode x).significand := by
    rw [decode_significand, decode_significand, exponentField_neg hx, hfraction]
  have hexponent : (decode (-x)).exponent = (decode x).exponent := by
    rw [decode_exponent, decode_exponent, exponentField_neg hx]
  rw [← hsignificand, ← hexponent, ← hnegative]

/-- The bits of a number that is not a NaN stay as they are. -/
private theorem toNat_toBits_ofBits {n : Nat} (hn : n < 2 ^ 32)
    (hmagnitude : n % 2 ^ 31 ≤ 0x7F800000) :
    (Float32.ofBits (UInt32.ofNat n)).toBits.toNat = n := by
  have hnat : (BitVec.ofNat 32 n).toNat = n := Nat.mod_eq_of_lt hn
  have hvalid : Format.binary32.Valid (BitVec.ofNat 32 n) := by
    refine ⟨fun hexponent hmantissa => absurd ?_ hmantissa⟩
    have hfield := congrArg BitVec.toNat hexponent
    apply BitVec.eq_of_toNat_eq
    simp only [unpackExponent, unpackMantissa, BitVec.toNat_cast, BitVec.extractLsb_toNat, hnat] at hfield ⊢
    change n >>> 23 % 256 = 255 at hfield
    change n >>> 0 % 0x800000 = 0
    rw [Nat.shiftRight_eq_div_pow] at hfield
    rw [Nat.shiftRight_zero]
    omega
  have hpack := pack_unpack_of_valid hvalid
  calc
    _ = (pack .binary32 (unpack .binary32 (BitVec.ofNat 32 n))).toNat := rfl
    _ = n := by rw [hpack, hnat]

theorem toNat_toBits_round {v : Scaled} (hpos : 0 < v.significand) :
    v.round.toBits.toNat = v.negative.toNat * 2 ^ 31 + v.magnitudeBits := by
  have hle : v.magnitudeBits ≤ 0x7F800000 := Nat.min_le_right _ _
  unfold Scaled.round
  simp only [if_neg (Nat.ne_of_gt hpos)]
  cases v.negative
  · simp only [Bool.false_eq_true, if_false, Bool.toNat_false, Nat.zero_mul, Nat.zero_add]
    exact toNat_toBits_ofBits (by omega) (by omega)
  · simp only [if_true, Bool.toNat_true]
    rw [toNat_toBits_ofBits (by omega) (by omega)]
    omega

private theorem decode_negative_of_toBits {x : Float32} {b : Bool} {n : Nat} (hn : n < 2 ^ 31)
    (hbits : x.toBits.toNat = b.toNat * 2 ^ 31 + n) : (decode x).negative = b := by
  change x.toBits.toNat.testBit 31 = b
  rw [Nat.testBit_eq_decide_div_mod_eq, hbits]
  cases b
  · rw [decide_eq_false]
    simp only [Bool.toNat_false]
    omega
  · rw [decide_eq_true]
    simp only [Bool.toNat_true]
    omega

/-- A rounded value is decoded as the units it was rounded to. If they have 25 bits, the last of
which is zero then, it is one unit of twice the size for two of them. -/
theorem decode_round {v : Scaled} (hpos : 0 < v.significand)
    (hfinite : v.magnitudeBits < 0x7F800000) :
    exponentField v.round ≠ 255 ∧ (decode v.round).negative = v.negative ∧
      ((decode v.round).significand = v.units ∧ (decode v.round).exponent = v.unitExponent ∨
        v.units = 2 ^ 24 ∧ (decode v.round).significand = 2 ^ 23 ∧
          (decode v.round).exponent = v.unitExponent + 1) := by
  have hbits := toNat_toBits_round hpos
  have hmagnitude := v.magnitudeBits_eq
  obtain ⟨hle, hge⟩ := Scaled.units_bounds hpos
  have hleast : -149 ≤ v.unitExponent := Int.le_max_right _ _
  have hsign : v.negative.toNat ≤ 1 := Bool.toNat_le _
  have hfield : exponentField v.round = v.magnitudeBits / 2 ^ 23 := by
    unfold exponentField
    rw [Nat.shiftRight_eq_div_pow]
    omega
  have hfraction : v.round.toBits.toNat % 0x800000 = v.magnitudeBits % 0x800000 := by
    omega
  refine ⟨by omega, decode_negative_of_toBits (by omega) hbits, ?_⟩
  have hsignificand := decode_significand v.round
  have hexponent := decode_exponent v.round
  rw [hfield] at hexponent
  rw [hfield, hfraction] at hsignificand
  by_cases hcarry : v.units = 2 ^ 24
  · right
    rw [if_neg (by omega)] at hsignificand
    exact ⟨hcarry, by omega, by omega⟩
  · left
    by_cases hnormal : 2 ^ 23 ≤ v.units
    · rw [if_neg (by omega)] at hsignificand
      exact ⟨by omega, by omega⟩
    · rw [if_pos (by omega)] at hsignificand
      exact ⟨by omega, by omega⟩

private theorem two_zpow_sub_two (k : Int) : (2 : ℚ) ^ (k - 2) = 2 ^ k / 4 := by
  rw [zpow_sub₀ (by norm_num)]
  norm_num

/-- The values that are nearest to a number of its units lie in the interval of the number. Where
the interval is shorter below the number they must not be less. -/
theorem readsBack_of_nearestUnits {w : Scaled} {q : ℚ} (hq : 0 ≤ q)
    (h : Scaled.NearestUnits (2 ^ w.exponent) q w.significand)
    (hbinade : w.significand = 0x800000 → -149 < w.exponent →
      w.significand * 2 ^ w.exponent ≤ q) : ReadsBack w q := by
  obtain ⟨hlower, hupper, hodd⟩ := h
  have hunit : (0 : ℚ) < 2 ^ w.exponent := by positivity
  obtain ⟨negative, m, e⟩ := w
  simp only at *
  refine ⟨?_, ?_, ?_⟩
  · simp only [Interval.ofScaled, two_zpow_sub_two]
    split
    next hshort =>
      have hle := hbinade hshort.1 hshort.2
      rw [hshort.1] at hle ⊢
      norm_num at hle ⊢
      linarith
    next =>
      obtain rfl | hm := Nat.eq_zero_or_pos m
      · simpa using hq
      · rw [Nat.cast_sub (by omega)]
        push_cast
        linarith
  · simp only [Interval.ofScaled, two_zpow_sub_two]
    push_cast
    linarith
  · simp only [Interval.ofScaled, two_zpow_sub_two, beq_eq_false_iff_ne]
    intro hopen
    obtain ⟨hlower', hupper'⟩ := hodd (by omega)
    rw [if_neg (by omega), Nat.cast_sub (by omega)]
    push_cast
    exact ⟨by linarith, by linarith⟩

/-- The number nearest to a value is the one to whose interval the value belongs. -/
theorem readsBack_round {v : Scaled} (hpos : 0 < v.significand)
    (hfinite : v.magnitudeBits < 0x7F800000) : ReadsBack (decode v.round) v.magnitude := by
  have hnearest := v.nearestUnits_units
  obtain ⟨hupper, hlower⟩ := Scaled.magnitude_bounds hpos
  have hleast : -149 ≤ v.unitExponent := Int.le_max_right _ _
  have hunit : (0 : ℚ) < 2 ^ v.unitExponent := by positivity
  obtain ⟨-, -, ⟨hsignificand, hexponent⟩ | ⟨hunits, hsignificand, hexponent⟩⟩ :=
    decode_round hpos hfinite
  · rw [← hsignificand, ← hexponent] at hnearest
    apply readsBack_of_nearestUnits (by unfold Scaled.magnitude; positivity) hnearest
    intro hbinade hnormal
    rw [hbinade, hexponent]
    rw [hexponent] at hnormal
    have hle := hlower hnormal
    norm_num at hle ⊢
    exact hle
  · -- the interval of a power of two ends where half a unit below it rounds up
    have hbelow := hnearest.lower_le
    have hdouble : (2 : ℚ) ^ (v.unitExponent + 1 - 2) = 2 ^ v.unitExponent / 2 := by
      rw [two_zpow_sub_two, zpow_add_one₀ (by norm_num)]
      ring
    rw [hunits] at hbelow
    norm_num at hbelow hupper
    refine ⟨?_, ?_, ?_⟩
    · simp only [Interval.ofScaled, hsignificand, hexponent, hdouble]
      rw [if_pos ⟨rfl, by omega⟩]
      norm_num
      linarith
    · simp only [Interval.ofScaled, hsignificand, hexponent, hdouble]
      norm_num
      linarith
    · simp only [Interval.ofScaled, hsignificand]
      intro hopen
      cases hopen

end Binary32

end ShaderAssembly
