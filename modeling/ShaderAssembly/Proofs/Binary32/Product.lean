import ShaderAssembly.Proofs.Binary32.Fields

namespace ShaderAssembly.Binary32

open Float.Model (Format UnpackedFloat totalExponent)
open Float.Model.UnpackedFloat

/-- Zeros in the last places are shifted out without a trace. -/
private theorem shiftRight_mul_two_pow (m k : Nat) :
    (⟨m * 2 ^ k, false, false⟩ : ExtendedMantissa) >>> k = ⟨m, false, false⟩ := by
  induction k generalizing m with
  | zero =>
    rw [Nat.pow_zero, Nat.mul_one]
    rfl
  | succ k ih =>
    change ExtendedMantissa.shiftRightOne
      ((⟨m * 2 ^ (k + 1), false, false⟩ : ExtendedMantissa) >>> k) = _
    rw [Nat.pow_succ', ← Nat.mul_assoc, ih]
    simp [ExtendedMantissa.shiftRightOne]

private theorem log2_mul_two_pow {m : Nat} (hm : 0 < m) (k : Nat) :
    (m * 2 ^ k).log2 = m.log2 + k := by
  induction k with
  | zero => simp
  | succ k ih =>
    have hpos : m * 2 ^ k ≠ 0 := by positivity
    rw [Nat.pow_succ', Nat.mul_left_comm, Nat.log2_two_mul hpos, ih, Nat.add_assoc]

private theorem canonical_of_unpack {b : BitVec 32} {s : Sign} {m : Nat} {e : Int} {hm : 0 < m}
    (hunpack : unpack .binary32 b = .finite s m e hm) (negative : Bool) :
    (Scaled.mk negative m e).Canonical := by
  have hfraction : (@unpackMantissa .binary32 b).toNat < 2 ^ 23 := BitVec.isLt _
  have hfield : (@unpackExponent .binary32 b).toNat < 256 := BitVec.isLt _
  have hbias : (Format.binary32.exponentBias : Int) = 127 := rfl
  unfold unpack at hunpack
  simp only [hbias] at hunpack
  split at hunpack
  next => split at hunpack <;> cases hunpack
  next hones =>
    rw [← BitVec.toNat_inj] at hones
    change ¬ _ = 255 at hones
    split at hunpack
    next hzero =>
      split at hunpack
      next => cases hunpack
      next =>
        obtain ⟨-, rfl, he⟩ := UnpackedFloat.finite.inj hunpack
        simp only [hzero] at he
        change 0 - (127 + 23) + 1 = e at he
        constructor <;> simp only <;> omega
    next hnormal =>
      rw [← BitVec.toNat_inj] at hnormal
      change ¬ _ = 0 at hnormal
      obtain ⟨-, hmantissa, he⟩ := UnpackedFloat.finite.inj hunpack
      -- the implicit bit stands in front of the fraction
      have hsum : m = 2 ^ 23 * 1 + (@unpackMantissa .binary32 b).toNat := by
        rw [← hmantissa, BitVec.toNat_append]
        exact (Nat.two_pow_add_eq_or_of_lt hfraction 1).symm
      change _ - (127 + 23) = e at he
      constructor <;> simp only <;> omega

/-- A canonical number has the exponent for its magnitude. -/
private theorem targetExponent_of_canonical {v : Scaled} (hv : v.Canonical)
    (hpos : 0 < v.significand) :
    Format.binary32.targetExponent (totalExponent v.significand v.exponent) = v.exponent := by
  have htarget : Format.binary32.targetExponent (totalExponent v.significand v.exponent) =
      max (v.significand.log2 + 1 + v.exponent - 24) (-149) := rfl
  have hlog : v.significand.log2 < 24 := (Nat.log2_lt (Nat.ne_of_gt hpos)).2 hv.significand_lt
  have hge := hv.exponent_ge
  rw [htarget]
  by_cases hleast : v.exponent = -149
  · omega
  · have hfull : 23 ≤ v.significand.log2 :=
      (Nat.le_log2 (Nat.ne_of_gt hpos)).2 (hv.normal (by omega))
    omega

/-- A mantissa with zeros in its last places is rounded to what stands before them, if that has the
exponent for its magnitude. -/
private theorem roundWithAccuracy_mul_two_pow {m : Nat} {e : Int} (hm : 0 < m)
    (htarget : Format.binary32.targetExponent (totalExponent m e) = e) (s : Sign) (k : Nat) :
    roundWithAccuracy .binary32 s (m * 2 ^ k) (e - k) .exact = .finite s m e hm := by
  have hshift : ∀ k : Nat, shiftToTargetExponent .binary32 (m * 2 ^ k) (e - k) .exact =
      (⟨m, false, false⟩, e) := by
    intro k
    have htotal : totalExponent (m * 2 ^ k) (e - k) = totalExponent m e := by
      rw [totalExponent, totalExponent, log2_mul_two_pow hm]
      omega
    have hamount : (e - (e - k)).toNat = k := by omega
    rw [shiftToTargetExponent, htotal, htarget]
    simp only [shiftToExponent, hamount, ExtendedMantissa.ofMantissaAndAccuracy,
      shiftRight_mul_two_pow]
    rw [Int.sub_add_cancel]
  have hsecond := hshift 0
  rw [Nat.pow_zero, Nat.mul_one, Int.natCast_zero, Int.sub_zero] at hsecond
  have hrounded : (⟨m, false, false⟩ : ExtendedMantissa).roundedMantissa = m := rfl
  unfold roundWithAccuracy
  simp only [hshift k, hrounded, hsecond]
  exact dif_neg (Nat.ne_of_gt hm)

/-- Multiplication by one is exact. A finite number is unpacked with the exponent that the format
has for its magnitude, so the product is shifted back to that exponent and no bit of it is lost. -/
theorem mul_one (x : Float32) : x * 1.0 = x := by
  have hone : (1.0 : Float32).toModel.unpack = .finite .positive (2 ^ 23) (-23) (by decide) := rfl
  have hsign : ∀ s : Sign, s * .positive = s := by
    intro s
    cases s <;> rfl
  have hmul : mul .binary32 x.toModel.unpack (1.0 : Float32).toModel.unpack = x.toModel.unpack := by
    rw [hone]
    cases hunpack : x.toModel.unpack with
    | notANumber => rfl
    | infinity s => simp only [mul, hsign]
    | zero s => simp only [mul, hsign]
    | finite s m e hm =>
      simp only [mul, hsign]
      have hcanonical := canonical_of_unpack hunpack false
      exact roundWithAccuracy_mul_two_pow hm (targetExponent_of_canonical hcanonical hm) s 23
  rw [← Float32.toBits_inj, ← UInt32.toBitVec_inj]
  change pack .binary32 (mul .binary32 x.toModel.unpack (1.0 : Float32).toModel.unpack) = _
  rw [hmul]
  exact pack_unpack_of_valid x.toModel.valid

end ShaderAssembly.Binary32
