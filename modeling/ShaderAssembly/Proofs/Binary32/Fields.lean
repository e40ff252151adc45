import Mathlib
import ShaderAssembly.Binary32

namespace ShaderAssembly

/-- The form in which a finite number is decoded. -/
structure Scaled.Canonical (v : Scaled) : Prop where
  significand_lt : v.significand < 0x1000000
  exponent_ge : -149 ≤ v.exponent
  exponent_le : v.exponent ≤ 104
  normal : -149 < v.exponent → 0x800000 ≤ v.significand

namespace Binary32

open Float.Model (UnpackedFloat)
open Float.Model.UnpackedFloat

/-- The exponent field of a number. Infinities and NaNs have all of its bits set. -/
def exponentField (x : Float32) : Nat := x.toBits.toNat >>> 23 % 256

theorem decode_exponent (x : Float32) :
    (decode x).exponent = (max (exponentField x) 1 : Nat) - 150 := rfl

theorem decode_significand (x : Float32) :
    (decode x).significand =
      if exponentField x = 0 then x.toBits.toNat % 0x800000
      else x.toBits.toNat % 0x800000 + 0x800000 := rfl

theorem canonical_decode {x : Float32} (hfield : exponentField x ≠ 255) :
    (decode x).Canonical := by
  have hm := decode_significand x
  have he := decode_exponent x
  have hlt : exponentField x < 256 := Nat.mod_lt _ (by omega)
  refine ⟨?_, by omega, by omega, ?_⟩
  · rw [hm]
    split <;> omega
  · intro hnormal
    rw [hm, if_neg (by omega)]
    omega

/-- The sign, the significand and the exponent give all the bits back. -/
theorem decode_injective {x y : Float32} (h : decode x = decode y) : x = y := by
  have hx := decode_significand x
  have hy := decode_significand y
  have hxe := decode_exponent x
  have hye := decode_exponent y
  have hsign : x.toBits.toNat.testBit 31 = y.toBits.toNat.testBit 31 :=
    congrArg Scaled.negative h
  rw [h] at hx hxe
  have hfields : exponentField x = exponentField y ∧
      x.toBits.toNat % 0x800000 = y.toBits.toNat % 0x800000 := by
    split at hx <;> split at hy <;> omega
  rw [← Float32.toBits_inj, ← UInt32.toNat_inj]
  have hxlt := x.toBits.toNat_lt
  have hylt := y.toBits.toNat_lt
  rw [Nat.testBit_eq_decide_div_mod_eq, Nat.testBit_eq_decide_div_mod_eq, decide_eq_decide] at hsign
  simp only [exponentField, Nat.shiftRight_eq_div_pow] at hfields
  omega

private theorem unpack_of_exponentField {x : Float32} (hfield : exponentField x = 255) :
    x.toModel.unpack = .notANumber ∨ ∃ s, x.toModel.unpack = .infinity s := by
  have hones : @unpackExponent .binary32 x.toBits.toBitVec = -1#_ := by
    apply BitVec.eq_of_toNat_eq
    simp only [unpackExponent, BitVec.toNat_cast, BitVec.extractLsb_toNat]
    exact hfield
  change UnpackedFloat.unpack .binary32 x.toBits.toBitVec = _ ∨
    ∃ s, UnpackedFloat.unpack .binary32 x.toBits.toBitVec = _
  unfold UnpackedFloat.unpack
  rw [if_pos hones]
  split
  · exact .inr ⟨_, rfl⟩
  · exact .inl rfl

/-- With all bits of the field set, a number is the NaN or an infinity. -/
theorem eq_of_exponentField {x : Float32} (hfield : exponentField x = 255) :
    x = Float32.nan ∨ x = positiveInfinity ∨ x = negativeInfinity := by
  have hunpack : ∀ y : Float32, x.toModel.unpack = y.toModel.unpack → x = y := by
    intro y h
    rw [← Float32.toBits_inj, ← UInt32.toBitVec_inj]
    exact (unpack_inj_of_valid x.toModel.valid y.toModel.valid).1 h
  obtain hnan | ⟨s, hinf⟩ := unpack_of_exponentField hfield
  · exact .inl (hunpack _ hnan)
  · cases s with
    | positive => exact .inr (.inl (hunpack _ hinf))
    | negative => exact .inr (.inr (hunpack _ hinf))

theorem exponentField_ne_of_isFinite {x : Float32} (h : isFinite x = true) :
    exponentField x ≠ 255 := by
  intro hfield
  obtain rfl | rfl | rfl := eq_of_exponentField hfield
  · exact absurd h (by decide)
  · exact absurd h (by decide)
  · exact absurd h (by decide)

/-- The numbers that stand for a real other than zero. -/
def FiniteNonzero (x : Float32) : Prop := isFinite x = true ∧ (x == 0.0) = false

/-- Zero of either sign. -/
def IsZero (x : Float32) : Prop := x = 0 ∨ x = -0

theorem isNaN_iff {x : Float32} : isNaN x = true ↔ x = Float32.nan := by
  simp [isNaN]

theorem beq_eq_false_of_exponentField {x y : Float32} (hx : exponentField x ≠ 255)
    (hy : exponentField y = 255) : (x == y) = false := by
  rw [← Bool.not_eq_true, Float32.beq_iff_ne_nan_and_eq]
  rintro ⟨_, _, rfl | ⟨_, rfl⟩ | ⟨_, rfl⟩⟩
  · exact hx hy
  · exact absurd hy (by decide)
  · exact absurd hy (by decide)

end Binary32

end ShaderAssembly
