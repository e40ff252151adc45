import ShaderAssembly.Proofs.Binary32.Fields

namespace ShaderAssembly.Binary32

open Float.Model (Format UnpackedFloat)
open Float.Model.UnpackedFloat

private theorem packComponents_injective {spec : Format} {s t : Sign} {E E' M M'}
    (h : packComponents spec s E M = packComponents spec t E' M') : s = t ∧ E = E' ∧ M = M' := by
  refine ⟨?_, ?_, ?_⟩
  · have hsign := congrArg unpackSign h
    rw [unpackSign_packComponents, unpackSign_packComponents] at hsign
    rw [← Sign.ofBitVec_toBitVec s, hsign, Sign.ofBitVec_toBitVec]
  · simpa using congrArg unpackExponent h
  · simpa using congrArg unpackMantissa h

/-- A finite value is packed to an infinity, or to fields that do not depend on the sign. -/
private theorem pack_finite_cases (m : Nat) (e : Int) (hm : 0 < m) :
    (∀ s, pack .binary32 (.finite s m e hm) = packedInfinity .binary32 s) ∨
      ∃ (E : BitVec 8) (M : BitVec 23), E ≠ -1#_ ∧
        ∀ s, pack .binary32 (.finite s m e hm) = packComponents .binary32 s E M := by
  let biased := (e + Format.binary32.exponentBias +
    Format.binary32.mantissaBitsWithoutImplicit).toNat
  by_cases hrange : 2 ^ Format.binary32.exponentBits ≤ biased + 1
  · exact .inl fun s => if_pos hrange
  · right
    by_cases hnormal : m.log2 + 1 = Format.binary32.mantissaBits
    · refine ⟨BitVec.ofNat 8 biased, BitVec.ofNat 23 m, ?_, fun s => ?_⟩
      · intro h
        have hones : biased % 256 = 255 := by
          rw [← BitVec.toNat_inj, BitVec.toNat_ofNat] at h
          exact h
        change ¬ 256 ≤ biased + 1 at hrange
        omega
      · exact (if_neg hrange).trans (if_pos hnormal)
    · exact ⟨0, BitVec.ofNat 23 m, by decide, fun s => (if_neg hrange).trans (if_neg hnormal)⟩

/-- The bits of a number other than a NaN are its sign and two fields that negation keeps. -/
theorem exists_pack_eq_packComponents {u : UnpackedFloat} (hu : u ≠ .notANumber) :
    ∃ (s : Sign) (E : BitVec 8) (M : BitVec 23), (E = -1#_ → M = 0#_) ∧
      pack .binary32 u = packComponents .binary32 s E M ∧
      pack .binary32 u.neg = packComponents .binary32 (-s) E M := by
  cases u with
  | notANumber => exact absurd rfl hu
  | infinity s => exact ⟨s, -1#_, 0#_, fun _ => rfl, rfl, rfl⟩
  | zero s => exact ⟨s, 0#_, 0#_, fun _ => rfl, rfl, rfl⟩
  | finite s m e hm =>
    obtain hinf | ⟨E, M, hE, hpack⟩ := pack_finite_cases m e hm
    · exact ⟨s, -1#_, 0#_, fun _ => rfl, hinf s, hinf (-s)⟩
    · exact ⟨s, E, M, fun h => absurd h hE, hpack s, hpack (-s)⟩

/-- Packing, which loses the bits that a format has no room for, loses the same ones of the negated
number. -/
theorem pack_neg_unpack_pack (u : UnpackedFloat) :
    pack .binary32 (unpack .binary32 (pack .binary32 u)).neg = pack .binary32 u.neg := by
  by_cases hu : u = .notANumber
  · subst hu
    rfl
  · obtain ⟨s, E, M, hEM, hpack, hneg⟩ := exists_pack_eq_packComponents hu
    have hnan : unpack .binary32 (pack .binary32 u) ≠ .notANumber := by
      rw [ne_eq, unpack_eq_notANumber_iff_of_valid valid_pack, hpack]
      intro h
      obtain ⟨_, hE, hM⟩ := packComponents_injective h
      rw [hEM hE] at hM
      exact absurd hM (by decide)
    obtain ⟨t, E', M', _, hpack', hneg'⟩ := exists_pack_eq_packComponents hnan
    rw [pack_unpack_of_valid valid_pack, hpack] at hpack'
    obtain ⟨rfl, rfl, rfl⟩ := packComponents_injective hpack'
    rw [hneg', hneg]

private theorem mul_neg_sign (s t : Sign) : s * -t = -(s * t) := by
  cases s <;> cases t <;> rfl

private theorem roundWithAccuracy_neg (s : Sign) (m : Nat) (e : Int) (a : Accuracy) :
    roundWithAccuracy .binary32 (-s) m e a = (roundWithAccuracy .binary32 s m e a).neg := by
  unfold roundWithAccuracy
  simp only
  split <;> rfl

theorem mul_neg (u v : UnpackedFloat) : mul .binary32 u v.neg = (mul .binary32 u v).neg := by
  cases u <;> cases v <;> simp only [mul, neg, mul_neg_sign, roundWithAccuracy_neg]

/-- A product by minus two is the negated product by two, also where it rounds: negation turns the
sign bit over and leaves the other bits. -/
theorem mul_neg_two (x : Float32) : x * -2.0 = -(x * 2.0) := by
  have hneg : (-2.0 : Float32).toModel.unpack = (2.0 : Float32).toModel.unpack.neg := rfl
  change Float32.ofModel (.pack (mul .binary32 x.toModel.unpack (-2.0 : Float32).toModel.unpack)) =
    Float32.ofModel (.pack (unpack .binary32
      (pack .binary32 (mul .binary32 x.toModel.unpack (2.0 : Float32).toModel.unpack))).neg)
  rw [hneg, mul_neg]
  simp only [Float32.Model.pack, pack_neg_unpack_pack]

end ShaderAssembly.Binary32
