import ShaderAssembly.Proofs.Binary32.Rounding

namespace ShaderAssembly.Binary32

/-- `x` is a finite number to whose interval the integer belongs, with the sign of the integer. Zero
has either sign. -/
structure IsNearest (n : Int) (x : Float32) : Prop where
  exponentField_ne : exponentField x ≠ 255
  negative : n ≠ 0 → (decode x).negative = decide (n < 0)
  readsBack : ReadsBack (decode x) n.natAbs

private theorem magnitudeBits_ofInt_lt {n : Int} (hn : n ≠ 0) (hbound : n.natAbs ≤ 2 ^ 31) :
    (Scaled.ofInt n 0).magnitudeBits < 0x7F800000 := by
  have hpos : 0 < (Scaled.ofInt n 0).significand := Int.natAbs_pos.2 hn
  have hunits := (Scaled.units_bounds hpos).1
  have hlog : n.natAbs.log2 < 32 := (Nat.log2_lt (Int.natAbs_ne_zero.2 hn)).2 (by omega)
  have hunit : (Scaled.ofInt n 0).unitExponent ≤ 8 := by
    simp only [Scaled.unitExponent, Scaled.ofInt]
    omega
  have hbits := (Scaled.ofInt n 0).magnitudeBits_eq
  omega

/-- The conversion of an integer is to the number nearest to it. -/
theorem isNearest_ofInt32 (n : Int32) : IsNearest n.toInt (ofInt32 n) := by
  by_cases hn : n.toInt = 0
  · obtain rfl : n = 0 := Int32.toInt_inj.1 hn
    have hdecode : decode (ofInt32 0) = ⟨false, 0, -149⟩ := by decide
    refine ⟨by decide, fun h => absurd rfl h, ?_⟩
    rw [hdecode]
    refine ⟨?_, ?_, fun h => ?_⟩
    · norm_num [Interval.ofScaled]
    · norm_num [Interval.ofScaled]
    · cases h
  · have hpos : 0 < (Scaled.ofInt n.toInt 0).significand := Int.natAbs_pos.2 hn
    have hlower := n.le_toInt
    have hupper := n.toInt_lt
    have hfinite := magnitudeBits_ofInt_lt hn (by omega)
    have hmagnitude : (Scaled.ofInt n.toInt 0).magnitude = n.toInt.natAbs := by
      simp [Scaled.magnitude, Scaled.ofInt]
    obtain ⟨hfield, hsign, -⟩ := decode_round hpos hfinite
    have hread := readsBack_round hpos hfinite
    rw [hmagnitude] at hread
    exact ⟨hfield, fun _ => hsign, hread⟩

/-- The negative of the nearest number is nearest to the negative. -/
theorem IsNearest.neg {n : Int} {x : Float32} (h : IsNearest n x) : IsNearest (-n) (-x) := by
  have hdecode := decode_neg h.exponentField_ne
  refine ⟨?_, fun hn => ?_, ?_⟩
  · rw [exponentField_neg h.exponentField_ne]
    exact h.exponentField_ne
  · rw [hdecode, h.negative (by omega), ← decide_not, decide_eq_decide]
    omega
  · obtain ⟨hlower, hupper, hinterior⟩ := h.readsBack
    rw [hdecode, Int.natAbs_neg]
    exact ⟨hlower, hupper, hinterior⟩

private theorem isZero_of_significand {x : Float32} (h : (decode x).significand = 0) :
    IsZero x := by
  have hsignificand := decode_significand x
  have hfield : exponentField x = 0 := by
    by_contra hfield
    rw [if_neg hfield] at hsignificand
    omega
  have hexponent : (decode x).exponent = -149 := by
    rw [decode_exponent, hfield]
    rfl
  have hdecode : decode x = ⟨(decode x).negative, 0, -149⟩ := by
    rw [← h, ← hexponent]
  cases hsign : (decode x).negative with
  | false =>
    rw [hsign] at hdecode
    exact .inl (decode_injective hdecode)
  | true =>
    rw [hsign] at hdecode
    exact .inr (decode_injective hdecode)

/-- The number nearest to zero is a zero. -/
theorem IsNearest.isZero {x : Float32} (h : IsNearest 0 x) : IsZero x := by
  have hlower := h.readsBack.lower_le
  have hunit : (0 : ℚ) < 2 ^ ((decode x).exponent - 2) := by positivity
  have hle : ((Interval.ofScaled (decode x)).lower : ℚ) ≤ 0 := by
    by_contra! hpos
    have hmul := mul_pos hpos hunit
    simp at hlower
    linarith
  have hends : (Interval.ofScaled (decode x)).lower = 0 := by
    exact_mod_cast le_antisymm hle (Nat.cast_nonneg _)
  apply isZero_of_significand
  simp only [Interval.ofScaled] at hends
  split at hends <;> omega

/-- An integer has one nearest number, up to the sign of zero. -/
theorem IsNearest.beq {n : Int} {x y : Float32} (hx : IsNearest n x) (hy : IsNearest n y) :
    (x == y) = true := by
  by_cases hn : n = 0
  · subst hn
    obtain rfl | rfl := hx.isZero <;> obtain rfl | rfl := hy.isZero <;> decide
  · obtain ⟨hsignificand, hexponent⟩ := eq_of_readsBack (canonical_decode hx.exponentField_ne)
      (canonical_decode hy.exponentField_ne) hx.readsBack hy.readsBack
    have hsign := (hx.negative hn).trans (hy.negative hn).symm
    have hdecode : decode x = decode y := by
      cases hdx : decode x
      cases hdy : decode y
      simp_all
    rw [decode_injective hdecode, Float32.beq_self_iff]
    rintro rfl
    exact hy.exponentField_ne (by decide)

/-- An integer can be negated before it is converted or after, unless it is the least one. -/
theorem ofInt32_neg_beq_iff (n : Int32) :
    (ofInt32 (-n) == -ofInt32 n) = true ↔ n ≠ Int32.minValue := by
  constructor
  · rintro h rfl
    revert h
    decide
  · intro hn
    have hlower := n.le_toInt
    have hupper := n.toInt_lt
    have hne : n.toInt ≠ -2 ^ 31 := fun h => hn (Int32.toInt_inj.1 h)
    have hneg : (-n).toInt = -n.toInt := by
      rw [Int32.toInt_neg, Int.bmod_eq_of_le (by omega) (by omega)]
    have hnearest := isNearest_ofInt32 (-n)
    rw [hneg] at hnearest
    exact hnearest.beq (isNearest_ofInt32 n).neg

end ShaderAssembly.Binary32
