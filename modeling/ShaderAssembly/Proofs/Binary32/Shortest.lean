import ShaderAssembly.Binary32.Decimal
import ShaderAssembly.Proofs.Binary32.Fields

namespace ShaderAssembly.Binary32

namespace Interval

variable {i : Interval} {unit n : Nat}

private theorem bounds_of_contains (h : i.contains n = true) :
    i.lower ≤ n ∧ n ≤ i.upper ∧ (i.closed = false → i.lower < n ∧ n < i.upper) := by
  unfold contains at h
  split at h
  next hclosed =>
    obtain ⟨hlower, hupper⟩ := of_decide_eq_true h
    refine ⟨hlower, hupper, fun hopen => ?_⟩
    rw [hclosed] at hopen
    cases hopen
  next =>
    obtain ⟨hlower, hupper⟩ := of_decide_eq_true h
    exact ⟨hlower.le, hupper.le, fun _ => ⟨hlower, hupper⟩⟩

private theorem contains_of_nearestMultiple? (h : i.nearestMultiple? unit = some n) :
    i.contains (n * unit) = true := by
  unfold nearestMultiple? at h
  simp only at h
  split at h
  next hbelow habove =>
    split at h
    next =>
      cases h
      exact hbelow
    next =>
      cases h
      exact habove
  next hbelow _ =>
    cases h
    exact hbelow
  next _ habove =>
    cases h
    exact habove
  next => cases h

/-- A unit that fits below the value is met by the interval: its last multiple up to the value is
inside. -/
private theorem exists_nearestMultiple? (hunit : 0 < unit) (hlower : i.lower + unit ≤ i.value)
    (hupper : i.value < i.upper) : ∃ n, i.nearestMultiple? unit = some n := by
  have hbelow : i.contains (i.value / unit * unit) = true := by
    have hle := Nat.div_mul_le_self i.value unit
    have hlt := Nat.lt_div_mul_add hunit (a := i.value)
    unfold contains
    split
    next => exact decide_eq_true ⟨by omega, by omega⟩
    next => exact decide_eq_true ⟨by omega, by omega⟩
  unfold nearestMultiple?
  simp only [hbelow]
  cases i.contains ((i.value / unit + 1) * unit) with
  | true =>
    simp only
    split <;> exact ⟨_, rfl⟩
  | false => exact ⟨_, rfl⟩

end Interval

/-- The number that a decimal stands for. -/
def Decimal.value (d : Decimal) : ℚ := d.digits * 10 ^ d.exponent

/-- `q` lies in the interval of the numbers that round to the magnitude of `v`. -/
structure ReadsBack (v : Scaled) (q : ℚ) : Prop where
  lower_le : (Interval.ofScaled v).lower * (2 : ℚ) ^ (v.exponent - 2) ≤ q
  le_upper : q ≤ (Interval.ofScaled v).upper * (2 : ℚ) ^ (v.exponent - 2)
  interior : (Interval.ofScaled v).closed = false →
    (Interval.ofScaled v).lower * (2 : ℚ) ^ (v.exponent - 2) < q ∧
      q < (Interval.ofScaled v).upper * (2 : ℚ) ^ (v.exponent - 2)

/-- The common unit in which `gridPoint?` compares multiples of a power of two to multiples of a
power of ten. -/
private theorem exists_common_unit (binary decimal : Int) :
    ∃ c : ℚ, 0 < c ∧ (∀ a : Nat, (a : ℚ) * 2 ^ binary =
        (a * (10 ^ (-decimal).toNat * 2 ^ binary.toNat) : Nat) * c) ∧
      ∀ n : Nat, (n : ℚ) * 10 ^ decimal =
        (n * (10 ^ decimal.toNat * 2 ^ (-binary).toNat) : Nat) * c := by
  have hsplit : ∀ (b : ℚ) (k : Int), b ≠ 0 → b ^ k = b ^ k.toNat / b ^ (-k).toNat := by
    intro b k hb
    rw [← zpow_natCast, ← zpow_natCast, ← zpow_sub₀ hb, Int.toNat_sub_toNat_neg]
  refine ⟨1 / (10 ^ (-decimal).toNat * 2 ^ (-binary).toNat), by positivity, ?_, ?_⟩
  · intro a
    rw [hsplit 2 binary (by norm_num)]
    push_cast
    field_simp
  · intro n
    rw [hsplit 10 decimal (by norm_num)]
    push_cast
    field_simp

private theorem gridPoint?_eq (v : Scaled) (k : Int) :
    gridPoint? v k = ((Interval.ofScaled v).scale
      (10 ^ (-k).toNat * 2 ^ (v.exponent - 2).toNat)).nearestMultiple?
        (10 ^ k.toNat * 2 ^ (-(v.exponent - 2)).toNat) := by
  simp only [gridPoint?, Nat.shiftLeft_eq, Nat.pow_eq]

private theorem readsBack_of_gridPoint? {v : Scaled} {k : Int} {n : Nat}
    (h : gridPoint? v k = some n) : ReadsBack v (n * 10 ^ k) := by
  rw [gridPoint?_eq] at h
  obtain ⟨hlower, hupper, hinterior⟩ :=
    Interval.bounds_of_contains (Interval.contains_of_nearestMultiple? h)
  obtain ⟨c, hc, htwo, hten⟩ := exists_common_unit (v.exponent - 2) k
  refine ⟨?_, ?_, fun hopen => ⟨?_, ?_⟩⟩
  · rw [htwo, hten]
    exact mul_le_mul_of_nonneg_right (by exact_mod_cast hlower) hc.le
  · rw [htwo, hten]
    exact mul_le_mul_of_nonneg_right (by exact_mod_cast hupper) hc.le
  · rw [htwo, hten]
    exact mul_lt_mul_of_pos_right (by exact_mod_cast (hinterior hopen).1) hc
  · rw [htwo, hten]
    exact mul_lt_mul_of_pos_right (by exact_mod_cast (hinterior hopen).2) hc

/-- The last grid of the search meets the interval of every number. -/
private theorem exists_gridPoint? {v : Scaled} (hpos : 0 < v.significand)
    (hexponent : -149 ≤ v.exponent) : ∃ n, gridPoint? v (-54) = some n := by
  have hunit : 2 ^ (-(v.exponent - 2)).toNat ≤ 2 ^ 151 :=
    Nat.pow_le_pow_right (by omega) (by omega)
  have hscale : 10 ^ 54 ≤ 10 ^ 54 * 2 ^ (v.exponent - 2).toNat :=
    Nat.le_mul_of_pos_right _ (by positivity)
  have hfine : 1 * 2 ^ (-(v.exponent - 2)).toNat ≤ 10 ^ 54 * 2 ^ (v.exponent - 2).toNat := by
    have hpowers : 2 ^ 151 ≤ 10 ^ 54 := by norm_num
    omega
  have hgap : (Interval.ofScaled v).lower + 1 ≤ (Interval.ofScaled v).value := by
    simp only [Interval.ofScaled]
    split <;> omega
  have hupper : (Interval.ofScaled v).value < (Interval.ofScaled v).upper := by
    simp only [Interval.ofScaled]
    omega
  rw [gridPoint?_eq]
  apply Interval.exists_nearestMultiple?
  · positivity
  · have hmul := Nat.mul_le_mul_right (10 ^ 54 * 2 ^ (v.exponent - 2).toNat) hgap
    rw [Nat.add_mul] at hmul
    change _ * (10 ^ 54 * 2 ^ (v.exponent - 2).toNat) + 1 * 2 ^ (-(v.exponent - 2)).toNat ≤
      _ * (10 ^ 54 * 2 ^ (v.exponent - 2).toNat)
    omega
  · exact Nat.mul_lt_mul_of_pos_right hupper (by positivity)

theorem searchGrids_spec {v : Scaled} (finer : Nat) (k : Int)
    (hlast : ∃ n, gridPoint? v (k - finer) = some n) :
    ReadsBack v (searchGrids v (finer + 1) k).value := by
  induction finer generalizing k with
  | zero =>
    obtain ⟨n, hn⟩ := hlast
    rw [Int.natCast_zero, Int.sub_zero] at hn
    rw [searchGrids, hn]
    exact readsBack_of_gridPoint? hn
  | succ finer ih =>
    rw [searchGrids]
    cases hn : gridPoint? v k with
    | some n => exact readsBack_of_gridPoint? hn
    | none =>
      apply ih
      rw [show k - 1 - (finer : Int) = k - (finer + 1 : Nat) by omega]
      exact hlast

/-- The shortest decimal of a number rounds to it. -/
theorem readsBack_shortest {v : Scaled} (hv : v.Canonical) (hpos : 0 < v.significand) :
    ReadsBack v (shortest v).value := by
  unfold shortest
  rw [if_neg (by omega)]
  exact searchGrids_spec 93 39 (exists_gridPoint? hpos hv.exponent_ge)

theorem ReadsBack.pos {v : Scaled} {q : ℚ} (h : ReadsBack v q) (hpos : 0 < v.significand) :
    0 < q := by
  have hlower : 0 < (Interval.ofScaled v).lower := by
    simp only [Interval.ofScaled]
    split <;> omega
  have hlower' : (0 : ℚ) < (Interval.ofScaled v).lower := by exact_mod_cast hlower
  exact lt_of_lt_of_le (by positivity) h.lower_le

/-- The interval of a number ends where that of a greater one begins, or before. An end that both
have in common belongs to one of them alone, as two neighbours are not both even. -/
private theorem upper_le_lower {v w : Scaled} (hv : v.Canonical) (hw : w.Canonical)
    (hlt : v.exponent < w.exponent ∨ v.exponent = w.exponent ∧ v.significand < w.significand) :
    (Interval.ofScaled v).upper ≤
        (Interval.ofScaled w).lower * 2 ^ (w.exponent - v.exponent).toNat ∧
      ((Interval.ofScaled v).upper =
          (Interval.ofScaled w).lower * 2 ^ (w.exponent - v.exponent).toNat →
        (Interval.ofScaled v).closed = false ∨ (Interval.ofScaled w).closed = false) := by
  have hvlt := hv.significand_lt
  have hvge := hv.exponent_ge
  have hnormal := hw.normal
  simp only [Interval.ofScaled, beq_eq_false_iff_ne]
  obtain hexponent | ⟨hexponent, hsignificand⟩ := hlt
  · have hdouble : 2 ≤ 2 ^ (w.exponent - v.exponent).toNat :=
      Nat.le_self_pow (by omega) 2
    generalize 2 ^ (w.exponent - v.exponent).toNat = t at hdouble ⊢
    generalize hlower : 4 * w.significand -
      (if w.significand = 0x800000 ∧ -149 < w.exponent then 1 else 2) = lower
    have hge : 0x1FFFFFF ≤ lower := by
      split at hlower <;> omega
    have hmul := Nat.mul_le_mul hge hdouble
    exact ⟨by omega, fun heq => .inl (by omega)⟩
  · have hzero : (w.exponent - v.exponent).toNat = 0 := by omega
    rw [hzero, Nat.pow_zero, Nat.mul_one]
    split <;> exact ⟨by omega, by omega⟩

private theorem not_readsBack_of_lt {v w : Scaled} (hv : v.Canonical) (hw : w.Canonical) {q : ℚ}
    (hlt : v.exponent < w.exponent ∨ v.exponent = w.exponent ∧ v.significand < w.significand)
    (hqv : ReadsBack v q) : ¬ ReadsBack w q := by
  intro hqw
  obtain ⟨hle, hends⟩ := upper_le_lower hv hw hlt
  have hunit : (0 : ℚ) < 2 ^ (v.exponent - 2) := by positivity
  have hscale : ∀ a : Nat, (a : ℚ) * 2 ^ (w.exponent - 2) =
      (a * 2 ^ (w.exponent - v.exponent).toNat : Nat) * 2 ^ (v.exponent - 2) := by
    intro a
    have hexponent : w.exponent - 2 =
        ((w.exponent - v.exponent).toNat : Int) + (v.exponent - 2) := by omega
    rw [hexponent, zpow_add₀ (by norm_num), zpow_natCast]
    push_cast
    ring
  have hupper := hqv.le_upper
  have hlower := hqw.lower_le
  rw [hscale] at hlower
  obtain hstrict | heq := hle.lt_or_eq
  · have hmul := mul_lt_mul_of_pos_right (by exact_mod_cast hstrict :
      ((Interval.ofScaled v).upper : ℚ) <
        ((Interval.ofScaled w).lower * 2 ^ (w.exponent - v.exponent).toNat : Nat)) hunit
    linarith
  · rw [← heq] at hlower
    obtain hopen | hopen := hends heq
    · have hinside := (hqv.interior hopen).2
      linarith
    · have hinside := (hqw.interior hopen).1
      rw [hscale, ← heq] at hinside
      linarith

/-- No two numbers of different magnitude have a number that rounds to both. -/
theorem eq_of_readsBack {v w : Scaled} (hv : v.Canonical) (hw : w.Canonical) {q : ℚ}
    (hqv : ReadsBack v q) (hqw : ReadsBack w q) :
    v.significand = w.significand ∧ v.exponent = w.exponent := by
  have hvw : ¬ (v.exponent < w.exponent ∨
      v.exponent = w.exponent ∧ v.significand < w.significand) :=
    fun hlt => not_readsBack_of_lt hv hw hlt hqv hqw
  have hwv : ¬ (w.exponent < v.exponent ∨
      w.exponent = v.exponent ∧ w.significand < v.significand) :=
    fun hlt => not_readsBack_of_lt hw hv hlt hqw hqv
  omega

/-- Magnitudes with the same shortest decimal are the same. -/
theorem eq_of_shortest_value {v w : Scaled} (hv : v.Canonical) (hw : w.Canonical)
    (h : (shortest v).value = (shortest w).value) :
    v.significand = w.significand ∧ v.exponent = w.exponent := by
  have hzero : ∀ {u : Scaled}, u.significand = 0 → (shortest u).value = 0 := by
    intro u hu
    simp [shortest, hu, Decimal.value]
  have hvnormal := hv.normal
  have hwnormal := hw.normal
  have hvge := hv.exponent_ge
  have hwge := hw.exponent_ge
  obtain hvzero | hvpos := Nat.eq_zero_or_pos v.significand
  · obtain hwzero | hwpos := Nat.eq_zero_or_pos w.significand
    · exact ⟨by omega, by omega⟩
    · have hpos := (readsBack_shortest hw hwpos).pos hwpos
      rw [← h, hzero hvzero] at hpos
      exact absurd hpos (lt_irrefl 0)
  · have hread := readsBack_shortest hv hvpos
    obtain hwzero | hwpos := Nat.eq_zero_or_pos w.significand
    · have hpos := hread.pos hvpos
      rw [h, hzero hwzero] at hpos
      exact absurd hpos (lt_irrefl 0)
    · rw [h] at hread
      exact eq_of_readsBack hv hw hread (readsBack_shortest hw hwpos)

end ShaderAssembly.Binary32
