import ShaderAssembly.Proofs.Binary32.Shortest

namespace ShaderAssembly.Binary32

/-- Lists that have a separator in them are the same before it and after it, if it is the first one
in both. -/
theorem append_cons_inj {c : Char} {p q s t : List Char} (hp : c ∉ p) (hq : c ∉ q)
    (h : p ++ c :: s = q ++ c :: t) : p = q ∧ s = t := by
  induction p generalizing q with
  | nil =>
    cases q with
    | nil => exact ⟨rfl, List.tail_eq_of_cons_eq h⟩
    | cons d q =>
      have hd : c = d := List.head_eq_of_cons_eq h
      simp [hd] at hq
  | cons d p ih =>
    cases q with
    | nil =>
      have hd : d = c := List.head_eq_of_cons_eq h
      simp [hd] at hp
    | cons e q =>
      obtain ⟨rfl, htail⟩ := List.cons_eq_cons.1 h
      obtain ⟨rfl, hrest⟩ := ih (List.not_mem_of_not_mem_cons hp)
        (List.not_mem_of_not_mem_cons hq) htail
      exact ⟨rfl, hrest⟩

namespace Decimal

variable {d e : Decimal}

/-- The digits of a decimal with a point, and zeros before them up to one digit before the point. -/
def padded (d : Decimal) : List Char :=
  List.replicate ((-d.exponent).toNat + 1 - (Nat.toDigits 10 d.digits).length) '0' ++
    Nat.toDigits 10 d.digits

private theorem text_of_nonneg (h : 0 ≤ d.exponent) :
    d.text = String.ofList (Nat.toDigits 10 d.digits ++ List.replicate d.exponent.toNat '0') := by
  unfold text
  rw [if_pos (by omega)]

private theorem text_of_neg (h : d.exponent < 0) :
    d.text = String.ofList (d.padded.take (d.padded.length - (-d.exponent).toNat) ++
      '.' :: d.padded.drop (d.padded.length - (-d.exponent).toNat)) := by
  unfold text
  rw [if_neg (by omega)]
  rfl

private theorem isDigit_of_mem_padded {c : Char} (h : c ∈ d.padded) : c.isDigit = true := by
  obtain hzero | hdigit := List.mem_append.1 h
  · rw [List.eq_of_mem_replicate hzero]
    rfl
  · exact Nat.isDigit_of_mem_toDigits (by omega) (by omega) hdigit

private theorem ofDigitChars_padded (d : Decimal) : Nat.ofDigitChars 10 d.padded 0 = d.digits := by
  rw [padded, Nat.ofDigitChars_append, Nat.ofDigitChars_replicate_zero, Nat.mul_zero,
    Nat.ofDigitChars_ten_toDigits]

private theorem length_padded (d : Decimal) : (-d.exponent).toNat < d.padded.length := by
  rw [padded, List.length_append, List.length_replicate]
  omega

private theorem isDigit_of_mem_text_of_nonneg (h : 0 ≤ d.exponent) {c : Char}
    (hc : c ∈ d.text.toList) : c.isDigit = true := by
  rw [text_of_nonneg h, String.toList_ofList, List.mem_append] at hc
  obtain hdigit | hzero := hc
  · exact Nat.isDigit_of_mem_toDigits (by omega) (by omega) hdigit
  · rw [List.eq_of_mem_replicate hzero]
    rfl

theorem isDigit_of_mem_text {c : Char} (hc : c ∈ d.text.toList) : c.isDigit = true ∨ c = '.' := by
  by_cases hexponent : 0 ≤ d.exponent
  · exact .inl (isDigit_of_mem_text_of_nonneg hexponent hc)
  · rw [text_of_neg (by omega), String.toList_ofList, List.mem_append, List.mem_cons] at hc
    obtain hwhole | hpoint | hfraction := hc
    · exact .inl (isDigit_of_mem_padded (List.mem_of_mem_take hwhole))
    · exact .inr hpoint
    · exact .inl (isDigit_of_mem_padded (List.mem_of_mem_drop hfraction))

theorem notMem_text {c : Char} (hdigit : c.isDigit = false) (hpoint : c ≠ '.') :
    c ∉ d.text.toList := by
  intro hc
  obtain hdigit' | hpoint' := isDigit_of_mem_text hc
  · rw [hdigit] at hdigit'
    cases hdigit'
  · exact hpoint hpoint'

/-- A decimal is written with a point when it has places after it. -/
theorem point_mem_text_iff : '.' ∈ d.text.toList ↔ d.exponent < 0 := by
  constructor
  · intro hpoint
    by_contra hexponent
    have hdigit := isDigit_of_mem_text_of_nonneg (by omega) hpoint
    cases hdigit
  · intro hexponent
    rw [text_of_neg hexponent]
    simp

private theorem value_of_nonneg (h : 0 ≤ d.exponent) :
    d.value = Nat.ofDigitChars 10 d.text.toList 0 := by
  rw [text_of_nonneg h, String.toList_ofList, Nat.ofDigitChars_append,
    Nat.ofDigitChars_ten_toDigits, Nat.ofDigitChars_replicate_zero, value]
  obtain ⟨k, hk⟩ := Int.eq_ofNat_of_zero_le h
  rw [hk, Int.toNat_natCast, zpow_natCast]
  push_cast
  ring

/-- Decimals with the same text stand for the same number. -/
theorem value_eq_of_text_eq (h : d.text = e.text) : d.value = e.value := by
  have hpoint : d.exponent < 0 ↔ e.exponent < 0 := by
    rw [← point_mem_text_iff, h, point_mem_text_iff]
  by_cases hexponent : d.exponent < 0
  · have hexponent' := hpoint.1 hexponent
    have hnotMem : ∀ {u : Decimal} (k : Nat), '.' ∉ u.padded.take k := by
      intro u k hmem
      have hdigit := isDigit_of_mem_padded (List.mem_of_mem_take hmem)
      cases hdigit
    have hchars := congrArg String.toList h
    rw [text_of_neg hexponent, text_of_neg hexponent', String.toList_ofList,
      String.toList_ofList] at hchars
    obtain ⟨hwhole, hfraction⟩ := append_cons_inj (hnotMem _) (hnotMem _) hchars
    have hpadded : d.padded = e.padded := by
      rw [← List.take_append_drop (d.padded.length - (-d.exponent).toNat) d.padded, hwhole,
        hfraction, List.take_append_drop]
    have hplaces : (-d.exponent).toNat = (-e.exponent).toNat := by
      have hlength := congrArg List.length hfraction
      rw [List.length_drop, List.length_drop] at hlength
      have hd := d.length_padded
      have he := e.length_padded
      omega
    have hdigits : d.digits = e.digits := by
      rw [← d.ofDigitChars_padded, hpadded, e.ofDigitChars_padded]
    rw [value, value, hdigits, show d.exponent = e.exponent by omega]
  · rw [value_of_nonneg (by omega), value_of_nonneg (by omega), h]

end Decimal

theorem toList_finiteText (x : Float32) :
    (finiteText x).toList =
      (if (decode x).negative then ['-'] else []) ++ (shortest (decode x)).text.toList := by
  rw [finiteText, String.toList_append]
  split <;> rfl

theorem notMem_finiteText (x : Float32) {c : Char} (hdigit : c.isDigit = false) (hpoint : c ≠ '.')
    (hminus : c ≠ '-') : c ∉ (finiteText x).toList := by
  intro hc
  rw [toList_finiteText, List.mem_append] at hc
  obtain hsign | htext := hc
  · split at hsign
    · exact hminus (List.mem_singleton.1 hsign)
    · cases hsign
  · exact Decimal.notMem_text hdigit hpoint htext

theorem minus_mem_finiteText_iff {x : Float32} :
    '-' ∈ (finiteText x).toList ↔ (decode x).negative = true := by
  have htext : '-' ∉ (shortest (decode x)).text.toList :=
    Decimal.notMem_text rfl (by decide)
  rw [toList_finiteText, List.mem_append]
  cases (decode x).negative <;> simp [htext]

/-- Finite numbers with the same text are the same, zeros of different sign included. -/
theorem finiteText_injective {x y : Float32} (hx : exponentField x ≠ 255)
    (hy : exponentField y ≠ 255) (h : finiteText x = finiteText y) : x = y := by
  have hsign : (decode x).negative = (decode y).negative := by
    rw [Bool.eq_iff_iff, ← minus_mem_finiteText_iff, h, minus_mem_finiteText_iff]
  have hchars := congrArg String.toList h
  rw [toList_finiteText, toList_finiteText] at hchars
  rw [hsign] at hchars
  have htext := String.toList_injective (List.append_cancel_left hchars)
  obtain ⟨hsignificand, hexponent⟩ := eq_of_shortest_value (canonical_decode hx)
    (canonical_decode hy) (Decimal.value_eq_of_text_eq htext)
  apply decode_injective
  cases hdx : decode x
  cases hdy : decode y
  simp_all

end ShaderAssembly.Binary32
