import ShaderAssembly.Register

namespace ShaderAssembly

/-- A number at the end of a name, which need not be there. -/
def numeral : Option Nat → String
  | none => ""
  | some n => toString n

/-- A text without digits. The test is a Boolean one, so that it is decided from the text and not
from all characters. -/
def Digitless (s : String) : Prop := s.toList.all (!·.isDigit) = true

instance (s : String) : Decidable (Digitless s) := inferInstanceAs (Decidable (_ = true))

theorem isDigit_of_mem_numeral {n : Option Nat} {c : Char} (hc : c ∈ (numeral n).toList) :
    c.isDigit = true := by
  cases n with
  | none => cases hc
  | some n =>
    rw [numeral, Nat.toString_eq_ofList_toDigits, String.toList_ofList] at hc
    exact Nat.isDigit_of_mem_toDigits (by omega) (by omega) hc

theorem numeral_injective : Function.Injective numeral := by
  intro m n h
  cases m with
  | none =>
    cases n with
    | none => rfl
    | some n => exact absurd h.symm Nat.repr_ne_empty
  | some m =>
    cases n with
    | none => exact absurd h Nat.repr_ne_empty
    | some n =>
      have hdigits : Nat.toDigits 10 m = Nat.toDigits 10 n := by
        rwa [numeral, numeral, Nat.toString_eq_ofList_toDigits, Nat.toString_eq_ofList_toDigits,
          String.ofList_inj] at h
      congr 1
      calc
        m = Nat.ofDigitChars 10 (Nat.toDigits 10 m) 0 := Nat.ofDigitChars_ten_toDigits.symm
        _ = Nat.ofDigitChars 10 (Nat.toDigits 10 n) 0 := by rw [hdigits]
        _ = n := Nat.ofDigitChars_ten_toDigits

/-- The letters of a name are what is left of it without its digits. -/
private theorem filter_append_numeral {s : String} (hs : Digitless s) (n : Option Nat) :
    (s ++ numeral n).toList.filter (!·.isDigit) = s.toList := by
  have hletters : s.toList.filter (!·.isDigit) = s.toList :=
    List.filter_eq_self.2 (List.all_eq_true.1 hs)
  have hdigits : (numeral n).toList.filter (!·.isDigit) = [] := by
    rw [List.filter_eq_nil_iff]
    intro c hc
    simp [isDigit_of_mem_numeral hc]
  rw [String.toList_append, List.filter_append, hletters, hdigits, List.append_nil]

/-- Names that end in a number are the same when their letters and their numbers are. -/
theorem append_numeral_inj {s t : String} {m n : Option Nat} (hs : Digitless s)
    (ht : Digitless t) : s ++ numeral m = t ++ numeral n ↔ s = t ∧ m = n := by
  constructor
  · intro h
    have hst : s = t := by
      apply String.toList_injective
      rw [← filter_append_numeral hs m, h, filter_append_numeral ht n]
    subst hst
    exact ⟨rfl, numeral_injective ((String.append_right_inj s).1 h)⟩
  · rintro ⟨rfl, rfl⟩
    rfl

/-- The number of the first register of a float file, in the row that the four float files share. -/
def RegisterKind.floatBase? : RegisterKind → Option Nat
  | .const => some 0
  | .const2 => some 2048
  | .const3 => some 4096
  | .const4 => some 6144
  | _ => none

/-- The kinds that have letters of their own. The three further float files share those of the
first. -/
def RegisterKind.lettered : List RegisterKind :=
  [.temp, .input, .const, .address, .texture, .rastOut, .attrOut, .output, .constInt, .colorOut,
    .depthOut, .sampler, .constBool, .loop, .tempFloat16, .misc, .label, .predicate]

namespace Register

/-- The letters and the number of the positional name. -/
def nameParts (r : Register) : String × Option Nat :=
  let n := r.number.toNat
  match r.kind, n with
  | .rastOut, 0 => ("oPos", none)
  | .rastOut, 1 => ("oFog", none)
  | .rastOut, 2 => ("oPts", none)
  | .depthOut, 0 => ("oDepth", none)
  | .loop, 0 => ("aL", none)
  | .misc, 0 => ("vFace", none)
  | .misc, 1 => ("vPos", none)
  | .const2, _ => ("c", some (r.number + 2048).toNat)
  | .const3, _ => ("c", some (r.number + 4096).toNat)
  | .const4, _ => ("c", some (r.number + 6144).toNat)
  | kind, _ => (kind.stem, some n)

theorem positionalName_eq (r : Register) :
    r.positionalName = r.nameParts.1 ++ numeral r.nameParts.2 := by
  unfold positionalName nameParts
  simp only
  split <;> simp only [numeral, String.append_empty, *]

theorem digitless_nameParts (r : Register) : Digitless r.nameParts.1 := by
  have hstem (kind : RegisterKind) : Digitless kind.stem := by
    cases kind <;> simp only [RegisterKind.stem] <;> decide
  unfold nameParts
  simp only
  split
  case h_11 => exact hstem r.kind
  all_goals
    simp only
    decide

/-- The positional name of a register has the same letters and the same number as no other one. -/
theorem positionalName_eq_iff {r q : Register} :
    r.positionalName = q.positionalName ↔ r.nameParts = q.nameParts := by
  rw [positionalName_eq, positionalName_eq, append_numeral_inj r.digitless_nameParts
    q.digitless_nameParts, Prod.ext_iff]

/-- The place of a float constant in the row of the four float files. -/
def linearIndex? (r : Register) : Option Nat := r.kind.floatBase?.map (· + r.number.toNat)

/-- The place of the register, if it has one, is a 32-bit number. -/
def InRow (r : Register) : Prop := ∀ k ∈ r.linearIndex?, k < 0x100000000

instance (r : Register) : Decidable r.InRow := inferInstanceAs (Decidable (∀ k ∈ _, _))

/-- The registers whose names have no number. -/
def numberless : List Register :=
  [⟨.rastOut, 0⟩, ⟨.rastOut, 1⟩, ⟨.rastOut, 2⟩, ⟨.depthOut, 0⟩, ⟨.loop, 0⟩, ⟨.misc, 0⟩, ⟨.misc, 1⟩]

/-- The register of the first float file at the same place of the row, if the register has one. -/
def representative (r : Register) : Register :=
  match r.linearIndex? with
  | some k => ⟨.const, UInt32.ofNat k⟩
  | none => r

/-- The register with a name of these parts. It is one of the first file if it is a float
constant. -/
def ofNameParts? : String × Option Nat → Option Register
  | (letters, none) => numberless.find? (·.positionalName == letters)
  | (letters, some n) =>
    (RegisterKind.lettered.find? (·.stem == letters)).map (⟨·, UInt32.ofNat n⟩)

theorem nameParts_of_linearIndex? {r : Register} {k : Nat} (hrow : r.InRow)
    (hplace : r.linearIndex? = some k) : r.nameParts = ("c", some k) := by
  have hlt := hrow k hplace
  obtain ⟨kind, n⟩ := r
  cases kind <;> simp only [linearIndex?, RegisterKind.floatBase?, Option.map_some, Option.map_none,
    Option.some.injEq, reduceCtorEq] at hplace
  case const => simp [nameParts, RegisterKind.stem, ← hplace]
  all_goals
    simp only [nameParts, UInt32.toNat_add, UInt32.reduceToNat, Prod.mk.injEq, Option.some.injEq,
      true_and]
    omega

/-- Any other register has the letters of its file and its number, if the name has one. -/
private theorem nameParts_of_notMem {r : Register} (hplace : r.linearIndex? = none)
    (hnumber : r ∉ numberless) : r.nameParts = (r.kind.stem, some r.number.toNat) := by
  obtain ⟨kind, n⟩ := r
  unfold nameParts
  simp only
  split
  all_goals simp_all [numberless, ← UInt32.toNat_inj, linearIndex?, RegisterKind.floatBase?]

private theorem mem_lettered {kind : RegisterKind} (hkind : ∀ code, kind ≠ .unknown code)
    (hbase : kind.floatBase? = none) : kind ∈ RegisterKind.lettered := by
  cases kind
  case unknown code => exact absurd rfl (hkind code)
  all_goals first | decide | cases hbase

theorem ofNameParts?_stem {kind : RegisterKind} (hkind : kind ∈ RegisterKind.lettered)
    (n : UInt32) : ofNameParts? (kind.stem, some n.toNat) = some ⟨kind, n⟩ := by
  have hfind : ∀ k ∈ RegisterKind.lettered,
      RegisterKind.lettered.find? (·.stem == k.stem) = some k := by decide
  simp [ofNameParts?, hfind kind hkind]

theorem representative_of_linearIndex?_eq_none {r : Register} (h : r.linearIndex? = none) :
    r.representative = r := by
  rw [representative, h]

theorem exists_representative_eq {r : Register} {k : Nat} (hrow : r.InRow)
    (hplace : r.linearIndex? = some k) :
    ∃ n : UInt32, n.toNat = k ∧ r.representative = ⟨.const, n⟩ := by
  refine ⟨UInt32.ofNat k, UInt32.toNat_ofNat_of_lt' (hrow k hplace), ?_⟩
  rw [representative, hplace]

theorem nameParts_representative {r : Register} (hrow : r.InRow) :
    r.representative.nameParts = r.nameParts := by
  cases hplace : r.linearIndex? with
  | none => rw [representative_of_linearIndex?_eq_none hplace]
  | some k =>
    obtain ⟨n, rfl, hfirst⟩ := exists_representative_eq hrow hplace
    rw [nameParts_of_linearIndex? hrow hplace, hfirst]
    rfl

theorem linearIndex?_representative {r : Register} (hrow : r.InRow) :
    r.representative.linearIndex? = r.linearIndex? := by
  cases hplace : r.linearIndex? with
  | none => rw [representative_of_linearIndex?_eq_none hplace, hplace]
  | some k =>
    obtain ⟨n, rfl, hfirst⟩ := exists_representative_eq hrow hplace
    rw [hfirst]
    simp [linearIndex?, RegisterKind.floatBase?]

/-- A name gives back the register or, for a float constant, the one that stands for its place. -/
theorem ofNameParts?_nameParts {r : Register} (hkind : ∀ code, r.kind ≠ .unknown code)
    (hrow : r.InRow) : ofNameParts? r.nameParts = some r.representative := by
  cases hplace : r.linearIndex? with
  | some k =>
    obtain ⟨n, rfl, hfirst⟩ := exists_representative_eq hrow hplace
    rw [nameParts_of_linearIndex? hrow hplace, hfirst]
    exact @ofNameParts?_stem .const (by decide) n
  | none =>
    rw [representative_of_linearIndex?_eq_none hplace]
    by_cases hnumberless : r ∈ numberless
    · have hfixed : ∀ q ∈ numberless, ofNameParts? q.nameParts = some q := by decide
      exact hfixed r hnumberless
    · rw [nameParts_of_notMem hplace hnumberless]
      apply ofNameParts?_stem
      apply mem_lettered hkind
      simpa [linearIndex?] using hplace

theorem representative_eq_iff {r q : Register} (hr : r.InRow) (hq : q.InRow) :
    r.representative = q.representative ↔
      r = q ∨ ∃ k, r.linearIndex? = some k ∧ q.linearIndex? = some k := by
  constructor
  · intro h
    have hplaces : r.linearIndex? = q.linearIndex? := by
      rw [← linearIndex?_representative hr, h, linearIndex?_representative hq]
    cases hplace : q.linearIndex? with
    | none =>
      rw [hplace] at hplaces
      rw [representative_of_linearIndex?_eq_none hplaces,
        representative_of_linearIndex?_eq_none hplace] at h
      exact .inl h
    | some k =>
      rw [hplace] at hplaces
      exact .inr ⟨k, hplaces, rfl⟩
  · rintro (rfl | ⟨k, hrplace, hqplace⟩)
    · rfl
    · rw [representative, representative, hrplace, hqplace]

/-- Names are the same when they are names of the same register, up to the file of a float
constant. -/
theorem positionalName_eq_iff_representative {r q : Register}
    (hr : ∀ code, r.kind ≠ .unknown code) (hq : ∀ code, q.kind ≠ .unknown code)
    (hrrow : r.InRow) (hqrow : q.InRow) :
    r.positionalName = q.positionalName ↔ r.representative = q.representative := by
  rw [positionalName_eq_iff]
  constructor
  · intro h
    apply Option.some_inj.1
    rw [← ofNameParts?_nameParts hr hrrow, h, ofNameParts?_nameParts hq hqrow]
  · intro h
    rw [← nameParts_representative hrrow, h, nameParts_representative hqrow]

/-- Outputs have names that start with the same letter. -/
theorem head?_positionalName {r : Register} (hr : r.kind.isOutput = true) :
    r.positionalName.toList.head? = some 'o' := by
  obtain ⟨kind, n⟩ := r
  rw [positionalName_eq, String.toList_append]
  cases kind <;> cases hr
  case rastOut =>
    unfold nameParts
    simp only
    split <;> simp_all [RegisterKind.stem]
  all_goals simp [nameParts, RegisterKind.stem]

theorem eq_of_positionalName {r q : Register} (hr : r.kind.isOutput = true)
    (hq : q.kind.isOutput = true) (h : r.positionalName = q.positionalName) : r = q := by
  have hoff : ∀ {p : Register}, p.kind.isOutput = true →
      (∀ code, p.kind ≠ .unknown code) ∧ p.linearIndex? = none := by
    rintro ⟨kind, n⟩ hp
    cases kind <;> cases hp <;> simp [linearIndex?, RegisterKind.floatBase?]
  have hrow : ∀ {p : Register}, p.linearIndex? = none → p.InRow := by
    intro p hp
    simp [InRow, hp]
  obtain ⟨hrkind, hrplace⟩ := hoff hr
  obtain ⟨hqkind, hqplace⟩ := hoff hq
  have hsame := (positionalName_eq_iff_representative hrkind hqkind (hrow hrplace)
    (hrow hqplace)).1 h
  rwa [representative_of_linearIndex?_eq_none hrplace,
    representative_of_linearIndex?_eq_none hqplace] at hsame

/-- The positional names of two registers are the same when the registers are, or when they are
float constants at the same place of the row. -/
theorem positionalNames_agree_iff {r q : Register} (hr : ∀ code, r.kind ≠ .unknown code)
    (hq : ∀ code, q.kind ≠ .unknown code) (hrrow : r.InRow) (hqrow : q.InRow) :
    r.positionalName = q.positionalName ↔
      r = q ∨ ∃ k, r.linearIndex? = some k ∧ q.linearIndex? = some k :=
  (positionalName_eq_iff_representative hr hq hrrow hqrow).trans (representative_eq_iff hrrow hqrow)

theorem positionalNames_agree_iff_banks :
    let c : Register := ⟨.const3, 1⟩
    let c' : Register := ⟨.const2, 2049⟩
    let depth : Register := ⟨.depthOut, 0⟩
    let diffuse : Register := ⟨.attrOut, 0⟩
    (c.InRow ∧ c'.InRow ∧ c ≠ c' ∧ c.positionalName = c'.positionalName) ∧
      depth.InRow ∧ diffuse.InRow ∧ depth.positionalName ≠ diffuse.positionalName := by
  intro c c' depth diffuse
  have hfiles := @positionalNames_agree_iff c c' (by simp [c]) (by simp [c']) (by decide) (by decide)
  have houtputs := @positionalNames_agree_iff depth diffuse (by simp [depth]) (by simp [diffuse])
    (by decide) (by decide)
  refine ⟨⟨by decide, by decide, by decide, hfiles.2 (.inr ⟨4097, rfl, rfl⟩)⟩, by decide, by decide,
    fun h => ?_⟩
  obtain heq | ⟨k, hplace, _⟩ := houtputs.1 h
  · exact absurd heq (by decide)
  · cases hplace

end Register

end ShaderAssembly
