import ShaderAssembly.Declaration
import ShaderAssembly.Proofs.Rendering.PositionalName

namespace ShaderAssembly

private theorem toUpper_toLower_of_isDigit {c : Char} (h : c.isDigit = true) :
    c.toLower.toUpper = c := by
  simp only [Char.isDigit, Bool.and_eq_true, decide_eq_true_eq] at h
  unfold Char.toLower Char.toUpper
  grind

namespace Usage

variable {u v : Usage} {base : String}

private theorem digitless_of_semantic? (h : u.semantic? = some base) : Digitless base := by
  cases u <;> cases h <;> decide

/-- Semantics are in capitals. -/
private theorem toUpper_toLower_of_semantic? (h : u.semantic? = some base) :
    ∀ c ∈ base.toList, c.toLower.toUpper = c := by
  have hall : base.toList.all (fun c => c.toLower.toUpper == c) = true := by
    cases u <;> cases h <;> decide
  intro c hc
  exact eq_of_beq (List.all_eq_true.1 hall c hc)

/-- No semantic starts with the letter of the positional names of outputs. -/
private theorem exists_head_of_semantic? (h : u.semantic? = some base) :
    ∃ c, base.toList.head? = some c ∧ c.toLower ≠ 'o' := by
  have hhead : base.toList.head?.any (·.toLower != 'o') = true := by
    cases u <;> cases h <;> decide
  obtain ⟨c, hc, hne⟩ := (Option.any_eq_true _ _).1 hhead
  exact ⟨c, hc, bne_iff_ne.1 hne⟩

theorem eq_of_semantic? (hu : u.semantic? = some base) (hv : v.semantic? = some base) :
    u = v := by
  cases u <;> cases hu <;> cases v <;> simp_all [semantic?]

end Usage

namespace Semantic

variable {s t : Semantic}

/-- The number at the end of the text. -/
def number? (s : Semantic) : Option Nat := if s.index = 0 then none else some s.index

theorem text_eq (s : Semantic) : s.text = s.base ++ numeral s.number? := by
  unfold text number?
  split <;> simp [numeral]

/-- The semantic is one that a usage can declare. -/
def OfUsage (s : Semantic) : Prop := ∃ u : Usage, u.semantic? = some s.base

theorem text_inj (hs : s.OfUsage) (ht : t.OfUsage) : s.text = t.text ↔ s = t := by
  obtain ⟨u, hu⟩ := hs
  obtain ⟨v, hv⟩ := ht
  rw [text_eq, text_eq, append_numeral_inj (Usage.digitless_of_semantic? hu)
    (Usage.digitless_of_semantic? hv)]
  obtain ⟨base, m⟩ := s
  obtain ⟨base', n⟩ := t
  by_cases hm : m = 0 <;> by_cases hn : n = 0 <;> simp [number?, hm, hn, eq_comm]

/-- The text of a semantic is its variable name in capitals. So nothing is lost with the case. -/
theorem map_toUpper_variableName (hs : s.OfUsage) :
    s.variableName.toList.map Char.toUpper = s.text.toList := by
  obtain ⟨u, hu⟩ := hs
  have hupper : ∀ c ∈ s.text.toList, c.toLower.toUpper = c := by
    intro c hc
    rw [text_eq, String.toList_append, List.mem_append] at hc
    obtain hbase | hnumeral := hc
    · exact Usage.toUpper_toLower_of_semantic? hu c hbase
    · exact toUpper_toLower_of_isDigit (isDigit_of_mem_numeral hnumeral)
  rw [variableName, String.toList_ofList, List.map_map]
  exact (List.map_congr_left hupper).trans (List.map_id _)

theorem variableName_inj (hs : s.OfUsage) (ht : t.OfUsage) :
    s.variableName = t.variableName ↔ s = t := by
  constructor
  · intro h
    apply (text_inj hs ht).1
    apply String.toList_injective
    rw [← map_toUpper_variableName hs, h, map_toUpper_variableName ht]
  · rintro rfl
    rfl

/-- A variable that stands for a semantic is not named as one that stands for a position. -/
theorem variableName_ne_positionalName (hs : s.OfUsage) {r : Register}
    (hr : r.kind.isOutput = true) : s.variableName ≠ r.positionalName := by
  intro h
  obtain ⟨u, hu⟩ := hs
  obtain ⟨c, hc, hne⟩ := Usage.exists_head_of_semantic? hu
  have hhead := Register.head?_positionalName hr
  rw [← h, variableName, String.toList_ofList, List.head?_map, text_eq, String.toList_append,
    List.head?_append, hc] at hhead
  exact hne (Option.some_inj.1 hhead)

end Semantic

namespace Declaration

variable {d e : Declaration}

/-- Declarations of outputs whose semantics are ones of usages have the same name when they have the
same semantic. -/
theorem name_eq_iff (hd : d.register.kind.isOutput = true) (he : e.register.kind.isOutput = true)
    (hne : d.register ≠ e.register) (hds : ∀ s, d.semantic = some s → s.OfUsage)
    (hes : ∀ s, e.semantic = some s → s.OfUsage) :
    d.name = e.name ↔ ∃ s, d.semantic = some s ∧ e.semantic = some s := by
  unfold name
  cases hs : d.semantic with
  | none =>
    cases ht : e.semantic with
    | none => simpa using mt (Register.eq_of_positionalName hd he) hne
    | some t => simpa using (Semantic.variableName_ne_positionalName (hes t ht) hd).symm
  | some s =>
    cases ht : e.semantic with
    | none => simpa using Semantic.variableName_ne_positionalName (hds s hs) he
    | some t => simpa [eq_comm] using Semantic.variableName_inj (hds s hs) (hes t ht)

end Declaration

end ShaderAssembly
