import ShaderAssembly.Proofs.Rendering.Literal

namespace ShaderAssembly.LiteralStyle

/-- A parenthesis is at the front of a scalar, if there is one. -/
private theorem paren_notMem_tail_text_floatExpression (x : Float32) :
    '(' ∉ (floatExpression.text x).toList.tail := by
  by_cases hfield : Binary32.exponentField x = 255
  · obtain rfl | rfl | rfl := Binary32.eq_of_exponentField hfield
    · decide
    · decide
    · decide
  · intro hparen
    exact hfield (paren_mem_text_floatExpression_iff.1 (List.mem_of_mem_tail hparen))

/-- A call has its parenthesis behind the width, so it is not a scalar. -/
private theorem paren_mem_tail_call (constructorName : String) (width : Nat) (args : String) :
    '(' ∈ (constructorName ++ toString width ++ "(" ++ args ++ ")").toList.tail := by
  have hname : (constructorName ++ toString width).toList ≠ [] := by simp
  rw [String.append_assoc, String.append_assoc, String.toList_append,
    List.tail_append_of_ne_nil hname]
  simp

/-- A list is written as a scalar when it is spread from its first component. -/
theorem expression_floatExpression_eq_text_iff {constructorName : String} {a x : Float32}
    {rest : List Float32} :
    floatExpression.expression constructorName a rest = floatExpression.text x ↔
      x = a ∧ ∀ y ∈ a :: rest, floatExpression.same y a = true := by
  unfold expression
  split
  next hspread =>
    rw [List.all_eq_true] at hspread
    constructor
    · intro htext
      exact ⟨(text_floatExpression_injective htext).symm, hspread⟩
    · rintro ⟨rfl, _⟩
      rfl
  next hspread =>
    constructor
    · intro htext
      exact absurd (htext ▸ paren_mem_tail_call _ _ _) (paren_notMem_tail_text_floatExpression x)
    · rintro ⟨_, hsame⟩
      exact absurd (List.all_eq_true.2 hsame) hspread

/-- Zeros of both signs and nothing else. -/
structure MixedZeros (xs : List Float32) : Prop where
  positive_mem : 0 ∈ xs
  negative_mem : -0 ∈ xs
  isZero : ∀ x ∈ xs, Binary32.IsZero x

/-- A list is spread from its first component when all are that one or zeros of both signs. -/
theorem forall_same_floatExpression_iff {a : Float32} {rest : List Float32} :
    (∀ y ∈ a :: rest, floatExpression.same y a = true) ↔
      (∀ y ∈ a :: rest, y = a) ∨ MixedZeros (a :: rest) := by
  have ha : a ∈ a :: rest := List.mem_cons_self
  simp only [same_floatExpression_iff]
  constructor
  · intro hsame
    by_contra! hneither
    obtain ⟨⟨y, hy, hne⟩, hmixed⟩ := hneither
    obtain ⟨hyzero, hazero⟩ := (hsame y hy).resolve_left hne
    have hzeros : ∀ z ∈ a :: rest, Binary32.IsZero z := by
      intro z hz
      obtain rfl | ⟨hzzero, _⟩ := hsame z hz
      · exact hazero
      · exact hzzero
    -- two zeros that differ are the two signs
    obtain rfl | rfl := hyzero
    · obtain rfl | rfl := hazero
      · exact hne rfl
      · exact hmixed ⟨hy, ha, hzeros⟩
    · obtain rfl | rfl := hazero
      · exact hmixed ⟨ha, hy, hzeros⟩
      · exact hne rfl
  · rintro (hall | hmixed) y hy
    · exact .inl (hall y hy)
    · exact .inr ⟨hmixed.isZero y hy, hmixed.isZero a ha⟩

variable {constructorName : String} {width : Nat} {v : Vec4 Float32}

/-- A scalar that stands for selected components is the text of each one, unless they are zeros of
both signs. -/
theorem scalar_text_iff (hpos : 1 ≤ width) (hle : width ≤ 4) :
    (∀ x, floatExpression.collapse constructorName width v = .ok (floatExpression.text x) →
      ∀ y ∈ v.toList.take width, floatExpression.text y = floatExpression.text x) ↔
      ¬ MixedZeros (v.toList.take width) := by
  obtain ⟨a, rest, hselected, _, hliteral⟩ :=
    exists_collapse_eq floatExpression constructorName v hpos hle
  have hscalar : ∀ x, floatExpression.collapse constructorName width v =
      .ok (floatExpression.text x) ↔ x = a ∧ ∀ y ∈ a :: rest, floatExpression.same y a = true := by
    intro x
    rw [hliteral, Except.ok.injEq]
    exact expression_floatExpression_eq_text_iff
  rw [hselected]
  constructor
  · intro htext hzeros
    have heq : ∀ y ∈ a :: rest, y = a := fun y hy => text_floatExpression_injective
      (htext a ((hscalar a).2 ⟨rfl, forall_same_floatExpression_iff.2 (.inr hzeros)⟩) y hy)
    have hboth : (0 : Float32) = -0 :=
      (heq 0 hzeros.positive_mem).trans (heq (-0) hzeros.negative_mem).symm
    exact absurd hboth (by decide)
  · intro hzeros x hcollapse y hy
    obtain ⟨rfl, hsame⟩ := (hscalar x).1 hcollapse
    obtain heq | hmixed := forall_same_floatExpression_iff.1 hsame
    · rw [heq y hy]
    · exact absurd hmixed hzeros

theorem scalar_text_iff_nan :
    let v : Vec4 Float32 := ⟨Float32.nan, Float32.nan, 0, -0⟩
    floatExpression.collapse "float" 2 v = .ok "(0.0 / 0.0)" ∧ ¬ MixedZeros (v.toList.take 2) ∧
      ∀ x, floatExpression.collapse "float" 2 v = .ok (floatExpression.text x) →
        ∀ y ∈ v.toList.take 2, floatExpression.text y = floatExpression.text x := by
  intro v
  have hzeros : ¬ MixedZeros (v.toList.take 2) := by
    intro hzeros
    obtain hnan | hnan := hzeros.isZero Float32.nan List.mem_cons_self
    · exact absurd hnan (by decide)
    · exact absurd hnan (by decide)
  exact ⟨by decide +kernel, hzeros, (scalar_text_iff (by decide) (by decide)).2 hzeros⟩

/-- Zeros of both signs are written as the first one of them, which is not the text of the other. -/
theorem zeros_written_as_first :
    floatExpression.collapse "float" 2 ⟨0, -0, 0, 0⟩ = .ok (floatExpression.text 0) ∧
      floatExpression.collapse "float" 2 ⟨-0, 0, 0, 0⟩ = .ok (floatExpression.text (-0)) ∧
      floatExpression.text 0 = "0" ∧ floatExpression.text (-0) = "-0" :=
  ⟨by decide +kernel, by decide +kernel, by decide +kernel, by decide +kernel⟩

end ShaderAssembly.LiteralStyle
