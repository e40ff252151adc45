import ShaderAssembly.Proofs.Binary32.Text
import ShaderAssembly.Rendering.Literal

namespace ShaderAssembly.LiteralStyle

variable {α : Type} {style : LiteralStyle α} {P : α → Prop}

/-- The expression for a list of components whose first one is `a`. -/
def expression (style : LiteralStyle α) (constructorName : String) (a : α) (rest : List α) :
    String :=
  if (a :: rest).all (style.same · a) then style.text a
  else constructorName ++ toString (rest.length + 1) ++
    "(" ++ ", ".intercalate ((a :: rest).map style.text) ++ ")"

private theorem length_take_toList (v : Vec4 α) {width : Nat} (hwidth : width ≤ 4) :
    (v.toList.take width).length = width := by
  rw [List.length_take]
  exact Nat.min_eq_left hwidth

theorem collapse_eq (style : LiteralStyle α) (constructorName : String) {v : Vec4 α} {width : Nat}
    {a : α} {rest : List α} (hselected : v.toList.take width = a :: rest) (hwidth : width ≤ 4) :
    style.collapse constructorName width v = .ok (style.expression constructorName a rest) := by
  have hlength : width = rest.length + 1 := by
    rw [← length_take_toList v hwidth, hselected, List.length_cons]
  have hfirst : v.x = a := by
    subst hlength
    injection hselected
  unfold collapse expression
  rw [if_pos ⟨by omega, hwidth⟩, ← hlength]
  simp only [hselected, hfirst]
  split <;> rfl

/-- One to four components have a literal, which is the expression for them. -/
theorem exists_collapse_eq (style : LiteralStyle α) (constructorName : String) (v : Vec4 α)
    {width : Nat} (hpos : 1 ≤ width) (hle : width ≤ 4) :
    ∃ a rest, v.toList.take width = a :: rest ∧ rest.length + 1 = width ∧
      style.collapse constructorName width v = .ok (style.expression constructorName a rest) := by
  have hlength := length_take_toList v hle
  obtain ⟨a, rest, hselected⟩ := List.exists_cons_of_length_pos (hlength ▸ hpos)
  rw [hselected, List.length_cons] at hlength
  exact ⟨a, rest, hselected, hlength, collapse_eq style constructorName hselected hle⟩

/-- The style tells the components of `P` apart, by comparison and by text, and their texts have
none of the punctuation of a constructor call. -/
structure Faithful (style : LiteralStyle α) (P : α → Prop) : Prop where
  same_iff : ∀ {a b : α}, P a → P b → (style.same a b = true ↔ a = b)
  text_injective : ∀ {a b : α}, P a → P b → style.text a = style.text b → a = b
  comma_notMem : ∀ {a : α}, P a → ',' ∉ (style.text a).toList
  paren_notMem : ∀ {a : α}, P a → '(' ∉ (style.text a).toList

private theorem intercalate_injective {xs ys : List String} (hxs : ∀ x ∈ xs, ',' ∉ x.toList)
    (hys : ∀ y ∈ ys, ',' ∉ y.toList) (hlength : xs.length = ys.length)
    (h : ", ".intercalate xs = ", ".intercalate ys) : xs = ys := by
  induction xs generalizing ys with
  | nil => exact (List.eq_nil_of_length_eq_zero hlength.symm).symm
  | cons x xs ih =>
    obtain _ | ⟨y, ys⟩ := ys
    · cases hlength
    · have hrest : xs.length = ys.length := by simpa using hlength
      obtain _ | ⟨x', xs⟩ := xs
      · obtain rfl := List.eq_nil_of_length_eq_zero hrest.symm
        simpa using h
      · obtain _ | ⟨y', ys⟩ := ys
        · cases hrest
        · rw [String.intercalate_cons_cons, String.intercalate_cons_cons] at h
          have hchars := congrArg String.toList h
          simp only [String.toList_append, List.append_assoc] at hchars
          obtain ⟨hhead, htail⟩ := Binary32.append_cons_inj (hxs x List.mem_cons_self)
            (hys y List.mem_cons_self) hchars
          have hih := ih (fun z hz => hxs z (List.mem_cons_of_mem x hz))
            (fun z hz => hys z (List.mem_cons_of_mem y hz)) hrest
            (String.toList_injective (List.tail_eq_of_cons_eq htail))
          rw [String.toList_injective hhead, hih]

namespace Faithful

private theorem map_text_injective (h : style.Faithful P) {xs ys : List α} (hxs : ∀ x ∈ xs, P x)
    (hys : ∀ y ∈ ys, P y) (heq : xs.map style.text = ys.map style.text) : xs = ys := by
  induction xs generalizing ys with
  | nil => exact (List.map_eq_nil_iff.1 heq.symm).symm
  | cons x xs ih =>
    cases ys with
    | nil => cases heq
    | cons y ys =>
      obtain ⟨hhead, htail⟩ := List.cons_eq_cons.1 heq
      rw [h.text_injective (hxs x List.mem_cons_self) (hys y List.mem_cons_self) hhead,
        ih (fun z hz => hxs z (List.mem_cons_of_mem x hz))
          (fun z hz => hys z (List.mem_cons_of_mem y hz)) htail]

/-- A list is spread from one text when it repeats its first component. -/
theorem all_same_iff (h : style.Faithful P) {a : α} {rest : List α} (hP : ∀ x ∈ a :: rest, P x) :
    (a :: rest).all (style.same · a) = true ↔ a :: rest = List.replicate (rest.length + 1) a := by
  have ha := hP a List.mem_cons_self
  rw [List.all_eq_true, List.eq_replicate_iff]
  constructor
  · intro hall
    exact ⟨rfl, fun x hx => (h.same_iff (hP x hx) ha).1 (hall x hx)⟩
  · rintro ⟨_, hall⟩ x hx
    exact (h.same_iff (hP x hx) ha).2 (hall x hx)

/-- Lists of one length with the same expression are the same. -/
theorem expression_injective (h : style.Faithful P) {constructorName : String} {a b : α}
    {as bs : List α} (has : ∀ x ∈ a :: as, P x) (hbs : ∀ x ∈ b :: bs, P x)
    (hlength : as.length = bs.length)
    (heq : style.expression constructorName a as = style.expression constructorName b bs) :
    a :: as = b :: bs := by
  have ha := has a List.mem_cons_self
  have hb := hbs b List.mem_cons_self
  unfold expression at heq
  split at heq
  next hspread =>
    split at heq
    next hspread' =>
      rw [(h.all_same_iff has).1 hspread, (h.all_same_iff hbs).1 hspread',
        h.text_injective ha hb heq, hlength]
    next =>
      exact absurd (by rw [heq]; simp) (h.paren_notMem ha)
  next =>
    split at heq
    next =>
      exact absurd (by rw [← heq]; simp) (h.paren_notMem hb)
    next =>
      rw [hlength] at heq
      have hcall : ", ".intercalate ((a :: as).map style.text) =
          ", ".intercalate ((b :: bs).map style.text) := by
        simpa [← String.toList_inj] using heq
      have hcomma : ∀ {c : α} {cs : List α}, (∀ x ∈ c :: cs, P x) →
          ∀ t ∈ (c :: cs).map style.text, ',' ∉ t.toList := by
        intro c cs hcs t ht
        obtain ⟨x, hx, rfl⟩ := List.mem_map.1 ht
        exact h.comma_notMem (hcs x hx)
      apply h.map_text_injective has hbs
      exact intercalate_injective (hcomma has) (hcomma hbs) (by simpa using hlength) hcall

end Faithful

/-- The comparison of float literals takes the two zeros for one number, and no others. -/
theorem same_floatExpression_iff {x y : Float32} :
    floatExpression.same x y = true ↔ x = y ∨ Binary32.IsZero x ∧ Binary32.IsZero y := by
  simp only [floatExpression, Bool.or_eq_true, Bool.and_eq_true, Binary32.isNaN_iff,
    Float32.beq_iff_ne_nan_and_eq]
  constructor
  · rintro (⟨_, _, rfl | ⟨hx, hy⟩ | ⟨hx, hy⟩⟩ | ⟨rfl, rfl⟩)
    · exact .inl rfl
    · exact .inr ⟨.inl hx, .inr hy⟩
    · exact .inr ⟨.inr hx, .inl hy⟩
    · exact .inl rfl
  · rintro (rfl | ⟨rfl | rfl, rfl | rfl⟩)
    · by_cases hnan : x = Float32.nan
      · exact .inr ⟨hnan, hnan⟩
      · exact .inl ⟨hnan, hnan, .inl rfl⟩
    all_goals decide

theorem text_floatExpression {x : Float32} (hfield : Binary32.exponentField x ≠ 255) :
    floatExpression.text x = Binary32.finiteText x := by
  have hnan : Binary32.isNaN x = false := by
    rw [← Bool.not_eq_true, Binary32.isNaN_iff]
    rintro rfl
    exact hfield (by decide)
  have hpositive : (x == Binary32.positiveInfinity) = false :=
    Binary32.beq_eq_false_of_exponentField hfield (by decide)
  have hnegative : (x == Binary32.negativeInfinity) = false :=
    Binary32.beq_eq_false_of_exponentField hfield (by decide)
  simp [floatExpression, hnan, hpositive, hnegative]

/-- A component with a division for its text is the one with parentheses. -/
theorem paren_mem_text_floatExpression_iff {x : Float32} :
    '(' ∈ (floatExpression.text x).toList ↔ Binary32.exponentField x = 255 := by
  constructor
  · intro hparen
    by_contra hfield
    rw [text_floatExpression hfield] at hparen
    exact Binary32.notMem_finiteText x rfl (by decide) (by decide) hparen
  · intro hfield
    obtain rfl | rfl | rfl := Binary32.eq_of_exponentField hfield
    · decide
    · decide
    · decide

/-- Floats with the same text are the same. -/
theorem text_floatExpression_injective {x y : Float32}
    (h : floatExpression.text x = floatExpression.text y) : x = y := by
  have hfields : Binary32.exponentField x = 255 ↔ Binary32.exponentField y = 255 := by
    rw [← paren_mem_text_floatExpression_iff, h, paren_mem_text_floatExpression_iff]
  by_cases hx : Binary32.exponentField x = 255
  · obtain rfl | rfl | rfl := Binary32.eq_of_exponentField hx <;>
      obtain rfl | rfl | rfl := Binary32.eq_of_exponentField (hfields.1 hx) <;>
      first | rfl | exact absurd h (by decide)
  · have hy : Binary32.exponentField y ≠ 255 := fun hy => hx (hfields.2 hy)
    rw [text_floatExpression hx, text_floatExpression hy] at h
    exact Binary32.finiteText_injective hx hy h

/-- Finite numbers are told apart by their literals, the two zeros apart, which are the same by
comparison. -/
theorem faithful_floatExpression : floatExpression.Faithful Binary32.FiniteNonzero := by
  have hfield : ∀ {x : Float32}, Binary32.FiniteNonzero x → Binary32.exponentField x ≠ 255 :=
    fun hx => Binary32.exponentField_ne_of_isFinite hx.1
  refine ⟨?_, ?_, ?_, ?_⟩
  · rintro x y ⟨_, hzero⟩ _
    rw [same_floatExpression_iff]
    refine ⟨?_, .inl⟩
    rintro (rfl | ⟨rfl | rfl, _⟩)
    · rfl
    · exact absurd hzero (by decide)
    · exact absurd hzero (by decide)
  · intro x y _ _ heq
    exact text_floatExpression_injective heq
  · intro x hx
    rw [text_floatExpression (hfield hx)]
    exact Binary32.notMem_finiteText x rfl (by decide) (by decide)
  · intro x hx hparen
    exact hfield hx (paren_mem_text_floatExpression_iff.1 hparen)

end ShaderAssembly.LiteralStyle
