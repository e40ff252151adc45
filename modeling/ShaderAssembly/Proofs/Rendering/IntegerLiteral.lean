import ShaderAssembly.Proofs.Rendering.Literal

namespace ShaderAssembly.LiteralStyle

/-- The arguments of a call, if the text is one, without the blanks before them. -/
def arguments? (name text : String) : Option (List String) :=
  match (name ++ "(").toList.isPrefixOf? text.toList with
  | none => none
  | some rest =>
    if rest.getLast? = some ')' then
      some ((rest.dropLast.splitOn ',').map fun arg => String.ofList (arg.dropWhile (· == ' ')))
    else none

/-- The integers that a text stands for where `width` of them are wanted: a call of the constructor
lists them, and a decimal alone is spread over all of them. -/
def integers? (width : Nat) (text : String) : Option (List Int) :=
  match arguments? ("int" ++ toString width) text with
  | some args => if args.length = width then args.mapM String.toInt? else none
  | none => text.toInt?.map (List.replicate width)

private theorem dropWhile_blank {s : List Char} (hblank : ' ' ∉ s) :
    s.dropWhile (· == ' ') = s := by
  cases s with
  | nil => rfl
  | cons c s =>
    have hc : c ≠ ' ' := fun hc => hblank (hc ▸ List.mem_cons_self)
    simp [hc]

/-- Between two commas stands an argument with the blank before it. -/
private theorem toList_intercalate_args (arg : String) (args : List String) :
    (", ".intercalate (arg :: args)).toList =
      [','].intercalate (arg.toList :: args.map fun s => ' ' :: s.toList) := by
  induction args generalizing arg with
  | nil => simp
  | cons arg' args ih =>
    rw [String.intercalate_cons_cons, List.map_cons, List.intercalate_cons_cons,
      String.toList_append, String.toList_append, ih]
    cases args <;> simp

theorem arguments?_call {name arg : String} {args : List String}
    (hcomma : ∀ a ∈ arg :: args, ',' ∉ a.toList) (hblank : ∀ a ∈ arg :: args, ' ' ∉ a.toList) :
    arguments? name (name ++ "(" ++ ", ".intercalate (arg :: args) ++ ")") =
      some (arg :: args) := by
  have hprefix : (name ++ "(").toList.isPrefixOf?
      (name ++ "(" ++ ", ".intercalate (arg :: args) ++ ")").toList =
        some ((", ".intercalate (arg :: args)).toList ++ [')']) := by
    rw [List.isPrefixOf?_eq_some_iff_append_eq]
    simp
  have hsplit : (", ".intercalate (arg :: args)).toList.splitOn ',' =
      arg.toList :: args.map fun s => ' ' :: s.toList := by
    rw [toList_intercalate_args]
    apply List.splitOn_intercalate ',' _ (List.cons_ne_nil _ _)
    intro l hl
    obtain rfl | hl := List.mem_cons.1 hl
    · exact hcomma arg List.mem_cons_self
    · obtain ⟨s, hs, rfl⟩ := List.mem_map.1 hl
      simpa using hcomma s (List.mem_cons_of_mem arg hs)
  have htrim : ∀ s ∈ args, String.ofList (s.toList.dropWhile (· == ' ')) = s := by
    intro s hs
    rw [dropWhile_blank (hblank s (List.mem_cons_of_mem arg hs)), String.ofList_toList]
  rw [arguments?, hprefix]
  simp only [List.getLast?_append, List.getLast?_singleton, Option.some_or, if_true,
    List.dropLast_concat, hsplit, List.map_cons, List.map_map]
  rw [dropWhile_blank (hblank arg List.mem_cons_self), String.ofList_toList]
  congr 2
  exact (List.map_congr_left htrim).trans (List.map_id args)

theorem arguments?_eq_none {name text : String} (hparen : '(' ∉ text.toList) :
    arguments? name text = none := by
  cases hprefix : (name ++ "(").toList.isPrefixOf? text.toList with
  | none => rw [arguments?, hprefix]
  | some rest =>
    rw [List.isPrefixOf?_eq_some_iff_append_eq] at hprefix
    exact absurd (by rw [← hprefix]; simp) hparen

theorem text_integer (n : Int32) : integer.text n = n.toInt.repr :=
  Int.toString_eq_repr

theorem toInt?_text_integer (n : Int32) : (integer.text n).toInt? = some n.toInt := by
  rw [text_integer, Int.toInt?_repr]

theorem notMem_text_integer (n : Int32) {c : Char} (hdigit : c.isDigit = false) (hminus : c ≠ '-') :
    c ∉ (integer.text n).toList := by
  have hdigits : ∀ k : Nat, c ∉ k.repr.toList := by
    intro k hc
    rw [Nat.repr, String.toList_ofList] at hc
    have hdigit' := Nat.isDigit_of_mem_toDigits (by omega) (by omega) hc
    rw [hdigit] at hdigit'
    cases hdigit'
  rw [text_integer, Int.repr_eq_if]
  split
  next => exact hdigits _
  next =>
    intro hc
    obtain hsign | hmagnitude := List.mem_append.1 (String.toList_append ▸ hc)
    · exact hminus (List.mem_singleton.1 hsign)
    · exact hdigits _ hmagnitude

private theorem mapM_toInt?_text_integer (ns : List Int32) :
    (ns.map integer.text).mapM String.toInt? = some (ns.map Int32.toInt) := by
  induction ns with
  | nil => rfl
  | cons n ns ih => simp [toInt?_text_integer, ih]

/-- An expression for integers is read back as the integers. -/
theorem integers?_expression (n : Int32) (ns : List Int32) :
    integers? (ns.length + 1) (integer.expression "int" n ns) =
      some ((n :: ns).map Int32.toInt) := by
  unfold expression
  split
  next hspread =>
    have hsame : n :: ns = List.replicate (ns.length + 1) n := by
      rw [List.eq_replicate_iff]
      simpa [integer] using hspread
    rw [integers?, arguments?_eq_none (notMem_text_integer n rfl (by decide))]
    simp only [toInt?_text_integer, Option.map_some]
    rw [hsame, List.map_replicate]
  next =>
    have hpunctuation : ∀ {c : Char}, c.isDigit = false → c ≠ '-' →
        ∀ t ∈ (n :: ns).map integer.text, c ∉ t.toList := by
      intro c hdigit hminus t ht
      obtain ⟨k, _, rfl⟩ := List.mem_map.1 ht
      exact notMem_text_integer k hdigit hminus
    rw [integers?, List.map_cons, arguments?_call (hpunctuation rfl (by decide))
      (hpunctuation rfl (by decide)), ← List.map_cons]
    simp only [List.length_map, List.length_cons, if_true]
    exact mapM_toInt?_text_integer _

/-- Selected integers are read back from their literal, so the literals of two vectors are the same
where their selected components are. -/
theorem collapse_integer_eq_iff {width : Nat} (hpos : 1 ≤ width) (hle : width ≤ 4)
    (v w : Vec4 Int32) :
    (∃ text, integer.collapse "int" width v = .ok text ∧
      integers? width text = some ((v.toList.take width).map Int32.toInt)) ∧
    (integer.collapse "int" width v = integer.collapse "int" width w ↔
      v.toList.take width = w.toList.take width) := by
  have hread : ∀ u : Vec4 Int32, ∃ text, integer.collapse "int" width u = .ok text ∧
      integers? width text = some ((u.toList.take width).map Int32.toInt) := by
    intro u
    obtain ⟨n, ns, hselected, rfl, hcollapse⟩ := exists_collapse_eq integer "int" u hpos hle
    rw [hselected]
    exact ⟨_, hcollapse, integers?_expression n ns⟩
  refine ⟨hread v, ?_, ?_⟩
  · intro hcollapse
    obtain ⟨text, hv, hreadv⟩ := hread v
    obtain ⟨text', hw, hreadw⟩ := hread w
    have htext : text = text' := by
      rw [hv, hw] at hcollapse
      injection hcollapse
    rw [htext, hreadw] at hreadv
    injection hreadv with hints
    exact (List.map_injective_iff.2 fun _ _ => Int32.toInt_inj.1) hints.symm
  · intro hselected
    obtain ⟨n, ns, hv, _, hcollapse⟩ := exists_collapse_eq integer "int" v hpos hle
    rw [hcollapse, collapse_eq integer "int" (hselected ▸ hv) hle]

theorem collapse_integer_eq_iff_bounds :
    let v : Vec4 Int32 := ⟨-2147483648, -1, 2147483647, 0⟩
    let w : Vec4 Int32 := ⟨-2147483648, -1, 2147483647, 5⟩
    integer.collapse "int" 3 v = .ok "int3(-2147483648, -1, 2147483647)" ∧
      (∃ text, integer.collapse "int" 3 v = .ok text ∧
        integers? 3 text = some [-2147483648, -1, 2147483647]) ∧
      (integer.collapse "int" 3 v = integer.collapse "int" 3 w ↔
        v.toList.take 3 = w.toList.take 3) := by
  intro v w
  exact ⟨by decide +kernel, collapse_integer_eq_iff (by decide) (by decide) v w⟩

end ShaderAssembly.LiteralStyle
