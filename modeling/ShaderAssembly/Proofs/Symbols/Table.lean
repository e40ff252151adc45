import ShaderAssembly.Proofs.Symbols.Step

namespace ShaderAssembly

/-- The kind of the registers that constants of a set occupy. The table does not declare samplers,
and constants of an unknown set are refused. -/
def RegisterSet.kind? : RegisterSet → Option RegisterKind
  | .bool => some .constBool
  | .int4 => some .constInt
  | .float4 => some .const
  | .sampler => none
  | .unknown _ => none

/-- The register is one that the constant occupies. -/
def Constant.Covers (c : Constant) (r : Register) : Prop :=
  c.set.kind? = some r.kind ∧ c.contains r.number = true

instance (c : Constant) (r : Register) : Decidable (c.Covers r) :=
  inferInstanceAs (Decidable (_ ∧ _))

theorem Constant.Covers.isConstant {c : Constant} {r : Register} (h : c.Covers r) :
    r.kind.isConstant = true := by
  obtain ⟨kind, number⟩ := r
  have hkind := h.1
  unfold RegisterSet.kind? at hkind
  split at hkind <;> cases hkind <;> rfl

/-- The register is one that some constant of the table occupies. -/
def ConstantTable.Covers (t : ConstantTable) (r : Register) : Prop :=
  ∃ c ∈ t.constants, c.Covers r

instance (t : ConstantTable) (r : Register) : Decidable (t.Covers r) :=
  inferInstanceAs (Decidable (∃ c ∈ t.constants, _))

private theorem RegisterSet.eq_of_kind? {set other : RegisterSet} {kind : RegisterKind}
    (hset : set.kind? = some kind) (hother : other.kind? = some kind) : set = other := by
  cases set <;> cases hset <;> cases other <;> cases hother <;> rfl

theorem RegisterSet.kind_of_kind? {set : RegisterSet} {kind : RegisterKind}
    (hset : set.kind? = some kind) : kind = .const ∨ kind = .constInt ∨ kind = .constBool := by
  cases set <;> simp_all [kind?]

/-- A register is in the range of a constant when its offset from the start is below the count. The
offset cannot overflow, as the end of the range can. -/
theorem Constant.contains_iff_offset {c : Constant} {n : UInt32} :
    c.contains n = true ↔ c.start ≤ n ∧ n - c.start < c.count := by
  rw [contains, decide_eq_true_eq, UInt32.le_iff_toNat_le]
  constructor
  · rintro ⟨hstart, hend⟩
    refine ⟨hstart, ?_⟩
    rw [UInt32.lt_iff_toNat_lt, UInt32.toNat_sub_of_le _ _ (UInt32.le_iff_toNat_le.2 hstart)]
    omega
  · rintro ⟨hstart, hoffset⟩
    rw [UInt32.lt_iff_toNat_lt, UInt32.toNat_sub_of_le _ _ (UInt32.le_iff_toNat_le.2 hstart)]
      at hoffset
    exact ⟨hstart, by omega⟩

theorem ConstantTable.isSome_findSet?_iff {t : ConstantTable} {set : RegisterSet} {n : UInt32} :
    (t.findSet? set n).isSome = true ↔
      ∃ c ∈ t.constants, c.set = set ∧ c.contains n = true := by
  rw [findSet?, List.find?_isSome]
  simp only [Bool.and_eq_true, beq_iff_eq]

theorem ConstantTable.findType?_eq_none_iff {t : ConstantTable} {type : ConstantType}
    {n : UInt32} :
    t.findType? type n = none ↔ ∀ c ∈ t.constants, c.type = type → c.contains n = false := by
  simp [findType?]

/-- A register that a constant of the table covers has an offset in the range of the constant. -/
theorem ConstantTable.exists_offset_of_findType? {t : ConstantTable} {type : ConstantType}
    {n : UInt32} {c : Constant} (hfind : t.findType? type n = some c) :
    ∃ offset : Nat, n.toNat = c.start.toNat + offset ∧ offset < c.count.toNat ∧
      (n - c.start).toNat = offset := by
  have hcontains := List.find?_some hfind
  rw [Bool.and_eq_true, Constant.contains_iff_offset] at hcontains
  obtain ⟨_, hstart, hoffset⟩ := hcontains
  have hdifference := UInt32.toNat_sub_of_le _ _ hstart
  rw [UInt32.le_iff_toNat_le] at hstart
  rw [UInt32.lt_iff_toNat_lt] at hoffset
  exact ⟨(n - c.start).toNat, by omega, hoffset, rfl⟩

/-- A register is occupied by a constant of the table when a look-up in the set for its kind finds
one. -/
theorem ConstantTable.covers_iff {t : ConstantTable} {set : RegisterSet} {r : Register}
    (hset : set.kind? = some r.kind) : t.Covers r ↔ (t.findSet? set r.number).isSome = true := by
  rw [isSome_findSet?_iff]
  constructor
  · rintro ⟨c, hc, hkind, hcontains⟩
    exact ⟨c, hc, RegisterSet.eq_of_kind? hkind hset, hcontains⟩
  · rintro ⟨c, hc, rfl, hcontains⟩
    exact ⟨c, hc, hset, hcontains⟩

namespace Symbols

/-- Registers in a row in one file, each declared implicitly. -/
def declareRange (declared : RegisterMap Declaration) (kind : RegisterKind) (start count : Nat) :
    RegisterMap Declaration :=
  (List.range' start count).foldl (fun declared n =>
    declared.insert ⟨kind, UInt32.ofNat n⟩ (Declaration.implicit ⟨kind, UInt32.ofNat n⟩)) declared

/-- The registers of a constant are declared one after the other up to the last of them, or to the
end of the register numbers, where the constant is refused. -/
theorem declareFrom_eq (c : Constant) (kind : RegisterKind) (offset remaining : Nat)
    (declared : RegisterMap Declaration) (hstart : c.start.toNat + offset ≤ 0x100000000) :
    declareFrom c kind offset remaining declared =
      if c.start.toNat + offset + remaining ≤ 0x100000000 then
        .ok (declareRange declared kind (c.start.toNat + offset) remaining)
      else
        .error (.rangePastEnd c.name c.start c.count) := by
  induction remaining generalizing offset declared with
  | zero => rw [declareFrom, if_pos (by omega), declareRange, List.range'_zero, List.foldl_nil]
  | succ remaining ih =>
    rw [declareFrom]
    by_cases hnumber : c.start.toNat + offset < 0x100000000
    · rw [if_pos hnumber, ih (offset + 1) _ (by omega), declareRange, declareRange,
        List.range'_succ, List.foldl_cons]
      simp only [show c.start.toNat + (offset + 1) = c.start.toNat + offset + 1 by omega,
        show c.start.toNat + offset + 1 + remaining = c.start.toNat + offset + (remaining + 1) by
          omega]
    · rw [if_neg hnumber, if_neg (by omega)]

/-- A constant declares its registers if all of them have a number. -/
theorem declareConstant_eq (s : Symbols) (c : Constant) (kind : RegisterKind) :
    s.declareConstant c kind =
      if c.start.toNat + c.count.toNat ≤ 0x100000000 then
        .ok { s with declared := declareRange s.declared kind c.start.toNat c.count.toNat }
      else
        .error (.rangePastEnd c.name c.start c.count) := by
  have hstart : c.start.toNat + 0 ≤ 0x100000000 := by
    have := c.start.toNat_lt
    omega
  rw [declareConstant, declareFrom_eq c kind 0 _ _ hstart, Nat.add_zero]
  split <;> rfl

/-- A range of registers up to the last number declares exactly the numbers in it, and each of them
implicitly. -/
theorem getElem?_declareRange (declared : RegisterMap Declaration) (kind : RegisterKind)
    {start count : Nat} (hend : start + count ≤ 0x100000000) (r : Register) :
    (declareRange declared kind start count)[r]? =
      if r.kind = kind ∧ start ≤ r.number.toNat ∧ r.number.toNat < start + count
      then some (Declaration.implicit r) else declared[r]? := by
  induction count with
  | zero =>
    rw [if_neg (by omega)]
    rfl
  | succ count ih =>
    obtain ⟨last, hlast, hnumber⟩ : ∃ last, UInt32.ofNat (start + count) = last ∧
        last.toNat = start + count :=
      ⟨_, rfl, UInt32.toNat_ofNat_of_lt' (show _ < 0x100000000 by omega)⟩
    have hstep : declareRange declared kind start (count + 1) =
        (declareRange declared kind start count).insert ⟨kind, last⟩
          (Declaration.implicit ⟨kind, last⟩) := by
      simp only [declareRange, List.range'_1_concat, List.foldl_append, hlast, List.foldl_cons,
        List.foldl_nil]
    rw [hstep, Std.ExtTreeMap.getElem?_insert, ih (by omega)]
    simp only [Std.LawfulEqCmp.compare_eq_iff_eq]
    by_cases hr : ⟨kind, last⟩ = r
    · subst hr
      have hlo : start ≤ last.toNat := by omega
      have hhi : last.toNat < start + (count + 1) := by omega
      simp [hlo, hhi]
    · have hne : r.kind = kind → r.number.toNat ≠ last.toNat := by
        rintro rfl heq
        apply hr
        rw [← UInt32.toNat_inj.1 heq]
      rw [if_neg hr]
      congr 1
      simp only [eq_iff_iff]
      constructor
      · rintro ⟨hkind, hlo, hhi⟩
        exact ⟨hkind, hlo, by omega⟩
      · rintro ⟨hkind, hlo, hhi⟩
        exact ⟨hkind, hlo, by have := hne hkind; omega⟩

theorem exists_of_declareConstant {s next : Symbols} {c : Constant} {kind : RegisterKind}
    (hset : c.set.kind? = some kind) (hnext : s.declareConstant c kind = .ok next) :
    ∃ declared, next = { s with declared } ∧ ∀ r : Register, declared[r]? =
      if c.Covers r then some (Declaration.implicit r) else s.declared[r]? := by
  rw [declareConstant_eq] at hnext
  split at hnext
  next hend =>
    cases hnext
    refine ⟨_, rfl, ?_⟩
    intro r
    rw [getElem?_declareRange _ _ hend]
    simp only [Constant.Covers, Constant.contains, hset, Option.some.injEq, decide_eq_true_eq,
      eq_comm (a := kind)]
  next => cases hnext

/-- A constant declares the registers that it occupies, and does nothing else. -/
theorem exists_of_ingestConstant {s next : Symbols} {c : Constant}
    (hnext : s.ingestConstant c = .ok next) :
    ∃ declared, next = { s with declared } ∧ ∀ r : Register, declared[r]? =
      if c.Covers r then some (Declaration.implicit r) else s.declared[r]? := by
  unfold ingestConstant at hnext
  split at hnext
  next hset => exact exists_of_declareConstant (by rw [hset]; rfl) hnext
  next hset => exact exists_of_declareConstant (by rw [hset]; rfl) hnext
  next hset => exact exists_of_declareConstant (by rw [hset]; rfl) hnext
  next hset =>
    cases hnext
    exact ⟨s.declared, rfl, by simp [Constant.Covers, hset, RegisterSet.kind?]⟩
  next => cases hnext

theorem exists_of_ingestConstants {s next : Symbols} {constants : List Constant}
    (hnext : constants.foldlM ingestConstant s = .ok next) :
    ∃ declared, next = { s with declared } ∧ ∀ r : Register, declared[r]? =
      if ∃ c ∈ constants, c.Covers r then some (Declaration.implicit r) else s.declared[r]? := by
  induction constants generalizing s with
  | nil =>
    cases hnext
    exact ⟨_, rfl, by simp⟩
  | cons c rest ih =>
    rw [List.foldlM_cons] at hnext
    cases hconstant : s.ingestConstant c with
    | error e =>
      rw [hconstant] at hnext
      cases hnext
    | ok first =>
      rw [hconstant] at hnext
      obtain ⟨_, rfl, hfirst⟩ := exists_of_ingestConstant hconstant
      obtain ⟨declared, rfl, hrest⟩ := ih hnext
      refine ⟨declared, rfl, ?_⟩
      intro r
      rw [hrest, hfirst]
      by_cases hc : c.Covers r <;> simp [hc]

/-- The table declares the registers of its constants and no other. -/
theorem getElem?_ofTable {table : ConstantTable} {order : MatrixOrder} {start : Symbols}
    (hstart : ofTable table order = .ok start) (r : Register) :
    start.declared[r]? = if table.Covers r then some (Declaration.implicit r) else none := by
  obtain ⟨declared, rfl, hdeclared⟩ := exists_of_ingestConstants hstart
  exact (hdeclared r).trans rfl

/-- Nothing is declared but constants, implicitly, and no constant is defined. -/
structure FromTable (s : Symbols) : Prop where
  declared_eq : ∀ (r : Register) (d : Declaration), s.declared[r]? = some d →
    d = Declaration.implicit r ∧ r.kind.isConstant = true
  inputs_eq : s.inputs = ∅
  outputs_eq : s.outputs = ∅
  floats_eq : s.floats = []
  ints_eq : s.ints = []
  bools_eq : s.bools = []

/-- The symbols of a constant table are those declarations of constants. -/
theorem fromTable_of_ofTable {table : ConstantTable} {order : MatrixOrder} {start : Symbols}
    (hstart : ofTable table order = .ok start) : start.FromTable := by
  have hdeclared : ∀ (r : Register) (d : Declaration), start.declared[r]? = some d →
      d = Declaration.implicit r ∧ r.kind.isConstant = true := by
    intro r d hget
    rw [getElem?_ofTable hstart] at hget
    split at hget
    next hcovers =>
      obtain ⟨c, _, hc⟩ := hcovers
      exact ⟨(Option.some_inj.1 hget).symm, hc.isConstant⟩
    next => cases hget
  obtain ⟨_, rfl, _⟩ := exists_of_ingestConstants hstart
  exact ⟨hdeclared, rfl, rfl, rfl, rfl, rfl⟩

/-- Before the first instruction the registers with a declaration are those for which a look-up in
the table finds a constant, in the register set of their kind, and each has the implicit one. Both
go by the offset of a register from the start of a range: ranges may overlap in any order, be empty,
or end at the last register number. -/
theorem declaration?_ofTable {table : ConstantTable} {order : MatrixOrder} {start : Symbols}
    (hstart : ofTable table order = .ok start) :
    (∀ n, (start.declaration? ⟨.const, n⟩).isSome ↔ (table.findSet? .float4 n).isSome) ∧
      (∀ n, (start.declaration? ⟨.constInt, n⟩).isSome ↔ (table.findSet? .int4 n).isSome) ∧
      (∀ n, (start.declaration? ⟨.constBool, n⟩).isSome ↔ (table.findSet? .bool n).isSome) ∧
      (∀ set n, (table.findSet? set n).isSome ↔
        ∃ c ∈ table.constants, c.set = set ∧ c.start ≤ n ∧ n - c.start < c.count) ∧
      ∀ r d, start.declaration? r = some d →
        (r.kind = .const ∨ r.kind = .constInt ∨ r.kind = .constBool) ∧
          d = Declaration.implicit r := by
  have hdeclared : ∀ r, (start.declaration? r).isSome = true ↔ table.Covers r := by
    intro r
    rw [declaration?, getElem?_ofTable hstart]
    split <;> simp_all
  have hset : ∀ {set : RegisterSet} {kind : RegisterKind}, set.kind? = some kind → ∀ n,
      (start.declaration? ⟨kind, n⟩).isSome = true ↔ (table.findSet? set n).isSome = true := by
    intro set kind hkind n
    rw [hdeclared, ConstantTable.covers_iff hkind]
  refine ⟨hset rfl, hset rfl, hset rfl, ?_, ?_⟩
  · intro set n
    rw [ConstantTable.isSome_findSet?_iff]
    simp only [Constant.contains_iff_offset]
  · intro r d hd
    obtain ⟨c, _, hkind, _⟩ := (hdeclared r).1 (by rw [hd]; rfl)
    exact ⟨RegisterSet.kind_of_kind? hkind, ((fromTable_of_ofTable hstart).declared_eq r d hd).1⟩

theorem declaration?_ofTable_overlapping :
    let bones := Constant.matrix "Bones" .matrixRows 0xFFFFFFFD 3 4
    let tint : Constant := { Constant.vector "Tint" 0xFFFFFFFE 4 with count := 2 }
    let steps : Constant := { Constant.vector "Steps" 7 1 with set := .int4, count := 0 }
    let table : ConstantTable := ⟨[tint, steps, bones]⟩
    let last : Register := ⟨.const, 0xFFFFFFFF⟩
    ∃ start, ofTable table .columnMajor = .ok start ∧
      start.declaration? last = some (Declaration.implicit last) ∧
      ¬ (start.declaration? ⟨.const, 0xFFFFFFFC⟩).isSome ∧
      ¬ (start.declaration? ⟨.constInt, 7⟩).isSome ∧
      ¬ (start.declaration? ⟨.constBool, 0⟩).isSome := by
  intro bones tint steps table last
  have hstart : ofTable table .columnMajor = .ok _ := rfl
  obtain ⟨hfloat, hint, hbool, _, himplicit⟩ := declaration?_ofTable hstart
  obtain ⟨d, hd⟩ := Option.isSome_iff_exists.1 ((hfloat last.number).2 (by decide))
  obtain ⟨_, rfl⟩ := himplicit last d hd
  refine ⟨_, hstart, hd, ?_, ?_, ?_⟩
  · exact mt (hfloat _).1 (by decide)
  · exact mt (hint _).1 (by decide)
  · exact mt (hbool _).1 (by decide)

end Symbols

end ShaderAssembly
