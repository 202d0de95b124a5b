import PresenceCaps.Disco.Info

/-! Unions of capabilities, told bit by bit, and what sets of features grant. -/
namespace PresenceCaps

namespace Capabilities

/-- Whether a bit is set; the lowest one is bit zero. -/
def has (c : Capabilities) (i : Nat) : Bool := c.bits.toNat.testBit i

theorem eq_of_has_eq {a b : Capabilities} (h : ∀ i, a.has i = b.has i) : a = b := by
  obtain ⟨a⟩ := a
  obtain ⟨b⟩ := b
  exact congrArg Capabilities.mk (UInt32.toNat_inj.1 (Nat.eq_of_testBit_eq h))

@[simp] theorem has_none (i : Nat) : none.has i = false := by
  simp [has, none]

@[simp] theorem has_union (a b : Capabilities) (i : Nat) : (a.union b).has i = (a.has i || b.has i) := by
  simp [has, union]

theorem has_foldl_union {cs : List Capabilities} {c : Capabilities} {i : Nat} :
    (cs.foldl union c).has i = true ↔ c.has i = true ∨ ∃ d ∈ cs, d.has i = true := by
  induction cs generalizing c with
  | nil => simp
  | cons d cs ih => simp [ih, or_assoc]

/-- A union has the bits of its members and no others. -/
theorem has_unionAll {cs : List Capabilities} {i : Nat} :
    (unionAll cs).has i = true ↔ ∃ c ∈ cs, c.has i = true := by
  simp [unionAll, has_foldl_union]

theorem has_unionAll_cons {c : Capabilities} {cs : List Capabilities} {i : Nat} :
    (unionAll (c :: cs)).has i = true ↔ c.has i = true ∨ (unionAll cs).has i = true := by
  simp [has_unionAll]

theorem has_unionAll_map {α : Type} {xs : List α} {f : α → Capabilities} {i : Nat} :
    (unionAll (xs.map f)).has i = true ↔ ∃ x ∈ xs, (f x).has i = true := by
  rw [has_unionAll]
  constructor
  · rintro ⟨c, hc, hi⟩
    obtain ⟨x, hx, rfl⟩ := List.mem_map.1 hc
    exact ⟨x, hx, hi⟩
  · rintro ⟨x, hx, hi⟩
    exact ⟨f x, List.mem_map_of_mem hx, hi⟩

theorem contains_iff {a b : Capabilities} : a.contains b = true ↔ ∀ i, b.has i = true → a.has i = true := by
  rw [contains, beq_iff_eq, ← UInt32.toNat_inj, UInt32.toNat_and]
  constructor
  · intro h i hi
    rw [has, ← h, Nat.testBit_and, Bool.and_eq_true] at hi
    exact hi.1
  · intro h
    refine Nat.eq_of_testBit_eq fun i => ?_
    rw [Nat.testBit_and, Bool.and_eq_right_iff_imp]
    exact h i

@[simp] theorem has_diff (a b : Capabilities) (i : Nat) : (a.diff b).has i = (a.has i && !b.has i) := by
  have hword (x y : UInt32) : (x &&& ~~~y).toNat.testBit i = (x.toNat.testBit i && !y.toNat.testBit i) := by
    rw [← UInt32.toNat_toBitVec, ← UInt32.toNat_toBitVec, ← UInt32.toNat_toBitVec, UInt32.toBitVec_and,
      UInt32.toBitVec_not, BitVec.testBit_toNat, BitVec.testBit_toNat, BitVec.testBit_toNat, BitVec.getLsbD_and,
      BitVec.getLsbD_not]
    by_cases hi : i < 32
    · rw [decide_eq_true hi, Bool.true_and]
    · rw [BitVec.getLsbD_of_ge _ _ (Nat.le_of_not_lt hi), Bool.false_and, Bool.false_and]
  exact hword a.bits b.bits

/-- Two sets of capabilities meet in a bit. -/
theorem intersects_iff {a b : Capabilities} : a.intersects b = true ↔ ∃ i, a.has i = true ∧ b.has i = true := by
  have hbit (i : Nat) : (a.bits &&& b.bits).toNat.testBit i = (a.has i && b.has i) := by
    rw [UInt32.toNat_and, Nat.testBit_and, has, has]
  rw [intersects, bne_iff_ne]
  constructor
  · intro hne
    apply Classical.byContradiction
    intro hnone
    apply hne
    apply UInt32.toNat_inj.1
    apply Nat.eq_of_testBit_eq
    intro i
    rw [hbit, UInt32.toNat_zero, Nat.zero_testBit, Bool.and_eq_false_imp]
    intro ha
    exact Bool.eq_false_iff.2 fun hb => hnone ⟨i, ha, hb⟩
  · rintro ⟨i, ha, hb⟩ hzero
    have hi := hbit i
    rw [hzero, ha, hb, UInt32.toNat_zero, Nat.zero_testBit] at hi
    exact Bool.false_ne_true hi

theorem eq_of_contains {a b : Capabilities} (hab : a.contains b = true) (hba : b.contains a = true) : a = b :=
  eq_of_has_eq fun i => Bool.eq_iff_iff.2 ⟨contains_iff.1 hba i, contains_iff.1 hab i⟩

theorem has_ofFeatures {fs : List String} {i : Nat} :
    (ofFeatures fs).has i = true ↔ ∃ f ∈ fs, (ofFeature f).has i = true :=
  has_unionAll_map

end Capabilities

theorem FeatureSet.mem_foldl_insert {xs : List String} {s : FeatureSet} {x : String} :
    x ∈ (xs.foldl FeatureSet.insert s).toList ↔ x ∈ s.toList ∨ x ∈ xs := by
  induction xs generalizing s with
  | nil => simp
  | cons y xs ih => simp [ih, FeatureSet.insert, FeatureSet.mem_insertInto, or_assoc, or_left_comm]

theorem DiscoInfo.mem_featureSet {reply : DiscoInfo} {f : String} :
    f ∈ reply.featureSet.toList ↔ f ∈ reply.features := by
  rw [featureSet, FeatureSet.ofList, FeatureSet.mem_foldl_insert]
  exact or_iff_right List.not_mem_nil

theorem FeatureSet.has_capabilities {fs : FeatureSet} {i : Nat} :
    fs.capabilities.has i = true ↔ ∃ f ∈ fs.toList, (Capabilities.ofFeature f).has i = true :=
  Capabilities.has_ofFeatures

end PresenceCaps
