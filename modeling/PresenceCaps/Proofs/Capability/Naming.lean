import Mathlib.Algebra.Group.Nat.Defs
import Mathlib.Data.List.Nodup
import PresenceCaps.Capability.Channels
import PresenceCaps.Proofs.Capability.Union
import PresenceCaps.Proofs.Text.Joined
import PresenceCaps.Proofs.Text.Numeral

/-!
Flags that are written as text read back as the same word, with the bits that have no name: single flags by their names,
the rest as a number. A name for several flags at once is never written.
-/
namespace PresenceCaps

namespace FlagNames

/-- Names that can be told apart from each other, from numbers and from the marks between them, for one bit each. -/
structure Legible (names : FlagNames) : Prop where
  nodup : (names.flags.map Prod.fst).Nodup
  single : ∀ f ∈ names.flags, ∃ i < 32, f.2.toNat = 2 ^ i
  solid : ∀ f ∈ names.flags, IsSolid f.1.toList
  plain : ∀ f ∈ names.flags, '|' ∉ f.1.toList ∧ '0' ∉ f.1.toList

variable {names : FlagNames} {bits : UInt32} {flags : List (String × UInt32)} {i : Nat}

/-- The flags of which all bits are set. -/
def setFlags (names : FlagNames) (bits : UInt32) : List (String × UInt32) :=
  names.flags.filter fun f => bits &&& f.2 == f.2

/-- What stands for the bits without a name. -/
def remainder (names : FlagNames) (bits : UInt32) : List UInt32 :=
  if names.unnamed bits = 0 then [] else [names.unnamed bits]

/-! Bit by bit -/

theorem testBit_foldl_or {bs : List UInt32} {b : UInt32} :
    (bs.foldl (· ||| ·) b).toNat.testBit i = true ↔
      b.toNat.testBit i = true ∨ ∃ x ∈ bs, x.toNat.testBit i = true := by
  induction bs generalizing b with
  | nil => simp
  | cons x bs ih => simp [ih, or_assoc]

theorem testBit_foldl_clear {b : UInt32} :
    (flags.foldl (fun b f => b &&& ~~~f.2) b).toNat.testBit i = true ↔
      b.toNat.testBit i = true ∧ ∀ f ∈ flags, f.2.toNat.testBit i = false := by
  induction flags generalizing b with
  | nil => simp
  | cons f flags ih =>
    have hclear : (b &&& ~~~f.2).toNat.testBit i = (b.toNat.testBit i && !f.2.toNat.testBit i) :=
      Capabilities.has_diff ⟨b⟩ ⟨f.2⟩ i
    rw [List.foldl_cons, ih, hclear]
    simp [and_assoc]

/-- A flag of one bit is set if the word has this bit. -/
theorem isSet_of_testBit {f : UInt32} (hf : f.toNat = 2 ^ i) (hi : bits.toNat.testBit i = true) :
    (bits &&& f == f) = true := by
  rw [beq_iff_eq, ← UInt32.toNat_inj, UInt32.toNat_and, hf]
  apply Nat.eq_of_testBit_eq
  intro j
  rw [Nat.testBit_and, Nat.testBit_two_pow]
  by_cases hij : i = j
  · rw [← hij, hi, Bool.true_and]
  · rw [decide_eq_false hij, Bool.and_false]

theorem testBit_remainder : (∃ x ∈ names.remainder bits, x.toNat.testBit i = true) ↔
    (names.unnamed bits).toNat.testBit i = true := by
  rw [remainder]
  split
  · rename_i hzero
    rw [hzero]
    simp
  · simp

/-- The flags that are set and the rest make up the word. -/
theorem Legible.union_eq (h : names.Legible) (bits : UInt32) :
    ((names.setFlags bits).map Prod.snd ++ names.remainder bits).foldl (· ||| ·) 0 = bits := by
  apply UInt32.toNat_inj.1
  apply Nat.eq_of_testBit_eq
  intro i
  rw [Bool.eq_iff_iff, testBit_foldl_or]
  simp only [List.mem_append, or_and_right, exists_or, testBit_remainder, unnamed, testBit_foldl_clear]
  constructor
  · rintro (hzero | ⟨x, hx, hi⟩ | ⟨hi, -⟩)
    · exact absurd hzero (by simp)
    · obtain ⟨f, hf, rfl⟩ := List.mem_map.1 hx
      obtain ⟨hmem, hset⟩ := List.mem_filter.1 hf
      have hbits := congrArg UInt32.toNat (beq_iff_eq.1 hset)
      rw [← hbits, UInt32.toNat_and, Nat.testBit_and, Bool.and_eq_true] at hi
      exact hi.1
    · exact hi
  · intro hi
    by_cases hnamed : ∃ f ∈ names.flags, f.2.toNat.testBit i = true
    · obtain ⟨f, hf, hfi⟩ := hnamed
      obtain ⟨j, -, hj⟩ := h.single f hf
      have hij : i = j := by
        rw [hj, Nat.testBit_two_pow] at hfi
        exact (of_decide_eq_true hfi).symm
      have hset := isSet_of_testBit hj (hij ▸ hi)
      exact Or.inr (Or.inl ⟨f.2, List.mem_map_of_mem (List.mem_filter.2 ⟨hf, hset⟩), hfi⟩)
    · refine Or.inr (Or.inr ⟨hi, fun f hf => ?_⟩)
      exact Bool.eq_false_iff.2 fun hfi => hnamed ⟨f, hf, hfi⟩

/-! Part by part -/

theorem find?_name (hn : (flags.map Prod.fst).Nodup) {f : String × UInt32} (hf : f ∈ flags) :
    (flags.find? fun g => g.1.toList == f.1.toList) = some f := by
  induction flags with
  | nil => exact absurd hf List.not_mem_nil
  | cons g flags ih =>
    obtain ⟨hg, hrest⟩ := List.nodup_cons.1 hn
    rcases List.mem_cons.1 hf with rfl | hf
    · exact List.find?_cons_of_pos (by simp)
    · have hne : ¬ (g.1.toList == f.1.toList) = true := by
        intro heq
        have hname := String.toList_inj.1 (beq_iff_eq.1 heq)
        exact hg (hname ▸ List.mem_map_of_mem hf)
      rw [List.find?_cons, Bool.eq_false_iff.2 hne]
      exact ih hrest hf

theorem Legible.readPart?_name (h : names.Legible) {f : String × UInt32} (hf : f ∈ names.flags) :
    names.readPart? f.1.toList = some f.2 := by
  have hzero := (h.plain f hf).2
  rw [readPart?]
  · rw [List.find?_append, find?_name h.nodup hf]
    rfl
  · intro ds heq
    exact hzero (heq ▸ List.mem_cons_self)

theorem readPart?_number {n : UInt32} (hn : n ≠ 0) : names.readPart? ('0' :: 'x' :: hexDigits n.toNat) = some n :=
  hex32?_hexDigits hn

/-- What is written, part by part. -/
theorem map_toList_parts : (names.parts bits).map String.toList =
    (names.setFlags bits).map (fun f => f.1.toList) ++
      (names.remainder bits).map fun n => '0' :: 'x' :: hexDigits n.toNat := by
  rw [parts, setNames, List.map_append, List.map_map, setFlags, remainder]
  split <;> simp [Function.comp_def]

/-- Digits are no blanks, nor are they bars. -/
theorem solid_of_digit {c : Char} (h : (digitIn? 16 c).isSome) : isBlank c = false ∧ c ≠ '|' := by
  have hrange := toNat_of_isSome_digitIn? h
  constructor
  · simp only [isBlank, Bool.or_eq_false_iff, Bool.and_eq_false_iff, decide_eq_false_iff_not, beq_eq_false_iff_ne]
    omega
  · rintro rfl
    exact absurd hrange (by decide)

theorem solid_number {n : UInt32} (hn : n ≠ 0) :
    IsSolid ('0' :: 'x' :: hexDigits n.toNat) ∧ '|' ∉ '0' :: 'x' :: hexDigits n.toNat := by
  have hne : n.toNat ≠ 0 := fun h => hn (UInt32.toNat_inj.1 h)
  have hdigit (c : Char) (hc : c ∈ hexDigits n.toNat) := solid_of_digit ((spells_hexDigits hne).isSome_digitIn? c hc)
  refine ⟨⟨List.cons_ne_nil _ _, ?_⟩, ?_⟩
  · refine List.forall_mem_cons.2 ⟨by decide, List.forall_mem_cons.2 ⟨by decide, fun c hc => (hdigit c hc).1⟩⟩
  · simp only [List.mem_cons, not_or]
    exact ⟨by decide, by decide, fun hbar => (hdigit '|' hbar).2 rfl⟩

theorem ne_zero_of_mem_remainder {n : UInt32} (hn : n ∈ names.remainder bits) : n ≠ 0 := by
  rw [remainder] at hn
  split at hn
  · exact absurd hn List.not_mem_nil
  · rename_i hne
    rwa [List.mem_singleton.1 hn]

theorem Legible.solid_parts (h : names.Legible) (bits : UInt32) :
    ∀ p ∈ (names.parts bits).map String.toList, IsSolid p ∧ '|' ∉ p := by
  rw [map_toList_parts]
  intro p hp
  rcases List.mem_append.1 hp with hp | hp
  · obtain ⟨f, hf, rfl⟩ := List.mem_map.1 hp
    have hmem := (List.mem_filter.1 hf).1
    exact ⟨h.solid f hmem, (h.plain f hmem).1⟩
  · obtain ⟨n, hn, rfl⟩ := List.mem_map.1 hp
    exact solid_number (ne_zero_of_mem_remainder hn)

theorem Legible.mapM_parts (h : names.Legible) (bits : UInt32) :
    ((names.parts bits).map String.toList).mapM names.readPart? =
      some ((names.setFlags bits).map Prod.snd ++ names.remainder bits) := by
  have hnamed : ((names.setFlags bits).map fun f => f.1.toList).mapM names.readPart? =
      some ((names.setFlags bits).map Prod.snd) := by
    rw [List.mapM_map]
    exact mapM_eq_some_map fun f hf => h.readPart?_name (List.mem_filter.1 hf).1
  have hnumber : ((names.remainder bits).map fun n => '0' :: 'x' :: hexDigits n.toNat).mapM names.readPart? =
      some (names.remainder bits) := by
    rw [List.mapM_map]
    refine (mapM_eq_some_map fun n hn => readPart?_number (ne_zero_of_mem_remainder hn)).trans ?_
    rw [List.map_id']
  rw [map_toList_parts, List.mapM_append, hnamed, hnumber]
  rfl

/-- A word is read back from the text of its flags. -/
theorem Legible.read?_write (h : names.Legible) (bits : UInt32) : names.read? (names.write bits) = some bits := by
  have htext : (names.write bits).toList = [' ', '|', ' '].intercalate ((names.parts bits).map String.toList) := by
    rw [write, String.toList_intercalate]
    rfl
  have hsolid := h.solid_parts bits
  have hvalues := h.mapM_parts bits
  have hunion := h.union_eq bits
  rw [read?, htext]
  generalize (names.parts bits).map String.toList = ps at hsolid hvalues
  cases ps with
  | nil =>
    -- no part at all stands for the word without bits
    rw [← Option.some.inj hvalues] at hunion
    exact congrArg some hunion
  | cons p ps =>
    have hsplit := map_trim_splitAll (l := []) (c := '|') (by decide) (List.cons_ne_nil p ps) hsolid (by simp)
    have hsome : ¬ (trim ([' ', '|', ' '].intercalate (p :: ps))).isEmpty = true := by
      intro hempty
      obtain ⟨hne, hp⟩ := (hsolid p List.mem_cons_self).1
      obtain ⟨c, hc⟩ := List.exists_mem_of_ne_nil p hne
      have hblank := isBlank_of_trim_eq_nil (List.isEmpty_iff.1 hempty) c (mem_intercalate_cons _ hc ps)
      rw [hp c hc] at hblank
      exact Bool.false_ne_true hblank
    have hread := List.mapM_map (l := splitAll '|' ([' ', '|', ' '].intercalate (p :: ps))) (f := trim)
      (g := names.readPart?)
    rw [List.nil_append] at hsplit
    rw [hsplit, hvalues] at hread
    rw [if_neg hsome]
    exact (congrArg (Option.map fun bs => bs.foldl (· ||| ·) 0) hread.symm).trans (congrArg some hunion)

end FlagNames

theorem Capabilities.legible_names : Capabilities.names.Legible where
  nodup := by decide
  single := by decide
  solid := by decide
  plain := by decide

theorem MediaFlags.legible_names : MediaFlags.names.Legible where
  nodup := by decide
  single := by decide
  solid := by decide
  plain := by decide

theorem Capabilities.read?_write (c : Capabilities) : read? c.write = some c := by
  rw [read?, write, legible_names.read?_write]
  rfl

theorem MediaFlags.read?_write (m : MediaFlags) : read? m.write = some m := by
  rw [read?, write, legible_names.read?_write]
  rfl

end PresenceCaps
