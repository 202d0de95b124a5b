import Mathlib.Data.List.Nodup
import PresenceCaps.Disco.Verification
import PresenceCaps.Proofs.Text.Order

/-!
Sorting, and the search for what is there twice. In a list in order, equal things stand side by side, so that a
comparison of neighbours finds them all, however far apart they were before.
-/
namespace PresenceCaps.Verification

/-- In a list in order, what stands twice stands next to itself. -/
theorem hasEqualNeighbours_eq_false_iff {β : Type} [DecidableEq β] [LE β] [Std.IsPartialOrder β] {ks : List β}
    (h : ks.Pairwise (· ≤ ·)) : hasEqualNeighbours ks = false ↔ ks.Nodup := by
  induction ks using hasEqualNeighbours.induct with
  | case1 => simp [hasEqualNeighbours]
  | case2 a => simp [hasEqualNeighbours]
  | case3 a b rest ih =>
    obtain ⟨hfirst, hrest⟩ := List.pairwise_cons.1 h
    have hnotMem : ¬ a = b ↔ a ∉ b :: rest := by
      refine ⟨fun hne hmem => ?_, List.ne_of_not_mem_cons⟩
      rcases List.mem_cons.1 hmem with hab | hmem
      · exact hne hab
      · have hba : b ≤ a := List.rel_of_pairwise_cons hrest hmem
        exact hne (Std.le_antisymm (hfirst b List.mem_cons_self) hba)
    rw [hasEqualNeighbours, Bool.or_eq_false_iff, decide_eq_false_iff_not, ih hrest, hnotMem, ← List.nodup_cons]

variable {α β : Type} [LE β] [DecidableLE β]

/-- The list in the order of the keys. -/
def sortBy (key : α → β) (l : List α) : List α := l.mergeSort fun a b => decide (key a ≤ key b)

/-- The list in the order of the keys, if no key is there twice. -/
def sortDistinct? [DecidableEq β] (key : α → β) (l : List α) : Option (List α) :=
  if hasEqualNeighbours ((sortBy key l).map key) then none else some (sortBy key l)

variable {key : α → β} {l : List α}

theorem sortBy_perm (key : α → β) (l : List α) : (sortBy key l).Perm l := List.mergeSort_perm l _

theorem map_sortBy : (sortBy key l).map key = (l.map key).mergeSort fun a b => decide (a ≤ b) :=
  List.map_mergeSort fun _ _ _ _ => rfl

theorem sortBy_map {γ : Type} (key : α → β) (f : γ → α) (l : List γ) :
    sortBy key (l.map f) = (sortBy (key ∘ f) l).map f := by
  have hmap := List.map_mergeSort (f := f) (l := l) (r := fun a b => decide ((key ∘ f) a ≤ (key ∘ f) b))
    (s := fun a b => decide (key a ≤ key b)) fun _ _ _ _ => rfl
  exact hmap.symm

theorem sortDistinct?_map [DecidableEq β] {γ : Type} (key : α → β) (f : γ → α) (l : List γ) :
    sortDistinct? key (l.map f) = (sortDistinct? (key ∘ f) l).map (List.map f) := by
  have hkeys : (sortBy key (l.map f)).map key = (sortBy (key ∘ f) l).map (key ∘ f) := by
    rw [sortBy_map, List.map_map]
  rw [sortDistinct?, sortDistinct?, hkeys]
  split
  · rfl
  · exact congrArg some (sortBy_map key f l)

variable [Std.IsLinearOrder β]

theorem decide_le_trans (a b c : α) (hab : decide (key a ≤ key b) = true) (hbc : decide (key b ≤ key c) = true) :
    decide (key a ≤ key c) = true :=
  decide_eq_true (Std.le_trans (of_decide_eq_true hab) (of_decide_eq_true hbc))

theorem decide_le_total (a b : α) : (decide (key a ≤ key b) || decide (key b ≤ key a)) = true := by
  rw [Bool.or_eq_true, decide_eq_true_iff, decide_eq_true_iff]
  exact Std.le_total

theorem pairwise_sortBy (key : α → β) (l : List α) : (sortBy key l).Pairwise fun a b => key a ≤ key b := by
  have h : (sortBy key l).Pairwise fun a b => decide (key a ≤ key b) = true :=
    List.pairwise_mergeSort decide_le_trans decide_le_total l
  exact h.imp of_decide_eq_true

/-- What shares a key stays as it came. -/
theorem filter_sortBy {p : α → Bool} (hp : ∀ a b, p a = true → p b = true → key a = key b) :
    (sortBy key l).filter p = l.filter p := by
  have htied : (l.filter p).Pairwise fun a b => decide (key a ≤ key b) = true := by
    refine List.pairwise_of_forall_mem_list fun a ha b hb => decide_eq_true ?_
    rw [hp a b (List.of_mem_filter ha) (List.of_mem_filter hb)]
    exact Std.le_refl _
  have hsub : (l.filter p).Sublist ((sortBy key l).filter p) := by
    have h := (List.sublist_mergeSort decide_le_trans decide_le_total htied List.filter_sublist).filter p
    simp only [List.filter_filter, Bool.and_self] at h
    exact h
  exact (hsub.eq_of_length ((sortBy_perm key l).filter p).length_eq.symm).symm

variable [DecidableEq β]

theorem hasEqualNeighbours_sortBy_iff :
    hasEqualNeighbours ((sortBy key l).map key) = true ↔ ¬ (l.map key).Nodup := by
  have hpairwise : ((sortBy key l).map key).Pairwise (· ≤ ·) := List.pairwise_map.2 (pairwise_sortBy key l)
  rw [← ((sortBy_perm key l).map key).nodup_iff, ← hasEqualNeighbours_eq_false_iff hpairwise, Bool.not_eq_false]

theorem sortDistinct?_eq_none_iff : sortDistinct? key l = none ↔ ¬ l.Pairwise fun a b => key a ≠ key b := by
  rw [← List.pairwise_map, ← List.Nodup, ← hasEqualNeighbours_sortBy_iff, sortDistinct?]
  simp

/-- Where no key is there twice, the order is strict. -/
theorem sortDistinct?_eq_some [LT β] [Std.LawfulOrderLT β] {m : List α} (h : sortDistinct? key l = some m) :
    m = sortBy key l ∧ m.Pairwise fun a b => key a < key b := by
  rw [sortDistinct?] at h
  split at h
  case isTrue => cases h
  case isFalse hne =>
    cases h
    rw [hasEqualNeighbours_sortBy_iff, not_not, ← ((sortBy_perm key l).map key).nodup_iff] at hne
    have hstrict := (pairwise_sortBy key l).and (List.pairwise_map.1 hne)
    exact ⟨rfl, hstrict.imp fun ⟨hle, hne⟩ => Std.lt_of_le_of_ne hle hne⟩

/-- Where no key is there twice, the order in which things came does not matter. -/
theorem sortDistinct?_perm {m : List α} (h : l.Perm m) : sortDistinct? key l = sortDistinct? key m := by
  have hsorted : (sortBy key l).Perm (sortBy key m) :=
    (sortBy_perm key l).trans (h.trans (sortBy_perm key m).symm)
  have hkeys : (sortBy key l).map key = (sortBy key m).map key := by
    apply (hsorted.map key).eq_of_pairwise (fun a b _ _ hab hba => Std.le_antisymm hab hba)
    · exact List.pairwise_map.2 (pairwise_sortBy key l)
    · exact List.pairwise_map.2 (pairwise_sortBy key m)
  rw [sortDistinct?, sortDistinct?, ← hkeys]
  split
  · rfl
  · rename_i hne
    rw [hasEqualNeighbours_sortBy_iff, not_not, ← ((sortBy_perm key l).map key).nodup_iff] at hne
    congr 1
    apply hsorted.eq_of_pairwise _ (pairwise_sortBy key l) (pairwise_sortBy key m)
    intro a b ha hb hab hba
    -- a tie would be a key that is there twice
    exact List.inj_on_of_nodup_map hne ha (hsorted.mem_iff.2 hb) (Std.le_antisymm hab hba)

omit [LE β] [DecidableLE β] [Std.IsLinearOrder β] in
theorem mem_iff_of_filter_eq {m : List α}
    (h : ∀ k, (l.filter fun a => key a = k) = m.filter fun a => key a = k) {a : α} : a ∈ l ↔ a ∈ m := by
  have ha := congrArg (a ∈ ·) (h (key a))
  simpa using ha

omit [DecidableLE β] in
/-- A list in order is known from its tied parts. -/
theorem eq_of_filter_eq {m : List α} (hl : l.Pairwise fun a b => key a ≤ key b)
    (hm : m.Pairwise fun a b => key a ≤ key b)
    (h : ∀ k, (l.filter fun a => key a = k) = m.filter fun a => key a = k) : l = m := by
  induction l generalizing m with
  | nil =>
    apply (List.eq_nil_iff_forall_not_mem.2 fun b hb => ?_).symm
    exact absurd ((mem_iff_of_filter_eq h).2 hb) List.not_mem_nil
  | cons a l ih =>
    cases m with
    | nil => exact absurd ((mem_iff_of_filter_eq h).1 List.mem_cons_self) List.not_mem_nil
    | cons b m =>
      obtain ⟨hal, hlrest⟩ := List.pairwise_cons.1 hl
      obtain ⟨hbm, hmrest⟩ := List.pairwise_cons.1 hm
      -- each list starts with a least key, and so with the same one
      have hab : key a ≤ key b := by
        rcases List.mem_cons.1 ((mem_iff_of_filter_eq h).2 List.mem_cons_self) with hba | hbl
        · rw [hba]
          exact Std.le_refl _
        · exact hal b hbl
      have hba : key b ≤ key a := by
        rcases List.mem_cons.1 ((mem_iff_of_filter_eq h).1 List.mem_cons_self) with hab | ham
        · rw [hab]
          exact Std.le_refl _
        · exact hbm a ham
      have hkey : key b = key a := Std.le_antisymm hba hab
      -- and then with the same entry, the first of those with this key
      have hfirst := h (key a)
      simp only [List.filter_cons, hkey, decide_true, if_true] at hfirst
      obtain ⟨rfl, -⟩ := List.cons.inj hfirst
      have hrest (k : β) : (l.filter fun x => key x = k) = m.filter fun x => key x = k := by
        have hk := h k
        rw [List.filter_cons, List.filter_cons] at hk
        split at hk
        · exact (List.cons.inj hk).2
        · exact hk
      rw [ih hlrest hmrest hrest]

/-- Sorting forgets all order but that of ties. -/
theorem sortBy_eq_of_filter_eq {m : List α}
    (h : ∀ k, (l.filter fun a => key a = k) = m.filter fun a => key a = k) : sortBy key l = sortBy key m := by
  apply eq_of_filter_eq (pairwise_sortBy key l) (pairwise_sortBy key m)
  intro k
  have htie (a b : α) (ha : decide (key a = k) = true) (hb : decide (key b = k) = true) : key a = key b :=
    (of_decide_eq_true ha).trans (of_decide_eq_true hb).symm
  rw [filter_sortBy htie, filter_sortBy htie, h k]

theorem not_pairwise_iff {R : α → α → Prop} : ¬ l.Pairwise R ↔ ∃ a b, [a, b].Sublist l ∧ ¬ R a b := by
  rw [List.pairwise_iff_forall_sublist]
  simp only [not_forall, exists_prop]

end PresenceCaps.Verification
