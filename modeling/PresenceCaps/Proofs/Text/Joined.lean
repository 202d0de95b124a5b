import Mathlib.Data.List.TakeWhile
import PresenceCaps.Text.Blank
import PresenceCaps.Text.Split

/-! Parts that are joined by a separator come apart again, are trimmed, and are read one by one. -/
namespace PresenceCaps

/-- What is read from each item makes up what is read from all of them. -/
theorem mapM_eq_some_map {α β : Type} {read : α → Option β} {value : α → β} {items : List α}
    (h : ∀ a ∈ items, read a = some (value a)) : items.mapM read = some (items.map value) := by
  induction items with
  | nil => rfl
  | cons a items ih =>
    obtain ⟨ha, hitems⟩ := List.forall_mem_cons.1 h
    rw [List.mapM_cons, ha, ih hitems]
    rfl

variable {c : Char} {cs l r : List Char} {ps : List (List Char)}

/-- A part has some characters, none of them blank. -/
structure IsSolid (cs : List Char) : Prop where
  ne_nil : cs ≠ []
  solid : ∀ c ∈ cs, isBlank c = false

theorem isSolid_iff : IsSolid cs ↔ (!cs.isEmpty && cs.all fun c => !isBlank c) = true := by
  simp only [Bool.and_eq_true, Bool.not_eq_true', List.isEmpty_eq_false_iff, List.all_eq_true]
  exact ⟨fun h => ⟨h.ne_nil, h.solid⟩, fun h => ⟨h.1, h.2⟩⟩

instance (cs : List Char) : Decidable (IsSolid cs) := decidable_of_iff' _ isSolid_iff

theorem IsSolid.reverse (h : IsSolid cs) : IsSolid cs.reverse where
  ne_nil := by simpa using h.ne_nil
  solid c hc := h.solid c (List.mem_reverse.1 hc)

/-- Blanks in front are passed over, up to the first character that is not blank. -/
theorem trimLeft_append (hl : ∀ c ∈ l, isBlank c = true) (h : IsSolid cs) (r : List Char) :
    trimLeft (l ++ cs ++ r) = cs ++ r := by
  rw [trimLeft, List.append_assoc, List.dropWhile_append_of_pos hl]
  cases cs with
  | nil => exact absurd rfl h.ne_nil
  | cons c cs =>
    have hc : isBlank c = false := h.solid c List.mem_cons_self
    exact List.dropWhile_cons_of_neg (by simp [hc])

theorem trim_append (hl : ∀ c ∈ l, isBlank c = true) (h : IsSolid cs) (hr : ∀ c ∈ r, isBlank c = true) :
    trim (l ++ cs ++ r) = cs := by
  have hfront := trimLeft_append hl h r
  have hback : trimLeft (r.reverse ++ cs.reverse ++ []) = cs.reverse ++ [] :=
    trimLeft_append (fun c hc => hr c (List.mem_reverse.1 hc)) h.reverse []
  rw [List.append_nil, List.append_nil] at hback
  rw [trim, hfront, List.reverse_append, hback, List.reverse_reverse]

/-- Nothing is left only of blanks. -/
theorem isBlank_of_trim_eq_nil (h : trim cs = []) : ∀ c ∈ cs, isBlank c = true := by
  have hback : ∀ c ∈ (trimLeft cs).reverse, isBlank c = true :=
    List.dropWhile_eq_nil_iff.1 (List.reverse_eq_nil_iff.1 h)
  intro c hc
  rw [← List.takeWhile_append_dropWhile (p := isBlank) (l := cs)] at hc
  rcases List.mem_append.1 hc with hc | hc
  · exact List.mem_takeWhile_imp hc
  · exact hback c (List.mem_reverse.2 hc)

theorem mem_intercalate_cons (sep : List Char) {p : List Char} (hc : c ∈ p) (ps : List (List Char)) :
    c ∈ sep.intercalate (p :: ps) := by
  cases ps with
  | nil => rwa [List.intercalate_singleton]
  | cons q qs =>
    rw [List.intercalate_cons_cons, List.append_assoc]
    exact List.mem_append_left _ hc

/-- Parts that were joined with blanks around the separator. The blanks in front are those after an earlier one. -/
theorem map_trim_splitAll (hc : isBlank c = false) (hne : ps ≠ []) (hps : ∀ p ∈ ps, IsSolid p ∧ c ∉ p)
    (hl : ∀ x ∈ l, isBlank x = true) :
    (splitAll c (l ++ [' ', c, ' '].intercalate ps)).map trim = ps := by
  have hout {xs : List Char} (hxs : ∀ x ∈ xs, isBlank x = true) : c ∉ xs :=
    fun hmem => absurd (hxs c hmem) (by simp [hc])
  have hspace : ∀ x ∈ [' '], isBlank x = true := List.forall_mem_singleton.2 (by decide)
  induction ps generalizing l with
  | nil => exact absurd rfl hne
  | cons p ps ih =>
    obtain ⟨⟨hp, hcp⟩, hrest⟩ := List.forall_mem_cons.1 hps
    cases ps with
    | nil =>
      have hno : c ∉ l ++ p := fun h => (List.mem_append.1 h).elim (hout hl) hcp
      have htrim := trim_append hl hp (r := []) (by simp)
      rw [List.append_nil] at htrim
      rw [List.intercalate_singleton, splitAll_of_notMem hno, List.map_singleton, htrim]
    | cons q qs =>
      have hno : c ∉ l ++ p ++ [' '] := by
        rw [List.mem_append, List.mem_append]
        exact fun h => h.elim (fun h => h.elim (hout hl) hcp) (hout hspace)
      have hsplit : l ++ [' ', c, ' '].intercalate (p :: q :: qs) =
          (l ++ p ++ [' ']) ++ c :: ([' '] ++ [' ', c, ' '].intercalate (q :: qs)) := by
        simp [List.intercalate_cons_cons]
      rw [hsplit, splitAll_append_cons, splitAll_of_notMem hno, List.singleton_append, List.map_cons,
        trim_append hl hp hspace, ih (List.cons_ne_nil q qs) hrest hspace]

end PresenceCaps
