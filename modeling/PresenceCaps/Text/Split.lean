/-! Splitting at a character, and ASCII lower case. -/
namespace PresenceCaps

/-- The text before and after the first occurrence. -/
def splitFirst (c : Char) : List Char → Option (List Char × List Char)
  | [] => none
  | a :: cs =>
    if a = c then some ([], cs)
    else (splitFirst c cs).map fun p => (a :: p.1, p.2)

/-- All parts between the occurrences, so one more part than occurrences. -/
def splitAll (c : Char) : List Char → List (List Char)
  | [] => [[]]
  | a :: cs =>
    if a = c then [] :: splitAll c cs
    else match splitAll c cs with
      | [] => [[a]]
      | p :: ps => (a :: p) :: ps

theorem splitFirst_eq_none_iff {c : Char} {cs : List Char} : splitFirst c cs = none ↔ c ∉ cs := by
  induction cs with
  | nil => simp [splitFirst]
  | cons a cs ih =>
    by_cases h : a = c
    · simp [splitFirst, h]
    · simp [splitFirst, h, ih, Ne.symm h]

theorem splitFirst_eq_some_iff {c : Char} {cs l r : List Char} :
    splitFirst c cs = some (l, r) ↔ cs = l ++ c :: r ∧ c ∉ l := by
  induction cs generalizing l with
  | nil => simp [splitFirst]
  | cons a cs ih =>
    by_cases h : a = c
    · cases l with
      | nil => simp [splitFirst, h, eq_comm]
      | cons b l =>
        simp only [splitFirst, h, if_true, Option.some.injEq, Prod.mk.injEq, List.cons_append, List.cons.injEq]
        grind
    · cases l with
      | nil => simp [splitFirst, h]
      | cons b l =>
        simp only [splitFirst, h, if_false, Option.map_eq_some_iff, Prod.exists, Prod.mk.injEq, List.cons.injEq,
          List.cons_append, List.mem_cons, not_or]
        grind

theorem splitAll_ne_nil (c : Char) (cs : List Char) : splitAll c cs ≠ [] := by
  cases cs with
  | nil => exact List.cons_ne_nil _ _
  | cons a cs =>
    rw [splitAll]
    split
    · exact List.cons_ne_nil _ _
    · cases splitAll c cs <;> exact List.cons_ne_nil _ _

/-- What stands before a separator is split on its own. -/
theorem splitAll_append_cons (c : Char) (l r : List Char) :
    splitAll c (l ++ c :: r) = splitAll c l ++ splitAll c r := by
  induction l with
  | nil => simp [splitAll]
  | cons a l ih =>
    rw [List.cons_append, splitAll, splitAll, ih]
    by_cases h : a = c
    · rw [if_pos h, if_pos h, List.cons_append]
    · rw [if_neg h, if_neg h]
      cases hl : splitAll c l with
      | nil => exact absurd hl (splitAll_ne_nil c l)
      | cons p ps => rfl

theorem splitAll_of_notMem {c : Char} {cs : List Char} (h : c ∉ cs) : splitAll c cs = [cs] := by
  induction cs with
  | nil => rfl
  | cons a cs ih =>
    rw [List.mem_cons, not_or] at h
    rw [splitAll, if_neg (Ne.symm h.1), ih h.2]

def lower (cs : List Char) : List Char := cs.map Char.toLower

theorem toNat_toLower (c : Char) :
    c.toLower.toNat = if 65 ≤ c.toNat ∧ c.toNat ≤ 90 then c.toNat + 32 else c.toNat := by
  have e : (c.val ≥ 'A'.val ∧ c.val ≤ 'Z'.val) ↔ (65 ≤ c.toNat ∧ c.toNat ≤ 90) := Iff.rfl
  unfold Char.toLower
  split
  · rename_i h
    rw [if_pos (e.1 h)]
    show (c.val + ('a'.val - 'A'.val)).toNat = c.val.toNat + 32
    have h1 : c.val.toNat ≤ 90 := h.2
    have h2 : ('a'.val - 'A'.val).toNat = 32 := by decide
    rw [UInt32.toNat_add]
    omega
  · rename_i h
    rw [if_neg (mt e.2 h)]

theorem toLower_toLower (c : Char) : c.toLower.toLower = c.toLower := by
  apply Char.toNat_inj.1
  rw [toNat_toLower c.toLower, if_neg]
  rw [toNat_toLower]
  split <;> omega

/-- Only a letter can come out of a letter. -/
theorem eq_of_toLower_eq {c x : Char} (h : c.toLower = x) (hx : ¬ (97 ≤ x.toNat ∧ x.toNat ≤ 122)) : c = x := by
  have hn := toNat_toLower c
  rw [h] at hn
  apply Char.toNat_inj.1
  split at hn <;> omega

theorem lower_lower (cs : List Char) : lower (lower cs) = lower cs := by
  rw [lower, lower, List.map_map]
  exact List.map_congr_left fun c _ => toLower_toLower c

theorem mem_lower_iff {x : Char} (hx : ¬ (97 ≤ x.toNat ∧ x.toNat ≤ 122)) (hX : x.toLower = x) {cs : List Char} :
    x ∈ lower cs ↔ x ∈ cs := by
  rw [lower, List.mem_map]
  exact ⟨fun ⟨c, hc, e⟩ => eq_of_toLower_eq e hx ▸ hc, fun h => ⟨x, h, hX⟩⟩

end PresenceCaps
