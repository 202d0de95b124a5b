import PresenceCaps.Datum.Merge

/-! Data in which no table has a key twice, and what merging leaves under every key of a table. -/
namespace PresenceCaps.Datum

/-- No table has a key twice, at any depth. -/
inductive DistinctKeys : Datum → Prop where
  | null : DistinctKeys null
  | bool (b : Bool) : DistinctKeys (bool b)
  | int (n : Int) : DistinctKeys (int n)
  | real (literal : String) : DistinctKeys (real literal)
  | text (s : String) : DistinctKeys (text s)
  | list {items : List Datum} (each : ∀ t ∈ items, DistinctKeys t) : DistinctKeys (list items)
  | table {entries : List (String × Datum)} (nodup : (Assoc.keys entries).Nodup)
      (each : ∀ e ∈ entries, DistinctKeys e.2) : DistinctKeys (table entries)

theorem DistinctKeys.child? {t u : Datum} {k : String} (ht : t.DistinctKeys) (hu : t.child? k = some u) :
    u.DistinctKeys := by
  cases ht with
  | table nodup each => exact each (k, u) (Assoc.mem_of_get?_eq_some hu)
  | _ => exact absurd hu (by simp [Datum.child?])

theorem DistinctKeys.nodup {es : List (String × Datum)} (h : (Datum.table es).DistinctKeys) : (Assoc.keys es).Nodup := by
  cases h with
  | table nodup each => exact nodup

theorem nodup_keys_mergeEntries {base : List (String × Datum)} (h : (Assoc.keys base).Nodup)
    (upper : List (String × Datum)) : (Assoc.keys (mergeEntries base upper)).Nodup := by
  induction upper generalizing base with
  | nil => exact h
  | cons e rest ih =>
    rw [mergeEntries]
    exact ih (Assoc.nodup_keys_set h _ _)

/-- What two tables make together is told key by key. -/
theorem get?_mergeEntries (base : List (String × Datum)) {upper : List (String × Datum)}
    (hn : (Assoc.keys upper).Nodup) (k : String) :
    Assoc.get? (mergeEntries base upper) k = match Assoc.get? upper k with
      | none => Assoc.get? base k
      | some u => some (match Assoc.get? base k with
        | some old => merge old u
        | none => u) := by
  induction upper generalizing base with
  | nil => rfl
  | cons e rest ih =>
    obtain ⟨a, u⟩ := e
    obtain ⟨ha, hrest⟩ := List.nodup_cons.1 hn
    have hmerged := ih (Assoc.set base a (match Assoc.get? base a with
      | some old => merge old u
      | none => u)) hrest
    rw [mergeEntries]
    by_cases hak : a = k
    · -- the key comes once, so nothing after it counts
      subst hak
      have hnone : Assoc.get? rest a = none := Assoc.get?_eq_none_iff.2 ha
      have hfirst : Assoc.get? ((a, u) :: rest) a = some u := if_pos rfl
      rw [hnone, Assoc.get?_set, if_pos rfl] at hmerged
      rw [hfirst]
      exact hmerged
    · rw [Assoc.get?_set, if_neg hak] at hmerged
      rw [Assoc.get?_cons, if_neg hak]
      exact hmerged

/-- Two tables make a table, and under each key what their values there make. -/
theorem child?_merge {base upper : Datum} (hb : base.isTable = true) (hu : upper.isTable = true)
    (hd : upper.DistinctKeys) (k : String) : (base.merge upper).child? k = match upper.child? k with
      | none => base.child? k
      | some u => some (match base.child? k with
        | some old => merge old u
        | none => u) := by
  cases base with
  | table bs =>
    cases upper with
    | table us =>
      rw [merge]
      exact get?_mergeEntries bs hd.nodup k
    | _ => exact absurd hu Bool.false_ne_true
  | _ => exact absurd hb Bool.false_ne_true

theorem isTable_merge {base upper : Datum} (hb : base.isTable = true) : (base.merge upper).isTable = upper.isTable := by
  cases base with
  | table bs =>
    cases upper with
    | table us =>
      rw [merge]
      rfl
    | _ => rfl
  | _ => exact absurd hb Bool.false_ne_true

/-- What is no table replaces whatever is there. -/
theorem merge_of_not_isTable (base : Datum) {upper : Datum} (hu : upper.isTable = false) : base.merge upper = upper := by
  cases base with
  | table bs =>
    cases upper with
    | table us => exact absurd hu.symm Bool.false_ne_true
    | _ => rfl
  | _ => cases upper <;> rfl

end PresenceCaps.Datum
