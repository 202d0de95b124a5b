import PresenceCaps.Proofs.Datum.Distinct

/-!
What merging leaves at every path: what the upper datum has there goes before what the lower one has, tables are joined,
and merging the same datum once more changes nothing.
-/
namespace PresenceCaps.Datum
variable {base overlay u v : Datum} {p : List String}

/-- Under a key of a table, whatever that table is laid over. -/
theorem child?_merge_of_isTable (base : Datum) (ht : overlay.isTable = true) (hd : overlay.DistinctKeys) (k : String) :
    (base.merge overlay).child? k = match overlay.child? k with
      | none => base.child? k
      | some u => some (match base.child? k with
        | some old => merge old u
        | none => u) := by
  by_cases hb : base.isTable = true
  · exact child?_merge hb ht hd k
  · -- what is no table is replaced and has no keys
    have hmerge : base.merge overlay = overlay := by
      cases base with
      | table bs => exact absurd rfl hb
      | _ => cases overlay <;> rfl
    have hchild : base.child? k = none := by
      cases base with
      | table bs => exact absurd rfl hb
      | _ => rfl
    rw [hmerge, hchild]
    cases overlay.child? k <;> rfl

/-- Only a table has anything under a key. -/
theorem isTable_of_child? {k : String} (h : overlay.child? k = some u) : overlay.isTable = true := by
  cases overlay with
  | table es => rfl
  | _ => exact absurd h (by simp [child?])

/-- At a path of the upper datum, its value there is laid over what the lower one has there. -/
theorem get?_merge_of_get?_eq_some (hd : overlay.DistinctKeys) (base : Datum) (h : overlay.get? p = some u) :
    (base.merge overlay).get? p = some (match base.get? p with
      | some old => merge old u
      | none => u) := by
  induction p generalizing base overlay with
  | nil =>
    obtain rfl := Option.some.inj h
    rfl
  | cons k p ih =>
    rw [get?_cons] at h
    obtain ⟨c, hc, hu⟩ := Option.bind_eq_some_iff.1 h
    have hchild := child?_merge_of_isTable base (isTable_of_child? hc) hd k
    rw [get?_cons, get?_cons, hchild, hc]
    cases base.child? k with
    | none => exact hu
    | some old => exact ih (hd.child? hc) old hu

/-- Where the upper datum has nothing, and nothing on the way that would replace a table, the lower one shows. -/
theorem get?_merge_of_get?_eq_none (hd : overlay.DistinctKeys) (base : Datum) (h : overlay.get? p = none)
    (hway : ∀ q, q <+: p → q ≠ p → ∀ v, overlay.get? q = some v → v.isTable = true) :
    (base.merge overlay).get? p = base.get? p := by
  induction p generalizing base overlay with
  | nil => exact absurd h (by simp)
  | cons k p ih =>
    have ht : overlay.isTable = true := hway [] List.nil_prefix (List.cons_ne_nil k p).symm overlay rfl
    have hchild := child?_merge_of_isTable base ht hd k
    rw [get?_cons] at h
    rw [get?_cons, get?_cons, hchild]
    cases hc : overlay.child? k with
    | none => rfl
    | some c =>
      rw [hc, Option.bind_some] at h
      cases base.child? k with
      | none => exact h
      | some old =>
        refine ih (hd.child? hc) old h fun q hq hne v hv => ?_
        have hlonger : overlay.get? (k :: q) = some v := by rw [get?_cons, hc, Option.bind_some, hv]
        exact hway (k :: q) (List.cons_prefix_cons.2 ⟨rfl, hq⟩) (fun he => hne (List.cons.inj he).2) v hlonger

theorem DistinctKeys.get? (hd : overlay.DistinctKeys) (h : overlay.get? p = some u) : u.DistinctKeys := by
  induction p generalizing overlay with
  | nil => exact Option.some.inj h ▸ hd
  | cons k p ih =>
    obtain ⟨c, hc, hu⟩ := Option.bind_eq_some_iff.1 h
    exact ih (hd.child? hc) hu

theorem mem_keys_mergeEntries {base upper : List (String × Datum)} (hn : (Assoc.keys upper).Nodup) (k : String) :
    k ∈ Assoc.keys (mergeEntries base upper) ↔ k ∈ Assoc.keys upper ∨ k ∈ Assoc.keys base := by
  have hget := get?_mergeEntries base hn k
  have hnone : k ∉ Assoc.keys (mergeEntries base upper) ↔ k ∉ Assoc.keys upper ∧ k ∉ Assoc.keys base := by
    rw [← Assoc.get?_eq_none_iff, ← Assoc.get?_eq_none_iff, ← Assoc.get?_eq_none_iff, hget]
    cases Assoc.get? upper k <;> simp
  rw [← not_or] at hnone
  exact Decidable.not_iff_not.1 hnone

/-- Entries that are there as they are wanted are left alone. -/
theorem mergeEntries_eq_self {base upper : List (String × Datum)}
    (h : ∀ e ∈ upper, ∃ old, Assoc.get? base e.1 = some old ∧ merge old e.2 = old) :
    mergeEntries base upper = base := by
  induction upper with
  | nil => rfl
  | cons e rest ih =>
    obtain ⟨k, u⟩ := e
    obtain ⟨hfirst, hrest⟩ := List.forall_mem_cons.1 h
    obtain ⟨old, hold, hsame⟩ := hfirst
    have hset : Assoc.set base k old = base := Assoc.set_of_get?_eq_some hold
    simp only [mergeEntries, hold, hsame, hset]
    exact ih hrest

theorem DistinctKeys.merge_self (h : u.DistinctKeys) : u.merge u = u := by
  induction h with
  | @table es nodup each ih =>
    rw [merge, mergeEntries_eq_self]
    intro e he
    exact ⟨e.2, (Assoc.get?_eq_some_iff_mem nodup).2 he, ih e he⟩
  | _ => rfl

/-- What has been merged in is there. -/
theorem DistinctKeys.merge_merge (h : overlay.DistinctKeys) (base : Datum) :
    (base.merge overlay).merge overlay = base.merge overlay := by
  induction h generalizing base with
  | @table us nodup each ih =>
    cases base with
    | table bs =>
      rw [merge, merge, mergeEntries_eq_self]
      intro e he
      obtain ⟨k, u⟩ := e
      have hget := get?_mergeEntries bs nodup k
      rw [(Assoc.get?_eq_some_iff_mem nodup).2 he] at hget
      refine ⟨_, hget, ?_⟩
      -- under a key that was there the same holds one level down, and a new value is merged with itself
      cases Assoc.get? bs k with
      | none => exact (each (k, u) he).merge_self
      | some old => exact ih (k, u) he old
    | _ => exact (DistinctKeys.table nodup each).merge_self
  | _ =>
    rw [merge_of_not_isTable base rfl]
    rfl

theorem DistinctKeys.merge (hb : base.DistinctKeys) (hu : overlay.DistinctKeys) :
    (base.merge overlay).DistinctKeys := by
  induction hu generalizing base with
  | @table us nodup each ih =>
    cases hb with
    | @table bs nodup' each' =>
      rw [Datum.merge]
      have hkeys := nodup_keys_mergeEntries nodup' us
      refine .table hkeys fun e he => ?_
      obtain ⟨k, v⟩ := e
      have hv := (Assoc.get?_eq_some_iff_mem hkeys).2 he
      rw [get?_mergeEntries bs nodup k] at hv
      cases hupper : Assoc.get? us k with
      | none =>
        rw [hupper] at hv
        exact each' (k, v) (Assoc.mem_of_get?_eq_some hv)
      | some u =>
        have hmem := Assoc.mem_of_get?_eq_some hupper
        rw [hupper] at hv
        obtain rfl := Option.some.inj hv
        cases hbase : Assoc.get? bs k with
        | none => exact each (k, u) hmem
        | some old => exact ih (k, u) hmem (each' (k, old) (Assoc.mem_of_get?_eq_some hbase))
    | _ => exact .table nodup each
  | list each =>
    rw [merge_of_not_isTable base rfl]
    exact .list each
  | _ =>
    rw [merge_of_not_isTable base rfl]
    constructor

/-- What merging leaves at a path is what the upper datum has there, if it is no table; what the lower one has there, if
the upper one has nothing there and nothing but tables on the way; and where the upper one has a table, a table with the
keys of both. So the same datum may be merged in again, and nothing changes. No key comes twice if none did before. -/
theorem merged_value_at_path (base : Datum) (hd : overlay.DistinctKeys) :
    (∀ p v, overlay.get? p = some v → v.isTable = false → (base.merge overlay).get? p = some v) ∧
    (∀ p, overlay.get? p = none → (∀ q, q <+: p → q ≠ p → ∀ v, overlay.get? q = some v → v.isTable = true) →
      (base.merge overlay).get? p = base.get? p) ∧
    (∀ p us, overlay.get? p = some (table us) → ∃ ms, (base.merge overlay).get? p = some (table ms) ∧
      ∀ k, k ∈ Assoc.keys ms ↔
        k ∈ Assoc.keys us ∨ ∃ bs, base.get? p = some (table bs) ∧ k ∈ Assoc.keys bs) ∧
    (base.merge overlay).merge overlay = base.merge overlay ∧
    (base.DistinctKeys → (base.merge overlay).DistinctKeys) := by
  refine ⟨fun p v hv ht => ?_, fun p hp hway => get?_merge_of_get?_eq_none hd base hp hway, fun p us hp => ?_,
    hd.merge_merge base, fun hb => hb.merge hd⟩
  · rw [get?_merge_of_get?_eq_some hd base hv]
    cases base.get? p with
    | none => rfl
    | some old => exact congrArg some (merge_of_not_isTable old ht)
  · have hkeys : (Assoc.keys us).Nodup := (hd.get? hp).nodup
    rw [get?_merge_of_get?_eq_some hd base hp]
    cases base.get? p with
    | none => exact ⟨us, rfl, fun k => by simp⟩
    | some old =>
      cases old with
      | table bs =>
        have hjoined : (table bs).merge (table us) = table (mergeEntries bs us) := by rw [merge]
        refine ⟨mergeEntries bs us, congrArg some hjoined, fun k => ?_⟩
        rw [mem_keys_mergeEntries hkeys]
        simp
      | _ => exact ⟨us, rfl, fun k => by simp⟩

/-- A table over a number, a number over a table, and tables over each other. -/
theorem value_at_path_of_crossedTables :
    let base : Datum := .table [("a", .table [("x", .int 1), ("y", .int 2)]), ("c", .int 5),
      ("d", .table [("e", .int 1)])]
    let overlay : Datum := .table [("a", .table [("y", .int 3), ("w", .table [])]), ("c", .table [("f", .int 6)]),
      ("d", .int 7)]
    overlay.DistinctKeys ∧ (base.merge overlay).get? ["a", "y"] = some (.int 3) ∧
      (base.merge overlay).get? ["d"] = some (.int 7) ∧ (base.merge overlay).get? ["a", "x"] = some (.int 1) ∧
      (∃ ms, (base.merge overlay).get? ["a"] = some (.table ms) ∧ "x" ∈ Assoc.keys ms ∧ "w" ∈ Assoc.keys ms ∧
        "e" ∉ Assoc.keys ms) ∧ (base.merge overlay).merge overlay = base.merge overlay ∧
      (base.merge overlay).DistinctKeys := by
  intro base overlay
  have hints (k : String) (n : Int) : (Datum.table [(k, .int n)]).DistinctKeys :=
    .table (by simp [Assoc.keys]) (List.forall_mem_singleton.2 (.int n))
  have hempty : (Datum.table []).DistinctKeys := .table List.nodup_nil fun e he => absurd he List.not_mem_nil
  have hover : overlay.DistinctKeys := by
    refine .table (by decide) (List.forall_mem_cons.2 ⟨.table (by decide) ?_, List.forall_mem_cons.2
      ⟨hints "f" 6, List.forall_mem_singleton.2 (.int 7)⟩⟩)
    exact List.forall_mem_cons.2 ⟨.int 3, List.forall_mem_singleton.2 hempty⟩
  have hbase : base.DistinctKeys := by
    refine .table (by decide) (List.forall_mem_cons.2 ⟨.table (by decide) ?_, List.forall_mem_cons.2
      ⟨.int 5, List.forall_mem_singleton.2 (hints "e" 1)⟩⟩)
    exact List.forall_mem_cons.2 ⟨.int 1, List.forall_mem_singleton.2 (.int 2)⟩
  obtain ⟨hleaf, hshown, htable, htwice, hdistinct⟩ := merged_value_at_path base hover
  obtain ⟨ms, hms, hkeys⟩ := htable ["a"] _ rfl
  have hway : ∀ q, q <+: ["a", "x"] → q ≠ ["a", "x"] → ∀ v, overlay.get? q = some v → v.isTable = true := by
    intro q hq hne v hv
    have hcases : q = [] ∨ q = ["a"] := by
      rcases List.prefix_cons_iff.1 hq with rfl | ⟨t, rfl, ht⟩
      · exact Or.inl rfl
      · rcases List.prefix_cons_iff.1 ht with rfl | ⟨u, rfl, hu⟩
        · exact Or.inr rfl
        · obtain rfl := List.prefix_nil.1 hu
          exact absurd rfl hne
    rcases hcases with rfl | rfl
    · exact Option.some.inj hv ▸ rfl
    · exact Option.some.inj hv ▸ rfl
  have hx : (base.merge overlay).get? ["a", "x"] = base.get? ["a", "x"] := hshown _ rfl hway
  refine ⟨hover, hleaf ["a", "y"] _ rfl rfl, hleaf ["d"] _ rfl rfl, hx, ⟨ms, hms, ?_, ?_, fun he => ?_⟩, htwice,
    hdistinct hbase⟩
  · exact (hkeys "x").2 (Or.inr ⟨_, rfl, by decide⟩)
  · exact (hkeys "w").2 (Or.inl (by decide))
  · rcases (hkeys "e").1 he with hu | ⟨bs, hbs, hb⟩
    · exact absurd hu (by decide)
    · obtain rfl := table.inj (Option.some.inj hbs)
      exact absurd hb (by decide)

end PresenceCaps.Datum
