import PresenceCaps.Proofs.Datum.Distinct
import PresenceCaps.Toml.Document

/-!
A document that can be read has no key twice in any of its tables: whatever statements build it up, a key is set only
where there is none, or where there is a table that takes more keys.
-/
namespace PresenceCaps.Toml

/-- No table has a key twice, at any depth. -/
inductive Node.DistinctKeys : Node → Prop where
  | leaf {value : Datum} (h : value.DistinctKeys) : DistinctKeys (leaf value)
  | moment (text : String) : DistinctKeys (moment text)
  | array {items : List Node} (each : ∀ n ∈ items, DistinctKeys n) : DistinctKeys (array items)
  | inlineTable {entries : Entries} (nodup : (Assoc.keys entries).Nodup)
      (each : ∀ e ∈ entries, DistinctKeys e.2) : DistinctKeys (inlineTable entries)
  | table {origin : Origin} {entries : Entries} (nodup : (Assoc.keys entries).Nodup)
      (each : ∀ e ∈ entries, DistinctKeys e.2) : DistinctKeys (table origin entries)
  | tables {items : List Entries} (nodup : ∀ es ∈ items, (Assoc.keys es).Nodup)
      (each : ∀ es ∈ items, ∀ e ∈ es, DistinctKeys e.2) : DistinctKeys (tables items)

namespace Entries

structure Distinct (es : Entries) : Prop where
  nodup : (Assoc.keys es).Nodup
  each : ∀ e ∈ es, e.2.DistinctKeys

/-- Whether a change of a table keeps its keys apart. -/
def KeepsDistinct (f : Entries → Option Entries) : Prop := ∀ ⦃es es'⦄, Distinct es → f es = some es' → Distinct es'

variable {es : Entries} {k : String} {n : Node} {f : Entries → Option Entries}

theorem Distinct.nil : Distinct [] := ⟨List.nodup_nil, fun _ h => absurd h List.not_mem_nil⟩

theorem Distinct.set (h : es.Distinct) (k : String) (hn : n.DistinctKeys) : Distinct (Assoc.set es k n) where
  nodup := Assoc.nodup_keys_set h.nodup k n
  each e he := by
    have hget := (Assoc.get?_eq_some_iff_mem (Assoc.nodup_keys_set h.nodup k n)).2 he
    rw [Assoc.get?_set] at hget
    split at hget
    · rwa [← Option.some.inj hget]
    · exact h.each _ (Assoc.mem_of_get?_eq_some hget)

theorem Distinct.erase (h : es.Distinct) (k : String) : Distinct (Assoc.erase es k) where
  nodup := Assoc.nodup_keys_erase h.nodup k
  each e he := h.each e (List.filter_sublist.subset he)

theorem Distinct.table {o : Origin} (h : es.Distinct) : (Node.table o es).DistinctKeys := .table h.nodup h.each

theorem Distinct.of_table {o : Origin} (h : (Node.table o es).DistinctKeys) : es.Distinct := by
  cases h with
  | table nodup each => exact ⟨nodup, each⟩

theorem Distinct.get? (h : es.Distinct) (hn : Assoc.get? es k = some n) : n.DistinctKeys :=
  h.each (k, n) (Assoc.mem_of_get?_eq_some hn)

theorem distinctKeys_tables {items : List Entries} :
    (Node.tables items).DistinctKeys ↔ ∀ es ∈ items, Distinct es := by
  constructor
  · intro h
    cases h with
    | tables nodup each => exact fun es hes => ⟨nodup es hes, each es hes⟩
  · exact fun h => .tables (fun es hes => (h es hes).nodup) fun es hes => (h es hes).each

theorem onLast?_distinct (hf : KeepsDistinct f) {items items' : List Entries} (h : ∀ es ∈ items, Distinct es)
    (hl : onLast? f items = some items') : ∀ es ∈ items', Distinct es := by
  induction items generalizing items' with
  | nil => exact absurd hl (by simp [onLast?])
  | cons es rest ih =>
    obtain ⟨hes, hrest⟩ := List.forall_mem_cons.1 h
    cases rest with
    | nil =>
      obtain ⟨es', hes', rfl⟩ := Option.map_eq_some_iff.1 hl
      exact List.forall_mem_singleton.2 (hf hes hes')
    | cons next rest =>
      obtain ⟨rest', hrest', rfl⟩ := Option.map_eq_some_iff.1 hl
      exact List.forall_mem_cons.2 ⟨hes, ih hrest hrest'⟩

theorem enter?_distinct (hf : KeepsDistinct f) (k : String) : KeepsDistinct fun es => enter? f es k := by
  intro es es' h hes
  simp only [enter?] at hes
  split at hes
  · obtain ⟨inner, hinner, rfl⟩ := Option.map_eq_some_iff.1 hes
    exact h.set k (hf .nil hinner).table
  · rename_i o inner hk
    obtain ⟨inner', hinner, rfl⟩ := Option.map_eq_some_iff.1 hes
    exact h.set k (hf (.of_table (h.get? hk)) hinner).table
  · rename_i items hk
    obtain ⟨items', hitems, rfl⟩ := Option.map_eq_some_iff.1 hes
    exact h.set k (distinctKeys_tables.2 (onLast?_distinct hf (distinctKeys_tables.1 (h.get? hk)) hitems))
  · exact absurd hes (by simp)

theorem openTable?_distinct (path : List String) : KeepsDistinct (openTable? path) := by
  induction path with
  | nil => exact fun es es' _ hes => absurd hes (by simp [openTable?])
  | cons k ks ih =>
    cases ks with
    | nil =>
      intro es es' h hes
      unfold openTable? at hes
      split at hes
      · rw [← Option.some.inj hes]
        exact h.set k Distinct.nil.table
      · rename_i inner hk
        rw [← Option.some.inj hes]
        exact (h.erase k).set k (Distinct.of_table (h.get? hk)).table
      · exact absurd hes (by simp)
    | cons l ls => exact enter?_distinct ih k

theorem openItem?_distinct (path : List String) : KeepsDistinct (openItem? path) := by
  induction path with
  | nil => exact fun es es' _ hes => absurd hes (by simp [openItem?])
  | cons k ks ih =>
    cases ks with
    | nil =>
      intro es es' h hes
      have hlast : ∀ es ∈ [([] : Entries)], Distinct es := List.forall_mem_singleton.2 .nil
      unfold openItem? at hes
      split at hes
      · rw [← Option.some.inj hes]
        exact h.set k (distinctKeys_tables.2 hlast)
      · rename_i items hk
        rw [← Option.some.inj hes]
        have hitems := distinctKeys_tables.1 (h.get? hk)
        exact h.set k (distinctKeys_tables.2 fun es he => (List.mem_append.1 he).elim (hitems es) (hlast es))
      · exact absurd hes (by simp)
    | cons l ls => exact enter?_distinct ih k

theorem put?_distinct (hn : n.DistinctKeys) (takesKeys : Bool) (path : List String) :
    KeepsDistinct (put? takesKeys n path) := by
  induction path generalizing takesKeys with
  | nil => exact fun es es' _ hes => absurd hes (by simp [put?])
  | cons k ks ih =>
    intro es es' h hes
    cases ks with
    | nil =>
      unfold put? at hes
      split at hes
      · rw [← Option.some.inj hes]
        exact h.set k hn
      · exact absurd hes (by simp)
    | cons l ls =>
      unfold put? at hes
      split at hes
      · obtain ⟨inner, hinner, rfl⟩ := Option.map_eq_some_iff.1 hes
        exact h.set k (ih true .nil hinner).table
      · rename_i o inner hk
        split at hes
        · exact absurd hes (by simp)
        · obtain ⟨inner', hinner, rfl⟩ := Option.map_eq_some_iff.1 hes
          exact h.set k (ih (o == .dotted) (.of_table (h.get? hk)) hinner).table
      · rename_i items hk
        obtain ⟨items', hitems, rfl⟩ := Option.map_eq_some_iff.1 hes
        exact h.set k (distinctKeys_tables.2
          (onLast?_distinct (ih false) (distinctKeys_tables.1 (h.get? hk)) hitems))
      · exact absurd hes (by simp)

theorem under?_distinct (hf : KeepsDistinct f) (path : List String) : KeepsDistinct (under? f path) := by
  induction path with
  | nil => exact hf
  | cons k ks ih => exact enter?_distinct ih k

end Entries

/-! Values -/

/-- A reader of values with distinct keys. -/
def ReadsDistinct (item : List Char → Option (Node × List Char)) : Prop :=
  ∀ ⦃cs n rest⦄, item cs = some (n, rest) → n.DistinctKeys

section Items
variable {item : List Char → Option (Node × List Char)}

theorem arrayItems?_distinct (hi : ReadsDistinct item) {fuel : Nat} {cs rest : List Char} {ns : List Node}
    (h : arrayItems? item fuel cs = some (ns, rest)) : ∀ n ∈ ns, n.DistinctKeys := by
  induction fuel generalizing cs ns rest with
  | zero => exact absurd h (by simp [arrayItems?])
  | succ fuel ih =>
    unfold arrayItems? at h
    split at h
    · obtain ⟨rfl, -⟩ := Prod.mk.inj (Option.some.inj h)
      exact fun n hn => absurd hn List.not_mem_nil
    · obtain ⟨⟨n, cs'⟩, hn, h⟩ := Option.bind_eq_some_iff.1 h
      dsimp only at h
      split at h
      · obtain ⟨⟨ns', cs''⟩, hns, h⟩ := Option.bind_eq_some_iff.1 h
        obtain ⟨rfl, -⟩ := Prod.mk.inj (Option.some.inj h)
        exact List.forall_mem_cons.2 ⟨hi hn, ih hns⟩
      · obtain ⟨rfl, -⟩ := Prod.mk.inj (Option.some.inj h)
        exact List.forall_mem_singleton.2 (hi hn)
      · exact absurd h (by simp)

theorem inlineEntries?_distinct (hi : ReadsDistinct item) {fuel : Nat} {es es' : Entries} {cs rest : List Char}
    (hes : es.Distinct) (h : inlineEntries? item es fuel cs = some (es', rest)) : es'.Distinct := by
  induction fuel generalizing cs es with
  | zero => exact absurd h (by simp [inlineEntries?])
  | succ fuel ih =>
    unfold inlineEntries? at h
    obtain ⟨⟨k, cs⟩, -, h⟩ := Option.bind_eq_some_iff.1 h
    obtain ⟨cs, -, h⟩ := Option.bind_eq_some_iff.1 h
    obtain ⟨⟨n, cs⟩, hn, h⟩ := Option.bind_eq_some_iff.1 h
    obtain ⟨more, hmore, h⟩ := Option.bind_eq_some_iff.1 h
    have hmore := Entries.put?_distinct (hi hn) true k hes hmore
    split at h
    · exact ih hmore h
    · obtain ⟨rfl, -⟩ := Prod.mk.inj (Option.some.inj h)
      exact hmore
    · exact absurd h (by simp)

theorem inlineTable?_distinct (hi : ReadsDistinct item) (fuel : Nat) : ReadsDistinct (inlineTable? item fuel) := by
  intro cs n rest h
  unfold inlineTable? at h
  split at h
  · obtain ⟨rfl, -⟩ := Prod.mk.inj (Option.some.inj h)
    exact .inlineTable List.nodup_nil fun e he => absurd he List.not_mem_nil
  · obtain ⟨⟨es, cs'⟩, hes, h⟩ := Option.map_eq_some_iff.1 h
    obtain ⟨rfl, -⟩ := Prod.mk.inj h
    obtain ⟨hnodup, heach⟩ := inlineEntries?_distinct hi .nil hes
    exact .inlineTable hnodup heach

end Items

section Numbers
variable {t : Datum} {cs rest rest' : List Char}

theorem integer64Datum?_distinct {base : Nat} {negative : Bool} (h : integer64Datum? base negative cs = some t) :
    t.DistinctKeys := by
  obtain ⟨n, -, h⟩ := Option.bind_eq_some_iff.1 h
  simp only [Option.ite_none_right_eq_some, Option.some.injEq] at h
  obtain ⟨-, rfl⟩ := h
  exact .int _

theorem floatDatum?_distinct {s whole frac exp : List Char} (h : floatDatum? s whole frac exp = some t) :
    t.DistinctKeys := by
  obtain ⟨n, -, h⟩ := Option.bind_eq_some_iff.1 h
  dsimp only at h
  split at h
  · exact absurd h (by simp)
  · rw [← Option.some.inj h]
    exact .real _

theorem distinct_of_map {o : Option Datum} (ho : ∀ t, o = some t → t.DistinctKeys)
    (h : o.map (fun t => (t, rest')) = some (t, rest)) : t.DistinctKeys := by
  obtain ⟨u, hu, heq⟩ := Option.map_eq_some_iff.1 h
  rw [← (Prod.mk.inj heq).1]
  exact ho u hu

theorem based?_distinct {base : Nat} (h : based? base cs = some (t, rest)) : t.DistinctKeys := by
  obtain ⟨⟨ds, rest'⟩, -, h⟩ := Option.bind_eq_some_iff.1 h
  exact distinct_of_map (fun _ => integer64Datum?_distinct) h

theorem special?_distinct (h : special? cs = some (t, rest)) : t.DistinctKeys := by
  unfold special? at h
  dsimp only at h
  split at h
  · rw [← (Prod.mk.inj (Option.some.inj h)).1]
    exact .real _
  · rw [← (Prod.mk.inj (Option.some.inj h)).1]
    exact .real _
  · exact absurd h (by simp)

theorem decimalNumber?_distinct (h : decimalNumber? cs = some (t, rest)) : t.DistinctKeys := by
  obtain ⟨⟨whole, more⟩, -, h⟩ := Option.bind_eq_some_iff.1 h
  dsimp only at h
  split at h
  · split at h
    · exact distinct_of_map (fun _ => floatDatum?_distinct) h
    · exact distinct_of_map (fun _ => floatDatum?_distinct) h
  · split at h
    · exact distinct_of_map (fun _ => floatDatum?_distinct) h
    · exact distinct_of_map (fun _ => integer64Datum?_distinct) h

/-- A number is no table. -/
theorem number?_distinct (h : number? cs = some (t, rest)) : t.DistinctKeys := by
  unfold number? at h
  split at h
  · exact based?_distinct h
  · exact based?_distinct h
  · exact based?_distinct h
  · obtain h | ⟨-, h⟩ := Option.or_eq_some_iff.1 h
    · exact special?_distinct h
    · exact decimalNumber?_distinct h

end Numbers

theorem scalar?_distinct : ReadsDistinct scalar? := by
  intro cs n rest h
  have htext {o : Option (String × List Char)} (h : (o.map fun p => (Node.leaf (.text p.1), p.2)) = some (n, rest)) :
      n.DistinctKeys := by
    obtain ⟨p, -, heq⟩ := Option.map_eq_some_iff.1 h
    rw [← (Prod.mk.inj heq).1]
    exact .leaf (.text p.1)
  unfold scalar? at h
  split at h
  · exact htext h
  · exact htext h
  · rw [← (Prod.mk.inj (Option.some.inj h)).1]
    exact .leaf (.bool true)
  · rw [← (Prod.mk.inj (Option.some.inj h)).1]
    exact .leaf (.bool false)
  · split at h
    · rw [← (Prod.mk.inj (Option.some.inj h)).1]
      exact .moment _
    · obtain ⟨⟨t, more⟩, ht, heq⟩ := Option.map_eq_some_iff.1 h
      rw [← (Prod.mk.inj heq).1]
      exact .leaf (number?_distinct ht)

theorem value?_distinct (size depth : Nat) : ReadsDistinct (value? size depth) := by
  induction depth with
  | zero =>
    intro cs n rest h
    unfold value? at h
    split at h
    · exact absurd h (by simp)
    · exact absurd h (by simp)
    · exact scalar?_distinct h
  | succ depth ih =>
    intro cs n rest h
    unfold value? at h
    split at h
    · obtain ⟨⟨ns, more⟩, hns, heq⟩ := Option.map_eq_some_iff.1 h
      rw [← (Prod.mk.inj heq).1]
      exact .array (arrayItems?_distinct ih hns)
    · exact inlineTable?_distinct ih size h
    · exact scalar?_distinct h

/-! Statements -/

/-- What a statement assigns has distinct keys. -/
def Statement.Distinct : Statement → Prop
  | assign _ n => n.DistinctKeys
  | _ => True

theorem statement?_distinct {size : Nat} {cs rest : List Char} {s : Statement}
    (h : statement? size cs = some (s, rest)) : s.Distinct := by
  unfold statement? at h
  split at h
  · obtain ⟨⟨k, cs⟩, -, h⟩ := Option.bind_eq_some_iff.1 h
    obtain ⟨cs, -, h⟩ := Option.bind_eq_some_iff.1 h
    obtain ⟨cs, -, h⟩ := Option.bind_eq_some_iff.1 h
    rw [← (Prod.mk.inj (Option.some.inj h)).1]
    trivial
  · obtain ⟨⟨k, cs⟩, -, h⟩ := Option.bind_eq_some_iff.1 h
    obtain ⟨cs, -, h⟩ := Option.bind_eq_some_iff.1 h
    obtain ⟨cs, -, h⟩ := Option.bind_eq_some_iff.1 h
    rw [← (Prod.mk.inj (Option.some.inj h)).1]
    trivial
  · obtain ⟨⟨k, cs⟩, -, h⟩ := Option.bind_eq_some_iff.1 h
    obtain ⟨cs, -, h⟩ := Option.bind_eq_some_iff.1 h
    obtain ⟨⟨n, cs⟩, hn, h⟩ := Option.bind_eq_some_iff.1 h
    obtain ⟨cs, -, h⟩ := Option.bind_eq_some_iff.1 h
    rw [← (Prod.mk.inj (Option.some.inj h)).1]
    exact value?_distinct size depthLimit hn

theorem statements?_distinct {size fuel : Nat} {cs : List Char} {taken ss : List Statement}
    (ht : ∀ s ∈ taken, s.Distinct) (h : statements? size taken fuel cs = some ss) : ∀ s ∈ ss, s.Distinct := by
  induction fuel generalizing cs taken with
  | zero => exact absurd h (by simp [statements?])
  | succ fuel ih =>
    unfold statements? at h
    split at h
    · rw [← Option.some.inj h]
      exact fun s hs => ht s (List.mem_reverse.1 hs)
    · obtain ⟨⟨s, cs'⟩, hs, h⟩ := Option.bind_eq_some_iff.1 h
      exact ih (List.forall_mem_cons.2 ⟨statement?_distinct hs, ht⟩) h

theorem Building.step?_distinct {b b' : Building} {s : Statement} (hb : b.root.Distinct) (hs : s.Distinct)
    (h : b.step? s = some b') : b'.root.Distinct := by
  cases s with
  | openTable path =>
    obtain ⟨root, hroot, rfl⟩ := Option.map_eq_some_iff.1 h
    exact Entries.openTable?_distinct path hb hroot
  | openItem path =>
    obtain ⟨root, hroot, rfl⟩ := Option.map_eq_some_iff.1 h
    exact Entries.openItem?_distinct path hb hroot
  | assign path n =>
    obtain ⟨root, hroot, rfl⟩ := Option.map_eq_some_iff.1 h
    exact Entries.under?_distinct (Entries.put?_distinct hs true path) b.header hb hroot

theorem foldlM_distinct {ss : List Statement} {b b' : Building} (hb : b.root.Distinct) (hs : ∀ s ∈ ss, s.Distinct)
    (h : ss.foldlM Building.step? b = some b') : b'.root.Distinct := by
  induction ss generalizing b with
  | nil =>
    obtain rfl := Option.some.inj h
    exact hb
  | cons s ss ih =>
    obtain ⟨hfirst, hrest⟩ := List.forall_mem_cons.1 hs
    obtain ⟨next, hnext, h⟩ := Option.bind_eq_some_iff.1 h
    exact ih (Building.step?_distinct hb hfirst hnext) hrest h

/-! The datum that a document stands for -/

theorem Node.moment?_eq_some {n : Node} {t : Datum} (h : n.moment? = some t) : ∃ s, t = .text s := by
  unfold moment? at h
  split at h
  · obtain ⟨s, -, rfl⟩ := Option.map_eq_some_iff.1 h
    exact ⟨s, rfl⟩
  · exact absurd h (by simp)

theorem keys_of_entriesToData? {es : Entries} {ts : List (String × Datum)} (h : entriesToData? es = some ts) :
    Assoc.keys ts = Assoc.keys es := by
  induction es generalizing ts with
  | nil =>
    rw [← Option.some.inj h]
    rfl
  | cons e es ih =>
    obtain ⟨t, -, h⟩ := Option.bind_eq_some_iff.1 h
    obtain ⟨ts', hts, rfl⟩ := Option.map_eq_some_iff.1 h
    exact congrArg (e.1 :: ·) (ih hts)

/-- A table becomes a table, unless it stands for a moment. -/
theorem tableToDatum?_cases {es : Entries} {t : Datum} (h : tableToDatum? es = some t) :
    (∃ s, t = .text s) ∨ ∃ ts, entriesToData? es = some ts ∧ t = .table ts := by
  cases es with
  | nil => exact Or.inr ⟨[], rfl, (Option.some.inj h).symm⟩
  | cons e es =>
    obtain ⟨k, n⟩ := e
    unfold tableToDatum? at h
    split at h
    · exact Or.inl (Node.moment?_eq_some h)
    · obtain ⟨u, hu, h⟩ := Option.bind_eq_some_iff.1 h
      obtain ⟨ts, hts, rfl⟩ := Option.map_eq_some_iff.1 h
      exact Or.inr ⟨(k, u) :: ts, by rw [entriesToData?, hu, Option.bind_some, hts]; rfl, rfl⟩

mutual

theorem Node.toDatum?_distinct : ∀ {n : Node} {t : Datum}, n.DistinctKeys → n.toDatum? = some t → t.DistinctKeys
  | .leaf _, _, .leaf h, ht => by
    rw [← Option.some.inj ht]
    exact h
  | .moment s, _, _, ht => by
    rw [← Option.some.inj ht]
    exact .text s
  | .array items, _, .array each, ht => by
    obtain ⟨ts, hts, rfl⟩ := Option.map_eq_some_iff.1 ht
    exact .list (arrayToData?_distinct each hts)
  | .inlineTable es, _, .inlineTable nodup each, ht => tableToDatum?_distinct ⟨nodup, each⟩ ht
  | .table _ es, _, .table nodup each, ht => tableToDatum?_distinct ⟨nodup, each⟩ ht
  | .tables items, _, .tables nodup each, ht => by
    obtain ⟨ts, hts, rfl⟩ := Option.map_eq_some_iff.1 ht
    exact .list (tablesToData?_distinct (fun es hes => ⟨nodup es hes, each es hes⟩) hts)

theorem arrayToData?_distinct : ∀ {ns : List Node} {ts : List Datum}, (∀ n ∈ ns, n.DistinctKeys) →
    arrayToData? ns = some ts → ∀ t ∈ ts, t.DistinctKeys
  | [], _, _, h => by
    rw [← Option.some.inj h]
    exact fun t ht => absurd ht List.not_mem_nil
  | n :: ns, _, hn, h => by
    obtain ⟨hfirst, hrest⟩ := List.forall_mem_cons.1 hn
    obtain ⟨t, ht, h⟩ := Option.bind_eq_some_iff.1 h
    obtain ⟨ts, hts, rfl⟩ := Option.map_eq_some_iff.1 h
    exact List.forall_mem_cons.2 ⟨Node.toDatum?_distinct hfirst ht, arrayToData?_distinct hrest hts⟩

theorem tableToDatum?_distinct : ∀ {es : List (String × Node)} {t : Datum}, Entries.Distinct es →
    tableToDatum? es = some t → t.DistinctKeys
  | [], _, _, h => by
    rw [← Option.some.inj h]
    exact .table List.nodup_nil fun e he => absurd he List.not_mem_nil
  | (k, n) :: es, t, hes, h => by
    obtain ⟨s, rfl⟩ | ⟨ts, hts, rfl⟩ := tableToDatum?_cases h
    · exact .text s
    · refine .table (by rw [keys_of_entriesToData? hts]; exact hes.nodup) ?_
      obtain ⟨hfirst, hrest⟩ := List.forall_mem_cons.1 hes.each
      obtain ⟨u, hu, hts⟩ := Option.bind_eq_some_iff.1 hts
      obtain ⟨us, hus, rfl⟩ := Option.map_eq_some_iff.1 hts
      exact List.forall_mem_cons.2 ⟨Node.toDatum?_distinct hfirst hu, entriesToData?_distinct hrest hus⟩

theorem entriesToData?_distinct : ∀ {es : List (String × Node)} {ts : List (String × Datum)},
    (∀ e ∈ es, e.2.DistinctKeys) → entriesToData? es = some ts → ∀ t ∈ ts, t.2.DistinctKeys
  | [], _, _, h => by
    rw [← Option.some.inj h]
    exact fun t ht => absurd ht List.not_mem_nil
  | (k, n) :: es, _, hn, h => by
    obtain ⟨hfirst, hrest⟩ := List.forall_mem_cons.1 hn
    obtain ⟨t, ht, h⟩ := Option.bind_eq_some_iff.1 h
    obtain ⟨ts, hts, rfl⟩ := Option.map_eq_some_iff.1 h
    exact List.forall_mem_cons.2 ⟨Node.toDatum?_distinct hfirst ht, entriesToData?_distinct hrest hts⟩

theorem tablesToData?_distinct : ∀ {items : List (List (String × Node))} {ts : List Datum},
    (∀ es ∈ items, Entries.Distinct es) → tablesToData? items = some ts → ∀ t ∈ ts, t.DistinctKeys
  | [], _, _, h => by
    rw [← Option.some.inj h]
    exact fun t ht => absurd ht List.not_mem_nil
  | es :: items, _, hes, h => by
    obtain ⟨hfirst, hrest⟩ := List.forall_mem_cons.1 hes
    obtain ⟨t, ht, h⟩ := Option.bind_eq_some_iff.1 h
    obtain ⟨ts, hts, rfl⟩ := Option.map_eq_some_iff.1 h
    exact List.forall_mem_cons.2 ⟨tableToDatum?_distinct hfirst ht, tablesToData?_distinct hrest hts⟩

end

/-- No table of a document has a key twice. -/
theorem distinctKeys_of_parse? {s : String} {t : Datum} (h : parse? s = some t) : t.DistinctKeys := by
  obtain ⟨ss, hss, h⟩ := Option.bind_eq_some_iff.1 h
  obtain ⟨b, hb, h⟩ := Option.bind_eq_some_iff.1 h
  have hstatements := statements?_distinct (fun s hs => absurd hs List.not_mem_nil) hss
  exact tableToDatum?_distinct (foldlM_distinct (b := ⟨[], []⟩) .nil hstatements hb) h

end PresenceCaps.Toml
