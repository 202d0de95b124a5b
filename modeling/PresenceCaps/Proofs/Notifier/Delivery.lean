import Mathlib.Data.List.Nodup
import PresenceCaps.Notifier.Sinks

/-!
What sinks are called with: every change that is published while they are registered, once each and in order, whatever
they do when they are called.
-/
namespace PresenceCaps.Sinks
variable {σ : Type} {s t r : Sinks σ} {id : SinkId} {c : Change}

/-- Sinks have different numbers, all of them given out, and so had those that were called. -/
structure Proper (s : Sinks σ) : Prop where
  nodup : s.registered.keys.Nodup
  registered_lt : ∀ id ∈ s.registered.keys, id.value < s.opened
  called_lt : ∀ e ∈ s.calls, e.1.value < s.opened

theorem Proper.empty : Proper (.empty : Sinks σ) where
  nodup := List.nodup_nil
  registered_lt _ h := absurd h List.not_mem_nil
  called_lt _ h := absurd h List.not_mem_nil

theorem contains_iff_mem_keys : s.contains id = true ↔ id ∈ s.registered.keys := by
  rw [contains, Assoc.contains, Option.isSome_iff_ne_none, Ne, Assoc.get?_eq_none_iff, not_not]

/-- A later registry has given out more numbers, and of the sinks known before has registered none again. -/
structure Precedes (s t : Sinks σ) : Prop where
  opened_le : s.opened ≤ t.opened
  contains : ∀ id : SinkId, id.value < s.opened → t.contains id = true → s.contains id = true

theorem Precedes.refl (s : Sinks σ) : s.Precedes s := ⟨Nat.le_refl _, fun _ _ h => h⟩

theorem Precedes.trans (h : s.Precedes t) (h' : t.Precedes r) : s.Precedes r where
  opened_le := Nat.le_trans h.opened_le h'.opened_le
  contains id hid hr := h.contains id hid (h'.contains id (Nat.lt_of_lt_of_le hid h.opened_le) hr)

theorem contains_register (s : Sinks σ) (sink : σ) (id : SinkId) :
    (s.register sink).1.contains id = (decide (id.value = s.opened) || s.contains id) := by
  rw [contains, Assoc.contains, register, Assoc.get?_set]
  obtain ⟨n⟩ := id
  by_cases hn : n = s.opened
  · simp [hn]
  · have hne : (⟨s.opened⟩ : SinkId) ≠ ⟨n⟩ := fun he => hn (congrArg SinkId.value he).symm
    rw [if_neg hne, decide_eq_false hn, Bool.false_or, contains, Assoc.contains]

theorem contains_unregister (s : Sinks σ) (id other : SinkId) :
    (s.unregister other).contains id = (decide (id ≠ other) && s.contains id) := by
  rw [contains, Assoc.contains, unregister, Assoc.get?_erase]
  by_cases hid : other = id
  · simp [hid]
  · rw [if_neg hid, decide_eq_true (Ne.symm hid), Bool.true_and, contains, Assoc.contains]

theorem precedes_register (s : Sinks σ) (sink : σ) : s.Precedes (s.register sink).1 where
  opened_le := Nat.le_succ _
  contains id hid h := by
    rw [contains_register, Bool.or_eq_true, decide_eq_true_iff] at h
    exact h.resolve_left (Nat.ne_of_lt hid)

theorem precedes_unregister (s : Sinks σ) (other : SinkId) : s.Precedes (s.unregister other) where
  opened_le := Nat.le_refl _
  contains id _ h := by
    rw [contains_unregister, Bool.and_eq_true] at h
    exact h.2

theorem precedes_edit (s : Sinks σ) (e : SinkEdit σ) : s.Precedes (s.edit e) := by
  cases e with
  | register sink => exact s.precedes_register sink
  | unregister other => exact s.precedes_unregister other

/-- Who is called when the registered sinks are, in whatever order. -/
theorem Proper.visited_lt (hs : s.Proper) {visit : Assoc SinkId σ} (hv : visit.Perm s.registered) :
    ∀ e ∈ visit, e.1.value < s.opened := fun e he =>
  hs.registered_lt e.1 (List.mem_map_of_mem (hv.mem_iff.1 he))

theorem Proper.register (hs : s.Proper) (sink : σ) : (s.register sink).1.Proper where
  nodup := Assoc.nodup_keys_set hs.nodup _ _
  registered_lt id hid := by
    rcases Assoc.mem_keys_set hid with rfl | hid
    · exact Nat.lt_succ_self _
    · exact Nat.lt_succ_of_lt (hs.registered_lt id hid)
  called_lt e he := Nat.lt_succ_of_lt (hs.called_lt e he)

theorem Proper.unregister (hs : s.Proper) (other : SinkId) : (s.unregister other).Proper where
  nodup := Assoc.nodup_keys_erase hs.nodup other
  registered_lt id hid := hs.registered_lt id ((List.filter_sublist.map Prod.fst).subset hid)
  called_lt := hs.called_lt

theorem Proper.edit (hs : s.Proper) (e : SinkEdit σ) : (s.edit e).Proper := by
  cases e with
  | register sink => exact hs.register sink
  | unregister other => exact hs.unregister other

theorem calls_edit (s : Sinks σ) (e : SinkEdit σ) : (s.edit e).calls = s.calls := by
  cases e <;> rfl

/-- What holds of any number of edits, made one after the other. -/
theorem foldl_edit (hs : s.Proper) (edits : List (SinkEdit σ)) :
    (edits.foldl edit s).Proper ∧ s.Precedes (edits.foldl edit s) ∧ (edits.foldl edit s).calls = s.calls := by
  induction edits generalizing s with
  | nil => exact ⟨hs, .refl s, rfl⟩
  | cons e edits ih =>
    obtain ⟨hproper, hprecedes, hcalls⟩ := ih (hs.edit e)
    exact ⟨hproper, (s.precedes_edit e).trans hprecedes, hcalls.trans (s.calls_edit e)⟩

section Notify
variable (react : SinkId → σ → Change → Reaction σ)

theorem call_proper (hs : s.Proper) {e : SinkId × σ} (he : e.1.value < s.opened) (c : Change) :
    (s.call react c e).Proper ∧ s.Precedes (s.call react c e) ∧ (s.call react c e).calls = s.calls ++ [(e.1, c)] := by
  have hnoted : Proper { s with calls := s.calls ++ [(e.1, c)] } := by
    refine ⟨hs.nodup, hs.registered_lt, fun x hx => ?_⟩
    rcases List.mem_append.1 hx with hx | hx
    · exact hs.called_lt x hx
    · rw [List.mem_singleton.1 hx]
      exact he
  obtain ⟨hproper, hprecedes, hcalls⟩ := foldl_edit hnoted (react e.1 e.2 c).edits
  exact ⟨hproper, ⟨hprecedes.opened_le, hprecedes.contains⟩, hcalls⟩

/-- Those that are to be called are called, whatever the others do meanwhile. -/
theorem deliver_proper (hs : s.Proper) (visit : Assoc SinkId σ) (hv : ∀ e ∈ visit, e.1.value < s.opened) (c : Change) :
    (deliver react c visit s).Proper ∧ s.Precedes (deliver react c visit s) ∧
      (deliver react c visit s).calls = s.calls ++ visit.map fun e => (e.1, c) := by
  induction visit generalizing s with
  | nil => exact ⟨hs, .refl s, (List.append_nil _).symm⟩
  | cons e visit ih =>
    obtain ⟨hproper, hprecedes, hcalls⟩ := call_proper react hs (hv e List.mem_cons_self) c
    -- the sinks to call were fixed in advance, and a sink that was called may have changed who is registered
    have hrest : ∀ e' ∈ visit, e'.1.value < (s.call react c e).opened := fun e' he' =>
      Nat.lt_of_lt_of_le (hv e' (List.mem_cons_of_mem e he')) hprecedes.opened_le
    obtain ⟨hproper', hprecedes', hcalls'⟩ := ih hproper hrest
    refine ⟨hproper', hprecedes.trans hprecedes', ?_⟩
    rw [deliver, List.foldl_cons, ← deliver, hcalls', hcalls, List.append_assoc]
    rfl

theorem notify_proper (hs : s.Proper) (c : Change) : (s.notify react c).Proper ∧ s.Precedes (s.notify react c) ∧
    (s.notify react c).calls = s.calls ++ s.registered.map fun e => (e.1, c) :=
  deliver_proper react hs s.registered (hs.visited_lt (.refl _)) c

/-- A change goes once to every sink that is registered when it comes, in whatever order they are called, and to no
other. -/
theorem received_deliver (hs : s.Proper) {visit : Assoc SinkId σ} (hv : visit.Perm s.registered) (c : Change)
    (id : SinkId) :
    (deliver react c visit s).received id = s.received id ++ if s.contains id then [c] else [] := by
  have hcalls := (deliver_proper react hs visit (hs.visited_lt hv) c).2.2
  have hperm : visit.keys.Perm s.registered.keys := hv.map Prod.fst
  have hmem : id ∈ visit.keys ↔ s.contains id = true := hperm.mem_iff.trans contains_iff_mem_keys.symm
  -- a registered sink is among those to call, and since numbers differ it is so once
  have hnew : ((visit.map fun e => (e.1, c)).filter fun e => e.1 == id).map Prod.snd =
      if s.contains id then [c] else [] := by
    have hkeys : ((visit.map fun e => (e.1, c)).filter fun e => e.1 == id).map Prod.snd =
        (visit.keys.filter (· == id)).map fun _ => c := by
      rw [Assoc.keys, List.filter_map, List.filter_map, List.map_map, List.map_map]
      rfl
    rw [hkeys, List.filter_beq, (hperm.nodup_iff.2 hs.nodup).count, List.map_replicate]
    by_cases hid : id ∈ visit.keys
    · rw [if_pos hid, if_pos (hmem.1 hid)]
      rfl
    · rw [if_neg hid, if_neg (mt hmem.2 hid)]
      rfl
  rw [received, hcalls, List.filter_append, List.map_append, hnew, received]

theorem received_notify (hs : s.Proper) (c : Change) (id : SinkId) :
    (s.notify react c).received id = s.received id ++ if s.contains id then [c] else [] :=
  received_deliver react hs (.refl _) c id

end Notify

/-- A sink that has no number yet was never called. -/
theorem Proper.received_eq_nil (hs : s.Proper) (hid : s.opened ≤ id.value) : s.received id = [] := by
  rw [received, List.filter_eq_nil_iff.2, List.map_nil]
  intro e he heq
  have hlt := hs.called_lt e he
  rw [eq_of_beq heq] at hlt
  exact absurd hlt (Nat.not_lt.2 hid)

end PresenceCaps.Sinks
