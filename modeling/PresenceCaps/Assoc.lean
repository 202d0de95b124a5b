/-! Finite maps as lists of pairs, in the order in which keys first came. -/
namespace PresenceCaps

abbrev Assoc (α β : Type) := List (α × β)

namespace Assoc
variable {α β : Type} [DecidableEq α]

def get? (m : Assoc α β) (k : α) : Option β :=
  match m with
  | [] => none
  | (a, b) :: rest => if a = k then some b else get? rest k

/-- A present key keeps its place, a new one goes to the end. -/
def set (m : Assoc α β) (k : α) (v : β) : Assoc α β :=
  match m with
  | [] => [(k, v)]
  | (a, b) :: rest => if a = k then (a, v) :: rest else (a, b) :: set rest k v

def erase (m : Assoc α β) (k : α) : Assoc α β :=
  m.filter fun e => decide (e.1 ≠ k)

/-- Changes the value of a present key only. -/
def modify (m : Assoc α β) (k : α) (f : β → β) : Assoc α β :=
  m.map fun e => if e.1 = k then (e.1, f e.2) else e

def contains (m : Assoc α β) (k : α) : Bool := (m.get? k).isSome

def keys (m : Assoc α β) : List α := m.map Prod.fst

@[simp] theorem get?_nil (k : α) : get? ([] : Assoc α β) k = none := rfl

theorem get?_cons (a k : α) (b : β) (m : Assoc α β) :
    get? ((a, b) :: m) k = if a = k then some b else get? m k := rfl

theorem get?_set (m : Assoc α β) (k a : α) (v : β) :
    get? (set m k v) a = if k = a then some v else get? m a := by
  induction m with
  | nil => simp [set, get?]
  | cons e m ih =>
    obtain ⟨x, y⟩ := e
    by_cases hx : x = k
    · subst hx
      by_cases ha : x = a <;> simp [set, get?, ha]
    · by_cases ha : x = a
      · subst ha
        simp [set, get?, hx, Ne.symm hx]
      · simp [set, get?, hx, ha, ih]

theorem get?_erase (m : Assoc α β) (k a : α) :
    get? (erase m k) a = if k = a then none else get? m a := by
  induction m with
  | nil => simp [erase]
  | cons e m ih =>
    obtain ⟨x, y⟩ := e
    rw [erase] at ih ⊢
    by_cases hx : x = k
    · subst hx
      by_cases ha : x = a <;> simp_all [get?]
    · by_cases ha : x = a
      · subst ha
        simp [get?, hx, Ne.symm hx]
      · simpa [get?, hx, ha] using ih

theorem get?_modify (m : Assoc α β) (k a : α) (f : β → β) :
    get? (modify m k f) a = if k = a then (get? m a).map f else get? m a := by
  induction m with
  | nil => simp [modify]
  | cons e m ih =>
    obtain ⟨x, y⟩ := e
    rw [modify] at ih ⊢
    by_cases hx : x = k
    · subst hx
      by_cases ha : x = a <;> simp_all [get?]
    · by_cases ha : x = a
      · subst ha
        simp [get?, hx, Ne.symm hx]
      · simp [get?, hx, ha, ih]

theorem keys_modify (m : Assoc α β) (k : α) (f : β → β) : keys (modify m k f) = keys m := by
  rw [keys, keys, modify, List.map_map]
  refine List.map_congr_left fun e _ => ?_
  simp only [Function.comp]
  split <;> rfl

theorem mem_of_get?_eq_some {m : Assoc α β} {k : α} {v : β} (h : get? m k = some v) : (k, v) ∈ m := by
  induction m with
  | nil => simp at h
  | cons e m ih =>
    obtain ⟨x, y⟩ := e
    rw [get?_cons] at h
    split at h
    · simp_all
    · exact List.mem_cons_of_mem _ (ih h)

theorem get?_eq_none_iff {m : Assoc α β} {k : α} : get? m k = none ↔ k ∉ keys m := by
  induction m with
  | nil => simp [keys]
  | cons e m ih =>
    obtain ⟨x, y⟩ := e
    rw [get?_cons]
    by_cases hx : x = k
    · simp [hx, keys]
    · rw [if_neg hx, ih]
      simp [keys, Ne.symm hx]

/-- A new key goes to the end. -/
theorem set_of_get?_eq_none {m : Assoc α β} {k : α} (h : get? m k = none) (v : β) : set m k v = m ++ [(k, v)] := by
  induction m with
  | nil => rfl
  | cons e m ih =>
    obtain ⟨x, y⟩ := e
    rw [get?_cons] at h
    by_cases hx : x = k
    · simp [hx] at h
    · rw [if_neg hx] at h
      rw [set, if_neg hx, ih h]
      rfl

/-- With each key there once, look-up and membership agree. -/
theorem get?_eq_some_iff_mem {m : Assoc α β} (hm : (keys m).Nodup) {k : α} {v : β} :
    get? m k = some v ↔ (k, v) ∈ m := by
  refine ⟨mem_of_get?_eq_some, fun h => ?_⟩
  induction m with
  | nil => simp at h
  | cons e m ih =>
    obtain ⟨x, y⟩ := e
    obtain ⟨hx, hm⟩ := List.nodup_cons.1 hm
    rw [get?_cons]
    rcases List.mem_cons.1 h with heq | h
    · simp_all
    · have hk : k ∈ keys m := List.mem_map_of_mem h
      have hne : x ≠ k := fun he => hx (he ▸ hk)
      rw [if_neg hne]
      exact ih hm h

theorem mem_keys_set {m : Assoc α β} {k a : α} {v : β} (h : a ∈ keys (set m k v)) : a = k ∨ a ∈ keys m := by
  induction m with
  | nil => simpa [set, keys] using h
  | cons e m ih =>
    obtain ⟨x, y⟩ := e
    unfold set at h
    split at h
    · exact Or.inr h
    · rcases List.mem_cons.1 h with rfl | h
      · exact Or.inr (by simp [keys])
      · exact (ih h).imp_right (List.mem_cons_of_mem _)

theorem nodup_keys_set {m : Assoc α β} (h : (keys m).Nodup) (k : α) (v : β) : (keys (set m k v)).Nodup := by
  induction m with
  | nil => simp [set, keys]
  | cons e m ih =>
    obtain ⟨x, y⟩ := e
    obtain ⟨hx, hm⟩ := List.nodup_cons.1 h
    unfold set
    split
    · exact h
    · rename_i hxk
      exact List.nodup_cons.2 ⟨fun hmem => (mem_keys_set hmem).elim hxk hx, ih hm⟩

theorem nodup_keys_erase {m : Assoc α β} (h : (keys m).Nodup) (k : α) : (keys (erase m k)).Nodup :=
  h.sublist (List.filter_sublist.map Prod.fst)

theorem nodup_keys_modify {m : Assoc α β} (h : (keys m).Nodup) (k : α) (f : β → β) :
    (keys (modify m k f)).Nodup := by
  rwa [keys_modify]

/-- Writing back what is there changes nothing. -/
theorem set_of_get?_eq_some {m : Assoc α β} {k : α} {v : β} (h : get? m k = some v) : set m k v = m := by
  induction m with
  | nil => simp at h
  | cons e m ih =>
    obtain ⟨x, y⟩ := e
    rw [get?_cons] at h
    by_cases hx : x = k
    · rw [if_pos hx] at h
      rw [set, if_pos hx, Option.some.inj h]
    · rw [if_neg hx] at h
      rw [set, if_neg hx, ih h]

theorem set_set (m : Assoc α β) (k : α) (v w : β) : set (set m k v) k w = set m k w := by
  induction m with
  | nil => simp [set]
  | cons e m ih =>
    obtain ⟨x, y⟩ := e
    by_cases hx : x = k <;> simp [set, hx, ih]

/-- Two keys keep their order, whichever is written first, unless both are new. -/
theorem set_comm {m : Assoc α β} {k l : α} (hne : k ≠ l) (hk : (get? m k).isSome) (v w : β) :
    set (set m k v) l w = set (set m l w) k v := by
  induction m with
  | nil => simp at hk
  | cons e m ih =>
    obtain ⟨x, y⟩ := e
    rw [get?_cons] at hk
    by_cases hxk : x = k
    · simp [set, hxk, hne]
    · rw [if_neg hxk] at hk
      by_cases hxl : x = l
      · simp [set, hxl, Ne.symm hne]
      · simp [set, hxk, hxl, ih hk]

theorem erase_set_self (m : Assoc α β) (k : α) (v : β) : erase (set m k v) k = erase m k := by
  induction m with
  | nil => simp [set, erase]
  | cons e m ih =>
    obtain ⟨x, y⟩ := e
    rw [erase, erase] at ih
    by_cases hx : x = k
    · simp [set, hx, erase]
    · simpa [set, hx, erase] using ih

theorem erase_set_of_ne (m : Assoc α β) {k l : α} (hne : k ≠ l) (v : β) :
    erase (set m k v) l = set (erase m l) k v := by
  induction m with
  | nil => simp [set, erase, hne]
  | cons e m ih =>
    obtain ⟨x, y⟩ := e
    rw [erase, erase] at ih
    by_cases hxk : x = k
    · simp [set, hxk, erase, hne]
    · by_cases hxl : x = l
      · simpa [set, hxl, erase, Ne.symm hne] using ih
      · simpa [set, hxk, hxl, erase] using ih

theorem erase_comm (m : Assoc α β) (k l : α) : erase (erase m k) l = erase (erase m l) k := by
  rw [erase, erase, List.filter_filter, erase, erase, List.filter_filter]
  exact List.filter_congr fun _ _ => Bool.and_comm ..

theorem modify_comm (m : Assoc α β) {k l : α} (hne : k ≠ l) (f g : β → β) :
    modify (modify m k f) l g = modify (modify m l g) k f := by
  rw [modify, modify, List.map_map, modify, modify, List.map_map]
  refine List.map_congr_left fun e _ => ?_
  simp only [Function.comp]
  by_cases hk : e.1 = k
  · simp [hk, hne]
  · by_cases hl : e.1 = l <;> simp [hk, hl, Ne.symm hne]

end Assoc
end PresenceCaps
