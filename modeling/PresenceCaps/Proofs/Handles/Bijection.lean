import PresenceCaps.Handles

/-!
The two sides of a registry and its counter belong together: they say what one list says, that of the contacts in the
order in which they were first named. So handles and contacts name each other, and go on doing so.
-/
namespace PresenceCaps.Handles
variable {h : Handles} {a b : BareAddress} {x : ContactHandle} {n : UInt32} {as : List BareAddress}

/-- The contact stands at the place that the handle counts to, from one. -/
def Numbers (as : List BareAddress) (x : ContactHandle) (a : BareAddress) : Prop :=
  ∃ i, as[i]? = some a ∧ x.value.toNat = i + 1

theorem Numbers.mem (ha : Numbers as x a) : a ∈ as := by
  obtain ⟨i, hi, -⟩ := ha
  exact List.mem_of_getElem? hi

theorem exists_numbers (ha : a ∈ as) (hfew : as.length ≤ 4294967295) : ∃ x, Numbers as x a := by
  obtain ⟨i, hi⟩ := List.mem_iff_getElem?.1 ha
  have hlt : i < as.length := (List.getElem?_eq_some_iff.1 hi).1
  exact ⟨⟨.ofNat (i + 1)⟩, i, hi, UInt32.toNat_ofNat_of_lt' (Nat.succ_lt_succ (Nat.lt_of_lt_of_le hlt hfew))⟩

theorem Numbers.append (ha : Numbers as x a) (bs : List BareAddress) : Numbers (as ++ bs) x a := by
  obtain ⟨i, hi, hx⟩ := ha
  have hlt : i < as.length := (List.getElem?_eq_some_iff.1 hi).1
  exact ⟨i, by rw [List.getElem?_append_left hlt, hi], hx⟩

/-- One more contact leaves the numbers of the others. -/
theorem numbers_concat_iff :
    Numbers (as ++ [a]) x b ↔ Numbers as x b ∨ a = b ∧ x.value.toNat = as.length + 1 := by
  constructor
  · rintro ⟨i, hi, hx⟩
    rw [List.getElem?_append] at hi
    split at hi
    · exact Or.inl ⟨i, hi, hx⟩
    · rename_i hge
      rw [List.getElem?_singleton] at hi
      split at hi
      · exact Or.inr ⟨Option.some.inj hi, by omega⟩
      · exact absurd hi (by simp)
  · rintro (hb | ⟨rfl, hx⟩)
    · exact hb.append [a]
    · exact ⟨as.length, List.getElem?_concat_length, hx⟩

/-- The registry knows these contacts, in this order. -/
structure Lists (h : Handles) (as : List BareAddress) : Prop where
  last : h.last.toNat = as.length
  size : h.size = as.length
  handle?_iff : ∀ {a x}, h.handle? a = some x ↔ Numbers as x a
  contact?_iff : ∀ {x a}, h.contact? x = some a ↔ Numbers as x a

theorem Lists.empty : Lists .empty [] where
  last := rfl
  size := rfl
  handle?_iff := iff_of_false (by simp [handle?, Handles.empty]) (by simp [Numbers])
  contact?_iff := iff_of_false (by simp [contact?, Handles.empty]) (by simp [Numbers])

namespace Lists

theorem length_le (hl : h.Lists as) : as.length ≤ 4294967295 := by
  rw [← hl.last]
  exact Nat.le_of_lt_succ h.last.toNat_lt

theorem handle?_eq_none_iff (hl : h.Lists as) : h.handle? a = none ↔ a ∉ as := by
  rw [Option.eq_none_iff_forall_ne_some]
  constructor
  · intro hnone ha
    obtain ⟨x, hx⟩ := exists_numbers ha hl.length_le
    exact hnone x (hl.handle?_iff.2 hx)
  · intro ha x hx
    exact ha (hl.handle?_iff.1 hx).mem

/-- A number that was not given out yet stands for nobody. -/
theorem contact?_next (hl : h.Lists as) (hn : n.toNat = h.last.toNat + 1) : h.contact? ⟨n⟩ = none := by
  rw [Option.eq_none_iff_forall_ne_some]
  intro b hb
  obtain ⟨i, hi, hx⟩ := hl.contact?_iff.1 hb
  have hlt : i < as.length := (List.getElem?_eq_some_iff.1 hi).1
  have hlast := hl.last
  dsimp only at hx
  omega

/-- Both sides and the counter move on together. -/
theorem give (hl : h.Lists as) (hnew : a ∉ as) (hn : n.toNat = h.last.toNat + 1) : (h.give n a).Lists (as ++ [a]) := by
  have hnobody := hl.contact?_next hn
  have hnumber (x : ContactHandle) : (⟨n⟩ : ContactHandle) = x ↔ x.value.toNat = as.length + 1 := by
    rw [← hl.last, ← hn, UInt32.toNat_inj]
    exact ⟨fun he => he ▸ rfl, fun he => he ▸ rfl⟩
  refine ⟨?_, ?_, @fun b x => ?_, @fun x b => ?_⟩
  · rw [List.length_append, ← hl.last]
    exact hn
  · -- nothing is overwritten, so that there is one entry more
    have hset : (h.give n a).byHandle = h.byHandle ++ [(⟨n⟩, a)] := Assoc.set_of_get?_eq_none hnobody a
    rw [Handles.size, hset, List.length_append, List.length_append, ← hl.size]
    rfl
  · rw [handle?_give, numbers_concat_iff]
    split
    · rename_i hab
      subst hab
      have hno : ¬ Numbers as x a := fun hx => hnew hx.mem
      rw [Option.some_inj, hnumber]
      simp only [hno, true_and, false_or]
    · rename_i hab
      rw [hl.handle?_iff]
      simp only [hab, false_and, or_false]
  · rw [contact?_give, numbers_concat_iff, ← hnumber]
    split
    · rename_i hx
      subst hx
      have hno : ¬ Numbers as ⟨n⟩ b := fun hx => by
        rw [← hl.contact?_iff, hnobody] at hx
        exact absurd hx (by simp)
      rw [Option.some_inj]
      simp only [hno, and_true, false_or]
    · rename_i hx
      rw [hl.contact?_iff]
      simp only [hx, and_false, or_false]

end Lists

/-- A contact is found, or it is given the next number. -/
theorem ensure_cases {p : Handles × ContactHandle} (he : h.ensure a = .ok p) :
    p.1 = h ∧ h.handle? a = some p.2 ∨
    h.handle? a = none ∧ ∃ n, n.toNat = h.last.toNat + 1 ∧ p = (h.give n a, ⟨n⟩) := by
  rw [ensure] at he
  split at he
  · rename_i x hx
    obtain rfl := Except.ok.inj he
    exact Or.inl ⟨rfl, hx⟩
  · rename_i hx
    split at he
    · rename_i n hn
      exact Or.inr ⟨hx, n, next?_eq_some_iff.1 hn, (Except.ok.inj he).symm⟩
    · exact absurd he (by simp)

theorem handle?_ensure {p : Handles × ContactHandle} (he : h.ensure a = .ok p) : p.1.handle? a = some p.2 := by
  obtain ⟨hsame, hx⟩ | ⟨-, n, -, rfl⟩ := ensure_cases he
  · rw [hsame, hx]
  · rw [handle?_give, if_pos rfl]

/-- A contact that is named goes to the end of the list, unless it is there. -/
def appear (as : List BareAddress) (a : BareAddress) : List BareAddress := if a ∈ as then as else as ++ [a]

theorem prefix_appear (as : List BareAddress) (a : BareAddress) : as <+: appear as a := by
  rw [appear]
  split
  · exact List.prefix_refl as
  · exact List.prefix_append as [a]

/-- On the list, giving out handles is naming contacts. -/
theorem Lists.ensure (hl : h.Lists as) {p : Handles × ContactHandle} (he : h.ensure a = .ok p) :
    p.1.Lists (appear as a) := by
  obtain ⟨hsame, hx⟩ | ⟨hnone, n, hn, rfl⟩ := ensure_cases he
  · rwa [appear, if_pos (hl.handle?_iff.1 hx).mem, hsame]
  · have hnew := hl.handle?_eq_none_iff.1 hnone
    rw [appear, if_neg hnew]
    exact hl.give hnew hn

/-- There is a list that the registry keeps. -/
def Sound (h : Handles) : Prop := ∃ as, h.Lists as

namespace Sound

theorem empty : Sound .empty := ⟨[], .empty⟩

theorem handle?_eq_some_iff (hs : h.Sound) : h.handle? a = some x ↔ h.contact? x = some a := by
  obtain ⟨as, hl⟩ := hs
  rw [hl.handle?_iff, hl.contact?_iff]

theorem ensure (hs : h.Sound) {p : Handles × ContactHandle} (he : h.ensure a = .ok p) : p.1.Sound := by
  obtain ⟨as, hl⟩ := hs
  exact ⟨appear as a, hl.ensure he⟩

/-- What a handle stands for it stands for ever. -/
theorem contact?_ensure (hs : h.Sound) {p : Handles × ContactHandle} (he : h.ensure a = .ok p)
    (hx : h.contact? x = some b) : p.1.contact? x = some b := by
  obtain ⟨as, hl⟩ := hs
  obtain ⟨bs, hbs⟩ := prefix_appear as a
  rw [(hl.ensure he).contact?_iff, ← hbs]
  exact (hl.contact?_iff.1 hx).append bs

end Sound
end PresenceCaps.Handles
