import Mathlib.Algebra.Group.Nat.Defs
import Mathlib.Data.Finset.Card
import PresenceCaps.Proofs.Handles.Bijection

/-!
Contacts that ask for handles one after the other: each gets the number of its first turn among the different ones,
keeps it for ever, and is what the number stands for.
-/
namespace PresenceCaps.Handles
variable {h h' h'' : Handles} {a b : BareAddress} {as bs l r : List BareAddress} {x : ContactHandle}
  {xs : List ContactHandle}

/-- The handles that these contacts are given, in turn. -/
def ensureAll (h : Handles) : List BareAddress → Except ServiceError (Handles × List ContactHandle)
  | [] => .ok (h, [])
  | a :: as => do
    let (h, x) ← h.ensure a
    let (h, xs) ← ensureAll h as
    return (h, x :: xs)

theorem ensureAll_cons (he : h.ensure a = .ok (h', x)) (hrest : h'.ensureAll as = .ok (h'', xs)) :
    h.ensureAll (a :: as) = .ok (h'', x :: xs) := by
  simp only [ensureAll, he, hrest, bind, Except.bind]
  rfl

/-- The list once these contacts are named, in turn. -/
def appearAll (as bs : List BareAddress) : List BareAddress := bs.foldl appear as

theorem appearAll_cons (as bs : List BareAddress) (b : BareAddress) :
    appearAll as (b :: bs) = appearAll (appear as b) bs := rfl

theorem appearAll_append (as bs cs : List BareAddress) :
    appearAll as (bs ++ cs) = appearAll (appearAll as bs) cs := List.foldl_append

theorem prefix_appearAll (as bs : List BareAddress) : as <+: appearAll as bs := by
  induction bs generalizing as with
  | nil => exact List.prefix_refl as
  | cons b bs ih => exact (prefix_appear as b).trans (ih (appear as b))

theorem nodup_appear (hn : as.Nodup) (a : BareAddress) : (appear as a).Nodup := by
  rw [appear]
  split
  · exact hn
  · rename_i ha
    exact List.nodup_append_comm.1 (List.nodup_cons.2 ⟨ha, hn⟩)

theorem toFinset_appear (as : List BareAddress) (a : BareAddress) :
    (appear as a).toFinset = (as ++ [a]).toFinset := by
  rw [appear]
  split
  · rename_i ha
    rw [List.toFinset_append, Finset.union_eq_left.2]
    intro b hb
    rw [List.mem_toFinset, List.mem_singleton] at hb
    exact List.mem_toFinset.2 (hb ▸ ha)
  · rfl

theorem nodup_appearAll (hn : as.Nodup) (bs : List BareAddress) : (appearAll as bs).Nodup := by
  induction bs generalizing as with
  | nil => exact hn
  | cons b bs ih => exact ih (nodup_appear hn b)

theorem toFinset_appearAll (as bs : List BareAddress) : (appearAll as bs).toFinset = (as ++ bs).toFinset := by
  induction bs generalizing as with
  | nil => rw [List.append_nil]; rfl
  | cons b bs ih =>
    rw [appearAll_cons, ih, List.toFinset_append, toFinset_appear, ← List.toFinset_append, List.append_assoc,
      List.singleton_append]

theorem mem_appearAll : a ∈ appearAll as bs ↔ a ∈ as ∨ a ∈ bs := by
  rw [← List.mem_toFinset, toFinset_appearAll, List.mem_toFinset, List.mem_append]

theorem length_appearAll (hn : as.Nodup) (bs : List BareAddress) :
    (appearAll as bs).length = (as ++ bs).toFinset.card := by
  rw [← toFinset_appearAll, List.toFinset_card_of_nodup (nodup_appearAll hn bs)]

/-- A contact stands where its first turn put it, after those that had one before. -/
theorem appearAll_prefix_of_first (hfirst : a ∉ l) : appearAll [] l ++ [a] <+: appearAll [] (l ++ a :: r) := by
  have hnew : a ∉ appearAll [] l := fun ha => (mem_appearAll.1 ha).elim List.not_mem_nil hfirst
  have hturn : appear (appearAll [] l) a = appearAll [] l ++ [a] := if_neg hnew
  rw [appearAll_append, appearAll_cons, ← hturn]
  exact prefix_appearAll _ r

namespace Lists

theorem exists_contact?_iff (hl : h.Lists as) :
    (∃ a, h.contact? x = some a) ↔ 1 ≤ x.value.toNat ∧ x.value.toNat ≤ h.size := by
  rw [hl.size]
  constructor
  · rintro ⟨a, ha⟩
    obtain ⟨i, hi, hx⟩ := hl.contact?_iff.1 ha
    have hlt : i < as.length := (List.getElem?_eq_some_iff.1 hi).1
    omega
  · rintro ⟨hpos, hle⟩
    have hlt : x.value.toNat - 1 < as.length := by omega
    refine ⟨as[x.value.toNat - 1], hl.contact?_iff.2 ⟨x.value.toNat - 1, List.getElem?_eq_getElem hlt, ?_⟩⟩
    omega

/-- There is always a handle for a contact that has one, and for another while not all are given out. -/
theorem exists_ensure (hl : h.Lists as) (hroom : (appear as a).length < 2 ^ 32) : ∃ p, h.ensure a = .ok p := by
  rw [Handles.ensure]
  cases hx : h.handle? a with
  | some x => exact ⟨_, rfl⟩
  | none =>
    rw [appear, if_neg (hl.handle?_eq_none_iff.1 hx), List.length_append, ← hl.last] at hroom
    have hnext : (UInt32.ofNat (h.last.toNat + 1)).toNat = h.last.toNat + 1 := UInt32.toNat_ofNat_of_lt' hroom
    rw [next?_eq_some_iff.2 hnext]
    exact ⟨_, rfl⟩

/-- A contact keeps its handle, whoever is named. -/
theorem handle?_kept (hl : h.Lists as) (hl' : h'.Lists (appearAll as bs)) (hx : h.handle? a = some x) :
    h'.handle? a = some x := by
  obtain ⟨cs, hcs⟩ := prefix_appearAll as bs
  rw [hl'.handle?_iff, ← hcs]
  exact (hl.handle?_iff.1 hx).append cs

/-- A contact has the number of its first turn among the different ones. -/
theorem handle?_of_first (hl : h.Lists (appearAll [] (l ++ a :: r))) (hfirst : a ∉ l) :
    ∃ x, h.handle? a = some x ∧ x.value.toNat = l.toFinset.card + 1 := by
  obtain ⟨cs, hcs⟩ := appearAll_prefix_of_first (r := r) hfirst
  have hcard : (appearAll [] l).length = l.toFinset.card := length_appearAll List.nodup_nil l
  have hroom := hl.length_le
  rw [← hcs, List.length_append, List.length_append, List.length_singleton, hcard] at hroom
  have hnumber : (UInt32.ofNat (l.toFinset.card + 1)).toNat = l.toFinset.card + 1 :=
    UInt32.toNat_ofNat_of_lt' (Nat.lt_of_le_of_lt (Nat.le_trans (Nat.le_add_right _ _) hroom) (by decide))
  refine ⟨⟨.ofNat (l.toFinset.card + 1)⟩, ?_, hnumber⟩
  rw [hl.handle?_iff, ← hcs]
  exact (numbers_concat_iff.2 (Or.inr ⟨rfl, hcard ▸ hnumber⟩)).append cs

/-- While there are few enough of them, nobody is turned away: on the list, contacts that ask in turn are named in
turn, and every turn gives the handle that the contact has in the end. -/
theorem exists_ensureAll (hl : h.Lists as) (hfew : (appearAll as bs).length < 2 ^ 32) :
    ∃ h' xs, h.ensureAll bs = .ok (h', xs) ∧ h'.Lists (appearAll as bs) ∧ xs.map some = bs.map h'.handle? := by
  induction bs generalizing h as with
  | nil => exact ⟨h, [], rfl, hl, rfl⟩
  | cons b bs ih =>
    have hroom := Nat.lt_of_le_of_lt (prefix_appearAll (appear as b) bs).length_le hfew
    obtain ⟨⟨h₁, x⟩, he⟩ := hl.exists_ensure hroom
    obtain ⟨h₂, xs, hrest, hl₂, hgiven⟩ := ih (hl.ensure he) hfew
    -- what this turn gave outlasts the turns that follow
    have hkept : h₂.handle? b = some x := (hl.ensure he).handle?_kept hl₂ (handle?_ensure he)
    exact ⟨h₂, x :: xs, ensureAll_cons he hrest, hl₂, by rw [List.map_cons, List.map_cons, hgiven, hkept]⟩

end Lists

/-- Contacts of which fewer than 2^32 are different all get handles. Then contacts and handles name each other; the
handles that were given are the numbers from one up to how many contacts there are, of which there is one for each
contact, the number of its first turn among the different ones; every turn of a contact gave the handle that it has in
the end, and whatever contacts ask afterwards, it keeps this handle and gets it again. No other number stands for
anybody. -/
theorem contacts_are_numbered_for_ever (as : List BareAddress) (hfew : as.toFinset.card < 2 ^ 32) :
    ∃ h xs, empty.ensureAll as = .ok (h, xs) ∧
      (∀ x a, h.contact? x = some a ↔ h.handle? a = some x) ∧
      (∀ x, x ∈ xs ↔ 1 ≤ x.value.toNat ∧ x.value.toNat ≤ h.size) ∧ h.size = as.toFinset.card ∧
      (∀ l a r, as = l ++ a :: r → a ∉ l → ∃ x, h.handle? a = some x ∧ x.value.toNat = l.toFinset.card + 1) ∧
      xs.map some = as.map h.handle? ∧ (∀ a, a ∉ as → h.handle? a = none) ∧
      (∀ bs, (as ++ bs).toFinset.card < 2 ^ 32 → ∃ h' ys, h.ensureAll bs = .ok (h', ys) ∧
        ∀ a x, h.handle? a = some x → h'.handle? a = some x ∧ h'.ensure a = .ok (h', x)) ∧
      h.contact? ⟨0⟩ = none ∧ ∀ x, x ∉ xs → h.contact? x = none := by
  have hlength (bs : List BareAddress) : (appearAll [] bs).length = bs.toFinset.card :=
    length_appearAll List.nodup_nil bs
  have hmem {a : BareAddress} {bs : List BareAddress} : a ∈ appearAll [] bs ↔ a ∈ bs := by
    rw [mem_appearAll, or_iff_right List.not_mem_nil]
  obtain ⟨h, xs, hrun, hl, hturns⟩ := Lists.empty.exists_ensureAll (by rwa [hlength])
  have hpair {x : ContactHandle} {a : BareAddress} : h.contact? x = some a ↔ h.handle? a = some x := by
    rw [hl.contact?_iff, hl.handle?_iff]
  have hgiven {x : ContactHandle} : x ∈ xs ↔ ∃ a, h.contact? x = some a := by
    have hturn : x ∈ xs ↔ some x ∈ as.map h.handle? := by simp [← hturns]
    rw [hturn, List.mem_map]
    constructor
    · rintro ⟨a, -, ha⟩
      exact ⟨a, hpair.2 ha⟩
    · rintro ⟨a, ha⟩
      exact ⟨a, hmem.1 (hl.contact?_iff.1 ha).mem, hpair.1 ha⟩
  refine ⟨h, xs, hrun, fun x a => hpair, fun x => hgiven.trans hl.exists_contact?_iff, by rw [hl.size, hlength],
    fun l a r heq hfirst => ?_, hturns, fun a ha => hl.handle?_eq_none_iff.2 (mt hmem.1 ha), fun bs hbs => ?_,
    ?_, fun x hx => ?_⟩
  · subst heq
    exact hl.handle?_of_first hfirst
  · have hroom : (appearAll (appearAll [] as) bs).length < 2 ^ 32 := by rwa [← appearAll_append, hlength]
    obtain ⟨h', ys, hlater, hl', -⟩ := hl.exists_ensureAll hroom
    refine ⟨h', ys, hlater, fun a x hx => ?_⟩
    have hkept := hl.handle?_kept hl' hx
    exact ⟨hkept, by rw [ensure, hkept]⟩
  · by_contra hsome
    obtain ⟨a, ha⟩ := Option.ne_none_iff_exists'.1 hsome
    obtain ⟨i, -, hi⟩ := hl.contact?_iff.1 ha
    exact absurd hi (Nat.succ_ne_zero i).symm
  · cases hc : h.contact? x with
    | none => rfl
    | some a => exact absurd (hgiven.2 ⟨a, hc⟩) hx

/-- A contact that comes back, twice, has its first handle still. -/
theorem numbered_of_returningContact :
    let bob : BareAddress := .ofParts "bob".toList "example.com".toList (by decide) (by decide)
    let carol : BareAddress := .ofParts "carol".toList "example.com".toList (by decide) (by decide)
    let dave : BareAddress := .ofParts "dave".toList "example.com".toList (by decide) (by decide)
    [bob, carol, bob].toFinset.card < 2 ^ 32 ∧ ∃ h, empty.ensureAll [bob, carol, bob] = .ok (h, [⟨1⟩, ⟨2⟩, ⟨1⟩]) ∧
      h.contact? ⟨2⟩ = some carol ∧ h.handle? dave = none ∧ h.contact? ⟨0⟩ = none ∧ h.contact? ⟨3⟩ = none ∧
      ∃ h' ys, h.ensureAll [dave, bob] = .ok (h', ys) ∧ h'.handle? bob = some ⟨1⟩ := by
  intro bob carol dave
  have hfew : [bob, carol, bob].toFinset.card < 2 ^ 32 := by decide
  have hfewer : ([bob, carol, bob] ++ [dave, bob]).toFinset.card < 2 ^ 32 := by decide
  obtain ⟨h, xs, hrun, hpair, -, -, -, -, habsent, hlater, hzero, hnone⟩ :=
    contacts_are_numbered_for_ever [bob, carol, bob] hfew
  have hhandles : empty.ensureAll [bob, carol, bob] =
      .ok (⟨[(bob, ⟨1⟩), (carol, ⟨2⟩)], [(⟨1⟩, bob), (⟨2⟩, carol)], 2⟩, [⟨1⟩, ⟨2⟩, ⟨1⟩]) := by rfl
  obtain ⟨rfl, rfl⟩ := Prod.mk.inj (Except.ok.inj (hrun.symm.trans hhandles))
  obtain ⟨h', ys, hrest, hkept⟩ := hlater [dave, bob] hfewer
  refine ⟨hfew, _, hrun, (hpair _ _).2 rfl, habsent dave (by decide), hzero, hnone _ (by decide), h', ys, hrest, ?_⟩
  exact (hkept bob ⟨1⟩ rfl).1

end PresenceCaps.Handles
