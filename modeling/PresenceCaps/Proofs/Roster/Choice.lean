import Mathlib
import PresenceCaps.Proofs.Disco.Neighbours
import PresenceCaps.Proofs.Roster.Completion
import PresenceCaps.Proofs.Roster.Replay
import PresenceCaps.Proofs.Text.Order

/-!
Which resource of a contact is chosen: of those that fit the one that ranks highest, by priority and then by name. It
fits what is published, although its priority may be newer than its capabilities.
-/
namespace PresenceCaps.Roster

/-- What resources are ranked by. -/
def rank (e : String × OnlineResource) : ℤ ×ₗ String := toLex (e.2.priority.toInt, e.1)

theorem rank_le_of_priority_lt {e m : String × OnlineResource} (hlt : e.2.priority < m.2.priority) :
    rank e ≤ rank m := by
  rw [rank, rank, Prod.Lex.toLex_le_toLex]
  exact Or.inl (Int8.lt_iff_toInt_lt.1 hlt)

/-- A later name decides between equal priorities. -/
theorem rank_le_of_name_le {m e : String × OnlineResource} (hname : m.1 ≤ e.1)
    (hge : ¬ e.2.priority < m.2.priority) : rank m ≤ rank e := by
  rw [Int8.lt_iff_toInt_lt, not_lt] at hge
  rw [rank, rank, Prod.Lex.toLex_le_toLex]
  rcases hge.lt_or_eq with hlt | heq
  · exact Or.inl hlt
  · exact Or.inr ⟨heq, hname⟩

/-- A scan in the order of the names, from a resource on, ends with the highest one. -/
theorem exists_foldl_prefer {m : String × OnlineResource} {l : List (String × OnlineResource)}
    (hsorted : (m :: l).Pairwise fun x y => x.1 ≤ y.1) :
    ∃ b, l.foldl prefer (some m) = some b ∧ b ∈ m :: l ∧ ∀ e ∈ m :: l, rank e ≤ rank b := by
  induction l generalizing m with
  | nil =>
    refine ⟨m, rfl, List.mem_cons_self, fun e he => ?_⟩
    rw [List.mem_singleton.1 he]
  | cons x l ih =>
    rw [List.foldl_cons, prefer]
    by_cases hx : x.2.priority < m.2.priority
    · -- the scan stays where it is
      have hrest : (m :: l).Sublist (m :: x :: l) := (List.sublist_cons_self x l).cons_cons m
      obtain ⟨b, hb, hmem, hmax⟩ := ih (hsorted.sublist hrest)
      have hm := hmax m List.mem_cons_self
      refine ⟨b, by rw [if_pos hx, hb], hrest.subset hmem, ?_⟩
      simp only [List.forall_mem_cons] at hmax ⊢
      exact ⟨hm, (rank_le_of_priority_lt hx).trans hm, hmax.2⟩
    · -- it goes on to the later name, also from an equal priority
      obtain ⟨hfirst, hrest⟩ := List.pairwise_cons.1 hsorted
      obtain ⟨b, hb, hmem, hmax⟩ := ih hrest
      refine ⟨b, by rw [if_neg hx, hb], List.mem_cons_of_mem _ hmem, List.forall_mem_cons.2 ⟨?_, hmax⟩⟩
      exact (rank_le_of_name_le (hfirst x List.mem_cons_self) hx).trans (hmax x List.mem_cons_self)

theorem perm_inOrder (c : ContactState) : c.inOrder.Perm c.resources := Verification.sortBy_perm Prod.fst _

theorem pairwise_inOrder (c : ContactState) : c.inOrder.Pairwise fun x y => x.1 ≤ y.1 :=
  Verification.pairwise_sortBy Prod.fst _

/-- The resources of a contact that can be used for any of the required capabilities. -/
def fitting (r : Roster) (c : BareAddress) (required : Capabilities) : Assoc String OnlineResource :=
  (r.contact c).resources.filter (·.2.serves required)

/-- Either none fits, or the highest one of those that fit is chosen. -/
theorem pick?_cases (r : Roster) (c : BareAddress) (required : Capabilities) :
    (r.fitting c required = [] ∧ r.pick? c required = none) ∨
    ∃ e ∈ r.fitting c required, r.pick? c required = some (c.withResource e.1) ∧
      ∀ f ∈ r.fitting c required, rank f ≤ rank e := by
  have hperm := (perm_inOrder (r.contact c)).filter (·.2.serves required)
  have hsorted := (pairwise_inOrder (r.contact c)).filter (·.2.serves required)
  rw [← fitting] at hperm
  rw [pick?]
  generalize (r.contact c).inOrder.filter (·.2.serves required) = l at *
  cases l with
  | nil => exact Or.inl ⟨hperm.nil_eq.symm, rfl⟩
  | cons m l =>
    obtain ⟨e, he, hmem, hmax⟩ := exists_foldl_prefer hsorted
    refine Or.inr ⟨e, hperm.mem_iff.1 hmem, ?_, fun f hf => hmax f (hperm.mem_iff.2 hf)⟩
    rw [List.foldl_cons, prefer, he, Option.map_some]

namespace History

/-- A resource of the contact is online, its latest update has a priority that is not negative, and its last completed
one grants some of the required capabilities. -/
structure Fits (h : History) (c : BareAddress) (required : Capabilities) (a : FullAddress) (x : OnlineResource) :
    Prop where
  bare : a.bare = c
  standing : h.standing? a = some x
  priority : 0 ≤ x.priority
  bits : x.bits.intersects required = true

variable {h : History} {c : BareAddress} {required : Capabilities} {a : FullAddress} {x : OnlineResource}

theorem mem_fitting {e : String × OnlineResource} :
    e ∈ h.roster.fitting c required ↔ h.Fits c required (c.withResource e.1) e.2 := by
  rw [fitting, List.mem_filter, OnlineResource.serves, ← h.resource?_eq_some_iff, resource?_roster, Bool.and_eq_true,
    decide_eq_true_iff]
  constructor
  · rintro ⟨hstanding, hpriority, hbits⟩
    exact ⟨rfl, hstanding, hpriority, hbits⟩
  · rintro ⟨-, hstanding, hpriority, hbits⟩
    exact ⟨hstanding, hpriority, hbits⟩

theorem mem_fitting_of_fits (hf : h.Fits c required a x) : (a.resource, x) ∈ h.roster.fitting c required := by
  obtain ⟨bare, name⟩ := a
  obtain rfl := hf.bare
  exact mem_fitting.2 hf

/-- What an online resource has been granted is published. -/
theorem has_published_of_standing? (ha : a.bare = c) (hx : h.standing? a = some x) {i : Nat}
    (hi : x.bits.has i = true) : (h.roster.published c).has i = true := by
  rw [has_published]
  refine Or.inr ⟨a.resource, x, ?_, hi⟩
  rw [resource?_roster, ← hx, ← ha]
  rfl

theorem fits_of_pick? (ha : h.roster.pick? c required = some a) : ∃ x, h.Fits c required a x ∧
    ∀ b y, h.Fits c required b y → rank (b.resource, y) ≤ rank (a.resource, x) := by
  obtain ⟨-, hnone⟩ | ⟨e, he, hsome, hmax⟩ := h.roster.pick?_cases c required
  · rw [hnone] at ha
    exact absurd ha (by simp)
  · rw [hsome] at ha
    obtain rfl := Option.some.inj ha
    exact ⟨e.2, mem_fitting.1 he, fun b y hy => hmax _ (mem_fitting_of_fits hy)⟩

theorem not_fits_of_pick?_eq_none (hnone : h.roster.pick? c required = none) : ¬ h.Fits c required a x := by
  obtain ⟨hempty, -⟩ | ⟨e, -, hsome, -⟩ := h.roster.pick?_cases c required
  · intro hf
    have hmem := mem_fitting_of_fits hf
    rw [hempty] at hmem
    exact List.not_mem_nil hmem
  · rw [hnone] at hsome
    exact absurd hsome (by simp)

/-- A resource is chosen exactly if one fits, and then one that fits, of those the one with the highest priority, and of
several with that the one whose name comes last. What is chosen for is published. If nothing is chosen for more than
what everyone can do, although it is published, there are resources that grant it, all of them with a negative
priority. As long as no two jobs had one number, the calls alone tell what is held of a resource. -/
theorem choice_agrees_with_published (h : History) (c : BareAddress) (required : Capabilities) :
    let chosen := h.roster.pick? c required
    let published := h.roster.published c
    (chosen.isSome = true ↔ ∃ a x, h.Fits c required a x) ∧
    (∀ a, chosen = some a → ∃ x, h.Fits c required a x ∧ ∀ b y, h.Fits c required b y →
      y.priority ≤ x.priority ∧ (y.priority = x.priority → utf8 b.resource ≤ utf8 a.resource)) ∧
    (chosen.isSome = true → published.intersects required = true) ∧
    ((published.diff .baseline).intersects required = true → chosen = none →
      (∃ a x, a.bare = c ∧ h.standing? a = some x ∧ x.bits.intersects required = true) ∧
      ∀ a x, a.bare = c → h.standing? a = some x → x.bits.intersects required = true → x.priority < 0) ∧
    (h.jobCount < 2 ^ 64 → ∀ a, h.standing? a = h.resource? a) := by
  intro chosen published
  have hfits (hsome : chosen.isSome = true) : ∃ a x, h.Fits c required a x := by
    obtain ⟨a, ha⟩ := Option.isSome_iff_exists.1 hsome
    obtain ⟨x, hx, -⟩ := fits_of_pick? ha
    exact ⟨a, x, hx⟩
  refine ⟨⟨hfits, ?_⟩, ?_, ?_, ?_, fun hn a => ?_⟩
  · rintro ⟨a, x, hx⟩
    rw [Option.isSome_iff_ne_none]
    exact fun hnone => not_fits_of_pick?_eq_none hnone hx
  · intro a ha
    obtain ⟨x, hx, hmax⟩ := fits_of_pick? ha
    refine ⟨x, hx, fun b y hy => ?_⟩
    have hrank := hmax b y hy
    rw [rank, rank, Prod.Lex.toLex_le_toLex] at hrank
    rw [Int8.le_iff_toInt_le, ← Int8.toInt_inj, utf8_le]
    rcases hrank with hlt | ⟨heq, hname⟩
    · exact ⟨hlt.le, fun heq => absurd heq hlt.ne⟩
    · exact ⟨heq.le, fun _ => hname⟩
  · intro hsome
    obtain ⟨a, x, hx⟩ := hfits hsome
    obtain ⟨i, hi, hrequired⟩ := Capabilities.intersects_iff.1 hx.bits
    exact Capabilities.intersects_iff.2 ⟨i, has_published_of_standing? hx.bare hx.standing hi, hrequired⟩
  · intro hmeets hnone
    refine ⟨?_, fun a x ha hx hbits => ?_⟩
    · obtain ⟨i, hi, hrequired⟩ := Capabilities.intersects_iff.1 hmeets
      rw [Capabilities.has_diff, Bool.and_eq_true, Bool.not_eq_true'] at hi
      -- the bit is not in the baseline, and so some resource holds it
      obtain hbase | ⟨name, x, hx, hbit⟩ := (h.has_published c i).1 hi.1
      · exact absurd (hbase.symm.trans hi.2) (by decide)
      · rw [resource?_roster] at hx
        exact ⟨c.withResource name, x, rfl, hx, Capabilities.intersects_iff.2 ⟨i, hbit, hrequired⟩⟩
    · apply Int8.not_le.1
      intro hpriority
      exact not_fits_of_pick?_eq_none hnone ⟨ha, hx, hpriority, hbits⟩
  · rw [← resource?_roster, (replays h hn).resource]

/-- The laptop and the phone can do the same, but the laptop steps back while its next update still waits. -/
def steppedBack : History :=
  [.start (.requiring 5) { Sample.available Sample.laptop (Sample.advertisement "0.2") with priority := -1 },
    .resolve ⟨⟨1⟩, (Sample.advertisement "0.1").baseSignature, ⟨[Feature.fileTransfer], by decide⟩⟩,
    .resolve ⟨⟨0⟩, (Sample.advertisement "0.1").baseSignature, ⟨[Feature.fileTransfer], by decide⟩⟩,
    .start (.requiring 5) (Sample.available Sample.phone (Sample.advertisement "0.1")),
    .start (.requiring 5) { Sample.available Sample.laptop (Sample.advertisement "0.1") with priority := 5 }]

theorem choice_of_steppedBack :
    steppedBack.standing? Sample.laptop = some ⟨.fileTransfer, -1⟩ ∧
    steppedBack.standing? Sample.phone = some ⟨.fileTransfer, 0⟩ ∧
    (steppedBack.roster.pick? Sample.bob .fileTransfer).isSome = true ∧
    (steppedBack.roster.published Sample.bob).intersects .fileTransfer = true ∧
    steppedBack.roster.pick? Sample.bob .fileTransfer = some Sample.phone := by
  have hphone : steppedBack.standing? Sample.phone = some ⟨.fileTransfer, 0⟩ := by decide
  obtain ⟨hiff, -, hpublished, -, -⟩ := choice_agrees_with_published steppedBack Sample.bob .fileTransfer
  have hsome := hiff.2 ⟨Sample.phone, _, rfl, hphone, by decide, by decide⟩
  exact ⟨by decide, hphone, hsome, hpublished hsome, by cbv⟩

end History
end PresenceCaps.Roster
