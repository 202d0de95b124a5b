import Mathlib
import PresenceCaps.Notifier.Kinds
import PresenceCaps.Proofs.Notifier.History
import PresenceCaps.Samples

/-!
What receivers return. A receiver has a place in the log of the changes since it subscribed: it has returned what it
wanted of those before, as far as the feed still had them, and goes on there.
-/
namespace PresenceCaps

namespace Feed
variable {f : Feed} {r : Receiver} {base : Nat} {log got : List Change} {c : Change}

/-- A read passes over all that is unread, or up to the first change that is wanted. -/
theorem read_cases (f : Feed) (r : Receiver) :
    (∀ c ∈ f.unread r, r.wants c = false) ∧ f.read r = (none, { r with next := f.sent }) ∨
    ∃ skipped c rest, f.unread r = skipped ++ c :: rest ∧ (∀ d ∈ skipped, r.wants d = false) ∧ r.wants c = true ∧
      f.read r = (some c, { r with next := max r.next f.first + skipped.length + 1 }) := by
  rw [read]
  cases hi : (f.unread r).findIdx? r.wants with
  | none =>
    refine Or.inl ⟨fun c hc => ?_, rfl⟩
    have hnone := List.findIdx?_eq_none_iff.1 hi c hc
    simpa using hnone
  | some i =>
    obtain ⟨hlt, hwants, hbefore⟩ := List.findIdx?_eq_some_iff_getElem.1 hi
    right
    refine ⟨(f.unread r).take i, (f.unread r)[i], (f.unread r).drop (i + 1), ?_, ?_, hwants, ?_⟩
    · rw [← List.drop_eq_getElem_cons, List.take_append_drop]
    · intro d hd
      obtain ⟨j, hj, rfl⟩ := List.mem_take_iff_getElem.1 hd
      have hnot := hbefore j (by omega)
      simpa using hnot
    · rw [List.length_take, Nat.min_eq_left (Nat.le_of_lt hlt)]
      dsimp only
      rw [List.getElem?_eq_getElem hlt]

theorem only_read (f : Feed) (r : Receiver) : (f.read r).2.only = r.only := by
  obtain ⟨-, he⟩ | ⟨skipped, c, rest, -, -, -, he⟩ := f.read_cases r <;> rw [he]

/-- What a feed has to do with the log of the changes that were sent from some place on: it keeps the last of them, as
many as it has room for. -/
structure Keeps (f : Feed) (base : Nat) (log : List Change) : Prop where
  sent : f.sent = base + log.length
  recent : log.drop (log.length - f.room) <:+ f.kept
  kept_le_room : f.kept.length ≤ f.room
  kept_le_sent : f.kept.length ≤ f.sent

/-- Ends of one list that are equally long are the same. -/
theorem eq_of_suffix {α : Type} {a b l : List α} (ha : a <:+ l) (hb : b <:+ l) (hn : a.length = b.length) : a = b :=
  (List.suffix_of_suffix_length_le ha hb (Nat.le_of_eq hn)).eq_of_length hn

namespace Keeps

/-- From a place that is not lost on, the log is what is kept. -/
theorem drop_kept (h : f.Keeps base log) {k : Nat} (hb : base ≤ k) (hf : f.first ≤ k) :
    f.kept.drop (k - f.first) = log.drop (k - base) := by
  have hsent := h.sent
  have hroom := h.kept_le_room
  have hkept := h.kept_le_sent
  have hfirst : f.first = f.sent - f.kept.length := rfl
  have hsuffix : log.drop (k - base) <:+ f.kept := by
    have hlater : log.length - f.room ≤ k - base := by omega
    exact (List.drop_suffix_drop_left log hlater).trans h.recent
  apply eq_of_suffix (List.drop_suffix _ _) hsuffix
  rw [List.length_drop, List.length_drop]
  omega

/-- A change that is not kept has made room for later ones. -/
theorem lost (h : f.Keeps base log) {i : Nat} (hlog : i < log.length) (hi : base + i < f.first) :
    i + f.room < log.length := by
  have hsent := h.sent
  have hfirst : f.first = f.sent - f.kept.length := rfl
  have hrecent := h.recent.length_le
  rw [List.length_drop] at hrecent
  omega

theorem send (h : f.Keeps base log) (hr : f.receivers.isEmpty = false) (c : Change) :
    (f.send c).Keeps base (log ++ [c]) := by
  have hsend : f.send c =
      { f with kept := (f.kept ++ [c]).drop ((f.kept ++ [c]).length - f.room), sent := f.sent + 1 } := by
    rw [Feed.send, hr, if_neg Bool.false_ne_true]
  have hroom : (f.send c).room = f.room := by rw [hsend]; rfl
  have hlength : (f.send c).kept.length = min (f.kept.length + 1) f.room := by
    rw [hsend, List.length_drop, List.length_append, List.length_singleton]
    omega
  have hkept := h.kept_le_sent
  have hsent : (f.send c).sent = f.sent + 1 := by rw [hsend]
  refine ⟨?_, ?_, by omega, by omega⟩
  · rw [hsent, h.sent, List.length_append, List.length_singleton, Nat.add_assoc]
  · rw [hroom]
    -- both are ends of what there is with the new change, and what is kept of that is the longer one
    have hlog : (log ++ [c]).drop ((log ++ [c]).length - f.room) <:+ f.kept ++ [c] := by
      have hless : log.length - f.room ≤ (log ++ [c]).length - f.room := by
        rw [List.length_append]
        omega
      have hdrop := List.drop_suffix_drop_left (log ++ [c]) hless
      rw [List.drop_append_of_le_length (Nat.sub_le ..)] at hdrop
      obtain ⟨before, hbefore⟩ := h.recent
      exact hdrop.trans ⟨before, by rw [← List.append_assoc, hbefore]⟩
    have hnew : (f.send c).kept <:+ f.kept ++ [c] := by
      rw [hsend]
      exact List.drop_suffix _ _
    apply List.suffix_of_suffix_length_le hlog hnew
    have hle := hlog.length_le
    rw [List.length_drop] at hle ⊢
    rw [hlength]
    rw [List.length_append, List.length_append, List.length_singleton] at *
    omega

end Keeps

/-- A receiver that has returned some of the log: of what it wanted before its place, all that was not lost by then. -/
structure Follows (f : Feed) (base : Nat) (log got : List Change) (r : Receiver) : Prop where
  keeps : f.Keeps base log
  base_le : base ≤ r.next
  next_le : r.next ≤ f.sent
  returned : got.Sublist ((log.take (r.next - base)).filter r.wants)
  passed : ∀ i c, log[i]? = some c → base + i < r.next → r.wants c = true → c ∈ got ∨ i + f.room < log.length

namespace Follows

/-- A new receiver starts at the end. -/
theorem subscribed (hroom : f.kept.length ≤ f.room) (hsent : f.kept.length ≤ f.sent) (only : Option ContactHandle) :
    f.Follows f.sent [] [] ⟨f.sent, only⟩ where
  keeps := ⟨rfl, by rw [List.drop_nil]; exact List.nil_suffix, hroom, hsent⟩
  base_le := Nat.le_refl _
  next_le := Nat.le_refl _
  returned := List.nil_sublist _
  passed i c hc := absurd hc (by simp)

theorem send (h : f.Follows base log got r) (hr : f.receivers.isEmpty = false) (c : Change) :
    (f.send c).Follows base (log ++ [c]) got r := by
  have hkeeps := h.keeps.send hr c
  have hroom : (f.send c).room = f.room := by
    rw [Feed.send, hr]
    rfl
  have hold := h.keeps.sent
  have hnew := hkeeps.sent
  have hnext := h.next_le
  have hlength : (log ++ [c]).length = log.length + 1 := List.length_append
  refine ⟨hkeeps, h.base_le, by omega, ?_, fun i d hd hi hwants => ?_⟩
  · rw [List.take_append_of_le_length (by omega)]
    exact h.returned
  · -- the new change comes after the place of the receiver
    have hbefore : log[i]? = some d := by
      rw [← hd, List.getElem?_append_left (by omega)]
    rcases h.passed i d hbefore hi hwants with hmem | hlost
    · exact Or.inl hmem
    · exact Or.inr (by omega)

/-- A receiver may go on to a later place if of what it wants there is nothing on the way but what is lost. -/
theorem advance (h : f.Follows base log got r) {k : Nat} (hk : r.next ≤ k) (hsent : k ≤ f.sent)
    (hskip : ∀ i c, log[i]? = some c → r.next ≤ base + i → base + i < k → r.wants c = true →
      i + f.room < log.length) : f.Follows base log got { r with next := k } where
  keeps := h.keeps
  base_le := Nat.le_trans h.base_le hk
  next_le := hsent
  returned := by
    have hle : r.next - base ≤ k - base := Nat.sub_le_sub_right hk base
    have hsub : ((log.take (r.next - base)).filter r.wants).Sublist ((log.take (k - base)).filter r.wants) :=
      (List.take_sublist_take_left hle).filter r.wants
    exact h.returned.trans hsub
  passed i c hc hi hwants := by
    by_cases hold : base + i < r.next
    · exact h.passed i c hc hold hwants
    · exact Or.inr (hskip i c hc (Nat.le_of_not_lt hold) hi hwants)

/-- A receiver that is at a change which it wants returns it. -/
theorem take (h : f.Follows base log got r) (hc : log[r.next - base]? = some c) (hwants : r.wants c = true) :
    f.Follows base log (got ++ [c]) { r with next := r.next + 1 } := by
  have hsent := h.keeps.sent
  have hbase := h.base_le
  obtain ⟨hlt, -⟩ := List.getElem?_eq_some_iff.1 hc
  refine ⟨h.keeps, Nat.le_succ_of_le hbase, ?_, ?_, fun i d hd hi hd' => ?_⟩
  · dsimp only
    omega
  · have hnext : r.next + 1 - base = r.next - base + 1 := by omega
    have htake : (log.take (r.next + 1 - base)).filter r.wants =
        (log.take (r.next - base)).filter r.wants ++ [c] := by
      rw [hnext, List.take_add_one, hc, List.filter_append, Option.toList_some, List.filter_cons_of_pos hwants,
        List.filter_nil]
    dsimp only
    exact htake ▸ h.returned.append (List.Sublist.refl [c])
  · by_cases hold : base + i < r.next
    · rcases h.passed i d hd hold hd' with hmem | hlost
      · exact Or.inl (List.mem_append_left _ hmem)
      · exact Or.inr hlost
    · -- the change at the place itself is the one that is returned
      dsimp only at hi
      have hi : r.next - base = i := by omega
      rw [hi, hd] at hc
      obtain rfl := Option.some.inj hc
      exact Or.inl (List.mem_append_right _ (List.mem_singleton_self _))

/-- On its way a receiver is set past what is lost, and passes over what it does not want. -/
theorem pass (h : f.Follows base log got r) {k : Nat} (hk : max r.next f.first ≤ k) (hsent : k ≤ f.sent)
    (hskip : ∀ i c, log[i]? = some c → max r.next f.first ≤ base + i → base + i < k → r.wants c = false) :
    f.Follows base log got { r with next := k } := by
  apply h.advance (by omega) hsent
  intro i c hc hi hik hwants
  obtain ⟨hlt, -⟩ := List.getElem?_eq_some_iff.1 hc
  by_cases hfirst : base + i < f.first
  · exact h.keeps.lost hlt hfirst
  · have hnot := hskip i c hc (by omega) hik
    rw [hwants] at hnot
    exact absurd hnot.symm Bool.false_ne_true

theorem unread_eq (h : f.Follows base log got r) : f.unread r = log.drop (max r.next f.first - base) := by
  have hkept := h.keeps.drop_kept (k := max r.next f.first) (Nat.le_trans h.base_le (Nat.le_max_left ..))
    (Nat.le_max_right ..)
  have hplace : max r.next f.first - f.first = r.next - f.first := by omega
  rw [unread, ← hplace, hkept]

/-- The change that comes next is the first one that is wanted and not lost; without one there is nothing left. -/
theorem read (h : f.Follows base log got r) : f.Follows base log (got ++ (f.read r).1.toList) (f.read r).2 ∧
    match (f.read r).1 with
    | none => f.sent ≤ (f.read r).2.next
    | some c => ∃ i, log[i]? = some c ∧ r.wants c = true ∧ log.length ≤ i + f.room ∧ r.next ≤ base + i ∧
      (f.read r).2.next = base + i + 1 := by
  have hunread := h.unread_eq
  have hsent := h.keeps.sent
  have hbase := h.base_le
  have hnext := h.next_le
  have hfirst : f.first ≤ f.sent := Nat.sub_le ..
  -- what is unread, by its place in the log
  have hplace {i : Nat} (hi : max r.next f.first ≤ base + i) :
      (f.unread r)[base + i - max r.next f.first]? = log[i]? := by
    rw [hunread, List.getElem?_drop]
    congr 1
    omega
  obtain ⟨hnone, hread⟩ | ⟨skipped, c, rest, hsplit, hskipped, hwants, hread⟩ := f.read_cases r
  · rw [hread]
    refine ⟨?_, Nat.le_refl _⟩
    rw [Option.toList_none, List.append_nil]
    apply h.pass (by omega) (Nat.le_refl _)
    intro i c hc hi _
    rw [← hplace hi] at hc
    exact hnone c (List.mem_of_getElem? hc)
  · let k := max r.next f.first + skipped.length
    have hlog : log[k - base]? = some c := by
      have hk : max r.next f.first ≤ base + (k - base) := by omega
      have hat : base + (k - base) - max r.next f.first = skipped.length := by omega
      rw [← hplace hk, hat, hsplit, List.getElem?_append_right (Nat.le_refl _), Nat.sub_self]
      rfl
    obtain ⟨hlt, -⟩ := List.getElem?_eq_some_iff.1 hlog
    have hpassed : f.Follows base log got { r with next := k } := by
      apply h.pass (Nat.le_add_right ..) (by omega)
      intro i d hd hi hik
      rw [← hplace hi, hsplit, List.getElem?_append_left (by omega)] at hd
      exact hskipped d (List.mem_of_getElem? hd)
    rw [hread]
    refine ⟨hpassed.take hlog hwants, k - base, hlog, hwants, ?_, by omega, by dsimp only; omega⟩
    have hroom := h.keeps.kept_le_room
    have hkept := h.keeps.kept_le_sent
    have hdef : f.first = f.sent - f.kept.length := rfl
    omega

/-- As long as it has missed nothing, a receiver returns all that it wants. -/
theorem read_all (h : f.Follows base log got r) (hgot : got = (log.take (r.next - base)).filter r.wants)
    (hm : f.missed r = 0) :
    got ++ (f.read r).1.toList = (log.take ((f.read r).2.next - base)).filter r.wants := by
  have hbase := h.base_le
  have hsent := h.keeps.sent
  have hfirst : f.first ≤ r.next := Nat.sub_eq_zero_iff_le.1 hm
  have hunread : f.unread r = log.drop (r.next - base) := by rw [h.unread_eq, Nat.max_eq_left hfirst]
  obtain ⟨hnone, hread⟩ | ⟨skipped, c, rest, hsplit, hskipped, hwants, hread⟩ := f.read_cases r
  · have hrest : (log.drop (r.next - base)).filter r.wants = [] := by
      rw [← hunread, List.filter_eq_nil_iff]
      intro c hc
      rw [hnone c hc]
      exact Bool.false_ne_true
    have hall : log.take (f.sent - base) = log := List.take_of_length_le (by omega)
    rw [hread, Option.toList_none, hall, hgot]
    calc (log.take (r.next - base)).filter r.wants ++ []
      _ = (log.take (r.next - base)).filter r.wants ++ (log.drop (r.next - base)).filter r.wants := by rw [hrest]
      _ = log.filter r.wants := by rw [← List.filter_append, List.take_append_drop]
  · have hnone : skipped.filter r.wants = [] := by
      rw [List.filter_eq_nil_iff]
      intro d hd
      rw [hskipped d hd]
      exact Bool.false_ne_true
    have hnext : max r.next f.first + skipped.length + 1 - base = r.next - base + (skipped ++ [c]).length := by
      rw [List.length_append, List.length_singleton]
      omega
    have hpart : (log.drop (r.next - base)).take (skipped ++ [c]).length = skipped ++ [c] := by
      have hcons : skipped ++ c :: rest = skipped ++ [c] ++ rest := List.append_cons ..
      rw [← hunread, hsplit, hcons, List.take_left]
    rw [hread]
    dsimp only
    rw [hnext, List.take_add, hpart, List.filter_append, List.filter_append, hnone, ← hgot,
      List.filter_cons_of_pos hwants]
    rfl

/-- What is done to receivers leaves the feed as it is. -/
theorem with_receivers (h : f.Follows base log got r) (receivers : Assoc Nat Receiver) (opened : Nat) :
    Follows { f with receivers, opened } base log got r :=
  ⟨⟨h.keeps.sent, h.keeps.recent, h.keeps.kept_le_room, h.keeps.kept_le_sent⟩, h.base_le, h.next_le, h.returned,
    h.passed⟩

end Follows
end Feed

/-- Whether a receiver for some handle, or for any, wants a change. -/
def Change.isFor (only : Option ContactHandle) (c : Change) : Bool := only.all (· == c.handle)

/-- A receiver for one handle wants all changes of that, and of other handles none. -/
theorem Change.ofHandle_filter_isFor (only : Option ContactHandle) (log : List Change) (x : ContactHandle) :
    ofHandle (log.filter (isFor only)) x = if only.all (· == x) then ofHandle log x else [] := by
  have hfor (c : Change) : (decide (c.handle = x) && isFor only c) = (decide (c.handle = x) && only.all (· == x)) := by
    by_cases hc : c.handle = x
    · rw [isFor, hc]
    · rw [decide_eq_false hc, Bool.false_and, Bool.false_and]
  rw [ofHandle, List.filter_filter, List.filter_congr fun c _ => hfor c]
  by_cases hx : only.all (· == x) = true
  · simp only [hx, Bool.and_true, if_true]
    rfl
  · rw [Bool.not_eq_true] at hx
    simp [hx]

theorem Receiver.wants_eq (r : Receiver) : r.wants = Change.isFor r.only := rfl

namespace Notifier
variable {σ : Type} [Sink σ]

/-- Whether an event finds a receiver behind what is kept. -/
def lags (n : Notifier σ) (id : Nat) : Event σ → Bool
  | .listening (.receive i) => decide (i = id) && (n.feed.receivers.get? id).any fun r => decide (n.feed.missed r ≠ 0)
  | _ => false

/-- Whether a receiver was ever found behind what is kept. -/
def History.hasLagged (start : Notifier σ) (id : Nat) : History σ → Bool
  | [] => false
  | e :: h => (notifier start h).lags id e || hasLagged start id h

/-- What comes next for a receiver that has returned some of a log: the first change that it wants, that is new to it,
and after which there are fewer others than the feed has room for. -/
def IsNext (room : Nat) (only : Option ContactHandle) (log got : List Change) : Option Change → Prop
  | none => ∀ (i : Nat) (c : Change), log[i]? = some c → c.isFor only = true → log.length ≤ i + room → c ∈ got
  | some c => ∃ i : Nat, log[i]? = some c ∧ c.isFor only = true ∧ log.length ≤ i + room ∧ c ∉ got ∧
    ∀ (j : Nat) (d : Change), j < i → log[j]? = some d → d.isFor only = true → log.length ≤ j + room → d ∈ got

/-- What a receiver has returned of the changes since it subscribed. It may be gone by now. -/
structure Streams (f : Feed) (id : Nat) (only : Option ContactHandle) (base : Nat) (log got : List Change)
    (lagged : Bool) : Prop where
  opened : id < f.opened
  returned : got.Sublist (log.filter (Change.isFor only))
  inFull : lagged = false → got <+: log.filter (Change.isFor only)
  follows : ∀ r, f.receivers.get? id = some r → r.only = only ∧ f.Follows base log got r ∧
    (lagged = false → got = (log.take (r.next - base)).filter (Change.isFor only))

namespace Streams
variable {f : Feed} {id : Nat} {only : Option ContactHandle} {base : Nat} {log got : List Change} {lagged : Bool}

theorem send (h : Streams f id only base log got lagged) (c : Change) :
    Streams (f.send c) id only base (log ++ [c]) got lagged := by
  have hreceivers : (f.send c).receivers = f.receivers ∧ (f.send c).opened = f.opened := by
    rw [Feed.send]
    split <;> exact ⟨rfl, rfl⟩
  have hmore : log.filter (Change.isFor only) <+: (log ++ [c]).filter (Change.isFor only) :=
    (List.prefix_append log [c]).filter _
  refine ⟨hreceivers.2 ▸ h.opened, h.returned.trans hmore.sublist, fun hl => (h.inFull hl).trans hmore, fun r hr => ?_⟩
  rw [hreceivers.1] at hr
  obtain ⟨honly, hfollows, hall⟩ := h.follows r hr
  have hsome : f.receivers.isEmpty = false := by
    cases hf : f.receivers with
    | nil =>
      rw [hf] at hr
      exact absurd hr (by simp)
    | cons e rest => rfl
  refine ⟨honly, hfollows.send hsome c, fun hl => ?_⟩
  have hnext := hfollows.next_le
  have hsent := hfollows.keeps.sent
  rw [List.take_append_of_le_length (by omega)]
  exact hall hl

/-- What is done to other receivers. -/
theorem of_others (h : Streams f id only base log got lagged) {receivers : Assoc Nat Receiver} {opened : Nat}
    (ho : f.opened ≤ opened) (hr : ∀ r, receivers.get? id = some r → f.receivers.get? id = some r) :
    Streams { f with receivers, opened } id only base log got lagged where
  opened := Nat.lt_of_lt_of_le h.opened ho
  returned := h.returned
  inFull := h.inFull
  follows r hget := by
    obtain ⟨honly, hfollows, hall⟩ := h.follows r (hr r hget)
    exact ⟨honly, hfollows.with_receivers receivers opened, hall⟩

/-- What the receiver itself is asked for. -/
theorem receive (h : Streams f id only base log got lagged) {r : Receiver} (hr : f.receivers.get? id = some r) :
    Streams { f with receivers := f.receivers.set id (f.read r).2 } id only base log (got ++ (f.read r).1.toList)
      (decide (f.missed r ≠ 0) || lagged) := by
  obtain ⟨honly, hfollows, hall⟩ := h.follows r hr
  have hread := hfollows.read.1
  have hwants : (f.read r).2.wants = Change.isFor only := by rw [Receiver.wants_eq, f.only_read, honly]
  have hpart (k : Nat) : (log.take k).filter (Change.isFor only) <+: log.filter (Change.isFor only) := by
    have htake : log.take k <+: log := List.take_prefix k log
    exact htake.filter _
  have hfull (hl : (decide (f.missed r ≠ 0) || lagged) = false) : got ++ (f.read r).1.toList =
      (log.take ((f.read r).2.next - base)).filter (Change.isFor only) := by
    rw [Bool.or_eq_false_iff, decide_eq_false_iff_not, not_not] at hl
    have hsame : r.wants = Change.isFor only := by rw [Receiver.wants_eq, honly]
    rw [← hsame]
    exact hfollows.read_all (hsame ▸ hall hl.2) hl.1
  have hreturned := hread.returned
  rw [hwants] at hreturned
  refine ⟨h.opened, hreturned.trans (hpart _).sublist, fun hl => hfull hl ▸ hpart _, fun r' hr' => ?_⟩
  dsimp only at hr'
  rw [Assoc.get?_set, if_pos rfl] at hr'
  obtain rfl := Option.some.inj hr'
  exact ⟨(f.only_read r).trans honly, hread.with_receivers _ _, hfull⟩

theorem isNext (h : Streams f id only base log got lagged) (hlog : log.Nodup) {r : Receiver}
    (hr : f.receivers.get? id = some r) : IsNext f.room only log got (f.read r).1 := by
  obtain ⟨rfl, hfollows, -⟩ := h.follows r hr
  obtain ⟨hthen, hanswer⟩ := hfollows.read
  have hsent := hfollows.keeps.sent
  have hwants (c : Change) : (f.read r).2.wants c = c.isFor r.only := by rw [Receiver.wants_eq, f.only_read]
  cases hc : (f.read r).1 with
  | none =>
    rw [hc] at hthen hanswer
    intro i c hi hfor hkept
    obtain ⟨hlt, -⟩ := List.getElem?_eq_some_iff.1 hi
    have hplace : base + i < (f.read r).2.next := Nat.lt_of_lt_of_le (by omega) hanswer
    rcases hthen.passed i c hi hplace ((hwants c).trans hfor) with hmem | hlost
    · simpa using hmem
    · omega
  | some c =>
    rw [hc] at hthen hanswer
    obtain ⟨i, hi, hfor, hkept, hnext, hplace⟩ := hanswer
    obtain ⟨hlt, -⟩ := List.getElem?_eq_some_iff.1 hi
    refine ⟨i, hi, hfor, hkept, fun hmem => ?_, fun j d hj hd hdfor hdkept => ?_⟩
    · -- what was returned came before the place of the receiver
      have hbefore := List.mem_of_mem_filter (hfollows.returned.subset hmem)
      obtain ⟨k, hk, hget⟩ := List.mem_take_iff_getElem.1 hbefore
      have hsame : log[i]? = log[k]? := by rw [hi, ← hget, List.getElem?_eq_getElem]
      have heq := (List.getElem?_inj hlt hlog).1 hsame
      have hbase := hfollows.base_le
      omega
    · rcases hthen.passed j d hd (by omega) ((hwants d).trans hdfor) with hmem | hlost
      · rcases List.mem_append.1 hmem with hmem | hmem
        · exact hmem
        · have hdc : d = c := by simpa using hmem
          have hsame : log[i]? = log[j]? := by rw [hi, hd, hdc]
          have heq := (List.getElem?_inj hlt hlog).1 hsame
          omega
      · omega

theorem step {n : Notifier σ} (h : Streams n.feed id only base log got lagged) (e : Event σ) :
    Streams (n.step e).feed id only base (log ++ (n.published? e).toList) (got ++ (n.returned? id e).toList)
      (n.lags id e || lagged) := by
  -- most of what may be done is done to other receivers
  have hquiet (hp : n.published? e = none) (hr : n.returned? id e = none) (hl : n.lags id e = false)
      (hs : Streams (n.step e).feed id only base log got lagged) :
      Streams (n.step e).feed id only base (log ++ (n.published? e).toList) (got ++ (n.returned? id e).toList)
        (n.lags id e || lagged) := by
    rw [hp, hr, hl, Option.toList_none, List.append_nil, List.append_nil, Bool.false_or]
    exact hs
  cases e with
  | publish x a old new =>
    have hnone : got ++ (n.returned? id (.publish x a old new)).toList = got := List.append_nil got
    rw [hnone]
    exact h.send _
  | listening l =>
    cases l with
    | receive i =>
      by_cases hi : i = id
      · subst hi
        have hlog : log ++ (n.published? (.listening (.receive i))).toList = log := List.append_nil log
        rw [hlog, Notifier.step, listen, returned?, lags, if_pos rfl, decide_eq_true rfl, Bool.true_and,
          Feed.tryReceive]
        cases hr : n.feed.receivers.get? i with
        | none =>
          rw [Option.map_none, Option.bind_none, Option.toList_none, List.append_nil, Option.any_none, Bool.false_or]
          exact h
        | some r => exact h.receive hr
      · have hnone : n.returned? id (.listening (.receive i)) = none := if_neg hi
        have hlags : n.lags id (.listening (.receive i)) = false := by rw [lags, decide_eq_false hi, Bool.false_and]
        apply hquiet rfl hnone hlags
        rw [Notifier.step, listen, Feed.tryReceive]
        cases hr : n.feed.receivers.get? i with
        | none => exact h
        | some r =>
          apply h.of_others (Nat.le_refl _)
          intro r' hr'
          rwa [Assoc.get?_set, if_neg hi] at hr'
    | subscribe only' =>
      apply hquiet rfl rfl rfl
      apply h.of_others (Nat.le_succ _)
      intro r hr
      rwa [Assoc.get?_set, if_neg (Nat.ne_of_gt h.opened)] at hr
    | unsubscribe i =>
      apply hquiet rfl rfl rfl
      apply h.of_others (Nat.le_refl _)
      intro r hr
      rw [Assoc.get?_erase] at hr
      split at hr
      · exact absurd hr (by simp)
      · exact hr
    | register sink => exact hquiet rfl rfl rfl h
    | unregister sink => exact hquiet rfl rfl rfl h

end Streams

/-- A change is sent to the feed, or nothing happens but to receivers. -/
theorem feed_step_cases (n : Notifier σ) (e : Event σ) : (∃ c, (n.step e).feed = n.feed.send c) ∨
    ∃ receivers opened, (n.step e).feed = { n.feed with receivers, opened } := by
  cases e with
  | publish x a old new => exact Or.inl ⟨_, rfl⟩
  | listening l =>
    right
    cases l with
    | receive i =>
      rw [Notifier.step, listen, Feed.tryReceive]
      cases n.feed.receivers.get? i with
      | none => exact ⟨_, _, rfl⟩
      | some r => exact ⟨_, _, rfl⟩
    | _ => exact ⟨_, _, rfl⟩

/-- A receiver stays until it is let go. -/
theorem isSome_receiver_step {n : Notifier σ} {id : Nat} (h : (n.feed.receivers.get? id).isSome = true) {e : Event σ}
    (he : e ≠ .listening (.unsubscribe id)) : ((n.step e).feed.receivers.get? id).isSome = true := by
  have hset (i : Nat) (r : Receiver) : ((n.feed.receivers.set i r).get? id).isSome = true := by
    rw [Assoc.get?_set]
    split
    · rfl
    · exact h
  cases e with
  | publish x a old new =>
    have hreceivers : (n.step (.publish x a old new)).feed.receivers = n.feed.receivers := by
      rw [Notifier.step, publish, deliver, Feed.send]
      split <;> rfl
    rw [hreceivers]
    exact h
  | listening l =>
    cases l with
    | receive i =>
      rw [Notifier.step, listen, Feed.tryReceive]
      cases n.feed.receivers.get? i with
      | none => exact h
      | some r => exact hset i _
    | subscribe only => exact hset _ _
    | unsubscribe i =>
      have hi : i ≠ id := by
        rintro rfl
        exact he rfl
      rw [Notifier.step, listen, Feed.unsubscribe, Assoc.get?_erase, if_neg hi]
      exact h
    | register sink => exact h
    | unregister sink => exact h

namespace History
variable {start : Notifier σ} {n : Notifier σ}

/-- A notifier keeps no more changes than it has room for, and always has the same room. -/
theorem feed_bounded (hs : start.feed.kept = []) (h : History σ) : (h.notifier start).feed.room = start.feed.room ∧
    (h.notifier start).feed.kept.length ≤ (h.notifier start).feed.room ∧
    (h.notifier start).feed.kept.length ≤ (h.notifier start).feed.sent := by
  induction h with
  | nil => exact ⟨rfl, by rw [notifier, hs]; exact Nat.zero_le _, by rw [notifier, hs]; exact Nat.zero_le _⟩
  | cons e h ih =>
    obtain ⟨hroom, hkept, hsent⟩ := ih
    rw [notifier]
    obtain ⟨c, he⟩ | ⟨receivers, opened, he⟩ := (notifier start h).feed_step_cases e
    · rw [he, Feed.send]
      split
      · exact ⟨hroom, hkept, hsent⟩
      · refine ⟨hroom, ?_, ?_⟩
        · dsimp only
          rw [List.length_drop]
          show _ ≤ (notifier start h).feed.room
          omega
        · dsimp only
          rw [List.length_drop, List.length_append, List.length_singleton]
          omega
    · rw [he]
      exact ⟨hroom, hkept, hsent⟩

theorem streams (hroom : n.feed.kept.length ≤ n.feed.room) (hsent : n.feed.kept.length ≤ n.feed.sent)
    (only : Option ContactHandle) (h : History σ) :
    Streams (h.notifier (n.listen (.subscribe only))).feed n.feed.opened only n.feed.sent
      (h.published (n.listen (.subscribe only))) (h.returned (n.listen (.subscribe only)) n.feed.opened)
      (h.hasLagged (n.listen (.subscribe only)) n.feed.opened) := by
  induction h with
  | nil =>
    refine ⟨Nat.lt_succ_self _, List.nil_sublist _, fun _ => List.nil_prefix, fun r hr => ?_⟩
    rw [notifier, listen, Feed.subscribe] at hr
    dsimp only at hr
    rw [Assoc.get?_set, if_pos rfl] at hr
    obtain rfl := Option.some.inj hr
    exact ⟨rfl, (Feed.Follows.subscribed hroom hsent only).with_receivers _ _, fun _ => by simp [published, returned]⟩
  | cons e h ih => exact ih.step e

theorem isSome_receiver (only : Option ContactHandle) {h : History σ}
    (hh : .listening (.unsubscribe n.feed.opened) ∉ h) :
    ((h.notifier (n.listen (.subscribe only))).feed.receivers.get? n.feed.opened).isSome = true := by
  induction h with
  | nil =>
    rw [notifier, listen, Feed.subscribe]
    dsimp only
    rw [Assoc.get?_set, if_pos rfl]
    rfl
  | cons e h ih =>
    rw [List.mem_cons, not_or] at hh
    exact isSome_receiver_step (ih hh.2) (Ne.symm hh.1)

/-- Receivers see an ordered stream. Whatever is published and whoever else listens, the changes that a receiver has
returned are some of those that were published since it subscribed and that it wants, in their order, and none of them
twice. As long as it is there it can be asked for the next one, and the feed keeps the last changes of all, as many as
the capacity rounded up to a power of two. If it has no answer, then there is no change left that it wants and that is
kept; if it has one, then that is wanted, kept and new to it, and what it has skipped before that one is not kept. Of
every handle the numbers go up; if it was never behind what is kept, it has skipped nothing, and the numbers of each
handle go up by one, from where the changes before it ended. -/
theorem receivers_see_the_stream {capacity : Nat} {start : Notifier σ} (hs : Notifier.ofCapacity? capacity = some start)
    (earlier later : History σ) (only : Option ContactHandle)
    (hlt : ((later ++ .listening (.subscribe only) :: earlier).published start).length < 2 ^ 64) :
    let subscribed := (earlier.notifier start).listen (.subscribe only)
    let id := (earlier.notifier start).feed.opened
    let room := capacity.nextPowerOfTwo
    let log (h : History σ) := h.published subscribed
    let got (h : History σ) := h.returned subscribed id
    ((got later).Sublist ((log later).filter (Change.isFor only)) ∧ (log later).Nodup ∧ (got later).Nodup) ∧
    (∀ after before : History σ, later = after ++ .listening (.receive id) :: before →
      .listening (.unsubscribe id) ∉ before →
      let feed := (before.notifier subscribed).feed
      feed.kept.length ≤ room ∧ (log before).drop ((log before).length - room) <:+ feed.kept ∧
      ∃ feed' answer, feed.tryReceive id = some (feed', answer) ∧
        IsNext room only (log before) (got before) answer) ∧
    (∀ x, ((Change.ofHandle (got later) x).map (·.sequence.toNat)).Pairwise (· < ·)) ∧
    (later.hasLagged subscribed id = false → got later <+: (log later).filter (Change.isFor only) ∧
      ∀ x, (Change.ofHandle (got later) x).map (·.sequence.toNat) =
        List.range' ((Change.ofHandle (earlier.published start) x).length + 1)
          (Change.ofHandle (got later) x).length) := by
  intro subscribed id room log got
  obtain ⟨hkept, hsequences, hcapacity⟩ : start.feed.kept = [] ∧ start.sequences = [] ∧
      start.feed.capacity = capacity := by
    rw [ofCapacity?] at hs
    split at hs
    · obtain rfl := Option.some.inj hs
      exact ⟨rfl, rfl, rfl⟩
    · exact absurd hs (by simp)
  have hroom : start.feed.room = room := by rw [Feed.room, hcapacity]
  have hall : (later ++ .listening (.subscribe only) :: earlier).published start =
      earlier.published start ++ log later := by
    rw [published_append, published, published?, Option.toList_none, List.append_nil]
    rfl
  have hnumbered := numbered hsequences hlt
  rw [hall] at hnumbered
  have hlog : (log later).Nodup := (List.nodup_append.1 hnumbered.nodup).2.1
  obtain ⟨-, hfits, hsent⟩ := feed_bounded hkept earlier
  have hstreams (h : History σ) := streams hfits hsent only h
  have hreturned : (got later).Sublist ((log later).filter (Change.isFor only)) := (hstreams later).returned
  have hofHandle (x : ContactHandle) := hnumbered.numbered_since x
  refine ⟨⟨hreturned, hlog, (hlog.filter _).sublist hreturned⟩, ?_, ?_, ?_⟩
  · intro after before hsplit hstays feed
    obtain ⟨r, hr⟩ := Option.isSome_iff_exists.1 (isSome_receiver only hstays)
    obtain ⟨-, hfollows, -⟩ := (hstreams before).follows r hr
    have hbefore : (log before).Nodup := by
      have hsuffix : before <:+ later := ⟨after ++ [.listening (.receive id)], by rw [hsplit, List.append_assoc]; rfl⟩
      exact hlog.sublist (published_of_suffix hsuffix).sublist
    have hnow : feed.room = room := by
      have hbounded := (feed_bounded hkept (before ++ .listening (.subscribe only) :: earlier)).1
      rw [notifier_append] at hbounded
      exact hbounded.trans hroom
    have hanswer : feed.tryReceive id =
        some ({ feed with receivers := feed.receivers.set id (feed.read r).2 }, (feed.read r).1) := by
      rw [Feed.tryReceive, hr]
      rfl
    refine ⟨hnow ▸ hfollows.keeps.kept_le_room, hnow ▸ hfollows.keeps.recent, _, _, hanswer, ?_⟩
    exact hnow ▸ (hstreams before).isNext hbefore hr
  · intro x
    have hsub : (Change.ofHandle (got later) x).Sublist (Change.ofHandle (log later) x) :=
      (hreturned.trans List.filter_sublist).filter _
    have hup : ((Change.ofHandle (log later) x).map (·.sequence.toNat)).Pairwise (· < ·) := by
      rw [hofHandle]
      exact List.pairwise_lt_range' 1
    exact hup.sublist (hsub.map _)
  · intro hl
    have hbegins : got later <+: (log later).filter (Change.isFor only) := (hstreams later).inFull hl
    refine ⟨hbegins, fun x => ?_⟩
    have hof : Change.ofHandle (got later) x <+: Change.ofHandle ((log later).filter (Change.isFor only)) x :=
      hbegins.filter _
    rw [Change.ofHandle_filter_isFor] at hof
    split at hof
    · obtain ⟨rest, hrest⟩ := hof.map (·.sequence.toNat)
      rw [hofHandle] at hrest
      have hfirst := (Change.Numbered.eq_range'_of_append hrest).1
      rw [List.length_map] at hfirst
      exact hfirst
    · rw [List.prefix_nil.1 hof]
      rfl

/-- A feed with room for two changes, and a receiver of one handle: in time it gets all of them, later it finds two of
four changes, one of them its own. -/
theorem stream_of_slowReceiver :
    let start : Notifier SinkKind := .ofCapacity 2 (by decide)
    let publish (x : ContactHandle) : Event SinkKind := .publish x Sample.bob .baseline .tubes
    let earlier : History SinkKind := [publish ⟨1⟩]
    let subscribed := (earlier.notifier start).listen (.subscribe (some ⟨1⟩))
    let id := (earlier.notifier start).feed.opened
    let receive : Event SinkKind := .listening (.receive id)
    let prompt : History SinkKind := [receive, publish ⟨1⟩, receive, publish ⟨2⟩, publish ⟨1⟩]
    let slow : History SinkKind := publish ⟨2⟩ :: publish ⟨1⟩ :: publish ⟨2⟩ :: publish ⟨1⟩ :: prompt
    let numbers (h : History SinkKind) := (Change.ofHandle (h.returned subscribed id) ⟨1⟩).map (·.sequence.toNat)
    let last : Change := ⟨⟨1⟩, Sample.bob, .baseline, .tubes, 5⟩
    Notifier.ofCapacity? 2 = some start ∧
    numbers prompt = [2, 3] ∧ (numbers (receive :: slow)).Pairwise (· < ·) ∧
    ((slow.notifier subscribed).feed.tryReceive id).map Prod.snd = some (some last) ∧
    IsNext 2 (some ⟨1⟩) (slow.published subscribed) (slow.returned subscribed id) (some last) := by
  intro start publish earlier subscribed id receive prompt slow numbers last
  have hs : Notifier.ofCapacity? 2 = some start := rfl
  have hfew : (History.published start (prompt ++ .listening (.subscribe (some ⟨1⟩)) :: earlier)).length < 2 ^ 64 := by
    decide
  have hmore : (History.published start (receive :: slow ++ .listening (.subscribe (some ⟨1⟩)) :: earlier)).length <
      2 ^ 64 := by decide
  have hnever : prompt.hasLagged subscribed id = false := by cbv
  have hcount : (Change.ofHandle (prompt.returned subscribed id) ⟨1⟩).length = 2 := by cbv
  have hbefore : (Change.ofHandle (earlier.published start) ⟨1⟩).length = 1 := by decide
  obtain ⟨-, -, -, hall⟩ := receivers_see_the_stream hs earlier prompt (some ⟨1⟩) hfew
  obtain ⟨-, hask, hup, -⟩ := receivers_see_the_stream hs earlier (receive :: slow) (some ⟨1⟩) hmore
  have hanswer : ((slow.notifier subscribed).feed.tryReceive id).map Prod.snd = some (some last) := by cbv
  have hnumbers : numbers prompt = List.range' 2 2 := by
    have hrange := (hall hnever).2 ⟨1⟩
    rw [hcount, hbefore] at hrange
    exact hrange
  have hroom : Nat.nextPowerOfTwo 2 = 2 := by cbv
  refine ⟨hs, hnumbers, hup ⟨1⟩, hanswer, ?_⟩
  obtain ⟨-, -, feed, answer, hreceived, hnext⟩ := hask [] slow rfl (by simp [slow, prompt, publish, receive])
  rw [hreceived] at hanswer
  obtain rfl : answer = some last := Option.some.inj hanswer
  rw [hroom] at hnext
  exact hnext

end History
end Notifier
end PresenceCaps
