import PresenceCaps.Notifier.Kinds
import PresenceCaps.Proofs.Notifier.Delivery
import PresenceCaps.Proofs.Notifier.History
import PresenceCaps.Samples

/-!
Calls that fail are caught one by one, so that publishing returns and every sink hears what is published while it is
registered, whatever other sinks do when they are called.
-/
namespace PresenceCaps
namespace Sinks
variable {σ : Type}

/-- Further calls were made. -/
def noting (s : Sinks σ) (calls : List (SinkId × Change)) : Sinks σ := { s with calls := s.calls ++ calls }

/-- A call that may fail with the sink's number. What the sink did until then stays done. -/
def callOut (react : SinkId → σ → Change → Reaction σ) (c : Change) (e : SinkId × σ) :
    EStateM SinkId (Sinks σ) Unit := do
  modify fun s => s.noting [(e.1, c)]
  (react e.1 e.2 c).edits.forM fun x => modify fun s => s.edit x
  if (react e.1 e.2 c).failed then throw e.1

/-- One call after the other, where each failure is caught. -/
def callEach (react : SinkId → σ → Change → Reaction σ) (c : Change) (visit : Assoc SinkId σ) :
    EStateM SinkId (Sinks σ) Unit :=
  visit.forM fun e => tryCatch (callOut react c e) fun _ => pure ()

/-- A change, the order in which the registered sinks come, and what each of them does. Sinks may have a state and may
share it: every publication has reactions of its own. -/
structure Publication (σ : Type) where
  change : Change
  order : Assoc SinkId σ → Assoc SinkId σ
  order_perm : ∀ m, (order m).Perm m
  react : SinkId → σ → Change → Reaction σ

namespace Publication

/-- Who is to be called is settled first. -/
def attempt (p : Publication σ) : EStateM SinkId (Sinks σ) Unit := do
  let s ← get
  callEach p.react p.change (p.order s.registered)

/-- All that the sinks do to the registry, in the order in which they are called. -/
def edits (p : Publication σ) (s : Sinks σ) : List (SinkEdit σ) :=
  (p.order s.registered).flatMap fun e => (p.react e.1 e.2 p.change).edits

end Publication

def publish (s : Sinks σ) (p : Publication σ) : Sinks σ := deliver p.react p.change (p.order s.registered) s

inductive Event (σ : Type) where
  | edit (edit : SinkEdit σ)
  | publish (publication : Publication σ)

def step (s : Sinks σ) : Event σ → Sinks σ
  | .edit x => s.edit x
  | .publish p => s.publish p

def Event.published? : Event σ → Option Change
  | .edit _ => none
  | .publish p => some p.change

/-- The events since some registry was as it was at first, the latest one in front. -/
abbrev History (σ : Type) := List (Event σ)

namespace History
variable (start : Sinks σ) (id : SinkId)

/-- The registry after the events. -/
def sinks : History σ → Sinks σ
  | [] => start
  | e :: h => (sinks h).step e

/-- The changes that were published, the oldest first. -/
def published : History σ → List Change
  | [] => []
  | e :: h => published h ++ e.published?.toList

/-- The changes for whose publication a sink was registered. -/
def heard : History σ → List Change
  | [] => []
  | e :: h => heard h ++ if (sinks start h).contains id then e.published?.toList else []

/-- The changes for whose publication a sink was registered, and still was when all had been called. -/
def heardThroughout : History σ → List Change
  | [] => []
  | e :: h => heardThroughout h ++
      if (sinks start h).contains id && ((sinks start h).step e).contains id then e.published?.toList else []

end History

section Calls
variable (react : SinkId → σ → Change → Reaction σ) (c : Change)

theorem run_forM_edit (edits : List (SinkEdit σ)) (s : Sinks σ) :
    (edits.forM fun x => (modify fun s => s.edit x : EStateM SinkId (Sinks σ) Unit)).run s =
      .ok () (edits.foldl edit s) := by
  induction edits generalizing s with
  | nil => rfl
  | cons x edits ih => exact ih (s.edit x)

/-- A call fails if its sink does, and both ways the registry is as the sink has left it. -/
theorem run_callOut (e : SinkId × σ) (s : Sinks σ) : (callOut react c e).run s =
    if (react e.1 e.2 c).failed then .error e.1 (s.call react c e) else .ok () (s.call react c e) := by
  rw [callOut, EStateM.run_bind, EStateM.run_modify]
  dsimp only
  rw [EStateM.run_bind, run_forM_edit]
  dsimp only
  split <;> rfl

theorem run_caught (e : SinkId × σ) (s : Sinks σ) :
    (tryCatch (callOut react c e) fun _ => pure ()).run s = .ok () (s.call react c e) := by
  have hcall := run_callOut react c e s
  rw [EStateM.run] at hcall ⊢
  simp only [tryCatch, tryCatchThe, MonadExceptOf.tryCatch, EStateM.tryCatch]
  rw [hcall]
  cases (react e.1 e.2 c).failed <;> rfl

/-- No failure leaves the calls, or keeps the sinks that come later from being called. -/
theorem run_callEach (visit : Assoc SinkId σ) (s : Sinks σ) :
    (callEach react c visit).run s = .ok () (deliver react c visit s) := by
  induction visit generalizing s with
  | nil => rfl
  | cons e visit ih =>
    have hcons : callEach react c (e :: visit) =
        (do tryCatch (callOut react c e) fun _ => pure (); callEach react c visit) := rfl
    -- the registry that the next sink meets is the same, whether this one has failed or not
    rw [hcons, EStateM.run_bind, run_caught]
    exact ih (s.call react c e)

end Calls

section Edits
variable {s : Sinks σ} {id : SinkId}

theorem noting_noting (s : Sinks σ) (calls more : List (SinkId × Change)) :
    (s.noting calls).noting more = s.noting (calls ++ more) := by
  rw [noting, noting, noting, List.append_assoc]

/-- Edits do not look at the calls. -/
theorem foldl_edit_noting (edits : List (SinkEdit σ)) (s : Sinks σ) (calls : List (SinkId × Change)) :
    edits.foldl edit (s.noting calls) = (edits.foldl edit s).noting calls := by
  induction edits generalizing s with
  | nil => rfl
  | cons x edits ih =>
    have hedit : (s.noting calls).edit x = (s.edit x).noting calls := by cases x <;> rfl
    rw [List.foldl_cons, hedit, ih, List.foldl_cons]

/-- Calling sinks makes all their edits, one after the other, and nothing else but to note the calls. -/
theorem deliver_eq (react : SinkId → σ → Change → Reaction σ) (c : Change) (visit : Assoc SinkId σ) (s : Sinks σ) :
    deliver react c visit s = ((visit.flatMap fun e => (react e.1 e.2 c).edits).foldl edit s).noting
      (visit.map fun e => (e.1, c)) := by
  induction visit generalizing s with
  | nil => rw [List.map_nil, noting, List.append_nil]; rfl
  | cons e visit ih =>
    -- the call was noted before the edits, and may as well be noted after them
    have hcall : s.call react c e = ((react e.1 e.2 c).edits.foldl edit s).noting [(e.1, c)] :=
      foldl_edit_noting _ s [(e.1, c)]
    have hcons : deliver react c (e :: visit) s = deliver react c visit (s.call react c e) := rfl
    rw [hcons, ih, hcall, foldl_edit_noting, noting_noting, List.flatMap_cons, List.foldl_append]
    rfl

/-- A sink stays as it is, unless it is unregistered. -/
theorem get?_edit_eq_some_iff (hid : id.value < s.opened) (x : SinkEdit σ) (sink : σ) :
    (s.edit x).registered.get? id = some sink ↔ s.registered.get? id = some sink ∧ x ≠ .unregister id := by
  cases x with
  | register other =>
    have hne : (⟨s.opened⟩ : SinkId) ≠ id := fun he => Nat.ne_of_lt hid (congrArg SinkId.value he).symm
    rw [edit, register, Assoc.get?_set, if_neg hne]
    simp
  | unregister other =>
    rw [edit, unregister, Assoc.get?_erase]
    by_cases hother : other = id
    · simp [hother]
    · simp [hother]

/-- Every edit gives out more numbers only, so that a number which was given out before stays clear of them. -/
theorem get?_foldl_edit_eq_some_iff (hid : id.value < s.opened) (edits : List (SinkEdit σ)) (sink : σ) :
    (edits.foldl edit s).registered.get? id = some sink ↔
      s.registered.get? id = some sink ∧ .unregister id ∉ edits := by
  induction edits generalizing s with
  | nil => simp
  | cons x edits ih =>
    have hlater : id.value < (s.edit x).opened := Nat.lt_of_lt_of_le hid (s.precedes_edit x).opened_le
    rw [List.foldl_cons, ih hlater, get?_edit_eq_some_iff hid, List.mem_cons, not_or, and_assoc, ne_comm]

end Edits

section Runs
variable {s t start : Sinks σ} {id : SinkId}

theorem publish_proper (hs : s.Proper) (p : Publication σ) : (s.publish p).Proper ∧ s.Precedes (s.publish p) := by
  have hlt := hs.visited_lt (p.order_perm s.registered)
  obtain ⟨hproper, hprecedes, -⟩ := deliver_proper p.react hs (p.order s.registered) hlt p.change
  exact ⟨hproper, hprecedes⟩

theorem step_proper (hs : s.Proper) (e : Event σ) : (s.step e).Proper ∧ s.Precedes (s.step e) := by
  cases e with
  | edit x => exact ⟨hs.edit x, s.precedes_edit x⟩
  | publish p => exact publish_proper hs p

theorem received_step (hs : s.Proper) (e : Event σ) (id : SinkId) :
    (s.step e).received id = s.received id ++ if s.contains id then e.published?.toList else [] := by
  cases e with
  | edit x =>
    have hnone : (if s.contains id then (Event.edit x).published?.toList else []) = [] := ite_self _
    rw [hnone, List.append_nil, step, received, calls_edit, received]
  | publish p => exact received_deliver p.react hs (p.order_perm _) p.change id

/-- What a sink has heard of the log. A number that is not given out has heard nothing, a registered sink everything
from some change on, and one that is no longer registered may have heard its last change while it was removed. -/
structure Attends (s : Sinks σ) (id : SinkId) (log heard throughout : List Change) : Prop where
  unnumbered : s.opened ≤ id.value → heard = []
  standing : s.contains id = true → heard <:+ log ∧ heard = throughout
  unbroken : heard <:+: log
  last : ∃ last : Option Change, heard = throughout ++ last.toList

/-- Numbers are not given out twice, so that a sink which leaves does not come back. -/
theorem Attends.later {log heard throughout : List Change} (h : s.Attends id log heard throughout) (hs : s.Proper)
    (ht : s.Precedes t) (c : Option Change) :
    t.Attends id (log ++ c.toList) (heard ++ if s.contains id then c.toList else [])
      (throughout ++ if s.contains id && t.contains id then c.toList else []) := by
  have hnumbered : s.contains id = true → id.value < s.opened := fun hid =>
    hs.registered_lt id (contains_iff_mem_keys.1 hid)
  cases hid : s.contains id with
  | true =>
    obtain ⟨hsuffix, hheard⟩ := h.standing hid
    have hnow : heard ++ c.toList <:+ log ++ c.toList := by
      obtain ⟨before, rfl⟩ := hsuffix
      exact ⟨before, by rw [List.append_assoc]⟩
    refine ⟨fun hle => ?_, fun hstays => ?_, hnow.isInfix, ?_⟩
    · have hlt := hnumbered hid
      have hle' := ht.opened_le
      omega
    · rw [hstays, hheard]
      exact ⟨hheard ▸ hnow, rfl⟩
    · -- the change is the last one that is heard, if the sink is gone once all have been called
      cases t.contains id with
      | true => exact ⟨none, by rw [hheard]; simp⟩
      | false => exact ⟨c, by rw [hheard]; simp⟩
  | false =>
    refine ⟨fun hle => ?_, fun hnow => ?_, ?_, ?_⟩
    · rw [h.unnumbered (Nat.le_trans ht.opened_le hle)]
      rfl
    · -- a sink that was not there and now is has a new number, and so it has heard nothing
      have hnew : s.opened ≤ id.value := by
        by_contra hlt
        rw [ht.contains id (Nat.lt_of_not_le hlt) hnow] at hid
        exact absurd hid (by simp)
      obtain ⟨last, hlast⟩ := h.last
      have hheard := h.unnumbered hnew
      have hthroughout : throughout = [] := (List.append_eq_nil_iff.1 (hlast.symm.trans hheard)).1
      rw [hheard, hthroughout]
      exact ⟨List.nil_suffix, rfl⟩
    · rw [if_neg Bool.false_ne_true, List.append_nil]
      exact h.unbroken.trans (List.prefix_append _ _).isInfix
    · rw [Bool.false_and, if_neg Bool.false_ne_true, List.append_nil, List.append_nil]
      exact h.last

namespace History

theorem sinks_proper (hs : start.Proper) (h : History σ) : (h.sinks start).Proper := by
  induction h with
  | nil => exact hs
  | cons e h ih => exact (step_proper ih e).1

theorem received_sinks (hs : start.Proper) (h : History σ) (id : SinkId) :
    (h.sinks start).received id = start.received id ++ h.heard start id := by
  induction h with
  | nil => exact (List.append_nil _).symm
  | cons e h ih => rw [sinks, received_step (sinks_proper hs h), ih, heard, List.append_assoc]

theorem attends (hs : start.Proper) (h : History σ) (id : SinkId) :
    (h.sinks start).Attends id h.published (h.heard start id) (h.heardThroughout start id) := by
  induction h with
  | nil => exact ⟨fun _ => rfl, fun _ => ⟨List.nil_suffix, rfl⟩, List.nil_infix, none, rfl⟩
  | cons e h ih => exact ih.later (sinks_proper hs h) (step_proper (sinks_proper hs h) e).2 e.published?

end History
end Runs

end Sinks

namespace Notifier.History
variable {σ : Type} [Sink σ] (start : Notifier σ)

/-- What happens to the sinks of a notifier. -/
def deliveries : History σ → Sinks.History σ
  | [] => []
  | .publish x a old new :: h =>
    .publish ⟨(notifier start h).numbered x a old new, id, .refl, Sink.react (notifier start h).sinks.calls⟩ ::
      deliveries h
  | .listening (.register k) :: h => .edit (.register k) :: deliveries h
  | .listening (.unregister sink) :: h => .edit (.unregister sink) :: deliveries h
  | .listening _ :: h => deliveries h

theorem sinks_deliveries (h : History σ) : (h.deliveries start).sinks start.sinks = (h.notifier start).sinks := by
  induction h with
  | nil => rfl
  | cons e h ih =>
    cases e with
    | publish x a old new =>
      rw [deliveries, Sinks.History.sinks, ih]
      rfl
    | listening l =>
      cases l with
      | receive id =>
        have hquiet : deliveries start (.listening (.receive id) :: h) = deliveries start h := rfl
        rw [hquiet, ih, notifier, step, listen]
        cases (notifier start h).feed.tryReceive id <;> rfl
      | register k => rw [deliveries, Sinks.History.sinks, ih]; rfl
      | unregister sink => rw [deliveries, Sinks.History.sinks, ih]; rfl
      | subscribe only => exact ih
      | unsubscribe id => exact ih

theorem published_deliveries (h : History σ) : (h.deliveries start).published = h.published start := by
  induction h with
  | nil => rfl
  | cons e h ih =>
    have hquiet (l : Listening σ) : published start (.listening l :: h) = published start h := List.append_nil _
    cases e with
    | publish x a old new =>
      rw [deliveries, Sinks.History.published, ih]
      rfl
    | listening l =>
      rw [hquiet, ← ih]
      cases l with
      | register k => exact List.append_nil _
      | unregister sink => exact List.append_nil _
      | _ => rfl

end Notifier.History

namespace Sinks
variable {σ : Type}

/-- Delivery to sinks is complete, and sinks are kept apart. Whatever the order in which they are called, whichever of
them fail, and whatever they register and unregister meanwhile: publishing a change returns, makes all the edits, and
calls each sink that was registered before once, and no other; a sink that was registered before still is, unless one
that was called has unregistered it. So, over any run, a sink has received what was published while it was registered,
which is one stretch of all that was published. If it is registered, it has outlasted each of these deliveries, and the
stretch goes on to the end; if not, at most the last one was going on when it was removed. The runs of a notifier are
among those. -/
theorem delivery_is_complete_and_isolated {s : Sinks σ} (hs : s.Proper) :
    (∀ p : Publication σ,
      p.attempt.run s = .ok () (s.publish p) ∧
      s.publish p = ((p.edits s).foldl edit s).noting ((p.order s.registered).map fun e => (e.1, p.change)) ∧
      (∀ id, (s.publish p).received id = s.received id ++ if s.contains id then [p.change] else []) ∧
      ∀ id : SinkId, id.value < s.opened → ∀ sink, (s.publish p).registered.get? id = some sink ↔
        s.registered.get? id = some sink ∧ .unregister id ∉ p.edits s) ∧
    (∀ (h : History σ) (id : SinkId),
      (h.sinks s).received id = s.received id ++ h.heard s id ∧
      h.heard s id <:+: h.published ∧
      ((h.sinks s).contains id = true → h.heard s id <:+ h.published ∧ h.heard s id = h.heardThroughout s id) ∧
      ∃ last : Option Change, h.heard s id = h.heardThroughout s id ++ last.toList) ∧
    ∀ [Sink σ] (n : Notifier σ) (h : Notifier.History σ), (h.deliveries n).sinks n.sinks = (h.notifier n).sinks ∧
      (h.deliveries n).published = h.published n := by
  refine ⟨fun p => ⟨run_callEach p.react p.change _ s, deliver_eq .., ?_, ?_⟩, fun h id => ?_, fun n h => ?_⟩
  · exact received_deliver p.react hs (p.order_perm _) p.change
  · intro id hid sink
    rw [publish, deliver_eq]
    exact get?_foldl_edit_eq_some_iff hid (p.edits s) sink
  · have hattends := History.attends hs h id
    exact ⟨History.received_sinks hs h id, hattends.unbroken, hattends.standing, hattends.last⟩
  · exact ⟨Notifier.History.sinks_deliveries n h, Notifier.History.published_deliveries n h⟩

/-- A sink that leaves when it is called, one that brings a further sink along and one that fails, called from the last
to the first: all get the change, and of the next one all that are left. -/
theorem delivery_of_mixedSinks :
    let s : Sinks SinkKind := ⟨[(⟨0⟩, .once), (⟨1⟩, .spawning), (⟨2⟩, .failing)], 3, []⟩
    let c : Change := ⟨⟨1⟩, Sample.bob, .baseline, .tubes, 1⟩
    let d : Change := ⟨⟨1⟩, Sample.bob, .tubes, .baseline, 2⟩
    let p : Publication SinkKind := ⟨c, List.reverse, List.reverse_perm, SinkKind.react⟩
    let q : Publication SinkKind := { p with change := d }
    let h : History SinkKind := [.publish q, .edit (.unregister ⟨1⟩), .publish p]
    s.Proper ∧ p.attempt.run s = .ok () (s.publish p) ∧
    (s.publish p).calls = [(⟨2⟩, c), (⟨1⟩, c), (⟨0⟩, c)] ∧
    (s.publish p).registered = [(⟨1⟩, .spawning), (⟨2⟩, .failing), (⟨3⟩, .recording)] ∧
    (h.sinks s).received ⟨0⟩ = [c] ∧ (h.sinks s).received ⟨1⟩ = [c] ∧
    (h.sinks s).received ⟨2⟩ = [c, d] ∧ (h.sinks s).received ⟨3⟩ = [d] := by
  intro s c d p q h
  have hs : s.Proper := ⟨by decide, by decide, by simp [s]⟩
  obtain ⟨hpublish, hrun, -⟩ := delivery_is_complete_and_isolated hs
  obtain ⟨hok, heq, -⟩ := hpublish p
  refine ⟨hs, hok, by rw [heq]; rfl, by rw [heq]; rfl, ?_, ?_, ?_, ?_⟩
  all_goals
    rw [(hrun h _).1]
    rfl

end Sinks
end PresenceCaps
