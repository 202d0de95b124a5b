import Mathlib.Algebra.Group.Nat.Defs
import Mathlib.Data.List.Nodup
import PresenceCaps.Notifier.Basic

/-!
Histories of a notifier: what was published and who listened, the latest first. The changes of a handle are numbered
from one on.
-/
namespace PresenceCaps
variable {σ : Type}

/-- What may be done to a notifier from outside. -/
inductive Listening (σ : Type) where
  | subscribe (only : Option ContactHandle)
  | unsubscribe (receiver : Nat)
  | receive (receiver : Nat)
  | register (sink : σ)
  | unregister (sink : SinkId)

namespace Change
variable (log : List Change) (x : ContactHandle)

/-- The changes of a handle. -/
def ofHandle : List Change := log.filter fun c => c.handle = x

end Change

namespace Notifier

def listen (n : Notifier σ) : Listening σ → Notifier σ
  | .subscribe only => { n with feed := (n.feed.subscribe only).1 }
  | .unsubscribe id => { n with feed := n.feed.unsubscribe id }
  | .receive id =>
    match n.feed.tryReceive id with
    | none => n
    | some (feed, _) => { n with feed }
  | .register sink => { n with sinks := (n.sinks.register sink).1 }
  | .unregister id => { n with sinks := n.sinks.unregister id }

/-- Any handle may be published for, and any receiver be asked, also one that there is not. -/
inductive Event (σ : Type) where
  | publish (handle : ContactHandle) (contact : BareAddress) (old new : Capabilities)
  | listening (listening : Listening σ)

def step [Sink σ] (n : Notifier σ) : Event σ → Notifier σ
  | .publish x a old new => (n.publish x a old new).1
  | .listening l => n.listen l

/-- The change that an event publishes. -/
def published? [Sink σ] (n : Notifier σ) : Event σ → Option Change
  | .publish x a old new => some (n.publish x a old new).2
  | .listening _ => none

/-- The change that an event hands to a receiver. -/
def returned? (n : Notifier σ) (id : Nat) : Event σ → Option Change
  | .listening (.receive i) => if i = id then (n.feed.tryReceive id).bind Prod.snd else none
  | _ => none

/-- The events since some notifier was as it was at first, the latest one in front. -/
abbrev History (σ : Type) := List (Event σ)

namespace History
variable [Sink σ] (start : Notifier σ)

/-- The notifier after the events. -/
def notifier : History σ → Notifier σ
  | [] => start
  | e :: h => (notifier h).step e

/-- The changes that were published, the oldest first. -/
def published : History σ → List Change
  | [] => []
  | e :: h => published h ++ ((notifier start h).published? e).toList

/-- The changes that a receiver has returned, the oldest first. -/
def returned (id : Nat) : History σ → List Change
  | [] => []
  | e :: h => returned id h ++ ((notifier start h).returned? id e).toList

end History

theorem sequences_listen (n : Notifier σ) (l : Listening σ) : (n.listen l).sequences = n.sequences := by
  cases l with
  | receive id =>
    rw [listen]
    cases n.feed.tryReceive id <;> rfl
  | _ => rfl

end Notifier

namespace Change

/-- The changes of every handle are numbered from one on, and it is counted how many there are. -/
structure Numbered (log : List Change) (sequences : Assoc ContactHandle UInt64) : Prop where
  numbered : ∀ x, (ofHandle log x).map (·.sequence.toNat) = List.range' 1 (ofHandle log x).length
  counted : ∀ x, (sequences.get? x).getD 0 = .ofNat (ofHandle log x).length

theorem ofHandle_append (log more : List Change) (x : ContactHandle) :
    ofHandle (log ++ more) x = ofHandle log x ++ ofHandle more x := List.filter_append ..

namespace Numbered
variable {log : List Change} {n : Notifier σ}

theorem nil : Numbered [] [] where
  numbered _ := rfl
  counted _ := rfl

/-- The next number of a handle is one more than it has changes. -/
theorem nextSequence (hl : Numbered log n.sequences) (hlt : log.length + 1 < 2 ^ 64) (x : ContactHandle) :
    n.nextSequence x = .ofNat ((ofHandle log x).length + 1) := by
  have hle : (ofHandle log x).length ≤ log.length := List.length_filter_le _ _
  -- so few changes leave the count below where it stops
  have hne : UInt64.ofNat (ofHandle log x).length ≠ 18446744073709551615 := by
    intro he
    have hmax := congrArg UInt64.toNat he
    rw [UInt64.toNat_ofNat_of_lt' (show (ofHandle log x).length < 2 ^ 64 by omega)] at hmax
    have htop : (18446744073709551615 : UInt64).toNat = 2 ^ 64 - 1 := rfl
    omega
  rw [Notifier.nextSequence, hl.counted, if_neg hne]
  exact (UInt64.ofNat_add _ _).symm

theorem publish [Sink σ] (hl : Numbered log n.sequences) (hlt : log.length + 1 < 2 ^ 64) (x : ContactHandle)
    (a : BareAddress) (old new : Capabilities) :
    Numbered (log ++ [n.numbered x a old new]) (n.publish x a old new).1.sequences := by
  have hnext := hl.nextSequence hlt x
  -- the change goes to the end of its own handle's, and to no other's
  have hof (y : ContactHandle) : ofHandle (log ++ [n.numbered x a old new]) y =
      ofHandle log y ++ if x = y then [n.numbered x a old new] else [] := by
    rw [ofHandle_append]
    by_cases hxy : x = y <;> simp [ofHandle, Notifier.numbered, hxy]
  constructor
  · intro y
    rw [hof]
    split
    · rename_i hxy
      subst hxy
      have hle : (ofHandle log x).length ≤ log.length := List.length_filter_le _ _
      have hnumber : (n.numbered x a old new).sequence.toNat = (ofHandle log x).length + 1 := by
        rw [Notifier.numbered, hnext]
        exact UInt64.toNat_ofNat_of_lt' (show (ofHandle log x).length + 1 < 2 ^ 64 by omega)
      rw [List.map_append, hl.numbered, List.length_append, List.length_singleton, List.range'_concat,
        List.map_singleton, hnumber, Nat.one_mul, Nat.add_comm 1]
    · rw [List.append_nil, hl.numbered]
  · intro y
    have hset : (n.publish x a old new).1.sequences = n.sequences.set x (n.nextSequence x) := rfl
    rw [hset, Assoc.get?_set, hof]
    split
    · rename_i hxy
      subst hxy
      rw [List.length_append, List.length_singleton, hnext, Option.getD_some]
    · rw [List.append_nil, hl.counted]

theorem nodup_ofHandle {sequences : Assoc ContactHandle UInt64} (hl : Numbered log sequences) (x : ContactHandle) :
    (ofHandle log x).Nodup := by
  have hmap : ((ofHandle log x).map (·.sequence.toNat)).Nodup := by
    rw [hl.numbered]
    exact List.nodup_range'
  exact hmap.of_map _

/-- No change comes twice, since those of a handle have different numbers. -/
theorem nodup {sequences : Assoc ContactHandle UInt64} (hl : Numbered log sequences) : log.Nodup := by
  rw [List.nodup_iff_count_le_one]
  intro c
  have hcount : (ofHandle log c.handle).count c = log.count c := List.count_filter (by simp)
  rw [← hcount]
  exact List.nodup_iff_count_le_one.1 (hl.nodup_ofHandle c.handle) c

/-- The two parts of a list of successive numbers. -/
theorem eq_range'_of_append {xs ys : List Nat} {k m : Nat} (h : xs ++ ys = List.range' k m) :
    xs = List.range' k xs.length ∧ ys = List.range' (k + xs.length) ys.length := by
  have hm : m = xs.length + ys.length := by
    rw [← List.length_append, h, List.length_range']
  rw [hm, ← List.range'_append_1] at h
  exact List.append_inj h List.length_range'.symm

/-- The later changes of a handle go on where the earlier ones ended. -/
theorem numbered_since {earlier : List Change} {sequences : Assoc ContactHandle UInt64}
    (hl : Numbered (earlier ++ log) sequences) (x : ContactHandle) : (ofHandle log x).map (·.sequence.toNat) =
      List.range' ((ofHandle earlier x).length + 1) (ofHandle log x).length := by
  have hall := hl.numbered x
  rw [ofHandle_append, List.map_append] at hall
  have hlater := (eq_range'_of_append hall).2
  rw [List.length_map, List.length_map, Nat.add_comm 1] at hlater
  exact hlater

end Numbered
end Change

namespace Notifier.History
variable [Sink σ] {start : Notifier σ} {h : History σ}

theorem numbered (hs : start.sequences = []) (hn : (h.published start).length < 2 ^ 64) :
    Change.Numbered (h.published start) (h.notifier start).sequences := by
  induction h with
  | nil =>
    rw [published, notifier, hs]
    exact .nil
  | cons e h ih =>
    have hlength : (published start (e :: h)).length =
        (published start h).length + ((notifier start h).published? e).toList.length := List.length_append
    have hprev := ih (by omega)
    cases e with
    | publish x a old new =>
      have hone : ((notifier start h).published? (.publish x a old new)).toList.length = 1 := rfl
      exact hprev.publish (by omega) x a old new
    | listening l =>
      have hnone : published start (.listening l :: h) = published start h := List.append_nil _
      rw [hnone, notifier, step, sequences_listen]
      exact hprev

theorem notifier_append (later earlier : History σ) :
    notifier start (later ++ earlier) = notifier (notifier start earlier) later := by
  induction later with
  | nil => rfl
  | cons e later ih => rw [List.cons_append, notifier, notifier, ih]

theorem published_append (later earlier : History σ) :
    published start (later ++ earlier) = published start earlier ++ published (notifier start earlier) later := by
  induction later with
  | nil => exact (List.append_nil _).symm
  | cons e later ih => rw [List.cons_append, published, published, ih, notifier_append, List.append_assoc]

/-- What was published before stays the beginning of what is published. -/
theorem published_of_suffix {before : History σ} (hb : before <:+ h) :
    before.published start <+: h.published start := by
  obtain ⟨later, rfl⟩ := hb
  rw [published_append]
  exact List.prefix_append ..

end Notifier.History
end PresenceCaps
