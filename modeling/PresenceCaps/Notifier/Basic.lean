import PresenceCaps.Notifier.Sinks

/-! Publishing changes: numbered per handle, sent to the feed, then handed to the sinks. -/
namespace PresenceCaps

structure Notifier (σ : Type) where
  feed : Feed
  sinks : Sinks σ
  sequences : Assoc ContactHandle UInt64

namespace Notifier
variable {σ : Type}

def ofCapacity (n : Nat) (h : 0 < n) : Notifier σ := ⟨.ofCapacity n h, .empty, []⟩

/-- There is no notifier without room for a change, nor one with more room than there can be. -/
def ofCapacity? (n : Nat) : Option (Notifier σ) :=
  if h : 0 < n ∧ n ≤ Feed.largestCapacity then some (ofCapacity n h.1) else none

def subscribers (n : Notifier σ) : Nat := n.feed.receivers.length + n.sinks.size

/-- The number of the next change of a handle; the largest number is repeated. -/
def nextSequence (n : Notifier σ) (x : ContactHandle) : UInt64 :=
  let last := (n.sequences.get? x).getD 0
  if last = 18446744073709551615 then last else last + 1

def numbered (n : Notifier σ) (x : ContactHandle) (a : BareAddress) (old new : Capabilities) : Change :=
  ⟨x, a, old, new, n.nextSequence x⟩

def deliver [Sink σ] (n : Notifier σ) (c : Change) : Notifier σ where
  feed := n.feed.send c
  sinks := n.sinks.notify (Sink.react n.sinks.calls) c
  sequences := n.sequences.set c.handle c.sequence

def publish [Sink σ] (n : Notifier σ) (x : ContactHandle) (a : BareAddress) (old new : Capabilities) :
    Notifier σ × Change :=
  let c := n.numbered x a old new
  (n.deliver c, c)

end Notifier
end PresenceCaps
