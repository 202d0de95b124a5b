import PresenceCaps.Notifier.Kinds
import PresenceCaps.Notifier.Trace

/-! A bench for the notifier on its own, and the sinks that were placed on a notifier by hand. -/
namespace PresenceCaps.Bench

/-- The notifier of a bench, with sinks of the simple kinds. -/
abbrev Notifier := PresenceCaps.Notifier SinkKind

/-- Without its owner the feed stays open as long as a registered sink holds on to it. -/
def Notifier.outlivesOwner (n : Notifier) : Bool := n.sinks.registered.any fun e => e.2.holdsNotifier

/-- The sinks that were placed, by number, also those that have left since. -/
structure Placement where
  sinks : List (SinkId × SinkKind)
deriving DecidableEq

/-- What a sink that records has seen; a failing one records nothing. -/
abbrev SinkRecord := Option (List Change)

namespace Placement

def empty : Placement := ⟨[]⟩

def place (p : Placement) (n : Notifier) (k : SinkKind) : Placement × Notifier :=
  let (sinks, id) := n.sinks.register k
  (⟨p.sinks ++ [(id, k)]⟩, { n with sinks })

def records (p : Placement) (n : Notifier) : List SinkRecord :=
  p.sinks.map fun e => if e.2.records then some (n.sinks.received e.1) else none

/-- The records of the sinks that other sinks registered. -/
def spawned (p : Placement) (n : Notifier) : List (List Change) :=
  (((List.range n.sinks.opened).map SinkId.mk).filter fun id => !(p.sinks.map Prod.fst).contains id).map
    n.sinks.received

def remove (p : Placement) (n : Notifier) (number : Nat) : Option (Notifier × Bool) :=
  (p.sinks[number]?).map fun e => ({ n with sinks := n.sinks.unregister e.1 }, n.sinks.contains e.1)

end Placement

/-- What a receiver finds when it waits for a change. -/
inductive Received where
  | change (c : Change)
  | pending
  | closed
deriving DecidableEq

/-- The next change of a receiver, and what reading it logs. -/
def readNext? (f : Feed) (id : Nat) : Option (Feed × Option Change × List LogRecord) :=
  (f.tryReceive id).map fun (g, c) => (g, c, f.readTrace id)

def readAll? (f : Feed) (id : Nat) : Option (Feed × List Change × List LogRecord) :=
  (f.drain id).map fun (g, cs) => (g, cs, f.readTrace id)

/-- A notifier, whether its owner still holds it, and whether its feed is closed. -/
structure Listening where
  notifier : Notifier
  owned : Bool
  feedClosed : Bool
  placement : Placement
  log : List LogRecord

namespace Listening

def start? (capacity : Nat) : Option Listening :=
  (PresenceCaps.Notifier.ofCapacity? capacity).map fun n => ⟨n, true, false, .empty, []⟩

def record (b : Listening) (log : List LogRecord) : Listening := { b with log := b.log ++ log }

def subscribers? (b : Listening) : Option Nat := if b.owned then some b.notifier.subscribers else none

def capacity? (b : Listening) : Option Nat := if b.owned then some b.notifier.feed.capacity else none

def publish? (b : Listening) (x : ContactHandle) (a : BareAddress) (old new : Capabilities) :
    Option (Listening × Change) :=
  if b.owned then
    let (notifier, c) := b.notifier.publish x a old new
    some ({ b with notifier }.record (b.notifier.publishTrace x a old new), c)
  else none

def setFeed (b : Listening) (feed : Feed) : Listening := { b with notifier := { b.notifier with feed } }

def subscribe? (b : Listening) (only : Option ContactHandle) : Option (Listening × Nat) :=
  if b.owned then
    let (feed, id) := b.notifier.feed.subscribe only
    some (b.setFeed feed, id)
  else none

def unsubscribe (b : Listening) (id : Nat) : Listening × Bool :=
  (b.setFeed (b.notifier.feed.unsubscribe id), b.notifier.feed.receivers.contains id)

def tryReceive? (b : Listening) (id : Nat) : Option (Listening × Option Change) :=
  (readNext? b.notifier.feed id).map fun (feed, c, log) => ((b.setFeed feed).record log, c)

def receive? (b : Listening) (id : Nat) : Option (Listening × Received) :=
  (b.tryReceive? id).map fun (next, c) =>
    (next, match c with
      | some c => .change c
      | none => if b.feedClosed then .closed else .pending)

def drain? (b : Listening) (id : Nat) : Option (Listening × List Change) :=
  (readAll? b.notifier.feed id).map fun (feed, cs, log) => ((b.setFeed feed).record log, cs)

def place? (b : Listening) (k : SinkKind) : Option (Listening × Nat) :=
  if b.owned then
    let (placement, notifier) := b.placement.place b.notifier k
    some ({ b with placement, notifier }.record [Sinks.registerTrace k], b.placement.sinks.length)
  else none

/-- Whether the sink was still there; none if no such sink was ever placed. -/
def remove? (b : Listening) (number : Nat) : Option (Listening × Bool) :=
  (b.placement.remove b.notifier number).map fun (notifier, found) =>
    ({ b with notifier }.record (if found then [Sinks.unregisterTrace] else []), found)

/-- The owner lets go; the feed closes unless a sink holds on to it. -/
def close (b : Listening) : Listening :=
  if b.owned then { b with owned := false, feedClosed := !b.notifier.outlivesOwner } else b

end Listening
end PresenceCaps.Bench
