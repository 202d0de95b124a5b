import PresenceCaps.Bench.Listening
import PresenceCaps.Bench.Traffic
import PresenceCaps.Service.Trace
import PresenceCaps.Settings.Basic

/-!
A bench for the whole service: its queries run against the simulated network, every outcome is handled at
once, and the bench itself listens to the feed from the start.
-/
namespace PresenceCaps.Bench

structure Serving where
  service : Service SinkKind
  traffic : Traffic
  placement : Placement
  log : List LogRecord

/-- From this many seconds on a deadline lies beyond all time. -/
def endlessSecs : Nat := 9223372036854775807

/-- More commands than this no queue counts. -/
def largestQueue : Nat := (1 <<< 61) - 1

namespace Serving

/-- The receiver of the bench itself. -/
def ownReceiver : Nat := 0

def start (s : Settings) (automatic : Assoc String DiscoInfo) : Serving :=
  let service : Service SinkKind := .start s.trust.confirmationsRequired s.events.channelCapacity.toNat
  let feed := (service.notifier.feed.subscribe none).1
  let secs := s.discovery.queryTimeoutSecs.toNat
  { service := { service with notifier := { service.notifier with feed } }
    traffic := .ofAutomatic automatic (if secs < endlessSecs then some (secs * 1000) else none)
    placement := .empty
    log := [Service.startTrace s.trust.confirmationsRequired s.discovery.queryTimeoutSecs] }

/-- A service whose buffers are too large does not start. -/
def start? (s : Settings) (automatic : Assoc String DiscoInfo) : Option Serving :=
  if s.events.channelCapacity.toNat ≤ Feed.largestCapacity ∧ s.service.commandBuffer.toNat ≤ largestQueue then
    some (start s automatic)
  else none

def bundles (b : Serving) : Bundles := b.service.bundles

def record (b : Serving) (log : List LogRecord) : Serving := { b with log := b.log ++ log }

def setBundles (b : Serving) (bundles : Bundles) (log : List LogRecord) : Serving :=
  { b with service := { b.service with discovery := { b.service.discovery with bundles } } }.record log

def setNotifier (b : Serving) (notifier : Notifier) : Serving :=
  { b with service := { b.service with notifier } }

def setFeed (b : Serving) (feed : Feed) : Serving := b.setNotifier { b.service.notifier with feed }

def handleOutcome (b : Serving) (o : Outcome) : Serving :=
  { b with service := b.service.handleOutcome o }.record (b.service.outcomeTrace o)

/-- Goes on with the given traffic; the service handles what it reports. -/
def continueWith (b : Serving) (next : Traffic × List Outcome) : Serving :=
  next.2.foldl handleOutcome { b with traffic := next.1 }

def presence (b : Serving) (u : PresenceUpdate) : Except ServiceError (Serving × Receipt) := do
  let h ← b.service.handlePresence u
  let b := { b with service := h.service }.record (b.service.presenceTrace u)
  let requests := h.receipt.scheduled.map fun s => (⟨u.sender, s.queryNode⟩ : Request)
  return (b.continueWith (b.traffic.beginAll (h.issued.zip requests)), h.receipt)

def ensureContact (b : Serving) (a : BareAddress) : Except ServiceError (Serving × ContactHandle) := do
  let (service, x) ← b.service.ensureContact a
  return ({ b with service }, x)

def shutdown (b : Serving) : Except ServiceError Serving := do
  let service ← b.service.shutdown
  return { b with service, traffic := b.traffic.abort b.service.discovery.pending.keys }.record
    b.service.shutdownTrace

def answer? (b : Serving) (number : Nat) (reply : Request → Reply) : Option Serving :=
  (b.traffic.answer? number reply).map b.continueWith

def advance (b : Serving) (ms : Nat) : Serving := b.continueWith (b.traffic.advance ms)

/-- Receivers are numbered after the one of the bench. -/
def receiverId (number : Nat) : Nat := number + ownReceiver + 1

def subscribe (b : Serving) (only : Option ContactHandle) : Serving × Nat :=
  let (feed, id) := b.service.notifier.feed.subscribe only
  (b.setFeed feed, id - receiverId 0)

def unsubscribe (b : Serving) (number : Nat) : Serving × Bool :=
  let feed := b.service.notifier.feed
  (b.setFeed (feed.unsubscribe (receiverId number)), feed.receivers.contains (receiverId number))

def tryReceive? (b : Serving) (number : Nat) : Option (Serving × Option Change) :=
  (readNext? b.service.notifier.feed (receiverId number)).map fun (feed, c, log) =>
    ((b.setFeed feed).record log, c)

/-- The feed of a service stays open also after its end. -/
def receive? (b : Serving) (number : Nat) : Option (Serving × Received) :=
  (b.tryReceive? number).map fun (b, c) => (b, match c with
    | some c => .change c
    | none => .pending)

def drain? (b : Serving) (number : Nat) : Option (Serving × List Change) :=
  (readAll? b.service.notifier.feed (receiverId number)).map fun (feed, cs, log) =>
    ((b.setFeed feed).record log, cs)

/-- The changes that the bench has not seen yet. -/
def collect (b : Serving) : Serving × List Change :=
  match readAll? b.service.notifier.feed ownReceiver with
  | none => (b, [])
  | some (feed, cs, log) => ((b.setFeed feed).record log, cs)

def place (b : Serving) (k : SinkKind) : Serving × Nat :=
  let (placement, notifier) := b.placement.place b.service.notifier k
  (({ b with placement }.setNotifier notifier).record [Sinks.registerTrace k], b.placement.sinks.length)

def remove? (b : Serving) (number : Nat) : Option (Serving × Bool) :=
  (b.placement.remove b.service.notifier number).map fun (notifier, found) =>
    ((b.setNotifier notifier).record (if found then [Sinks.unregisterTrace] else []), found)

def debugText (b : Serving) : String :=
  "CapabilityService \x7b cache_entries: " ++ toString b.bundles.size ++ ", subscribers: " ++
    toString b.service.notifier.subscribers ++ ", .. \x7d"

end Serving
end PresenceCaps.Bench
