import PresenceCaps.Bench.Duration
import PresenceCaps.Bench.Traffic
import PresenceCaps.Discovery.Trace

/-!
A bench for discovery on its own: queries run against the simulated network, and what they report waits until
it is applied.
-/
namespace PresenceCaps.Bench

/-- Once closed there is no discovery any more, but what it had learnt stays readable. -/
structure Scheduling where
  discovery : Discovery
  isOpen : Bool
  traffic : Traffic
  reported : List Outcome
  log : List LogRecord

/-- An outcome that was applied, and what it resolved. -/
structure Applied where
  outcome : Outcome
  resolution : Option Resolution

namespace Scheduling

def start (required : UInt32) (timeout : Nat) (automatic : Assoc String DiscoInfo) : Scheduling :=
  ⟨.requiring required, true, .ofAutomatic automatic (some timeout), [], []⟩

def bundles (b : Scheduling) : Bundles := b.discovery.bundles

def setBundles (b : Scheduling) (bundles : Bundles) (log : List LogRecord) : Scheduling :=
  { b with discovery := { b.discovery with bundles }, log := b.log ++ log }

/-- Goes on with the given traffic and keeps what it reports. -/
def continueWith (b : Scheduling) (next : Traffic × List Outcome) : Scheduling :=
  { b with traffic := next.1, reported := b.reported ++ next.2 }

def pendingCount? (b : Scheduling) : Option Nat :=
  if b.isOpen then some b.discovery.pendingCount else none

def schedule? (b : Scheduling) (s : CapabilitySignature) (target : FullAddress) (job : JobId) :
    Option (Scheduling × QueryId) :=
  if b.isOpen then
    let (discovery, id) := b.discovery.issue s target job
    let b := { b with discovery, log := b.log ++ [Discovery.issueTrace id s target job] }
    some (b.continueWith (b.traffic.begin id ⟨target, s.queryNode⟩), id)
  else none

/-- After the end an outcome resolves nothing. -/
def settle (b : Scheduling) (o : Outcome) : Scheduling × Option Resolution :=
  if b.isOpen then
    let (discovery, resolution) := b.discovery.settle o
    ({ b with discovery, log := b.log ++ b.discovery.settleTrace o }, resolution)
  else (b, none)

def settle? (b : Scheduling) (o : Outcome) : Option (Scheduling × Option Resolution) :=
  if b.isOpen then some (b.settle o) else none

def applyAll (b : Scheduling) : List Outcome → Scheduling × List Applied
  | [] => (b, [])
  | o :: os =>
    let (b, resolution) := b.settle o
    let (b, rest) := b.applyAll os
    (b, ⟨o, resolution⟩ :: rest)

/-- Applies all that was reported. -/
def pump (b : Scheduling) : Scheduling × List Applied := { b with reported := [] }.applyAll b.reported

/-- Only queries that are still pending are stopped. -/
def cancelAll (b : Scheduling) : Scheduling :=
  { b with
    traffic := b.traffic.abort b.discovery.pending.keys
    discovery := b.discovery.cancelAll }

def close (b : Scheduling) : Scheduling := { b.cancelAll with isOpen := false }

def debugText? (b : Scheduling) : Option String :=
  if b.isOpen then
    some ("DiscoveryScheduler \x7b timeout: " ++ durationText (b.traffic.timeout.getD 0) ++ ", pending: " ++
      toString b.discovery.pendingCount ++ ", .. \x7d")
  else none

def answer? (b : Scheduling) (number : Nat) (reply : Request → Reply) : Option Scheduling :=
  (b.traffic.answer? number reply).map b.continueWith

def advance (b : Scheduling) (ms : Nat) : Scheduling := b.continueWith (b.traffic.advance ms)

end Scheduling
end PresenceCaps.Bench
