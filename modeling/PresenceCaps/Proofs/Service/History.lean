import PresenceCaps.Notifier.Kinds
import PresenceCaps.Proofs.Notifier.History
import PresenceCaps.Proofs.Roster.History
import PresenceCaps.Proofs.Trust.History
import PresenceCaps.Service.Basic

/-!
Histories of the service: what it was told, the latest first, together with what others did to the bundles and the
notifier that they share with it.
-/
namespace PresenceCaps
variable {σ : Type} [Sink σ]

namespace Service

/-- Outcomes may be of any query, also of one that was never issued or is long settled. -/
inductive Event (σ : Type) where
  | presence (update : PresenceUpdate)
  | outcome (outcome : Outcome)
  | contact (contact : BareAddress)
  | bundle (call : Bundles.Call)
  | listening (listening : Listening σ)
  | shutdown

/-- A request that is refused changes nothing. -/
def step (s : Service σ) : Event σ → Service σ
  | .presence u =>
    match s.handlePresence u with
    | .ok x => x.service
    | .error _ => s
  | .outcome o => s.handleOutcome o
  | .contact a =>
    match s.ensureContact a with
    | .ok x => x.1
    | .error _ => s
  | .bundle c => { s with discovery := { s.discovery with bundles := s.bundles.step c } }
  | .listening l => { s with notifier := s.notifier.listen l }
  | .shutdown =>
    match s.shutdown with
    | .ok s => s
    | .error _ => s

/-- The call that an event makes to the roster. -/
def rosterCall? (s : Service σ) : Event σ → Option Roster.Call
  | .presence u => if (s.handlePresence u).isOk then some (.start s.bundles u) else none
  | .outcome o => if s.running then (s.discovery.settle o).2.map .resolve else none
  | _ => none

/-- How many queries an event issues. -/
def issuedCount (s : Service σ) : Event σ → Nat
  | .presence u =>
    match s.handlePresence u with
    | .ok x => x.issued.length
    | .error _ => 0
  | _ => 0

/-- The events since the service was started, the latest one in front. -/
abbrev History (σ : Type) := List (Event σ)

namespace History
variable (required : UInt32) (capacity : Nat)

/-- The service after the events. -/
def service : History σ → Service σ
  | [] => .start required capacity
  | e :: h => (service h).step e

/-- The calls that the events made to the roster. -/
def rosterCalls : History σ → Roster.History
  | [] => []
  | e :: h => ((service required capacity h).rosterCall? e).toList ++ rosterCalls h

/-- How many jobs were begun. -/
def jobCount (h : History σ) : Nat := (rosterCalls required capacity h).jobCount

/-- How many queries were issued. -/
def queryCount : History σ → Nat
  | [] => 0
  | e :: h => queryCount h + (service required capacity h).issuedCount e

/-- The laptop's update of two bundles is replaced by one of a single bundle before its first query is answered, and the
query of the phone fails; two of the four queries are left. -/
def replacedQueries : History SinkKind :=
  [.outcome ⟨⟨3⟩, .error (.queryTimeout "bob@example.com/Phone" "0.3")⟩,
    .outcome ⟨⟨1⟩, .ok Sample.audioReply⟩,
    .presence (Sample.available Sample.laptop (Sample.advertisement "0.2")),
    .presence (Sample.available Sample.phone (Sample.advertisement "0.3")),
    .presence (Sample.available Sample.laptop { Sample.advertisement "0.1" with ext := ["video"] })]

end History
end Service
end PresenceCaps
