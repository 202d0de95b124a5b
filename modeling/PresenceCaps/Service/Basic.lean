import PresenceCaps.Capability.Channels
import PresenceCaps.Discovery.Basic
import PresenceCaps.Handles
import PresenceCaps.Notifier.Basic

/-!
The capability service: presence updates start jobs and queries, outcomes of queries resolve them, and every
change is published under the contact's handle. Once shut down it answers nothing and changes nothing.
-/
namespace PresenceCaps

structure Receipt where
  handle : ContactHandle
  job : Option JobId
  scheduled : List CapabilitySignature
deriving DecidableEq

def Receipt.isComplete (r : Receipt) : Bool := r.job.isNone

structure Service (σ : Type) where
  running : Bool
  handles : Handles
  roster : Roster
  discovery : Discovery
  notifier : Notifier σ

namespace Service
variable {σ : Type}

/-- A required count or a capacity of zero counts as one. -/
def start (required : UInt32) (capacity : Nat) : Service σ where
  running := true
  handles := .empty
  roster := .empty
  discovery := .requiring required
  notifier := .ofCapacity (max capacity 1) (by omega)

def bundles (s : Service σ) : Bundles := s.discovery.bundles

/-- Runs a request, unless the service is closed. -/
def request {α : Type} (s : Service σ) (answer : Except ServiceError α) : Except ServiceError α :=
  if s.running then answer else .error .closed

def publish [Sink σ] (s : Service σ) (change : ContactChange) : Service σ :=
  match s.handles.handle? change.contact with
  | none => s
  | some x => { s with notifier := (s.notifier.publish x change.contact change.old change.new).1 }

def publish? [Sink σ] (s : Service σ) : Option ContactChange → Service σ
  | none => s
  | some change => s.publish change

def ensureContact (s : Service σ) (a : BareAddress) : Except ServiceError (Service σ × ContactHandle) :=
  s.request do
    let (handles, x) ← s.handles.ensure a
    return ({ s with handles }, x)

/-- What came of a presence update, and the queries that it issued. -/
structure Handled (σ : Type) where
  service : Service σ
  receipt : Receipt
  issued : List QueryId

def handlePresence [Sink σ] (s : Service σ) (u : PresenceUpdate) : Except ServiceError (Handled σ) :=
  s.request do
    let (handles, x) ← s.handles.ensure u.sender.bare
    let begun := s.roster.start s.bundles u
    let discovery := { s.discovery with bundles := begun.bundles }
    let (discovery, issued) := match begun.job with
      | none => (discovery, [])
      | some job => discovery.issueAll u.sender job begun.queries
    let s := { s with handles, roster := begun.roster, discovery }
    return ⟨s.publish? begun.change, ⟨x, begun.job, begun.queries⟩, issued⟩

/-- An outcome that comes after the end is dropped. -/
def handleOutcome [Sink σ] (s : Service σ) (o : Outcome) : Service σ :=
  if s.running then
    let (discovery, resolution) := s.discovery.settle o
    let s := { s with discovery }
    match resolution with
    | none => s
    | some r =>
      let (roster, change) := s.roster.resolve r.job r.signature r.features
      { s with roster }.publish? change
  else s

/-- Published capabilities, for a handle that was given out. -/
def raw? (s : Service σ) (x : ContactHandle) : Option Capabilities :=
  (s.handles.contact? x).map s.roster.published

def rawCapabilities (s : Service σ) (x : ContactHandle) : Except ServiceError Capabilities :=
  s.request (match s.raw? x with
    | some c => .ok c
    | none => .error (.caps (.unknownContact x.value)))

def capabilitiesOf (s : Service σ) (x : ContactHandle) : Except ServiceError (List ChannelClass) :=
  s.request (.ok (((s.raw? x).map ChannelClass.ofCapabilities).getD []))

/-- Handles that were never given out are left out. -/
def contactCapabilities (s : Service σ) (xs : List ContactHandle) : Except ServiceError (List ContactCapabilities) :=
  s.request (.ok (xs.filterMap fun x => (s.raw? x).map fun c => ⟨x, ChannelClass.ofCapabilities c⟩))

def pickResource (s : Service σ) (x : ContactHandle) (required : Capabilities) :
    Except ServiceError (Option FullAddress) :=
  s.request (.ok ((s.handles.contact? x).bind fun a => s.roster.pick? a required))

def pendingQueries (s : Service σ) : Except ServiceError Nat := s.request (.ok s.discovery.pendingCount)

def shutdown (s : Service σ) : Except ServiceError (Service σ) :=
  s.request (.ok { s with running := false, discovery := s.discovery.cancelAll })

end Service
end PresenceCaps
