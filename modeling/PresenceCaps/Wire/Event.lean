import PresenceCaps.Notifier.Feed
import PresenceCaps.Stamp.EventId
import PresenceCaps.Stamp.Timestamp
import PresenceCaps.Wire.Address

/-! Stamped changes as data. -/
namespace PresenceCaps
open Datum

namespace EventId

def toDatum (id : EventId) : Datum := text id.display

def ofDatum? (t : Datum) : Option EventId := t.text?.bind parse?

end EventId

namespace Timestamp

def toDatum (t : Timestamp) : Datum := text t.display

def ofDatum? (t : Datum) : Option Timestamp := t.text?.bind parse?

end Timestamp

/-- A change, with an identifier and a time of its own. -/
structure CapabilityEvent where
  id : EventId
  time : Timestamp
  change : Change
deriving DecidableEq

namespace CapabilityEvent

def toDatum (e : CapabilityEvent) : Datum :=
  table
    [("metadata", table
      [("event_id", e.id.toDatum), ("timestamp", e.time.toDatum), ("sequence", ofWord64 e.change.sequence)]),
      ("handle", e.change.handle.toDatum), ("contact", e.change.contact.toDatum),
      ("old", e.change.old.toDatum), ("new", e.change.new.toDatum)]

def metadata? (t : Datum) : Option (EventId × Timestamp × UInt64) :=
  match t.fields? ["event_id", "timestamp", "sequence"] 3 with
  | some [id, time, sequence] => do
    let id ← required EventId.ofDatum? id
    let time ← required Timestamp.ofDatum? time
    let sequence ← required word64? sequence
    return (id, time, sequence)
  | _ => none

def ofDatum? (t : Datum) : Option CapabilityEvent :=
  match t.fields? ["metadata", "handle", "contact", "old", "new"] 5 with
  | some [metadata, handle, contact, old, new] => do
    let (id, time, sequence) ← required metadata? metadata
    let handle ← required ContactHandle.ofDatum? handle
    let contact ← required BareAddress.ofDatum? contact
    let old ← required Capabilities.ofDatum? old
    let new ← required Capabilities.ofDatum? new
    return ⟨id, time, handle, contact, old, new, sequence⟩
  | _ => none

end CapabilityEvent
end PresenceCaps
