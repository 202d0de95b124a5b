import PresenceCaps.Address
import PresenceCaps.Assoc
import PresenceCaps.Capability.Flags

/-!
A bounded feed of changes. It keeps the last changes only; a receiver that has fallen further behind goes on
at the oldest one that is kept.
-/
namespace PresenceCaps

/-- A published change, numbered per handle. -/
structure Change where
  handle : ContactHandle
  contact : BareAddress
  old : Capabilities
  new : Capabilities
  sequence : UInt64
deriving DecidableEq

namespace Change

def added (c : Change) : Capabilities := c.new.diff c.old

def removed (c : Change) : Capabilities := c.old.diff c.new

end Change

/-- A place in the feed, and the one handle to look for if there is only one. -/
structure Receiver where
  next : Nat
  only : Option ContactHandle
deriving DecidableEq, Repr

def Receiver.wants (r : Receiver) (c : Change) : Bool := r.only.all (· == c.handle)

structure Feed where
  capacity : Nat
  capacity_pos : 0 < capacity
  kept : List Change
  sent : Nat
  receivers : Assoc Nat Receiver
  opened : Nat
deriving DecidableEq

namespace Feed

/-- More changes than this no address space can hold. -/
def largestCapacity : Nat := 1 <<< 57

def ofCapacity (n : Nat) (h : 0 < n) : Feed := ⟨n, h, [], 0, [], 0⟩

/-- How many changes are kept: the capacity rounded up to a power of two. -/
def room (f : Feed) : Nat := f.capacity.nextPowerOfTwo

/-- The position of the oldest change that is kept. -/
def first (f : Feed) : Nat := f.sent - f.kept.length

/-- Without receivers nothing is stored. -/
def send (f : Feed) (c : Change) : Feed :=
  if f.receivers.isEmpty then f
  else
    let kept := f.kept ++ [c]
    { f with kept := kept.drop (kept.length - f.room), sent := f.sent + 1 }

/-- A new receiver sees what is sent from now on. -/
def subscribe (f : Feed) (only : Option ContactHandle) : Feed × Nat :=
  ({ f with receivers := f.receivers.set f.opened ⟨f.sent, only⟩, opened := f.opened + 1 }, f.opened)

def unsubscribe (f : Feed) (id : Nat) : Feed := { f with receivers := f.receivers.erase id }

/-- How many changes a receiver has missed for good. -/
def missed (f : Feed) (r : Receiver) : Nat := f.first - r.next

def unread (f : Feed) (r : Receiver) : List Change := f.kept.drop (r.next - f.first)

/-- The next wanted change, and the receiver after it; the unwanted ones before it are passed over. -/
def read (f : Feed) (r : Receiver) : Option Change × Receiver :=
  match (f.unread r).findIdx? r.wants with
  | some i => ((f.unread r)[i]?, { r with next := max r.next f.first + i + 1 })
  | none => (none, { r with next := f.sent })

def tryReceive (f : Feed) (id : Nat) : Option (Feed × Option Change) :=
  (f.receivers.get? id).map fun r =>
    let (c, r) := f.read r
    ({ f with receivers := f.receivers.set id r }, c)

/-- All wanted changes that are left. -/
def drain (f : Feed) (id : Nat) : Option (Feed × List Change) :=
  (f.receivers.get? id).map fun r =>
    ({ f with receivers := f.receivers.set id { r with next := f.sent } }, (f.unread r).filter r.wants)

end Feed
end PresenceCaps
