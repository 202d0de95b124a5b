import PresenceCaps.Presence
import PresenceCaps.Trust.Bundles

/-!
The capabilities of each contact, joined over its online resources. An update of a resource counts once all
bundles that it refers to are resolved; a newer update of the same resource takes its place.
-/
namespace PresenceCaps

structure JobId where
  value : UInt64
deriving DecidableEq, Repr

def JobId.display (j : JobId) : String := "job" ++ toString j.value.toNat

structure ContactChange where
  contact : BareAddress
  old : Capabilities
  new : Capabilities
deriving DecidableEq

/-- The capabilities are those of the last completed update, the priority that of the latest one. -/
structure OnlineResource where
  bits : Capabilities
  priority : Int8
deriving DecidableEq, Repr

/-- Whether it can be used for any of the required capabilities; never, with a negative priority. -/
def OnlineResource.serves (x : OnlineResource) (required : Capabilities) : Bool :=
  0 ≤ x.priority && x.bits.intersects required

structure ContactState where
  published : Capabilities
  resources : Assoc String OnlineResource
deriving DecidableEq

namespace ContactState

def new : ContactState := ⟨.baseline, []⟩

def effective (c : ContactState) : Capabilities :=
  c.resources.foldl (fun bits r => bits.union r.2.bits) .baseline

def republish (c : ContactState) : ContactState := { c with published := c.effective }

/-- A resource that comes online starts with nothing; one that is online keeps what it has. -/
def online (c : ContactState) (name : String) (priority : Int8) : ContactState :=
  let bits := ((c.resources.get? name).map (·.bits)).getD .none
  { c with resources := c.resources.set name ⟨bits, priority⟩ }

def offline (c : ContactState) (name : String) : ContactState := { c with resources := c.resources.erase name }

def assign (c : ContactState) (name : String) (bits : Capabilities) : ContactState :=
  { c with resources := c.resources.modify name fun r => { r with bits } }

/-- The resources in the order of their names. -/
def inOrder (c : ContactState) : List (String × OnlineResource) :=
  c.resources.mergeSort fun x y => decide (x.1 ≤ y.1)

end ContactState

/-- An update that waits for bundles: what is resolved so far, and what is not. -/
structure Job where
  resource : FullAddress
  unresolved : List CapabilitySignature
  bits : Capabilities
deriving DecidableEq

structure Roster where
  contacts : Assoc BareAddress ContactState
  jobs : Assoc JobId Job
  active : Assoc FullAddress JobId
  nextJob : UInt64
deriving DecidableEq

namespace Roster

def empty : Roster := ⟨[], [], [], 0⟩

def contact (r : Roster) (a : BareAddress) : ContactState := (r.contacts.get? a).getD .new

def updateContact (r : Roster) (a : BareAddress) (f : ContactState → ContactState) : Roster :=
  { r with contacts := r.contacts.set a (f (r.contact a)) }

def published (r : Roster) (a : BareAddress) : Capabilities := (r.contact a).published

def resourceCapabilities? (r : Roster) (a : FullAddress) : Option Capabilities :=
  ((r.contact a.bare).resources.get? a.resource).map (·.bits)

def isPending (r : Roster) (a : FullAddress) : Bool := r.active.contains a

def pendingJobs (r : Roster) : Nat := r.jobs.length

/-- The change that publishing the contact's effective capabilities would make. -/
def change? (r : Roster) (a : BareAddress) : Option ContactChange :=
  let c := r.contact a
  if c.effective = c.published then none else some ⟨a, c.published, c.effective⟩

def publish (r : Roster) (a : BareAddress) : Roster × Option ContactChange :=
  (r.updateContact a (·.republish), r.change? a)

def complete (r : Roster) (a : FullAddress) (bits : Capabilities) : Roster × Option ContactChange :=
  (r.updateContact a.bare (·.assign a.resource bits)).publish a.bare

/-- Forgets the update of the resource that is still waiting. -/
def supersede (r : Roster) (a : FullAddress) : Roster :=
  match r.active.get? a with
  | none => r
  | some j => { r with active := r.active.erase a, jobs := r.jobs.erase j }

/-- What came of an update: the bundles to ask for, and the job that waits for them. -/
structure Begun where
  roster : Roster
  bundles : Bundles
  job : Option JobId
  queries : List CapabilitySignature
  change : Option ContactChange

/-- The capabilities that trusted bundles grant at once. -/
def trustedBits (b : Bundles) (sigs : List CapabilitySignature) : Capabilities :=
  .unionAll (sigs.map fun s => (b.trustedFeatures s).capabilities)

def addJob (r : Roster) (job : Job) : Roster :=
  { r with
    jobs := r.jobs.set ⟨r.nextJob⟩ job
    active := r.active.set job.resource ⟨r.nextJob⟩
    nextJob := r.nextJob + 1 }

def start (r : Roster) (b : Bundles) (u : PresenceUpdate) : Begun :=
  let a := u.sender
  let r := r.supersede a
  match u.availability with
  | .unavailable =>
    let (r, change) := (r.updateContact a.bare (·.offline a.resource)).publish a.bare
    ⟨r, b, none, [], change⟩
  | .available =>
    let r := r.updateContact a.bare (·.online a.resource u.priority)
    let queries := u.signatures.filter fun s => !b.isTrusted s
    let bits := trustedBits b u.signatures
    let b' := u.signatures.foldl Bundles.touch b
    if queries.isEmpty then
      let (r, change) := r.complete a bits
      ⟨r, b', none, [], change⟩
    else ⟨r.addJob ⟨a, queries, bits⟩, b', some ⟨r.nextJob⟩, queries, none⟩

/-- Only the first resolution of a bundle that a live job waits for counts. -/
def resolve (r : Roster) (id : JobId) (s : CapabilitySignature) (features : FeatureSet) :
    Roster × Option ContactChange :=
  match r.jobs.get? id with
  | none => (r, none)
  | some job =>
    if s ∈ job.unresolved then
      let job : Job :=
        { job with unresolved := job.unresolved.filter (· ≠ s), bits := job.bits.union features.capabilities }
      if job.unresolved.isEmpty then
        { r with jobs := r.jobs.erase id, active := r.active.erase job.resource }.complete job.resource job.bits
      else ({ r with jobs := r.jobs.set id job }, none)
    else (r, none)

/-- Of two resources the later one, unless its priority is lower. -/
def prefer (best : Option (String × OnlineResource)) (e : String × OnlineResource) :
    Option (String × OnlineResource) :=
  match best with
  | none => some e
  | some m => if e.2.priority < m.2.priority then best else some e

/-- The resource to use for any of the required capabilities. -/
def pick? (r : Roster) (a : BareAddress) (required : Capabilities) : Option FullAddress :=
  (((r.contact a).inOrder.filter (·.2.serves required)).foldl prefer none).map fun e => a.withResource e.1

end Roster
end PresenceCaps
