import PresenceCaps.Discovery.Basic
import PresenceCaps.Proofs.Capability.Union
import PresenceCaps.Samples

/-!
Histories of a roster: the calls made to it, the latest one in front, and what they say of every resource
without a look at the roster's state.
-/
namespace PresenceCaps

@[simp] theorem FeatureSet.capabilities_empty : FeatureSet.empty.capabilities = .none := rfl

namespace Bundles

/-- Whether a bundle is known and trusted. -/
def isConfirmed (b : Bundles) (s : CapabilitySignature) : Bool := (b.get? s).any fun e => e.trust = .confirmed

/-- The features that are stored for a bundle, trusted or not. -/
def stored (b : Bundles) (s : CapabilitySignature) : FeatureSet := ((b.get? s).bind Bundle.features).getD .empty

theorem isTrusted_eq_isConfirmed (b : Bundles) (s : CapabilitySignature) : b.isTrusted s = b.isConfirmed s := by
  rw [isTrusted, lookup, Bundle.needsQuery, isConfirmed]
  cases b.get? s with
  | none => rfl
  | some e => cases he : e.trust <;> simp [he]

/-- What a roster takes from the bundles is stored there, and confirmed. -/
theorem trustedFeatures_eq (b : Bundles) (s : CapabilitySignature) :
    b.trustedFeatures s = if b.isConfirmed s then b.stored s else .empty := by
  rw [trustedFeatures, ← isTrusted_eq_isConfirmed]
  split
  · rename_i ht
    have hneeds : (b.lookup s).needsQuery = false := by simpa [isTrusted] using ht
    have hknown : (b.lookup s).features = some ((b.get? s).getD .new).featureSet :=
      if_neg (ne_true_of_eq_false hneeds)
    rw [hknown, stored]
    cases b.get? s <;> rfl
  · rfl

end Bundles

/-- The bundles that an update has to ask for. -/
def PresenceUpdate.untrusted (u : PresenceUpdate) (b : Bundles) : List CapabilitySignature :=
  u.signatures.filter fun s => !b.isConfirmed s

theorem PresenceUpdate.untrusted_eq (u : PresenceUpdate) (b : Bundles) :
    u.untrusted b = u.signatures.filter fun s => !b.isTrusted s := by
  simp only [untrusted, Bundles.isTrusted_eq_isConfirmed]

/-- The features that a resolution brings for a bundle of a job. -/
def Resolution.features? (r : Resolution) (j : JobId) (s : CapabilitySignature) : Option FeatureSet :=
  if r.job = j ∧ r.signature = s then some r.features else none

namespace Roster

/-- Any bundles may come with an update, and any job, bundle and features with a resolution. -/
inductive Call where
  | start (bundles : Bundles) (update : PresenceUpdate)
  | resolve (resolution : Resolution)

namespace Call

def sender? : Call → Option FullAddress
  | start _ u => some u.sender
  | resolve _ => none

/-- Whether a call leaves a job behind that waits for bundles. -/
def waits : Call → Bool
  | start b u => !(u.untrusted b).isEmpty
  | resolve _ => false

end Call

def step (r : Roster) : Call → Roster × Option ContactChange
  | .start b u => ((r.start b u).roster, (r.start b u).change)
  | .resolve x => r.resolve x.job x.signature x.features

/-- The calls made to a roster that was empty at first, the latest one in front. -/
abbrev History := List Call

/-- A presence update of the past, with the resolutions that came after it and before it was replaced. -/
structure PastUpdate where
  bundles : Bundles
  update : PresenceUpdate
  position : Nat
  job : JobId
  since : List Resolution

namespace PastUpdate

/-- What the first resolution of a bundle brought. -/
def resolution? (x : PastUpdate) (s : CapabilitySignature) : Option FeatureSet :=
  x.since.findSome? fun r => r.features? x.job s

/-- The bundles that the update still waits for. -/
def outstanding (x : PastUpdate) : List CapabilitySignature :=
  (x.update.untrusted x.bundles).filter fun s => (x.resolution? s).isNone

def isComplete (x : PastUpdate) : Bool := x.outstanding.isEmpty

/-- A bundle that was trusted when the update came has the features stored then, another one those of its first
resolution. -/
def features (x : PastUpdate) (s : CapabilitySignature) : FeatureSet :=
  if x.bundles.isConfirmed s then x.bundles.stored s else (x.resolution? s).getD .empty

def bits (x : PastUpdate) : Capabilities :=
  .unionAll (x.update.signatures.map fun s => (x.features s).capabilities)

def isAvailable (x : PastUpdate) : Bool := x.update.availability = .available

def extend (x : PastUpdate) (r : Resolution) : PastUpdate := { x with since := x.since ++ [r] }

/-- Whether a resolution is one that the update waits for. -/
def Awaits (x : PastUpdate) (r : Resolution) : Prop := r.job = x.job ∧ r.signature ∈ x.outstanding

instance (x : PastUpdate) (r : Resolution) : Decidable (x.Awaits r) :=
  inferInstanceAs (Decidable (_ ∧ _))

end PastUpdate

namespace History

/-- The roster after the calls. -/
def roster : History → Roster
  | [] => .empty
  | c :: h => ((roster h).step c).1

/-- How many of the updates left a job behind. -/
def jobCount (h : History) : Nat := h.countP Call.waits

/-- Jobs are numbered from zero on. -/
def nextJob (h : History) : JobId := ⟨.ofNat h.jobCount⟩

/-- The updates that fit, the latest first. What came `since` the whole history belongs to the latest. -/
def updatesThen (fits : Call → JobId → Bool) (since : List Resolution) : History → List PastUpdate
  | [] => []
  | .start b u :: h =>
    -- resolutions after an update are no longer looked at by the ones before it
    if fits (.start b u) (nextJob h) then ⟨b, u, h.length, nextJob h, since⟩ :: updatesThen fits [] h
    else updatesThen fits since h
  | .resolve r :: h => updatesThen fits (r :: since) h

/-- The updates of a resource, the latest first. -/
def updates (h : History) (a : FullAddress) : List PastUpdate :=
  h.updatesThen (fun c _ => c.sender? = some a) []

/-- The update that was last given this job. -/
def begun? (h : History) (j : JobId) : Option PastUpdate :=
  (h.updatesThen (fun c k => c.waits && k = j) []).head?

/-- A resource is online when its latest update was available. -/
def isOnline (h : History) (a : FullAddress) : Bool := (h.updates a).head?.any PastUpdate.isAvailable

/-- What the latest completed update grants, back to where the resource came online. -/
def completedBits (xs : List PastUpdate) : Capabilities :=
  (((xs.takeWhile PastUpdate.isAvailable).find? PastUpdate.isComplete).map PastUpdate.bits).getD .none

/-- What a resource grants: the capabilities of its latest update that was completed since it came online. -/
def bits (h : History) (a : FullAddress) : Capabilities := completedBits (h.updates a)

/-- The online resources of a contact. -/
def online (h : History) (c : BareAddress) : List FullAddress :=
  (h.filterMap Call.sender?).filter fun a => a.bare = c ∧ h.isOnline a

/-- What there is to hold of a resource that is online. -/
def resource? (h : History) (a : FullAddress) : Option OnlineResource :=
  ((h.updates a).head?.filter PastUpdate.isAvailable).map fun x => ⟨h.bits a, x.update.priority⟩

/-- The latest update of a resource, if it still waits for bundles. -/
def waiting? (h : History) (a : FullAddress) : Option PastUpdate :=
  (h.updates a).head?.filter fun x => !x.isComplete

/-- The laptop replaces an update of two bundles by one of a single bundle, and the old job goes on to be answered
while the phone still waits. -/
def replacedUpdate : History :=
  [.resolve ⟨⟨1⟩, .ofVersion Sample.clientNode "0.2", ⟨[Feature.tubes], by decide⟩⟩,
    .resolve ⟨⟨0⟩, .ofVersion Sample.clientNode "0.1", ⟨[Feature.jingle015Audio], by decide⟩⟩,
    .start (.requiring 5) (Sample.available Sample.phone (Sample.advertisement "0.3")),
    .start (.requiring 5) (Sample.available Sample.laptop (Sample.advertisement "0.2")),
    .resolve ⟨⟨0⟩, .ofExtension Sample.clientNode "video", ⟨[Feature.jingle015Video], by decide⟩⟩,
    .start (.requiring 5)
      (Sample.available Sample.laptop { Sample.advertisement "0.1" with ext := ["video"] })]

end History
end Roster
end PresenceCaps
