import Mathlib.Algebra.Group.Nat.Defs
import Mathlib.Data.List.Dedup
import PresenceCaps.Samples
import PresenceCaps.Trust.Bundles

/-!
Histories of the bundle store: the calls made to it, the latest one in front, and what they say of every bundle
without a look at the store's entries.
-/
namespace PresenceCaps

/-- A resource and what it has answered. -/
structure Answer where
  sender : FullAddress
  reply : DiscoInfo

namespace CapabilitySignature

/-- Whether a reply counts for a bundle: one whose digest can be checked takes only replies that recompute to it. -/
def takes (s : CapabilitySignature) (reply : DiscoInfo) : Bool :=
  s.verifiableDigest.all fun d => reply.digest? d.algorithm = some d.value

/-- The resources that have answered, each once. -/
def confirmers (xs : List Answer) : List FullAddress := (xs.map Answer.sender).dedup

/-- One answer that recomputes to the digest is enough, and so are enough resources if there is no digest. -/
def isTrustedFrom (s : CapabilitySignature) (n : UInt32) (xs : List Answer) : Bool :=
  if s.isHashed then !xs.isEmpty else max n.toNat 1 ≤ (confirmers xs).length

/-- How much is counted: of answers that recompute to the digest one, else the resources up to the largest number. -/
def countFrom (s : CapabilitySignature) (xs : List Answer) : Nat :=
  if s.isHashed then min xs.length 1 else min (confirmers xs).length (2 ^ 32 - 1)

/-- The entry that the answers make, the latest of them in front: the latest one has the features, the latest with
software information has that. -/
def standing (s : CapabilitySignature) (n : UInt32) (xs : List Answer) : Bundle where
  trust := if s.isTrustedFrom n xs then .confirmed else .pending
  confirmations := .ofNat (s.countFrom xs)
  confirmers := (confirmers xs).reverse
  features := xs.head?.map fun x => x.reply.featureSet
  software := xs.findSome? fun x => x.reply.software?
  waiting := []

end CapabilitySignature

/-- An entry apart from the queries that wait for it. -/
def Bundle.standing (e : Bundle) : Bundle := { e with waiting := [] }

namespace Bundles

/-- A failed query is told to the store, which has nothing to learn from it. -/
inductive Call where
  | lookup (signature : CapabilitySignature)
  | attach (signature : CapabilitySignature) (id : QueryId)
  | detach (signature : CapabilitySignature) (id : QueryId)
  | success (signature : CapabilitySignature) (sender : FullAddress) (reply : DiscoInfo)
  | failure (signature : CapabilitySignature)

namespace Call

def signature : Call → CapabilitySignature
  | lookup s | attach s _ | detach s _ | success s _ _ | failure s => s

/-- The answer that a call brings for a bundle, if it counts. -/
def answer? (s : CapabilitySignature) : Call → Option Answer
  | success t sender reply => if t = s ∧ s.takes reply then some ⟨sender, reply⟩ else none
  | _ => none

def isLookup (s : CapabilitySignature) : Call → Bool
  | lookup t => t = s
  | _ => false

end Call

def step (b : Bundles) : Call → Bundles
  | .lookup s => b.touch s
  | .attach s id => b.attach s id
  | .detach s id => b.detach s id
  | .success s sender reply => b.record s sender reply
  | .failure _ => b

/-- The calls made to a store that was empty at first, the latest one in front. -/
abbrev History := List Call

namespace History

/-- The store after the calls. -/
def bundles (n : UInt32) : History → Bundles
  | [] => .requiring n
  | c :: h => (bundles n h).step c

/-- The answers that count for a bundle, the latest first. -/
def answers (h : History) (s : CapabilitySignature) : List Answer := h.filterMap (Call.answer? s)

/-- A bundle is known once it was looked up or has an answer. -/
def isKnown (h : History) (s : CapabilitySignature) : Bool := h.any (Call.isLookup s) || !(h.answers s).isEmpty

/-- What a history says of a bundle. -/
def bundle? (n : UInt32) (h : History) (s : CapabilitySignature) : Option Bundle :=
  if h.isKnown s then some (s.standing n (h.answers s)) else none

/-- The calls that concern a bundle. -/
def about (h : History) (s : CapabilitySignature) : History := h.filter fun c => c.signature = s

/-- A reply that says something twice has no verification string. -/
def stutter : DiscoInfo := .ofFeatures [Feature.tubes, Feature.tubes]

/-- A client that can be pinged says so. -/
def pingReply : DiscoInfo := .ofFeatures [Feature.jingle, "urn:xmpp:ping"]

/-- Two resources answer for a bundle without a digest, one of them twice; a bundle with a digest is told a reply that
does not recompute to it. -/
def secondConfirmation : History :=
  let s := (Sample.advertisement "0.1").baseSignature
  [.failure s, .success s Sample.laptop Sample.audioReply,
    .success Sample.hashedAdvertisement.baseSignature Sample.phone stutter,
    .success s Sample.phone Sample.hashedReply, .attach s ⟨1⟩, .lookup s, .success s Sample.laptop Sample.tubesReply]

end History
end Bundles
end PresenceCaps
