import PresenceCaps.Address
import PresenceCaps.Assoc
import PresenceCaps.Disco.Verification

/-!
What is known of each capability bundle. A reply that recomputes to the advertised digest makes its bundle
trusted at once; a bundle without a digest that can be checked is trusted after enough distinct resources
have answered for it.
-/
namespace PresenceCaps

structure QueryId where
  value : UInt64
deriving DecidableEq, Repr

def QueryId.display (id : QueryId) : String := "q" ++ toString id.value.toNat

inductive Trust where
  | pending
  | confirmed
deriving DecidableEq, Repr

structure Bundle where
  trust : Trust
  confirmations : UInt32
  confirmers : List FullAddress
  features : Option FeatureSet
  software : Option SoftwareInfo
  waiting : List QueryId
deriving DecidableEq

namespace Bundle

def new : Bundle := ⟨.pending, 0, [], none, none, []⟩

def featureSet (b : Bundle) : FeatureSet := b.features.getD .empty

def needsQuery (b : Bundle) : Bool := b.trust == .pending

def learnSoftware (b : Bundle) (reply : DiscoInfo) : Bundle :=
  { b with software := reply.software? <|> b.software }

def addConfirmer (b : Bundle) (r : FullAddress) : Bundle :=
  if r ∈ b.confirmers then b else { b with confirmers := b.confirmers ++ [r] }

/-- After a reply that recomputed to the advertised digest. -/
def verifiedBy (b : Bundle) (sender : FullAddress) (reply : DiscoInfo) : Bundle :=
  { (b.learnSoftware reply).addConfirmer sender with
    features := some reply.featureSet
    trust := .confirmed
    confirmations := 1 }

/-- A count that stays at its largest value. -/
def nextCount (n : UInt32) : UInt32 := if n = 4294967295 then n else n + 1

/-- After a reply that nothing vouches for: the sender counts once, the latest features stand. -/
def confirmedBy (b : Bundle) (threshold : UInt32) (sender : FullAddress) (reply : DiscoInfo) : Bundle :=
  let count := if sender ∈ b.confirmers then b.confirmations else nextCount b.confirmations
  { (b.learnSoftware reply).addConfirmer sender with
    features := some reply.featureSet
    confirmations := count
    trust := if b.trust = .pending ∧ count < threshold then .pending else .confirmed }

end Bundle

/-- What a lookup answers: the features of a trusted bundle are always there. -/
structure Lookup where
  needsQuery : Bool
  trust : Trust
  features : Option FeatureSet
deriving DecidableEq

structure Bundles where
  required : UInt32
  entries : Assoc CapabilitySignature Bundle
deriving DecidableEq

namespace Bundles

/-- At least one confirmation is always required. -/
def requiring (n : UInt32) : Bundles := ⟨max n 1, []⟩

def threshold (b : Bundles) (s : CapabilitySignature) : UInt32 := if s.isHashed then 1 else b.required

def get? (b : Bundles) (s : CapabilitySignature) : Option Bundle := b.entries.get? s

def size (b : Bundles) : Nat := b.entries.length

def update (b : Bundles) (s : CapabilitySignature) (f : Bundle → Bundle) : Bundles :=
  { b with entries := b.entries.set s (f ((b.get? s).getD .new)) }

/-- Makes sure that there is an entry. -/
def touch (b : Bundles) (s : CapabilitySignature) : Bundles := b.update s id

def lookup (b : Bundles) (s : CapabilitySignature) : Lookup :=
  let e := (b.get? s).getD .new
  ⟨e.needsQuery, e.trust, if e.needsQuery then e.features else some e.featureSet⟩

def isTrusted (b : Bundles) (s : CapabilitySignature) : Bool := !(b.lookup s).needsQuery

/-- The features of a trusted bundle; of another one nothing is used. -/
def trustedFeatures (b : Bundles) (s : CapabilitySignature) : FeatureSet :=
  if b.isTrusted s then (b.lookup s).features.getD .empty else .empty

def attach (b : Bundles) (s : CapabilitySignature) (id : QueryId) : Bundles :=
  { b with entries := b.entries.modify s fun e => { e with waiting := e.waiting ++ [id] } }

def detach (b : Bundles) (s : CapabilitySignature) (id : QueryId) : Bundles :=
  { b with entries := b.entries.modify s fun e => { e with waiting := e.waiting.filter (· ≠ id) } }

/-- A reply that does not recompute to its digest teaches nothing. -/
def record (b : Bundles) (s : CapabilitySignature) (sender : FullAddress) (reply : DiscoInfo) : Bundles :=
  match s.verifiableDigest with
  | some d => if reply.verify d = .agrees then b.update s (·.verifiedBy sender reply) else b
  | none => b.update s (·.confirmedBy (b.threshold s) sender reply)

theorem get?_update (b : Bundles) (s t : CapabilitySignature) (f : Bundle → Bundle) :
    (b.update s f).get? t = if s = t then some (f ((b.get? s).getD .new)) else b.get? t :=
  Assoc.get?_set ..

theorem get?_attach (b : Bundles) (s t : CapabilitySignature) (id : QueryId) :
    (b.attach s id).get? t =
      if s = t then (b.get? t).map fun e => { e with waiting := e.waiting ++ [id] } else b.get? t := by
  rw [get?, attach, Assoc.get?_modify]
  rfl

theorem get?_detach (b : Bundles) (s t : CapabilitySignature) (id : QueryId) :
    (b.detach s id).get? t =
      if s = t then (b.get? t).map fun e => { e with waiting := e.waiting.filter (· ≠ id) } else b.get? t := by
  rw [get?, detach, Assoc.get?_modify]
  rfl

end Bundles
end PresenceCaps
