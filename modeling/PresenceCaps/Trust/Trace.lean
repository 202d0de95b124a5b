import PresenceCaps.Log.Record
import PresenceCaps.Trust.Bundles

/-! What the store of bundles logs. -/
namespace PresenceCaps.Bundles

def touchTrace (b : Bundles) (s : CapabilitySignature) : List LogRecord :=
  if (b.get? s).isNone then [⟨.debug, "New capability bundle", [("signature", s.display)]⟩] else []

def mismatch (s : CapabilitySignature) (d : Digest) (computed : Option String) : CapsError :=
  .digestMismatch s.node d.value (computed.getD "")

def recordTrace (b : Bundles) (s : CapabilitySignature) (sender : FullAddress) (reply : DiscoInfo) :
    List LogRecord :=
  let origin := [("signature", s.display), ("from", sender.display)]
  let before := (b.get? s).getD .new
  match s.verifiableDigest with
  | some d =>
    match reply.verify d with
    | .agrees =>
      if before.trust = .pending then [⟨.info, "Bundle trusted by verified digest", origin⟩] else []
    | .differs computed =>
      [⟨.warn, "Reply used for this contact only", origin ++ [("error", (mismatch s d computed).message)]⟩]
    | .unsupported => []
  | none =>
    let after := ((b.record s sender reply).get? s).getD .new
    let count := ("confirmations", toString after.confirmations.toNat)
    (if before.features.any (· ≠ reply.featureSet) then
      [⟨.warn, "Reply disagrees with earlier confirmation, keeping the later one", origin⟩] else []) ++
    (if sender ∈ before.confirmers then [] else [⟨.debug, "Bundle confirmed", origin ++ [count]⟩]) ++
    (if before.trust = .pending ∧ after.trust = .confirmed then
      [⟨.info, "Bundle trusted after independent confirmations", [("signature", s.display), count]⟩] else [])

def failureTrace (s : CapabilitySignature) : List LogRecord :=
  [⟨.debug, "Bundle query failed", [("signature", s.display)]⟩]

end PresenceCaps.Bundles
