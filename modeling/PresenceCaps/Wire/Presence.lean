import PresenceCaps.Presence
import PresenceCaps.Trust.Bundles
import PresenceCaps.Wire.Address

/-! Signatures, advertisements and presence updates as data. -/
namespace PresenceCaps
open Datum

namespace HashAlgorithm

def toDatum : HashAlgorithm → Datum
  | sha1 => text "sha1"
  | sha256 => text "sha256"
  | other name => tagged "other" (text name)

/-- A name that is carried is kept as it is, also the name of a known algorithm. -/
def ofDatum? (t : Datum) : Option HashAlgorithm :=
  match t.payload? "other" with
  | some name => name.text?.map other
  | none => plain? [("sha1", sha1), ("sha256", sha256)] t

end HashAlgorithm

namespace Digest

def toDatum (d : Digest) : Datum := table [("algorithm", d.algorithm.toDatum), ("value", text d.value)]

def ofDatum? (t : Datum) : Option Digest :=
  match t.fields? ["algorithm", "value"] 2 with
  | some [algorithm, value] => do
    let algorithm ← required HashAlgorithm.ofDatum? algorithm
    let value ← required text? value
    return ⟨algorithm, value⟩
  | _ => none

end Digest

namespace BundleToken

def toDatum : BundleToken → Datum
  | version s => tagged "version" (Datum.text s)
  | extension s => tagged "extension" (Datum.text s)

def ofDatum? (t : Datum) : Option BundleToken :=
  match t.payload? "version" with
  | some s => s.text?.map version
  | none => (t.payload? "extension").bind fun s => s.text?.map extension

end BundleToken

namespace CapabilitySignature

def toDatum (s : CapabilitySignature) : Datum :=
  table [("node", text s.node), ("token", s.token.toDatum), ("digest", ofOption Digest.toDatum s.digest)]

def ofDatum? (t : Datum) : Option CapabilitySignature :=
  match t.fields? ["node", "token", "digest"] 3 with
  | some [node, token, digest] => do
    let node ← required text? node
    let token ← required BundleToken.ofDatum? token
    let digest ← nullable Digest.ofDatum? digest
    return ⟨node, token, digest⟩
  | _ => none

end CapabilitySignature

namespace CapsAdvertisement

def toDatum (a : CapsAdvertisement) : Datum :=
  table [("node", text a.node), ("ver", text a.ver), ("hash", ofOption text a.hash), ("ext", ofTexts a.ext)]

def ofDatum? (t : Datum) : Option CapsAdvertisement :=
  match t.fields? ["node", "ver", "hash", "ext"] 2 with
  | some [node, ver, hash, ext] => do
    let node ← required text? node
    let ver ← required text? ver
    let hash ← nullable text? hash
    let ext ← withDefault [] texts? ext
    return ⟨node, ver, hash, ext⟩
  | _ => none

end CapsAdvertisement

namespace Availability

def toDatum : Availability → Datum
  | available => text "available"
  | unavailable => text "unavailable"

def ofDatum? (t : Datum) : Option Availability :=
  plain? [("available", available), ("unavailable", unavailable)] t

end Availability

namespace PresenceUpdate

def toDatum (u : PresenceUpdate) : Datum :=
  table [("from", u.sender.toDatum), ("availability", u.availability.toDatum),
    ("priority", ofInt8 u.priority), ("caps", ofOption CapsAdvertisement.toDatum u.caps)]

def ofDatum? (t : Datum) : Option PresenceUpdate :=
  match t.fields? ["from", "availability", "priority", "caps"] 2 with
  | some [sender, availability, priority, caps] => do
    let sender ← required FullAddress.ofDatum? sender
    let availability ← required Availability.ofDatum? availability
    let priority ← withDefault 0 int8? priority
    let caps ← nullable CapsAdvertisement.ofDatum? caps
    return ⟨sender, availability, priority, caps⟩
  | _ => none

end PresenceUpdate

namespace Trust

def toDatum : Trust → Datum
  | pending => text "pending"
  | confirmed => text "confirmed"

def ofDatum? (t : Datum) : Option Trust := plain? [("pending", pending), ("confirmed", confirmed)] t

end Trust
end PresenceCaps
