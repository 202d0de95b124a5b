import PresenceCaps.Address
import PresenceCaps.Signature
import PresenceCaps.Text.Blank

/-! Presence updates and the capability bundles that they refer to. -/
namespace PresenceCaps

structure CapsAdvertisement where
  node : String
  ver : String
  hash : Option String
  ext : List String
deriving DecidableEq, Repr

namespace CapsAdvertisement

def ofVersion (node ver : String) : CapsAdvertisement := ⟨node, ver, none, []⟩

/-- Extensions as one text has them: names between white space. -/
def withExt (a : CapsAdvertisement) (names : String) : CapsAdvertisement :=
  { a with ext := (words names.toList).map String.ofList }

def baseSignature (a : CapsAdvertisement) : CapabilitySignature :=
  match a.hash with
  | none => .ofVersion a.node a.ver
  | some h => .ofHash a.node a.ver (.ofName h)

/-- The base bundle first, then the extensions; a repeated one counts where it came first. -/
def signatures (a : CapsAdvertisement) : List CapabilitySignature :=
  (a.ext.map (CapabilitySignature.ofExtension a.node)).foldl
    (fun sigs s => if s ∈ sigs then sigs else sigs ++ [s]) [a.baseSignature]

theorem nodup_foldl_addNew {sigs : List CapabilitySignature} (h : sigs.Nodup) (more : List CapabilitySignature) :
    (more.foldl (fun sigs s => if s ∈ sigs then sigs else sigs ++ [s]) sigs).Nodup := by
  induction more generalizing sigs with
  | nil => exact h
  | cons s more ih =>
    rw [List.foldl_cons]
    split
    · exact ih h
    · rename_i hs
      refine ih (List.nodup_append.2 ⟨h, List.pairwise_singleton _ s, fun a ha b hb => ?_⟩)
      rintro rfl
      exact hs (List.mem_singleton.1 hb ▸ ha)

theorem nodup_signatures (a : CapsAdvertisement) : a.signatures.Nodup :=
  nodup_foldl_addNew (List.pairwise_singleton _ _) _

end CapsAdvertisement

inductive Availability where
  | available
  | unavailable
deriving DecidableEq, Repr

structure PresenceUpdate where
  sender : FullAddress
  availability : Availability
  priority : Int8
  caps : Option CapsAdvertisement
deriving DecidableEq

/-- Only an available resource refers to bundles. -/
def PresenceUpdate.signatures (u : PresenceUpdate) : List CapabilitySignature :=
  match u.availability, u.caps with
  | .available, some a => a.signatures
  | _, _ => []

theorem PresenceUpdate.nodup_signatures (u : PresenceUpdate) : u.signatures.Nodup := by
  unfold signatures
  split
  · exact CapsAdvertisement.nodup_signatures _
  · exact List.nodup_nil

end PresenceCaps
