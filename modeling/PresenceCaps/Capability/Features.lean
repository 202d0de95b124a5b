import PresenceCaps.Assoc
import PresenceCaps.Capability.Flags

/-! Which capability each discovered feature grants, and sets of features. -/
namespace PresenceCaps

namespace Feature

def chatStates : String := "http://jabber.org/protocol/chatstates"
def jingle015 : String := "http://jabber.org/protocol/jingle"
def jingle : String := "urn:xmpp:jingle:1"
def jingle015Audio : String := "http://jabber.org/protocol/jingle/description/audio"
def jingle015Video : String := "http://jabber.org/protocol/jingle/description/video"
def jingleRtpAudio : String := "urn:xmpp:jingle:apps:rtp:audio"
def jingleRtpVideo : String := "urn:xmpp:jingle:apps:rtp:video"
def googleP2P : String := "http://www.google.com/transport/p2p"
def jingleIceUdp : String := "urn:xmpp:jingle:transports:ice-udp:1"
def jingleRawUdp : String := "urn:xmpp:jingle:transports:raw-udp:1"
def gtalkVoice : String := "http://www.google.com/xmpp/protocol/voice/v1"
def gtalkVideo : String := "http://www.google.com/xmpp/protocol/video/v1"
def fileTransfer : String := "http://jabber.org/protocol/si/profile/file-transfer"
def tubes : String := "http://telepathy.freedesktop.org/xmpp/tubes"

def grants : List (String × Capabilities) :=
  [(chatStates, .chatStates), (jingle015, .jingle), (jingle, .jingle),
    (jingle015Audio, .jingleAudio), (jingleRtpAudio, .jingleAudio),
    (jingle015Video, .jingleVideo), (jingleRtpVideo, .jingleVideo),
    (googleP2P, .googleP2P), (jingleIceUdp, .iceUdp), (jingleRawUdp, .rawUdp),
    (gtalkVoice, .gtalkVoice), (gtalkVideo, .gtalkVideo), (fileTransfer, .fileTransfer), (tubes, .tubes)]

end Feature

namespace Capabilities

/-- An unknown feature grants nothing. -/
def ofFeature (feature : String) : Capabilities := (Assoc.get? Feature.grants feature).getD none

def ofFeatures (features : List String) : Capabilities := unionAll (features.map ofFeature)

end Capabilities

/-- A finite set of features, held as its strictly increasing list. -/
structure FeatureSet where
  toList : List String
  increasing : toList.Pairwise (· < ·)
deriving DecidableEq

namespace FeatureSet

/-- Puts a feature in its place; one that is there already stays. -/
def insertInto (x : String) : List String → List String
  | [] => [x]
  | y :: ys => if x < y then x :: y :: ys else if x = y then y :: ys else y :: insertInto x ys

theorem mem_insertInto {x z : String} {ys : List String} : z ∈ insertInto x ys ↔ z = x ∨ z ∈ ys := by
  induction ys with
  | nil => simp [insertInto]
  | cons y ys ih =>
    unfold insertInto
    split
    · simp
    · split
      · rename_i h
        subst h
        simp
      · simp only [List.mem_cons, ih]
        grind

theorem pairwise_insertInto (x : String) {ys : List String} (h : ys.Pairwise (· < ·)) :
    (insertInto x ys).Pairwise (· < ·) := by
  induction ys with
  | nil => simp [insertInto]
  | cons y ys ih =>
    rw [List.pairwise_cons] at h
    unfold insertInto
    split
    · rename_i hxy
      exact List.pairwise_cons.2 ⟨fun z hz => by
        rcases List.mem_cons.1 hz with rfl | hz
        · exact hxy
        · exact String.lt_trans hxy (h.1 z hz), List.pairwise_cons.2 h⟩
    · split
      · exact List.pairwise_cons.2 h
      · rename_i hlt hne
        refine List.pairwise_cons.2 ⟨fun z hz => ?_, ih h.2⟩
        rcases mem_insertInto.1 hz with rfl | hz
        · exact String.not_le.1 fun hle => hne (String.le_antisymm hle (String.not_lt.1 hlt))
        · exact h.1 z hz

def empty : FeatureSet := ⟨[], List.Pairwise.nil⟩

def insert (s : FeatureSet) (x : String) : FeatureSet :=
  ⟨insertInto x s.toList, pairwise_insertInto x s.increasing⟩

def ofList (xs : List String) : FeatureSet := xs.foldl insert empty

def capabilities (s : FeatureSet) : Capabilities := Capabilities.ofFeatures s.toList

instance : Inhabited FeatureSet := ⟨empty⟩

end FeatureSet
end PresenceCaps
