import PresenceCaps.Address
import PresenceCaps.Capability.Flags

/-! The channels that can be opened to a contact, told from its capabilities. -/
namespace PresenceCaps

structure MediaFlags where
  bits : UInt32
deriving DecidableEq, Repr

namespace MediaFlags

def none : MediaFlags := ⟨0⟩
def audio : MediaFlags := ⟨1⟩
def video : MediaFlags := ⟨2⟩
def immutableStreams : MediaFlags := ⟨4⟩
def mutableContents : MediaFlags := ⟨8⟩

def union (a b : MediaFlags) : MediaFlags := ⟨a.bits ||| b.bits⟩

def names : FlagNames where
  flags := [("AUDIO", 1), ("VIDEO", 2), ("IMMUTABLE_STREAMS", 4), ("MUTABLE_CONTENTS", 8)]
  groups := []

def write (m : MediaFlags) : String := names.write m.bits

def read? (s : String) : Option MediaFlags := (names.read? s).map MediaFlags.mk

/-- Jingle calls need a transport; the older voice and video protocols bring their own. -/
def ofCapabilities (c : Capabilities) : MediaFlags :=
  let jingle := c.contains .jingle && c.intersects .transports
  let hasAudio := jingle && c.contains .jingleAudio || c.contains .gtalkVoice
  let hasVideo := jingle && c.contains .jingleVideo || c.contains .gtalkVideo
  match hasAudio, hasVideo with
  | true, true => (audio.union video).union mutableContents
  | true, false => audio.union immutableStreams
  | false, true => video.union immutableStreams
  | false, false => none

end MediaFlags

inductive ChannelClass where
  | text
  | streamedMedia (flags : MediaFlags)
  | fileTransfer
  | tube
deriving DecidableEq, Repr

/-- Text is always there. -/
def ChannelClass.ofCapabilities (c : Capabilities) : List ChannelClass :=
  let media := MediaFlags.ofCapabilities c
  [ChannelClass.text] ++ (if media = .none then [] else [streamedMedia media]) ++
    (if c.contains .fileTransfer then [fileTransfer] else []) ++
    (if c.contains .tubes then [tube] else [])

structure ContactCapabilities where
  handle : ContactHandle
  classes : List ChannelClass
deriving DecidableEq, Repr

end PresenceCaps
