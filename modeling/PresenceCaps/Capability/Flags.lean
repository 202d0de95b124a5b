import PresenceCaps.Text.Blank
import PresenceCaps.Text.Numeral
import PresenceCaps.Text.Split

/-!
Sets of flags in a 32-bit word and their text: the names of the set flags joined by bars, then one
hexadecimal number for the bits without a name.
-/
namespace PresenceCaps

/-- Names of single flags in writing order, and further names that are only read. -/
structure FlagNames where
  flags : List (String × UInt32)
  groups : List (String × UInt32)

namespace FlagNames

def setNames (names : FlagNames) (bits : UInt32) : List String :=
  (names.flags.filter fun f => bits &&& f.2 == f.2).map Prod.fst

def unnamed (names : FlagNames) (bits : UInt32) : UInt32 :=
  names.flags.foldl (fun b f => b &&& ~~~f.2) bits

def parts (names : FlagNames) (bits : UInt32) : List String :=
  let rest := names.unnamed bits
  names.setNames bits ++
    if rest = 0 then [] else [String.ofList ('0' :: 'x' :: hexDigits rest.toNat)]

def write (names : FlagNames) (bits : UInt32) : String := " | ".intercalate (names.parts bits)

def readPart? (names : FlagNames) : List Char → Option UInt32
  | '0' :: 'x' :: ds => hex32? ds
  | cs => ((names.flags ++ names.groups).find? fun f => f.1.toList == cs).map Prod.snd

/-- Blank text is the empty set; otherwise every part between bars has to be a flag. -/
def read? (names : FlagNames) (s : String) : Option UInt32 :=
  if (trim s.toList).isEmpty then some 0
  else ((splitAll '|' s.toList).mapM fun p => names.readPart? (trim p)).map fun bs => bs.foldl (· ||| ·) 0

end FlagNames

/-- What a contact can do. Bits without a name are kept. -/
structure Capabilities where
  bits : UInt32
deriving DecidableEq, Repr

namespace Capabilities

def none : Capabilities := ⟨0⟩
def text : Capabilities := ⟨1⟩
def chatStates : Capabilities := ⟨2⟩
def jingle : Capabilities := ⟨4⟩
def jingleAudio : Capabilities := ⟨8⟩
def jingleVideo : Capabilities := ⟨16⟩
def googleP2P : Capabilities := ⟨32⟩
def iceUdp : Capabilities := ⟨64⟩
def rawUdp : Capabilities := ⟨128⟩
def gtalkVoice : Capabilities := ⟨256⟩
def gtalkVideo : Capabilities := ⟨512⟩
def fileTransfer : Capabilities := ⟨1024⟩
def tubes : Capabilities := ⟨2048⟩

def union (a b : Capabilities) : Capabilities := ⟨a.bits ||| b.bits⟩

def unionAll (cs : List Capabilities) : Capabilities := cs.foldl union none

def diff (a b : Capabilities) : Capabilities := ⟨a.bits &&& ~~~b.bits⟩

def contains (a b : Capabilities) : Bool := a.bits &&& b.bits == b.bits

def intersects (a b : Capabilities) : Bool := a.bits &&& b.bits != 0

def transports : Capabilities := unionAll [googleP2P, iceUdp, rawUdp]

/-- What everyone can do who can be written to at all. -/
def baseline : Capabilities := text

def names : FlagNames where
  flags := [("TEXT", 1), ("CHAT_STATES", 2), ("JINGLE", 4), ("JINGLE_AUDIO", 8), ("JINGLE_VIDEO", 16),
    ("GOOGLE_P2P", 32), ("ICE_UDP", 64), ("RAW_UDP", 128), ("GTALK_VOICE", 256), ("GTALK_VIDEO", 512),
    ("FILE_TRANSFER", 1024), ("TUBES", 2048)]
  groups := [("TRANSPORTS", 224)]

def write (c : Capabilities) : String := names.write c.bits

def read? (s : String) : Option Capabilities := (names.read? s).map Capabilities.mk

/-- The form shown in log records. -/
def inspect (c : Capabilities) : String :=
  if c.bits = 0 then "Capabilities(0x0)" else s!"Capabilities({c.write})"

theorem union_comm (a b : Capabilities) : a.union b = b.union a := by
  simp [union, UInt32.or_comm]

theorem union_assoc (a b c : Capabilities) : (a.union b).union c = a.union (b.union c) := by
  simp [union, UInt32.or_assoc]

@[simp] theorem union_self (a : Capabilities) : a.union a = a := by
  simp [union]

@[simp] theorem union_none (a : Capabilities) : a.union none = a := by
  simp [union, none]

@[simp] theorem none_union (a : Capabilities) : none.union a = a := by
  simp [union, none]

end Capabilities
end PresenceCaps
