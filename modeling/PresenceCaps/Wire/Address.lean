import PresenceCaps.Address
import PresenceCaps.Capability.Channels
import PresenceCaps.Datum.Codec

/-! Addresses, handles, flags and channels as data. -/
namespace PresenceCaps
open Datum

namespace BareAddress

def toDatum (a : BareAddress) : Datum := text a.display

def ofDatum? (t : Datum) : Option BareAddress := t.text?.bind fun s => ofChars? s.toList

end BareAddress

namespace FullAddress

def toDatum (a : FullAddress) : Datum := table [("bare", a.bare.toDatum), ("resource", text a.resource)]

def ofDatum? (t : Datum) : Option FullAddress :=
  match t.fields? ["bare", "resource"] 2 with
  | some [bare, resource] => do
    let bare ← required BareAddress.ofDatum? bare
    let resource ← required text? resource
    return ⟨bare, resource⟩
  | _ => none

end FullAddress

namespace ContactHandle

def toDatum (x : ContactHandle) : Datum := ofWord32 x.value

def ofDatum? (t : Datum) : Option ContactHandle := t.word32?.map mk

end ContactHandle

namespace Capabilities

def toDatum (c : Capabilities) : Datum := Datum.text c.write

def ofDatum? (t : Datum) : Option Capabilities := t.text?.bind read?

end Capabilities

namespace MediaFlags

def toDatum (m : MediaFlags) : Datum := text m.write

def ofDatum? (t : Datum) : Option MediaFlags := t.text?.bind read?

end MediaFlags

namespace ChannelClass

def toDatum : ChannelClass → Datum
  | text => .text "text"
  | streamedMedia flags => tagged "streamed_media" flags.toDatum
  | fileTransfer => .text "file_transfer"
  | tube => .text "tube"

def ofDatum? (t : Datum) : Option ChannelClass :=
  match t.payload? "streamed_media" with
  | some flags => (MediaFlags.ofDatum? flags).map streamedMedia
  | none => plain? [("text", text), ("file_transfer", fileTransfer), ("tube", tube)] t

end ChannelClass

namespace ContactCapabilities

def toDatum (c : ContactCapabilities) : Datum :=
  table [("handle", c.handle.toDatum), ("classes", ofList ChannelClass.toDatum c.classes)]

def ofDatum? (t : Datum) : Option ContactCapabilities :=
  match t.fields? ["handle", "classes"] 2 with
  | some [handle, classes] => do
    let handle ← required ContactHandle.ofDatum? handle
    let classes ← required (listOf? ChannelClass.ofDatum?) classes
    return ⟨handle, classes⟩
  | _ => none

end ContactCapabilities
end PresenceCaps
