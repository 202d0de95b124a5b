import PresenceCaps.Text.Numeral
import PresenceCaps.Text.Split

/-! Identifiers of events: 128 bits, written as five groups of hexadecimal digits. -/
namespace PresenceCaps

structure EventId where
  value : BitVec 128
deriving DecidableEq, Repr

namespace EventId

def groupSizes : List Nat := [8, 4, 4, 4, 12]

def ofHex? (cs : List Char) : Option EventId :=
  if cs.length = 32 then (natural? 16 cs).map fun n => ⟨BitVec.ofNat 128 n⟩ else none

def ofGroups? (cs : List Char) : Option EventId :=
  let groups := splitAll '-' cs
  if groups.map List.length = groupSizes then ofHex? groups.flatten else none

def scheme : List Char := "urn:uuid:".toList

/-- The text without what may stand around the groups: braces, or the name of the scheme in any letter case. -/
def bare (cs : List Char) : List Char :=
  match cs with
  | '\x7b' :: rest => if rest.getLast? = some '\x7d' then rest.dropLast else cs
  | _ => if lower (cs.take scheme.length) = scheme then cs.drop scheme.length else cs

def parse? (s : String) : Option EventId :=
  (ofHex? s.toList).orElse fun _ => ofGroups? (bare s.toList)

/-- The 32 digits. -/
def digits (id : EventId) : List Char :=
  let ds := hexDigits id.value.toNat
  List.replicate (32 - ds.length) '0' ++ ds

def groups : List Nat → List Char → List (List Char)
  | [], _ => []
  | n :: ns, cs => cs.take n :: groups ns (cs.drop n)

def display (id : EventId) : String := "-".intercalate ((groups groupSizes id.digits).map String.ofList)

end EventId
end PresenceCaps
