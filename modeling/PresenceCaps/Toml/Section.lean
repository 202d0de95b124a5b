import PresenceCaps.Datum.Basic
import PresenceCaps.Toml.Moment

/-!
The tables of a TOML document while it is read. A table may be opened by a header once, and a key may be set
once; a table that only stands on the way to another one may still be opened.
-/
namespace PresenceCaps.Toml

/-- How a table came to be: by its own header, on the way to one, or by a dotted key. -/
inductive Origin where
  | header
  | passing
  | dotted
deriving DecidableEq, Repr

inductive Node where
  | leaf (value : Datum)
  | moment (text : String)
  | array (items : List Node)
  | inlineTable (entries : List (String × Node))
  | table (origin : Origin) (entries : List (String × Node))
  | tables (items : List (List (String × Node)))

abbrev Entries := List (String × Node)

/-- A table whose first key is this one stands for the moment that the key's text tells; all else in it is
passed over. -/
def momentKey : String := "$__toml_private_datetime"

def Node.moment? : Node → Option Datum
  | .leaf (.text s) => (momentOfText? s.toList).map Datum.text
  | _ => none

mutual

/-- A moment becomes its text. -/
def Node.toDatum? : Node → Option Datum
  | .leaf t => some t
  | .moment s => some (.text s)
  | .array items => (arrayToData? items).map Datum.list
  | .inlineTable es => tableToDatum? es
  | .table _ es => tableToDatum? es
  | .tables items => (tablesToData? items).map Datum.list

def arrayToData? : List Node → Option (List Datum)
  | [] => some []
  | n :: rest => n.toDatum?.bind fun t => (arrayToData? rest).map (t :: ·)

def tableToDatum? : List (String × Node) → Option Datum
  | [] => some (.table [])
  | (k, n) :: rest =>
    if k = momentKey then n.moment?
    else n.toDatum?.bind fun t => (entriesToData? rest).map fun ts => .table ((k, t) :: ts)

def entriesToData? : List (String × Node) → Option (List (String × Datum))
  | [] => some []
  | (k, n) :: rest => n.toDatum?.bind fun t => (entriesToData? rest).map ((k, t) :: ·)

def tablesToData? : List (List (String × Node)) → Option (List Datum)
  | [] => some []
  | es :: rest => (tableToDatum? es).bind fun t => (tablesToData? rest).map (t :: ·)

end

namespace Entries

def toDatum? (es : Entries) : Option Datum := tableToDatum? es

/-- Changes the last of a list. -/
def onLast? (f : Entries → Option Entries) : List Entries → Option (List Entries)
  | [] => none
  | [es] => (f es).map fun es => [es]
  | es :: rest => (onLast? f rest).map (es :: ·)

/-- Goes into the table of a key, the last one of an array of tables; a missing one is made on the way. -/
def enter? (f : Entries → Option Entries) (es : Entries) (k : String) : Option Entries :=
  match Assoc.get? es k with
  | none => (f []).map fun inner => Assoc.set es k (.table .passing inner)
  | some (.table o inner) => (f inner).map fun inner => Assoc.set es k (.table o inner)
  | some (.tables items) => (onLast? f items).map fun items => Assoc.set es k (.tables items)
  | some _ => none

/-- A header with single brackets; a table that it opens goes to the end. -/
def openTable? : List String → Entries → Option Entries
  | [], _ => none
  | [k], es =>
    match Assoc.get? es k with
    | none => some (Assoc.set es k (.table .header []))
    | some (.table .passing inner) => some (Assoc.set (Assoc.erase es k) k (.table .header inner))
    | _ => none
  | k :: ks, es => enter? (openTable? ks) es k

/-- A header with double brackets: one more table of an array. -/
def openItem? : List String → Entries → Option Entries
  | [], _ => none
  | [k], es =>
    match Assoc.get? es k with
    | none => some (Assoc.set es k (.tables [[]]))
    | some (.tables items) => some (Assoc.set es k (.tables (items ++ [[]])))
    | _ => none
  | k :: ks, es => enter? (openItem? ks) es k

/-- Sets a key that is not there yet. Below the first key only tables made by dotted keys take new keys. -/
def put? (takesKeys : Bool) (v : Node) : List String → Entries → Option Entries
  | [], _ => none
  | [k], es => if takesKeys ∧ (Assoc.get? es k).isNone then some (Assoc.set es k v) else none
  | k :: ks, es =>
    match Assoc.get? es k with
    | none => (put? true v ks []).map fun inner => Assoc.set es k (.table .dotted inner)
    | some (.table o inner) =>
      if o = .header then none
      else (put? (o == .dotted) v ks inner).map fun inner => Assoc.set es k (.table o inner)
    | some (.tables items) => (onLast? (put? false v ks) items).map fun items => Assoc.set es k (.tables items)
    | some _ => none

/-- Works on the table under a header. -/
def under? (f : Entries → Option Entries) : List String → Entries → Option Entries
  | [], es => f es
  | k :: ks, es => enter? (under? f ks) es k

end Entries
end PresenceCaps.Toml
