import PresenceCaps.Settings.Codec
import PresenceCaps.Settings.Error
import PresenceCaps.Text.Numeral
import PresenceCaps.Datum.Merge

/-!
From a settings document to settings: the document is laid over the defaults, then the environment fills in
what the document leaves out, then all is read and checked.
-/
namespace PresenceCaps

abbrev Environment := Assoc String String

/-- A field that a variable of the environment can set. -/
structure Fallback where
  variableName : String
  sectionName : String
  key : String
  isInteger : Bool
deriving DecidableEq, Repr

namespace Fallback

def all : List Fallback :=
  [⟨"ENTCAPS_LOG_LEVEL", "logging", "level", false⟩,
    ⟨"ENTCAPS_QUERY_TIMEOUT_SECS", "discovery", "query_timeout_secs", true⟩,
    ⟨"ENTCAPS_CONFIRMATIONS_REQUIRED", "trust", "confirmations_required", true⟩]

def field (f : Fallback) : String := f.sectionName ++ "." ++ f.key

def isSetBy (f : Fallback) (overlay : Datum) : Bool := (overlay.get? [f.sectionName, f.key]).isSome

/-- White space around an integer is passed over. -/
def value? (f : Fallback) (raw : String) : Option Datum :=
  if f.isInteger then (integer64? (trim raw.toList)).map .int else some (.text raw)

/-- There is a place for the field only if its section is a table. -/
def hasPlace (f : Fallback) (merged : Datum) : Bool := (merged.child? f.sectionName).any Datum.isTable

def put (f : Fallback) (v : Datum) (merged : Datum) : Datum :=
  match merged with
  | .table es => .table (Assoc.modify es f.sectionName fun t =>
    match t with
    | .table inner => .table (Assoc.set inner f.key v)
    | t => t)
  | t => t

/-- A variable that is of no use is an error only if it would be used. -/
def apply (f : Fallback) (env : Environment) (overlay merged : Datum) : Except SettingsError Datum :=
  match env.get? f.variableName with
  | none => .ok merged
  | some raw =>
    if f.isSetBy overlay then .ok merged
    else match f.value? raw with
      | none => .error (.notAnInteger f.variableName raw)
      | some v => .ok (f.put v merged)

def applyAll (env : Environment) (overlay : Datum) : List Fallback → Datum → Except SettingsError Datum
  | [], merged => .ok merged
  | f :: fs, merged => (f.apply env overlay merged).bind (applyAll env overlay fs)

end Fallback

namespace Settings

def overDefaults (overlay : Datum) : Datum := Settings.default.toDatum.merge overlay

def check (s : Settings) : Except SettingsError Settings :=
  match s.fault? with
  | none => .ok s
  | some fault => .error (.invalid fault)

def decode (merged : Datum) : Except SettingsError Settings :=
  match ofDatum? merged with
  | none => .error .undecodable
  | some s => .ok s

def resolve (overlay : Datum) (env : Environment) : Except SettingsError Settings :=
  ((Fallback.applyAll env overlay Fallback.all (overDefaults overlay)).bind decode).bind check

end Settings
end PresenceCaps
