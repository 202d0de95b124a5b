import PresenceCaps.Log.Format
import PresenceCaps.Settings.Basic
import PresenceCaps.Datum.Codec

/-! How logging is set up. -/
namespace PresenceCaps
open Datum

inductive LogTarget where
  | stdout
  | stderr
  | test
deriving DecidableEq, Repr

namespace LogTarget

def name : LogTarget → String
  | stdout => "stdout"
  | stderr => "stderr"
  | test => "test"

def all : List LogTarget := [stdout, stderr, test]

def toDatum (t : LogTarget) : Datum := text t.name

def ofDatum? (t : Datum) : Option LogTarget := plain? (all.map fun x => (x.name, x)) t

end LogTarget

namespace LogFormat

def toDatum (f : LogFormat) : Datum := text f.name

def ofDatum? (t : Datum) : Option LogFormat := plain? (all.map fun x => (x.name, x)) t

end LogFormat

structure LogConfig where
  level : String
  format : LogFormat
  target : LogTarget
  timestamps : Bool
  ansi : Bool
  directives : List String
deriving DecidableEq, Repr

namespace LogConfig

def ofLevel (level : String) : LogConfig := ⟨level, .pretty, .stderr, true, true, []⟩

def default : LogConfig := ofLevel "info"

/-- A format that is not known counts as pretty. -/
def ofSettings (s : LogSettings) : LogConfig :=
  { default with
    level := s.level
    format := (LogFormat.ofName? s.format).getD .pretty
    directives := s.directives }

def toDatum (c : LogConfig) : Datum :=
  table [("level", text c.level), ("format", c.format.toDatum), ("target", c.target.toDatum),
    ("timestamps", bool c.timestamps), ("ansi", bool c.ansi), ("directives", ofTexts c.directives)]

def ofDatum? (t : Datum) : Option LogConfig :=
  match t.fields? ["level", "format", "target", "timestamps", "ansi", "directives"] 0 with
  | some [level, format, target, timestamps, ansi, directives] => do
    let level ← withDefault default.level text? level
    let format ← withDefault default.format LogFormat.ofDatum? format
    let target ← withDefault default.target LogTarget.ofDatum? target
    let timestamps ← withDefault default.timestamps bool? timestamps
    let ansi ← withDefault default.ansi bool? ansi
    let directives ← withDefault default.directives texts? directives
    return ⟨level, format, target, timestamps, ansi, directives⟩
  | _ => none

end LogConfig
end PresenceCaps
