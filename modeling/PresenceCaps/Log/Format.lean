import PresenceCaps.Text.Split

/-! The layouts of log lines. -/
namespace PresenceCaps

inductive LogFormat where
  | pretty
  | compact
  | json
deriving DecidableEq, Repr

namespace LogFormat

def name : LogFormat → String
  | pretty => "pretty"
  | compact => "compact"
  | json => "json"

def all : List LogFormat := [pretty, compact, json]

/-- A format's name, in any letter case. -/
def ofName? (s : String) : Option LogFormat :=
  all.find? fun f => f.name.toList == lower s.toList

end LogFormat
end PresenceCaps
