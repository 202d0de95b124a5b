import PresenceCaps.Log.Config
import PresenceCaps.Log.Pattern.Reader
import PresenceCaps.Text.Bytes

/-!
Which log filters are well-formed. A directive is a level, or a target with a span in brackets and a level
after an equals sign; a span may have fields in braces, with the values that they are to have. A filter is a
comma list of directives.
-/
namespace PresenceCaps

/-- Why a directive is not read: it does not follow the grammar, or a part of it ends inside a character. -/
inductive DirectiveFault where
  | malformed
  | torn
deriving DecidableEq, Repr

namespace LogDirective

/-- A level is a number up to five or a name in any letter case; an empty one stands for the most detail. -/
def isLevel (cs : List Char) : Bool :=
  let digits := match cs with
    | '+' :: ds => ds
    | _ => cs
  cs.isEmpty || (natural? 10 digits).any (· ≤ 5) ||
    ["error", "warn", "info", "debug", "trace", "off"].any fun n => n.toList == lower cs

/-- The value of a field is a number or a pattern. -/
def isFieldValue (cs : List Char) : Bool := isReal cs || (Pattern.parse? cs).any Pattern.isSupported

/-- A field has a name, and after an equals sign a value; after a second one comes nothing of note. -/
def isField (cs : List Char) : Bool :=
  !cs.isEmpty && match splitAll '=' cs with
    | _ :: value :: _ => isFieldValue value
    | _ => true

def startsTarget (c : Char) : Bool := isAlphanumeric c || c == '-' || c == ':' || c == '_'

/-- Where the reader of a directive stands, and at which byte the part that it is in begins. -/
inductive Place where
  | start
  | name
  | span (first : Nat)
  | field (first : Nat)
  | fields
  | target
  | level (first : Nat)
  | complete
deriving DecidableEq, Repr

/-- The part of a directive between two positions, which is to have a property. -/
def check (whole : List Char) (first last : Nat) (p : List Char → Bool) : Except DirectiveFault Unit :=
  match slice? first last whole with
  | none => .error .torn
  | some part => if p part then .ok () else .error .malformed

/-- Any text will do for a name. -/
def checkName (whole : List Char) (first last : Nat) : Except DirectiveFault Unit :=
  check whole first last fun _ => true

/-- The step over the character at a position. -/
def step (whole : List Char) (position : Nat) (c : Char) : Place → Except DirectiveFault Place
  | .start =>
    if c = '[' then .ok (.span (position + 1)) else if startsTarget c then .ok .name else .error .malformed
  | .name =>
    if c = '=' then (checkName whole 0 position).map fun _ => .level (position + 1)
    else if c = '[' then (checkName whole 0 position).map fun _ => .span (position + 1)
    else if c = ',' then .ok .complete
    else .ok .name
  | .span first =>
    if c = ']' then (checkName whole first position).map fun _ => .target
    else if c = '\x7b' then (checkName whole first position).map fun _ => .field (position + 1)
    else .ok (.span first)
  | .field first =>
    if c = '\x7d' then (check whole first position isField).map fun _ => .fields
    else if c = ',' then (check whole first position isField).map fun _ => .field (position + 1)
    else .ok (.field first)
  | .fields => if c = ']' then .ok .target else .error .malformed
  | .target => if c = '=' then .ok (.level (position + 1)) else .error .malformed
  | .level first =>
    if c = ',' then (check whole first position isLevel).map fun _ => .complete else .ok (.level first)
  | .complete => .error .malformed

def run (whole : List Char) : Nat → List Char → Place → Except DirectiveFault Place
  | _, [], p => .ok p
  | i, c :: cs, p => (step whole i c p).bind (run whole (i + c.utf8Size) cs)

/-- Whether a directive may end here. -/
def finish (whole : List Char) : Place → Except DirectiveFault Unit
  | .name | .target | .complete => .ok ()
  | .level first => check whole first (byteLength whole) isLevel
  | _ => .error .malformed

/-- Blanks at the ends are passed over, but positions are those of the text as it stands. -/
def validate (cs : List Char) : Except DirectiveFault Unit := (run cs 0 (trim cs) .start).bind (finish cs)

end LogDirective

namespace LogFilter

/-- Nothing between two commas is no directive. -/
def validate (cs : List Char) : Except DirectiveFault Unit :=
  ((splitAll ',' cs).filter fun d => !d.isEmpty).forM LogDirective.validate

end LogFilter

inductive TelemetryError where
  | config (text : String)
  | start (text : String)
deriving DecidableEq, Repr

def TelemetryError.message : TelemetryError → String
  | config text => "Configuration error: " ++ text
  | start text => "Initialization error: " ++ text

/-- The level and all directives are used together as one filter. -/
def LogConfig.validateFilter (c : LogConfig) : Except DirectiveFault Unit := do
  LogFilter.validate c.level.toList
  c.directives.forM fun d => LogDirective.validate d.toList

inductive InstallError where
  | badFilter (fault : DirectiveFault)
  | alreadyInstalled
deriving DecidableEq, Repr

/-- Logging is installed once; a filter that is not well-formed is found before that is asked. -/
def LogConfig.install (c : LogConfig) (installed : Bool) : Except InstallError Unit :=
  match c.validateFilter with
  | .error fault => .error (.badFilter fault)
  | .ok () => if installed then .error .alreadyInstalled else .ok ()

end PresenceCaps
