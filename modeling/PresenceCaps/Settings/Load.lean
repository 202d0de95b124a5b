import PresenceCaps.Log.Record
import PresenceCaps.Settings.Resolve
import PresenceCaps.Toml.Document

/-! Settings from a text or from a file, and what loading them logs. -/
namespace PresenceCaps

/-- What there is where a settings file is looked for. -/
inductive SettingsFile where
  | notAsked
  | missing
  | unreadable
  | content (bytes : ByteArray)

namespace SettingsFile

/-- The document of the file; without a file, an empty one. -/
def overlay : SettingsFile → Except SettingsError Datum
  | notAsked | missing => .ok (.table [])
  | unreadable => .error .unreadable
  | content bytes =>
    match String.fromUTF8? bytes with
    | none => .error .unreadable
    | some s =>
      if SettingsError.sizeLimit < bytes.size then .error (.oversized bytes.size)
      else match Toml.parse? s with
        | none => .error (.malformed .file)
        | some t => .ok t

def overlayTrace (f : SettingsFile) : List LogRecord :=
  match f, f.overlay with
  | missing, _ => [⟨.debug, "config file not found, using defaults", []⟩]
  | content _, .ok _ => [⟨.info, "loaded config file", []⟩]
  | _, _ => []

end SettingsFile

namespace Fallback

def trace (f : Fallback) (env : Environment) (overlay merged : Datum) : List LogRecord :=
  let fields := [("var", f.variableName), ("field", f.field)]
  if (env.get? f.variableName).isNone then []
  else if f.isSetBy overlay then [⟨.debug, "config file wins over env var", fields⟩]
  else if f.hasPlace merged then [⟨.debug, "applied env fallback", fields⟩]
  else []

/-- An error ends the trace. -/
def traceAll (env : Environment) (overlay : Datum) : List Fallback → Datum → List LogRecord
  | [], _ => []
  | f :: fs, merged =>
    match f.apply env overlay merged with
    | .error _ => []
    | .ok next => f.trace env overlay merged ++ traceAll env overlay fs next

end Fallback

namespace Settings

/-- A text stands for itself: the environment is not asked. -/
def ofText (s : String) : Except SettingsError Settings :=
  match Toml.parse? s with
  | none => .error (.malformed .text)
  | some overlay => resolve overlay []

def load (file : SettingsFile) (env : Environment) : Except SettingsError Settings :=
  file.overlay.bind fun overlay => resolve overlay env

def loadTrace (file : SettingsFile) (env : Environment) : List LogRecord :=
  file.overlayTrace ++
    match file.overlay with
    | .error _ => []
    | .ok overlay => Fallback.traceAll env overlay Fallback.all (overDefaults overlay)

end Settings
end PresenceCaps
