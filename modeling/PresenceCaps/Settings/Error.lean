import PresenceCaps.Settings.Fault

/-! Why settings cannot be loaded. -/
namespace PresenceCaps

/-- Where a settings document comes from. -/
inductive SettingsPlace where
  | text
  | file
deriving DecidableEq, Repr

def SettingsPlace.name : SettingsPlace → String
  | text => "<string>"
  | file => "<file>"

inductive SettingsError where
  | unreadable
  | oversized (bytes : Nat)
  | malformed (place : SettingsPlace)
  | notAnInteger (key raw : String)
  | undecodable
  | invalid (fault : SettingsFault)
deriving DecidableEq, Repr

namespace SettingsError

/-- How many bytes a settings file may have. -/
def sizeLimit : Nat := 1048576

def invalidField (field reason : String) : String :=
  "validation error in field '" ++ field ++ "': " ++ reason

/-- The wording; for a document that cannot be read, the place alone. -/
def message : SettingsError → String
  | unreadable => SettingsPlace.file.name
  | oversized bytes =>
    invalidField SettingsPlace.file.name
      s!"config file is {bytes} bytes, exceeding the {sizeLimit} byte limit"
  | malformed place => place.name
  | notAnInteger key raw => "environment variable '" ++ key ++ "': expected an integer, got '" ++ raw ++ "'"
  | undecodable => "<merged>"
  | invalid fault => invalidField fault.field fault.reason

end SettingsError
end PresenceCaps
