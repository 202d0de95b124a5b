import PresenceCaps.Log.Format
import PresenceCaps.Log.Record
import PresenceCaps.Settings.Basic
import PresenceCaps.Text.Blank

/-! What makes settings unusable, in the order in which it is looked for. -/
namespace PresenceCaps

inductive SettingsFault where
  | noConfirmations
  | timeoutOutOfRange (secs : UInt64)
  | noCommandBuffer
  | noChannelCapacity
  | unknownLevel (level : String)
  | unknownFormat (format : String)
  | blankDirective (directive : String)
deriving DecidableEq, Repr

namespace SettingsFault

def field : SettingsFault → String
  | noConfirmations => "trust.confirmations_required"
  | timeoutOutOfRange _ => "discovery.query_timeout_secs"
  | noCommandBuffer => "service.command_buffer"
  | noChannelCapacity => "events.channel_capacity"
  | unknownLevel _ => "logging.level"
  | unknownFormat _ => "logging.format"
  | blankDirective _ => "logging.directives"

def listed (names : List String) : String := ", ".intercalate names

def reason : SettingsFault → String
  | noConfirmations => "at least one confirmation is required"
  | timeoutOutOfRange secs => s!"must be between 1 and 3600, got {secs.toNat}"
  | noCommandBuffer | noChannelCapacity => "must be greater than zero"
  | unknownLevel level =>
    "unknown level '" ++ level ++ "'; expected one of: " ++ listed (LogLevel.all.map LogLevel.name)
  | unknownFormat format =>
    "unknown format '" ++ format ++ "'; expected one of: " ++ listed (LogFormat.all.map LogFormat.name)
  | blankDirective directive => "empty directive '" ++ directive ++ "'"

end SettingsFault

def TrustSettings.fault? (s : TrustSettings) : Option SettingsFault :=
  if s.confirmationsRequired = 0 then some .noConfirmations else none

/-- A query may take an hour at most. -/
def DiscoverySettings.fault? (s : DiscoverySettings) : Option SettingsFault :=
  if 1 ≤ s.queryTimeoutSecs ∧ s.queryTimeoutSecs ≤ 3600 then none
  else some (.timeoutOutOfRange s.queryTimeoutSecs)

def ServiceSettings.fault? (s : ServiceSettings) : Option SettingsFault :=
  if s.commandBuffer = 0 then some .noCommandBuffer else none

def EventSettings.fault? (s : EventSettings) : Option SettingsFault :=
  if s.channelCapacity = 0 then some .noChannelCapacity else none

namespace LogSettings

/-- Levels are told apart in any letter case, formats are not. -/
def levelKnown (s : LogSettings) : Bool := LogLevel.all.any fun l => l.name.toList == lower s.level.toList

def formatKnown (s : LogSettings) : Bool := LogFormat.all.any fun f => f.name == s.format

def blankDirective? (s : LogSettings) : Option String := s.directives.find? fun d => (trim d.toList).isEmpty

def fault? (s : LogSettings) : Option SettingsFault :=
  if !s.levelKnown then some (.unknownLevel s.level)
  else if !s.formatKnown then some (.unknownFormat s.format)
  else s.blankDirective?.map .blankDirective

end LogSettings

/-- The first fault, if there is any. -/
def Settings.fault? (s : Settings) : Option SettingsFault :=
  s.trust.fault? <|> s.discovery.fault? <|> s.service.fault? <|> s.events.fault? <|> s.logging.fault?

end PresenceCaps
