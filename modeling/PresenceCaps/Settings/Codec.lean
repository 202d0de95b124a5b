import PresenceCaps.Settings.Basic
import PresenceCaps.Datum.Codec

/-!
Settings as data. Every section and every field may be left out; a key that is not known is refused, so a
misspelt setting does not pass for a default.
-/
namespace PresenceCaps
open Datum

def TrustSettings.toDatum (s : TrustSettings) : Datum :=
  table [("confirmations_required", ofWord32 s.confirmationsRequired)]

def TrustSettings.ofDatum? (t : Datum) : Option TrustSettings :=
  match t.closedFields? ["confirmations_required"] 0 with
  | some [n] => (withDefault default.confirmationsRequired word32? n).map mk
  | _ => none

def DiscoverySettings.toDatum (s : DiscoverySettings) : Datum :=
  table [("query_timeout_secs", ofWord64 s.queryTimeoutSecs)]

def DiscoverySettings.ofDatum? (t : Datum) : Option DiscoverySettings :=
  match t.closedFields? ["query_timeout_secs"] 0 with
  | some [n] => (withDefault default.queryTimeoutSecs word64? n).map mk
  | _ => none

def ServiceSettings.toDatum (s : ServiceSettings) : Datum :=
  table [("command_buffer", ofWord64 s.commandBuffer)]

def ServiceSettings.ofDatum? (t : Datum) : Option ServiceSettings :=
  match t.closedFields? ["command_buffer"] 0 with
  | some [n] => (withDefault default.commandBuffer word64? n).map mk
  | _ => none

def EventSettings.toDatum (s : EventSettings) : Datum :=
  table [("channel_capacity", ofWord64 s.channelCapacity)]

def EventSettings.ofDatum? (t : Datum) : Option EventSettings :=
  match t.closedFields? ["channel_capacity"] 0 with
  | some [n] => (withDefault default.channelCapacity word64? n).map mk
  | _ => none

def LogSettings.toDatum (s : LogSettings) : Datum :=
  table [("level", text s.level), ("format", text s.format), ("directives", ofTexts s.directives)]

def LogSettings.ofDatum? (t : Datum) : Option LogSettings :=
  match t.closedFields? ["level", "format", "directives"] 0 with
  | some [level, format, directives] => do
    let level ← withDefault default.level text? level
    let format ← withDefault default.format text? format
    let directives ← withDefault default.directives texts? directives
    return ⟨level, format, directives⟩
  | _ => none

namespace Settings

def toDatum (s : Settings) : Datum :=
  table [("trust", s.trust.toDatum), ("discovery", s.discovery.toDatum), ("service", s.service.toDatum),
    ("events", s.events.toDatum), ("logging", s.logging.toDatum)]

def ofDatum? (t : Datum) : Option Settings :=
  match t.closedFields? ["trust", "discovery", "service", "events", "logging"] 0 with
  | some [trust, discovery, service, events, logging] => do
    let trust ← withDefault .default TrustSettings.ofDatum? trust
    let discovery ← withDefault .default DiscoverySettings.ofDatum? discovery
    let service ← withDefault .default ServiceSettings.ofDatum? service
    let events ← withDefault .default EventSettings.ofDatum? events
    let logging ← withDefault .default LogSettings.ofDatum? logging
    return ⟨trust, discovery, service, events, logging⟩
  | _ => none

end Settings
end PresenceCaps
