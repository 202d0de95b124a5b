/-! The settings of the service, in five sections. -/
namespace PresenceCaps

structure TrustSettings where
  confirmationsRequired : UInt32
deriving DecidableEq, Repr

structure DiscoverySettings where
  queryTimeoutSecs : UInt64
deriving DecidableEq, Repr

structure ServiceSettings where
  commandBuffer : UInt64
deriving DecidableEq, Repr

structure EventSettings where
  channelCapacity : UInt64
deriving DecidableEq, Repr

structure LogSettings where
  level : String
  format : String
  directives : List String
deriving DecidableEq, Repr

structure Settings where
  trust : TrustSettings
  discovery : DiscoverySettings
  service : ServiceSettings
  events : EventSettings
  logging : LogSettings
deriving DecidableEq, Repr

def TrustSettings.default : TrustSettings := ⟨5⟩

def DiscoverySettings.default : DiscoverySettings := ⟨20⟩

def ServiceSettings.default : ServiceSettings := ⟨256⟩

def EventSettings.default : EventSettings := ⟨1024⟩

def LogSettings.default : LogSettings := ⟨"info", "pretty", []⟩

namespace Settings

def default : Settings := ⟨.default, .default, .default, .default, .default⟩

def timeoutMillis (s : Settings) : Nat := s.discovery.queryTimeoutSecs.toNat * 1000

end Settings
end PresenceCaps
