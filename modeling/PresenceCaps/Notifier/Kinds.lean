import PresenceCaps.Notifier.Sinks

/-! Sinks of a few simple kinds. -/
namespace PresenceCaps

/-- A sink that only records; one that fails on every change; one that records and leaves after its first
change; one that records and registers a further recording sink with every change. -/
inductive SinkKind where
  | recording
  | failing
  | once
  | spawning
deriving DecidableEq, Repr

namespace SinkKind

def name : SinkKind → String
  | recording => "recording"
  | failing => "anonymous"
  | once => "once"
  | spawning => "spawning"

def records : SinkKind → Bool
  | failing => false
  | _ => true

/-- Whether a registered sink itself holds on to the notifier. -/
def holdsNotifier : SinkKind → Bool
  | once | spawning => true
  | _ => false

def react (id : SinkId) (kind : SinkKind) (_ : Change) : Reaction SinkKind :=
  match kind with
  | recording => ⟨[], false⟩
  | failing => ⟨[], true⟩
  | once => ⟨[.unregister id], false⟩
  | spawning => ⟨[.register recording], false⟩

instance : Sink SinkKind where
  name := name
  react _ := react

end SinkKind
end PresenceCaps
