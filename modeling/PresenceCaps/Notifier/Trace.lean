import PresenceCaps.Log.Record
import PresenceCaps.Notifier.Basic

/-! What the notifier logs. -/
namespace PresenceCaps

namespace Feed

def sendTrace (f : Feed) (c : Change) : LogRecord :=
  if f.receivers.isEmpty then
    ⟨.trace, "No receivers for capability change", [("contact", c.contact.display)]⟩
  else
    ⟨.debug, "Capability change published",
      [("contact", c.contact.display), ("old", c.old.inspect), ("new", c.new.inspect),
        ("receivers", toString f.receivers.length)]⟩

def readTrace (f : Feed) (id : Nat) : List LogRecord :=
  match f.receivers.get? id with
  | none => []
  | some r =>
    if f.missed r = 0 then []
    else [⟨.warn, "Change receiver lagged, changes dropped", [("skipped", toString (f.missed r))]⟩]

end Feed

namespace Sinks
variable {σ : Type} [Sink σ]

def registerTrace (sink : σ) : LogRecord := ⟨.debug, "Capability sink registered", [("sink_name", Sink.name sink)]⟩

def unregisterTrace : LogRecord := ⟨.debug, "Capability sink unregistered", []⟩

def editTrace : SinkEdit σ → LogRecord
  | .register sink => registerTrace sink
  | .unregister _ => unregisterTrace

def callTrace (calls : List (SinkId × Change)) (c : Change) (e : SinkId × σ) : List LogRecord :=
  let reaction := Sink.react calls e.1 e.2 c
  ⟨.trace, "Notifying sink", [("sink_name", Sink.name e.2), ("contact", c.contact.display)]⟩ ::
    reaction.edits.map editTrace ++
    if reaction.failed then
      [⟨.warn, "Capability sink panicked", [("sink_name", Sink.name e.2), ("error", "Any \x7b .. \x7d")]⟩]
    else []

end Sinks

namespace Notifier

def publishTrace {σ : Type} [Sink σ] (n : Notifier σ) (x : ContactHandle) (a : BareAddress) (old new : Capabilities) :
    List LogRecord :=
  let c := n.numbered x a old new
  n.feed.sendTrace c :: n.sinks.registered.flatMap (Sinks.callTrace n.sinks.calls c)

end Notifier
end PresenceCaps
