import PresenceCaps.Notifier.Feed

/-!
Sinks that are called with every change. A call may fail and may edit the registry; those to be called are
settled before the first call.
-/
namespace PresenceCaps

structure SinkId where
  value : Nat
deriving DecidableEq, Repr

inductive SinkEdit (σ : Type) where
  | register (sink : σ)
  | unregister (id : SinkId)

/-- What a sink does when it is called. -/
structure Reaction (σ : Type) where
  edits : List (SinkEdit σ)
  failed : Bool

/-- What there is to know of sinks that are held as values of a type: how each is called in the log, and what it does
with a change. It may go by the calls that were made before, to it or to others. -/
class Sink (σ : Type) where
  name : σ → String
  react : List (SinkId × Change) → SinkId → σ → Change → Reaction σ

/-- The registered sinks, and every call that was ever made. -/
structure Sinks (σ : Type) where
  registered : Assoc SinkId σ
  opened : Nat
  calls : List (SinkId × Change)

namespace Sinks
variable {σ : Type}

def empty : Sinks σ := ⟨[], 0, []⟩

def size (s : Sinks σ) : Nat := s.registered.length

def debugText (s : Sinks σ) : String := "SinkRegistry \x7b sink_count: " ++ toString s.size ++ " \x7d"

def register (s : Sinks σ) (sink : σ) : Sinks σ × SinkId :=
  ({ s with registered := s.registered.set ⟨s.opened⟩ sink, opened := s.opened + 1 }, ⟨s.opened⟩)

def contains (s : Sinks σ) (id : SinkId) : Bool := s.registered.contains id

def unregister (s : Sinks σ) (id : SinkId) : Sinks σ := { s with registered := s.registered.erase id }

def edit (s : Sinks σ) : SinkEdit σ → Sinks σ
  | .register sink => (s.register sink).1
  | .unregister id => s.unregister id

def call (react : SinkId → σ → Change → Reaction σ) (c : Change) (s : Sinks σ) (e : SinkId × σ) : Sinks σ :=
  (react e.1 e.2 c).edits.foldl edit { s with calls := s.calls ++ [(e.1, c)] }

/-- Calls the given sinks in the given order; a failure stops none of the later calls. -/
def deliver (react : SinkId → σ → Change → Reaction σ) (c : Change) (visit : Assoc SinkId σ) (s : Sinks σ) :
    Sinks σ :=
  visit.foldl (call react c) s

def notify (react : SinkId → σ → Change → Reaction σ) (s : Sinks σ) (c : Change) : Sinks σ :=
  deliver react c s.registered s

/-- The changes that a sink was called with. -/
def received (s : Sinks σ) (id : SinkId) : List Change :=
  (s.calls.filter fun e => e.1 == id).map Prod.snd

end Sinks
end PresenceCaps
