import PresenceCaps.Discovery.Trace
import PresenceCaps.Notifier.Trace
import PresenceCaps.Roster.Trace
import PresenceCaps.Service.Basic

/-! What the service logs, in the order in which its parts act. -/
namespace PresenceCaps.Service
variable {σ : Type} [Sink σ]

def startTrace (required : UInt32) (timeoutSecs : UInt64) : LogRecord :=
  ⟨.info, "Capability service started",
    [("confirmations_required", toString required.toNat), ("query_timeout_secs", toString timeoutSecs.toNat)]⟩

def publishTrace (s : Service σ) (change : ContactChange) : List LogRecord :=
  match s.handles.handle? change.contact with
  | none => [⟨.warn, "Dropping change for a contact without a handle", [("contact", change.contact.display)]⟩]
  | some x =>
    ⟨.debug, "Publishing capability change", [("handle", x.display), ("contact", change.contact.display)]⟩ ::
      s.notifier.publishTrace x change.contact change.old change.new

def publishTrace? (s : Service σ) (change : Option ContactChange) : List LogRecord :=
  change.toList.flatMap s.publishTrace

def presenceTrace (s : Service σ) (u : PresenceUpdate) : List LogRecord :=
  match s.handlePresence u with
  | .error _ => []
  | .ok h =>
    let begun := s.roster.start s.bundles u
    s.roster.startTrace s.bundles u ++
      (match begun.job with
        | none => []
        | some job =>
          (h.issued.zip begun.queries).map fun e => Discovery.issueTrace e.1 e.2 u.sender job) ++
      { s with handles := h.service.handles }.publishTrace? begun.change

def outcomeTrace (s : Service σ) (o : Outcome) : List LogRecord :=
  if s.running then
    s.discovery.settleTrace o ++
      match (s.discovery.settle o).2 with
      | none => []
      | some r =>
        s.roster.resolveTrace r.job r.signature r.features ++
          s.publishTrace? (s.roster.resolve r.job r.signature r.features).2
  else []

def shutdownTrace (s : Service σ) : List LogRecord :=
  if s.running then [⟨.info, "Capability service stopped", []⟩] else []

end PresenceCaps.Service
