import PresenceCaps.Roster.Basic
import PresenceCaps.Trust.Trace

/-! What the roster logs. -/
namespace PresenceCaps

def ContactChange.trace (c : ContactChange) : LogRecord :=
  ⟨.debug, "Contact capabilities changed",
    [("contact", c.contact.display), ("old", c.old.inspect), ("new", c.new.inspect)]⟩

namespace Roster

def supersedeTrace (r : Roster) (a : FullAddress) : List LogRecord :=
  match r.active.get? a with
  | none => []
  | some j => [⟨.debug, "Aggregation job superseded", [("resource", a.display), ("job", j.display)]⟩]

def lookupTrace (b : Bundles) (a : FullAddress) (s : CapabilitySignature) : List LogRecord :=
  b.touchTrace s ++
    if b.isTrusted s then
      [⟨.trace, "Signature trusted from cache", [("resource", a.display), ("signature", s.display)]⟩]
    else []

def startTrace (r : Roster) (b : Bundles) (u : PresenceUpdate) : List LogRecord :=
  let begun := r.start b u
  r.supersedeTrace u.sender ++
    (if u.availability = .available then u.signatures.flatMap (lookupTrace b u.sender) else []) ++
    (match begun.job with
      | none => begun.change.toList.map ContactChange.trace
      | some j =>
        [⟨.debug, "Aggregation job waiting on discovery",
          [("resource", u.sender.display), ("job", j.display),
            ("outstanding", toString begun.queries.length)]⟩])

def resolveTrace (r : Roster) (id : JobId) (s : CapabilitySignature) (features : FeatureSet) : List LogRecord :=
  match r.jobs.get? id with
  | none =>
    [⟨.debug, "Resolution for abandoned job discarded", [("job", id.display), ("signature", s.display)]⟩]
  | some job =>
    let left := job.unresolved.filter (· ≠ s)
    if s ∈ job.unresolved ∧ !left.isEmpty then
      [⟨.trace, "Aggregation job still waiting",
        [("job", id.display), ("outstanding", toString left.length)]⟩]
    else (r.resolve id s features).2.toList.map ContactChange.trace

end Roster
end PresenceCaps
