import PresenceCaps.Discovery.Basic
import PresenceCaps.Trust.Trace

/-! What discovery logs. -/
namespace PresenceCaps.Discovery

def issueTrace (id : QueryId) (s : CapabilitySignature) (target : FullAddress) (job : JobId) : LogRecord :=
  ⟨.debug, "Discovery query issued",
    [("query_id", id.display), ("target", target.display), ("node", s.queryNode), ("job", job.display)]⟩

def failureTrace (id : QueryId) (q : Query) (e : CapsError) : LogRecord :=
  let origin := [("query_id", id.display), ("target", q.target.display)]
  match e with
  | .queryTimeout .. => ⟨.debug, "Discovery query timed out", origin ++ [("node", q.node)]⟩
  | _ =>
    if e.isQueryFailure then ⟨.warn, "Discovery query failed", origin ++ [("error", e.message)]⟩
    else ⟨.error, "Transport returned an unexpected error", origin ++ [("error", e.message)]⟩

def settleTrace (d : Discovery) (o : Outcome) : List LogRecord :=
  match d.pending.get? o.id with
  | none => [⟨.trace, "Outcome for unknown query", [("query_id", o.id.display)]⟩]
  | some q =>
    match o.result.bind (acceptReply q.node) with
    | .ok reply => (d.bundles.detach q.signature o.id).recordTrace q.signature q.target reply
    | .error e => failureTrace o.id q e :: Bundles.failureTrace q.signature

end PresenceCaps.Discovery
