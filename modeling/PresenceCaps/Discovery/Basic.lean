import PresenceCaps.Roster.Basic

/-! Discovery queries in flight. The outcome of a query is used at most once. -/
namespace PresenceCaps

structure Query where
  target : FullAddress
  signature : CapabilitySignature
  node : String
  job : JobId
deriving DecidableEq

structure Outcome where
  id : QueryId
  result : Except CapsError DiscoInfo

structure Resolution where
  job : JobId
  signature : CapabilitySignature
  features : FeatureSet
deriving DecidableEq

structure Discovery where
  bundles : Bundles
  pending : Assoc QueryId Query
  nextId : UInt64
deriving DecidableEq

/-- A reply may leave out the node, but not name another one. -/
def acceptReply (node : String) (reply : DiscoInfo) : Except CapsError DiscoInfo :=
  match reply.node with
  | none => .ok reply
  | some n =>
    if n = node then .ok reply
    else .error (.malformedReply ("reply for node '" ++ n ++ "' to a query for '" ++ node ++ "'"))

namespace Discovery

def requiring (n : UInt32) : Discovery := ⟨.requiring n, [], 1⟩

def pendingCount (d : Discovery) : Nat := d.pending.length

def issue (d : Discovery) (s : CapabilitySignature) (target : FullAddress) (job : JobId) : Discovery × QueryId :=
  let id : QueryId := ⟨d.nextId⟩
  ({ bundles := d.bundles.attach s id
     pending := d.pending.set id ⟨target, s, s.queryNode, job⟩
     nextId := d.nextId + 1 }, id)

def issueAll (d : Discovery) (target : FullAddress) (job : JobId) :
    List CapabilitySignature → Discovery × List QueryId
  | [] => (d, [])
  | s :: sigs =>
    let (d, id) := d.issue s target job
    let (d, ids) := d.issueAll target job sigs
    (d, id :: ids)

/-- A failure of any kind resolves the bundle with no features. -/
def settle (d : Discovery) (o : Outcome) : Discovery × Option Resolution :=
  match d.pending.get? o.id with
  | none => (d, none)
  | some q =>
    let bundles := d.bundles.detach q.signature o.id
    let pending := d.pending.erase o.id
    match o.result.bind (acceptReply q.node) with
    | .ok reply =>
      ({ d with bundles := bundles.record q.signature q.target reply, pending },
        some ⟨q.job, q.signature, reply.featureSet⟩)
    | .error _ => ({ d with bundles, pending }, some ⟨q.job, q.signature, .empty⟩)

def cancelAll (d : Discovery) : Discovery :=
  { d with
    bundles := d.pending.foldl (fun b e => b.detach e.2.signature e.1) d.bundles
    pending := [] }

end Discovery
end PresenceCaps
