/-! What can go wrong while learning a contact's capabilities, and how it is worded. -/
namespace PresenceCaps

inductive CapsError where
  | queryTimeout (target node : String)
  | malformedReply (reason : String)
  | remoteError (target condition : String)
  | digestMismatch (node advertised computed : String)
  | unknownContact (handle : UInt32)
  | invalidAddress (address : String)
deriving DecidableEq, Repr

namespace CapsError

def message : CapsError → String
  | queryTimeout target node => s!"disco#info query to {target} for {node} timed out"
  | malformedReply reason => s!"malformed disco#info reply: {reason}"
  | remoteError target condition => s!"remote error from {target}: {condition}"
  | digestMismatch node advertised computed =>
    s!"digest mismatch for {node}: advertised {advertised}, computed {computed}"
  | unknownContact handle => s!"unknown contact handle: {handle.toNat}"
  | invalidAddress address => s!"invalid address: {address}"

/-- The failures that a query can end in by itself: no answer, a wrong answer, or a refusal. -/
def isQueryFailure : CapsError → Bool
  | queryTimeout .. | malformedReply .. | remoteError .. => true
  | digestMismatch .. | unknownContact .. | invalidAddress .. => false

end CapsError

/-- What a request to the running service can answer instead of a value. -/
inductive ServiceError where
  | closed
  | handlesExhausted
  | caps (error : CapsError)
deriving DecidableEq, Repr

namespace ServiceError

def message : ServiceError → String
  | closed => "capability service is not running"
  | handlesExhausted => "contact handle space exhausted"
  | caps error => error.message

end ServiceError
end PresenceCaps
