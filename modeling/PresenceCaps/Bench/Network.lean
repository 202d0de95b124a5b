import PresenceCaps.Disco.Info
import PresenceCaps.Trust.Bundles

/-!
A simulated network for discovery queries. Some nodes are answered at once; every other query is held, by
number, until it is answered by hand.
-/
namespace PresenceCaps.Bench

structure Request where
  target : FullAddress
  node : String
deriving DecidableEq

structure HeldQuery where
  id : QueryId
  request : Request
  used : Bool
deriving DecidableEq

structure Network where
  automatic : Assoc String DiscoInfo
  requests : List Request
  held : List HeldQuery
  isOpen : Bool

abbrev Reply := Except CapsError DiscoInfo

def Request.refusal (r : Request) : CapsError := .remoteError r.target.display "recipient-unavailable"

def Request.timeout (r : Request) : CapsError := .queryTimeout r.target.display r.node

namespace Network

def ofAutomatic (automatic : Assoc String DiscoInfo) : Network := ⟨automatic, [], [], true⟩

def setAutomatic (n : Network) (node : String) (info : DiscoInfo) : Network :=
  { n with automatic := n.automatic.set node info }

/-- A query is answered at once, refused, or held. -/
def send (n : Network) (id : QueryId) (r : Request) : Network × Option Reply :=
  let n := { n with requests := n.requests ++ [r] }
  match n.automatic.get? r.node with
  | some info => (n, some (.ok info))
  | none =>
    if n.isOpen then ({ n with held := n.held ++ [⟨id, r, false⟩] }, none)
    else (n, some (.error r.refusal))

/-- A held query can be taken once. -/
def take? (n : Network) (number : Nat) : Option (Network × HeldQuery) :=
  (n.held[number]?).bind fun q =>
    if q.used then none else some ({ n with held := n.held.set number { q with used := true } }, q)

def close (n : Network) : Network := { n with isOpen := false }

end Network
end PresenceCaps.Bench
