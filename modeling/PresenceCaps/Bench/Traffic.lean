import PresenceCaps.Bench.Network
import PresenceCaps.Discovery.Basic

/-! Queries under way: the network, a clock in milliseconds, and the deadline of every query. -/
namespace PresenceCaps.Bench

structure Task where
  id : QueryId
  request : Request
  due : Nat
deriving DecidableEq

/-- Tasks stand in the order in which they began. Without a timeout every deadline is the present. -/
structure Traffic where
  network : Network
  now : Nat
  timeout : Option Nat
  tasks : List Task

namespace Traffic

def ofAutomatic (automatic : Assoc String DiscoInfo) (timeout : Option Nat) : Traffic :=
  ⟨.ofAutomatic automatic, 0, timeout, []⟩

def begin (t : Traffic) (id : QueryId) (r : Request) : Traffic × List Outcome :=
  let (network, reply) := t.network.send id r
  let due := t.now + t.timeout.getD 0
  match reply with
  | some reply => ({ t with network }, [⟨id, reply⟩])
  | none =>
    if due ≤ t.now then ({ t with network }, [⟨id, .error r.timeout⟩])
    else ({ t with network, tasks := t.tasks ++ [⟨id, r, due⟩] }, [])

def beginAll (t : Traffic) : List (QueryId × Request) → Traffic × List Outcome
  | [] => (t, [])
  | (id, r) :: rest =>
    let (t, first) := t.begin id r
    let (t, later) := t.beginAll rest
    (t, first ++ later)

/-- Answers a held query, which tells its task if that is still there. -/
def answer? (t : Traffic) (number : Nat) (reply : Request → Reply) : Option (Traffic × List Outcome) :=
  (t.network.take? number).map fun (network, q) =>
    if t.tasks.any (·.id == q.id) then
      ({ t with network, tasks := t.tasks.filter (·.id != q.id) }, [⟨q.id, reply q.request⟩])
    else ({ t with network }, [])

/-- Moves the clock; the deadlines up to its new reading pass in order, equal ones as their tasks began. -/
def advance (t : Traffic) (ms : Nat) : Traffic × List Outcome :=
  let now := t.now + ms
  let due := (t.tasks.filter (·.due ≤ now)).mergeSort fun a b => decide (a.due ≤ b.due)
  ({ t with now, tasks := t.tasks.filter fun x => decide (now < x.due) },
    due.map fun x => ⟨x.id, .error x.request.timeout⟩)

def abort (t : Traffic) (ids : List QueryId) : Traffic :=
  { t with tasks := t.tasks.filter fun x => !ids.contains x.id }

def setAutomatic (t : Traffic) (node : String) (info : DiscoInfo) : Traffic :=
  { t with network := t.network.setAutomatic node info }

def closeInbox (t : Traffic) : Traffic := { t with network := t.network.close }

end Traffic
end PresenceCaps.Bench
