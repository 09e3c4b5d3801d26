import CounterCoordinator.Manager.Departure
import CounterCoordinator.Manager.Dispatch
import CounterCoordinator.Manager.Request

/-!
# Managers on a network

A network of nodes with one manager each. Messages in flight lie in one queue, from which they are
delivered, lost or duplicated in any order. A node that is removed keeps its manager and may be
added again. A message to a node that is not live is refused because the node left, one to a broken
node because its connection was reset; every other message is put in flight.
-/
namespace CounterCoordinator

/-- A message in flight. -/
structure Parcel where
  source : NodeId
  target : NodeId
  payload : Bytes
deriving DecidableEq, Repr

structure Network where
  version : UInt64 := 0
  live : List ClusterNode := []
  broken : List NodeId := []
  /-- Messages in flight, in the order they were sent. -/
  flight : List Parcel := []
  /-- The managers of all nodes that were ever added. -/
  managers : List Manager := []
  ids : IdSource := {}
deriving Repr

namespace Network

def alive (n : Network) (node : NodeId) : Bool :=
  n.live.any fun m => m.id == node

/-- Why a message to a node cannot be sent. -/
def refusal? (n : Network) (node : NodeId) : Option Error :=
  if !n.alive node then some (.nodeLeft node)
  else if n.broken.contains node then some (.sendFailed node "connection reset")
  else none

def outlook (n : Network) : Outlook := ⟨n.alive, n.refusal?⟩

def snapshot (n : Network) : Snapshot := .ofNodes n.version n.live

def manager? (n : Network) (node : NodeId) : Option Manager :=
  n.managers.find? fun m => m.self == node

def setManager (n : Network) (m : Manager) : Network :=
  { n with managers := n.managers.map fun old => if old.self = m.self then m else old }

/-- Add a node; its join order defaults to the number of the next version. A node that was here
before keeps the manager it had. -/
def add (n : Network) (node : NodeId) (order : Option UInt64) (client cancelAcks : Bool) :
    UInt64 × Network :=
  let order := order.getD (n.version + 1)
  let managers :=
    if (n.manager? node).isSome then n.managers
    else n.managers ++ [{ self := node, cancelAcks }]
  (order, { n with
    version := n.version + 1
    live := n.live ++ [⟨node, order, client⟩]
    managers })

def remove (n : Network) (node : NodeId) : Network :=
  { n with version := n.version + 1, live := n.live.filter fun m => m.id != node }

/-- Break the link to a node; false if it was broken already. -/
def breakLink (n : Network) (node : NodeId) : Bool × Network :=
  if n.broken.contains node then (false, n) else (true, { n with broken := node :: n.broken })

/-- Mend the link to a node; false if it was not broken. -/
def heal (n : Network) (node : NodeId) : Bool × Network :=
  if n.broken.contains node then (true, { n with broken := n.broken.filter (· != node) })
  else (false, n)

/-- Take over the reaction of a manager. -/
def absorb (n : Network) (r : Reaction) : Network :=
  let sent := r.sent.toList.map fun out => ⟨r.manager.self, out.target, out.payload⟩
  let n := n.setManager r.manager
  { n with flight := n.flight ++ sent }

/-- Let the manager of a node act; without one nothing happens. -/
def act (n : Network) (node : NodeId) (f : Manager → Reaction) : List Log.Notice × Network :=
  match n.manager? node with
  | some m => let r := f m; (r.log, n.absorb r)
  | none => ([], n)

/-- Let the manager of a node make a request under a fresh id. -/
def request (n : Network) (node : NodeId) (f : Manager → FutureId → Reaction) :
    FutureId × List Log.Notice × Network :=
  let (id, ids) := n.ids.next
  (id, { n with ids }.act node fun m => f m id)

def requestTx (n : Network) (node target : NodeId) (tx : TxId) :
    FutureId × List Log.Notice × Network :=
  n.request node fun m id => m.requestTx n.outlook id target tx

def requestQuery (n : Network) (node target : NodeId) : FutureId × List Log.Notice × Network :=
  n.request node fun m id => m.requestQuery n.outlook id target

def ackCommit (n : Network) (node target : NodeId) (tx : TxId) :
    FutureId × List Log.Notice × Network :=
  n.request node fun m id => m.ackCommit n.outlook id target tx

def ackRollback (n : Network) (node target : NodeId) (tx : TxId) : List Log.Notice × Network :=
  n.act node fun m => m.ackRollback n.outlook target tx

def ackQuery (n : Network) (node target : NodeId) (counter : Version) :
    List Log.Notice × Network :=
  n.act node fun m => m.ackQuery n.outlook target counter

/-- Give a payload to the manager of a node, as if `source` had sent it. -/
def inject (n : Network) (node source : NodeId) (payload : Bytes) : List Log.Notice × Network :=
  n.act node fun m => m.receive n.outlook source payload

def handle (n : Network) (node source : NodeId) (message : Message) :
    List Log.Notice × Network :=
  n.act node fun m => m.handle n.outlook source message

def takeParcel (n : Network) (i : Nat) : Option Parcel × Network :=
  (n.flight[i]?, { n with flight := n.flight.eraseIdx i })

def deliver (n : Network) (i : Nat) : Option Parcel × List Log.Notice × Network :=
  match n.takeParcel i with
  | (some p, n) => (some p, n.inject p.target p.source p.payload)
  | (none, n) => (none, [], n)

/-- Put a copy of the message at a place of the flight behind all others. -/
def duplicate (n : Network) (i : Nat) : Bool × Network :=
  match n.flight[i]? with
  | some p => (true, { n with flight := n.flight ++ [p] })
  | none => (false, n)

/-- Lose everything in flight. -/
def drain (n : Network) : List Parcel × Network :=
  (n.flight, { n with flight := [] })

/-- Deliver from the front, at most `fuel` messages. -/
def pumpFor : Nat → Network → Nat × List Log.Notice × Network
  | 0, n => (0, [], n)
  | fuel + 1, n =>
      match n.deliver 0 with
      | (none, _, _) => (0, [], n)
      | (some _, log, n) =>
          let (count, more, n) := pumpFor fuel n
          (count + 1, log ++ more, n)

/-- Deliver from the front until nothing is in flight. Each message causes at most one answer, and
answers cause none, so twice as many deliveries as there are messages suffice. -/
def pump (n : Network) : Nat × List Log.Notice × Network :=
  pumpFor (2 * n.flight.length) n

def nodeLeft (n : Network) (here node : NodeId) : Nat × Network :=
  match n.manager? here with
  | some m => let (count, m) := m.nodeLeft node; (count, n.setManager m)
  | none => (0, n)

/-- Let a manager cancel what waits on nodes that are not live. -/
def resync (n : Network) (here : NodeId) : Nat × Network :=
  match n.manager? here with
  | some m => let (count, m) := m.resync n.alive; (count, n.setManager m)
  | none => (0, n)

def departed (n : Network) (here : NodeId) (event : MembershipEvent) :
    List Log.Notice × Network :=
  n.act here fun m => m.departed event

end Network
end CounterCoordinator
