import CounterCoordinator.Envelope
import CounterCoordinator.EventFeed
import CounterCoordinator.Log.Notice
import CounterCoordinator.Outlook

/-!
# The cluster

The cluster keeps its members in join order, counts every join and every departure in its topology
version, and gives each node an inbox. A node that departs is taken out before the departure is
announced, so whoever reads the announcement already finds the node gone. The cluster also carries
messages: to a node that is no member the sender is told that it left, to a member whose inbox has
been closed that the send failed.
-/
namespace CounterCoordinator

structure Cluster where
  version : UInt64 := 0
  /-- The join order given out last. -/
  lastOrder : UInt64 := 0
  /-- The current members, in join order. -/
  members : List ClusterNode := []
  /-- The inboxes of all nodes that ever joined, latest first. -/
  inboxes : List Inbox := []
  /-- The departures so far; subscribers can lag behind by at most 1024 of them. -/
  events : EventFeed MembershipEvent := { capacity := 1024 }
deriving DecidableEq, Repr

namespace Cluster

/-- An identity nobody has yet: the number of the next join. -/
def freshId (c : Cluster) : NodeId := .ofNat (c.lastOrder.toNat + 1)

def size (c : Cluster) : Nat := c.members.length

def alive (c : Cluster) (node : NodeId) : Bool :=
  c.members.any fun m => m.id == node

/-- The topology of this moment. -/
def snapshot (c : Cluster) : Snapshot := .ofNodes c.version c.members

def inbox? (c : Cluster) (node : NodeId) : Option Inbox :=
  c.inboxes.find? fun b => b.owner == node

def updateInbox (c : Cluster) (node : NodeId) (change : Inbox → Inbox) : Cluster :=
  { c with inboxes := c.inboxes.map fun b => if b.owner = node then change b else b }

/-- A node joins under a fresh identity. -/
def join (c : Cluster) (id : NodeId) (client : Bool) : ClusterNode × List Log.Notice × Cluster :=
  let node : ClusterNode := ⟨id, c.lastOrder + 1, client⟩
  let version := c.version + 1
  (node, [.nodeJoined node version], { c with
    version
    lastOrder := node.order
    members := c.members ++ [node]
    inboxes := { owner := id } :: c.inboxes })

/-- A member departs; nothing happens if the node is no member. -/
def depart (c : Cluster) (kind : Departure) (node : NodeId) : Bool × List Log.Notice × Cluster :=
  if c.alive node then
    let event : MembershipEvent := ⟨kind, node, c.version + 1⟩
    (true, [.nodeDeparted event], { c with
      version := event.version
      members := c.members.filter fun m => m.id != node
      events := c.events.send event })
  else (false, [], c)

/-- Why a message to a node cannot be sent. -/
def refusal? (c : Cluster) (node : NodeId) : Option Error :=
  if !c.alive node then some (.nodeLeft node)
  else match c.inbox? node with
    | some b => if b.closed then some (.sendFailed node "inbox closed") else none
    | none => some (.sendFailed node "inbox closed")

/-- What the managers of the cluster see. -/
def outlook (c : Cluster) : Outlook := ⟨c.alive, c.refusal?⟩

def post (c : Cluster) (target : NodeId) (e : Envelope) : Cluster :=
  c.updateInbox target fun b => b.put e

def send (c : Cluster) (sender target : NodeId) (channel : Channel) (payload : Bytes) :
    Outcome Unit × Cluster :=
  match c.refusal? target with
  | some cause => (.error cause, c)
  | none => (.ok (), c.post target ⟨sender, channel, payload⟩)

/-- What the reader of an inbox finds. -/
inductive Delivery where
  | envelope (e : Envelope)
  | empty
  /-- Everything is read, and the node is no member any more. -/
  | disconnected
  | closed
deriving DecidableEq, Repr

/-- Take the oldest envelope out of an inbox. -/
def take (c : Cluster) (node : NodeId) : Delivery × Cluster :=
  match c.inbox? node with
  | none => (.closed, c)
  | some b =>
      if b.closed then (.closed, c)
      else match b.queue with
        | e :: rest => (.envelope e, c.updateInbox node fun b => { b with queue := rest })
        | [] => (if c.alive node then .empty else .disconnected, c)

def closeInbox (c : Cluster) (node : NodeId) : Bool × Cluster :=
  match c.inbox? node with
  | some b => if b.closed then (false, c) else (true, c.updateInbox node Inbox.close)
  | none => (false, c)

end Cluster
end CounterCoordinator
