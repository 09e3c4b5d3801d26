import CounterCoordinator.Cluster
import CounterCoordinator.Manager.Departure
import CounterCoordinator.Manager.Dispatch
import CounterCoordinator.Manager.Request

/-!
# Deployments

A deployment is a cluster whose nodes run a manager each. Two activities serve a manager: its
dispatcher hands it the envelopes of its inbox one by one, and a failure listener hands it the
departures. One step of either is a function here, and all runs are made of such steps, whatever
order they come in.
-/
namespace CounterCoordinator

structure Deployment where
  cluster : Cluster := {}
  managers : List Manager := []
  ids : IdSource := {}
deriving Repr

namespace Deployment

def manager? (d : Deployment) (node : NodeId) : Option Manager :=
  d.managers.find? fun m => m.self == node

def setManager (d : Deployment) (m : Manager) : Deployment :=
  { d with managers := d.managers.map fun old => if old.self = m.self then m else old }

/-- A node with a manager joins under an identity. -/
def joinAs (d : Deployment) (id : NodeId) (client cancelAcks : Bool) :
    ClusterNode × List Log.Notice × Deployment :=
  let (node, log, cluster) := d.cluster.join id client
  (node, log, { d with
    cluster
    managers := d.managers ++ [{ self := node.id, cancelAcks }] })

/-- A node with a manager joins under an identity nobody has yet. -/
def join (d : Deployment) (client cancelAcks : Bool) :
    ClusterNode × List Log.Notice × Deployment :=
  d.joinAs d.cluster.freshId client cancelAcks

/-- Take over the reaction of a manager: what it sent goes to the inbox of its target. -/
def absorb (d : Deployment) (r : Reaction) : Deployment :=
  let d := d.setManager r.manager
  match r.sent with
  | some out =>
      { d with cluster := d.cluster.post out.target ⟨r.manager.self, .coordinator, out.payload⟩ }
  | none => d

/-- The reaction of a node's manager and the deployment after it; without a manager, nothing. -/
def react (d : Deployment) (node : NodeId) (f : Manager → Reaction) :
    Option Reaction × Deployment :=
  match d.manager? node with
  | some m => let r := f m; (some r, d.absorb r)
  | none => (none, d)

/-- Let a node make a request under a fresh id. -/
def request (d : Deployment) (node : NodeId) (f : Outlook → Manager → FutureId → Reaction) :
    FutureId × Option Reaction × Deployment :=
  let (id, ids) := d.ids.next
  (id, { d with ids }.react node fun m => f d.cluster.outlook m id)

def requestTx (d : Deployment) (node target : NodeId) (tx : TxId) :
    FutureId × Option Reaction × Deployment :=
  d.request node fun view m id => m.requestTx view id target tx

def requestQuery (d : Deployment) (node target : NodeId) :
    FutureId × Option Reaction × Deployment :=
  d.request node fun view m id => m.requestQuery view id target

def ackCommit (d : Deployment) (node target : NodeId) (tx : TxId) :
    FutureId × Option Reaction × Deployment :=
  d.request node fun view m id => m.ackCommit view id target tx

def ackRollback (d : Deployment) (node target : NodeId) (tx : TxId) :
    Option Reaction × Deployment :=
  d.react node fun m => m.ackRollback d.cluster.outlook target tx

def ackQuery (d : Deployment) (node target : NodeId) (counter : Version) :
    Option Reaction × Deployment :=
  d.react node fun m => m.ackQuery d.cluster.outlook target counter

/-- One step of a node's dispatcher: take the oldest envelope and hand it to the manager. -/
def dispatchOne (d : Deployment) (node : NodeId) :
    Cluster.Delivery × Option Reaction × Deployment :=
  match d.cluster.take node with
  | (.envelope e, cluster) =>
      (.envelope e, { d with cluster }.react node fun m => m.dispatch cluster.outlook e)
  | (delivery, _) => (delivery, none, d)

/-- Hand what a subscriber read to the manager of a node. -/
def hear (d : Deployment) (node : NodeId) (reading : EventFeed.Reading MembershipEvent) :
    Option Reaction × Deployment :=
  match reading with
  | .event e => d.react node fun m => m.departed e
  | .missed count => d.react node fun m => m.eventsMissed d.cluster.alive count
  | .nothing => (none, d)

/-- One step of a node's failure listener: read on from a position of the cluster's departures. -/
def listenOne (d : Deployment) (node : NodeId) (position : Nat) :
    EventFeed.Reading MembershipEvent × Nat × Option Reaction × Deployment :=
  let (reading, next) := d.cluster.events.read position
  (reading, next, d.hear node reading)

end Deployment
end CounterCoordinator
