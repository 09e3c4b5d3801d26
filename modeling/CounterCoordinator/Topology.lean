import CounterCoordinator.Node.Id

/-!
# Topology snapshots and election

A snapshot is a versioned list of cluster nodes. `Snapshot.ofNodes` puts the nodes into canonical
order: ascending join order, nodes of one order as they came. There is no vote: every node applies
`coordinator?` to its own snapshot and takes the first server it finds. Clients are never elected.
-/
namespace CounterCoordinator

/-- A member of the cluster. -/
structure ClusterNode where
  id : NodeId
  /-- Position in the order of joining. -/
  order : UInt64
  client : Bool
deriving DecidableEq, Repr

structure Snapshot where
  version : UInt64 := 0
  nodes : List ClusterNode := []
deriving DecidableEq, Repr

namespace Snapshot

/-- The snapshot of a version and its nodes, in canonical order. -/
def ofNodes (version : UInt64) (nodes : List ClusterNode) : Snapshot :=
  ⟨version, nodes.mergeSort fun a b => decide (a.order ≤ b.order)⟩

/-- The nodes that may coordinate, in the snapshot's order. -/
def servers (s : Snapshot) : List ClusterNode :=
  s.nodes.filter fun n => !n.client

def node? (s : Snapshot) (id : NodeId) : Option ClusterNode :=
  s.nodes.find? fun n => n.id == id

def contains (s : Snapshot) (id : NodeId) : Bool :=
  (s.node? id).isSome

/-- The elected coordinator: the first server, if there is one. -/
def coordinator? (s : Snapshot) : Option ClusterNode :=
  s.servers.head?

end Snapshot

/-- How a node departed. -/
inductive Departure where
  | left
  | failed
deriving DecidableEq, Repr

def Departure.text : Departure → String
  | left => "left"
  | failed => "failed"

/-- A node departed; `version` is the topology version after it. -/
structure MembershipEvent where
  kind : Departure
  node : NodeId
  version : UInt64
deriving DecidableEq, Repr

end CounterCoordinator
