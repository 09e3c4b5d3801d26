import CounterCoordinator.Error

/-!
# Outlooks

What a node can see of the world at one moment: which nodes are alive, and to which nodes a message
can be sent. The cluster and the network each offer their nodes such a view.
-/
namespace CounterCoordinator

structure Outlook where
  alive : NodeId → Bool
  /-- Why a message to a node cannot be sent; nothing if it can. -/
  refusal? : NodeId → Option Error

end CounterCoordinator
