import CounterCoordinator.Message.Wire
import CounterCoordinator.Node.Id

/-!
# Errors

What can go wrong with a request, a message or the settings. An error is a topology error when it
says that a node is no longer part of the cluster; those and timeouts are worth another attempt
against a freshly elected coordinator.
-/
namespace CounterCoordinator

inductive Error where
  /-- The topology changed while something waited on `node`. -/
  | topology (node : NodeId) (reason : String)
  /-- The destination of a message left the cluster. -/
  | nodeLeft (node : NodeId)
  | sendFailed (node : NodeId) (reason : String)
  | protocolViolation (detail : String)
  | codec (fault : Wire.Fault)
  | invalidConfig (detail : String)
  /-- The settings could not be read at all. -/
  | config (detail : String)
  | internal (detail : String)
  | timeout (detail : String)
deriving DecidableEq, Repr

namespace Error

/-- The text of an error, with nodes shown by `name`. -/
def message (name : Naming) : Error → String
  | topology node reason => s!"Topology changed: {reason} (node {name node})"
  | nodeLeft node => s!"Destination node left the cluster: {name node}"
  | sendFailed node reason => s!"Send failed to {name node}: {reason}"
  | protocolViolation detail => s!"Protocol violation: {detail}"
  | codec fault => s!"Codec error: {fault.message}"
  | invalidConfig detail => s!"Invalid configuration: {detail}"
  | config detail => s!"Configuration error: {detail}"
  | internal detail => s!"Internal error: {detail}"
  | timeout detail => s!"Operation timeout: {detail}"

/-- Does the error say that a node is no longer part of the cluster? -/
def isTopology : Error → Bool
  | topology .. | nodeLeft .. => true
  | _ => false

/-- Is another attempt worth making? -/
def isRetryable : Error → Bool
  | topology .. | nodeLeft .. | timeout .. => true
  | _ => false

/-- A transaction asked for a second counter. -/
def alreadyActive (tx : TxId) (held : Version) : Error :=
  protocolViolation s!"transaction {tx.text} already holds counter {held}"

/-- A future whose entry went away without an answer. -/
def neverCompleted (id : FutureId) : Error :=
  internal s!"future {id} dropped without completion"

/-- A counter request whose coordinator is gone. -/
def coordinatorLost (node : NodeId) : Error :=
  topology node "Failed to request counter, node failed"

end Error

/-- How something that may go wrong ended. -/
abbrev Outcome (α : Type) := Except Error α

end CounterCoordinator
