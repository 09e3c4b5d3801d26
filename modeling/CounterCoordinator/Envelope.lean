import CounterCoordinator.Bytes
import CounterCoordinator.Message
import CounterCoordinator.Node.Id

/-!
# Envelopes and inboxes

An envelope is a message as it lies in the inbox of a node: who sent it, on which channel, and its
bytes. An inbox hands out envelopes in the order they came; once its reader is gone it is closed and
takes no more.
-/
namespace CounterCoordinator

structure Envelope where
  sender : NodeId
  channel : Channel
  payload : Bytes
deriving DecidableEq, Repr

structure Inbox where
  owner : NodeId
  /-- Envelopes not yet taken, oldest first. -/
  queue : List Envelope := []
  closed : Bool := false
deriving DecidableEq, Repr

def Inbox.put (b : Inbox) (e : Envelope) : Inbox :=
  if b.closed then b else { b with queue := b.queue ++ [e] }

/-- The reader goes away, and everything it has not taken with it. -/
def Inbox.close (b : Inbox) : Inbox :=
  { b with queue := [], closed := true }

end CounterCoordinator
