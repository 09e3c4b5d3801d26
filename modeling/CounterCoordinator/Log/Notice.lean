import CounterCoordinator.Error
import CounterCoordinator.Span
import CounterCoordinator.Topology

/-!
# Notices

What the library reports while it works. A notice is a value; its level and its text are functions
of it, and the text shows nodes by whatever naming the reader prefers.
-/
namespace CounterCoordinator.Log

/-- Levels from the most to the least detailed. -/
inductive Level where
  | trace
  | debug
  | info
  | warn
  | error
deriving DecidableEq, Repr

def Level.text : Level → String
  | trace => "TRACE"
  | debug => "DEBUG"
  | info => "INFO"
  | warn => "WARN"
  | error => "ERROR"

/-- The acknowledgements and responses whose sending is reported by name. -/
inductive Reply where
  | txCounter
  | queryCounter
  | txAck
deriving DecidableEq, Repr

def Reply.text : Reply → String
  | txCounter => "tx counter response"
  | queryCounter => "query counter response"
  | txAck => "tx ack response"

/-- The futures a response may fail to find. -/
inductive Awaited where
  | counter
  | ack
deriving DecidableEq, Repr

def Awaited.text : Awaited → String
  | counter => "coordinator counter"
  | ack => "tx ack"

inductive Notice where
  | nodeJoined (node : ClusterNode) (version : UInt64)
  | nodeDeparted (event : MembershipEvent)
  | txRequestUnsent (tx : TxId) (node : NodeId) (cause : Error)
  | queryRequestUnsent (node : NodeId) (cause : Error)
  | commitAckUnneeded (tx : TxId) (node : NodeId)
  | commitAckUnsent (tx : TxId) (node : NodeId) (cause : Error)
  | rollbackAckUnneeded (tx : TxId) (node : NodeId)
  | rollbackAckUnsent (tx : TxId) (node : NodeId) (cause : Error)
  | queryAckUnneeded (counter : Version) (node : NodeId)
  | queryAckUnsent (counter : Version) (node : NodeId) (cause : Error)
  | received (message : Message) (node : NodeId)
  | undecodable (node : NodeId) (length : Nat) (cause : Error)
  | txRequestIgnored (tx : TxId) (node : NodeId)
  | txRequestRejected (node : NodeId) (cause : Error)
  | queryRequestIgnored (node : NodeId)
  | replyUnneeded (reply : Reply) (node : NodeId)
  | replyUnsent (reply : Reply) (node : NodeId) (cause : Error)
  | futureNotFound (what : Awaited) (node : NodeId) (future : FutureId)
  | futureGone (what : Awaited) (node : NodeId) (future : FutureId)
  | channelSkipped (channel : Channel) (node : NodeId)
  | dispatcherStopped (node : NodeId)
  | requestsCancelled (event : MembershipEvent) (count : Nat)
  | eventsMissed (node : NodeId) (count : Nat)
  | listenerStopped (node : NodeId)
  | serviceStarted (node : NodeId)
  | serviceStopped (node : NodeId)
  | retrying (attempt : Nat) (cause : Error) (delay : Span)
deriving DecidableEq, Repr

namespace Notice

def level : Notice → Level
  | received .. | channelSkipped .. => .trace
  | nodeJoined .. | txRequestUnsent .. | queryRequestUnsent .. | commitAckUnneeded ..
  | rollbackAckUnneeded .. | queryAckUnneeded .. | txRequestIgnored .. | queryRequestIgnored ..
  | replyUnneeded .. | futureGone .. | dispatcherStopped .. | listenerStopped .. => .debug
  | nodeDeparted .. | requestsCancelled .. | serviceStarted .. | serviceStopped .. => .info
  | undecodable .. | futureNotFound .. | eventsMissed .. | retrying .. => .warn
  | commitAckUnsent .. | rollbackAckUnsent .. | queryAckUnsent .. | txRequestRejected ..
  | replyUnsent .. => .error

/-- The text of a notice, with nodes shown by `name`. -/
def text (name : Naming) : Notice → String
  | nodeJoined node version =>
      s!"Node {name node.id} joined (order={node.order}, client={node.client}, " ++
        s!"topology={version})"
  | nodeDeparted event =>
      s!"Node {name event.node} {event.kind.text} (topology={event.version})"
  | txRequestUnsent tx node cause =>
      s!"Failed to send tx counter request [tx={tx.text}, node={name node}]: " ++
        cause.message name
  | queryRequestUnsent node cause =>
      s!"Failed to send query counter request [node={name node}]: {cause.message name}"
  | commitAckUnneeded tx node =>
      s!"Coordinator left before tx commit ack [tx={tx.text}, node={name node}]"
  | commitAckUnsent tx node cause =>
      s!"Failed to send tx commit ack [tx={tx.text}, node={name node}]: {cause.message name}"
  | rollbackAckUnneeded tx node =>
      s!"Failed to send tx rollback ack, node left [tx={tx.text}, node={name node}]"
  | rollbackAckUnsent tx node cause =>
      s!"Failed to send tx rollback ack [tx={tx.text}, node={name node}]: {cause.message name}"
  | queryAckUnneeded counter node =>
      s!"Failed to send query ack, node left [counter={counter}, node={name node}]"
  | queryAckUnsent counter node cause =>
      s!"Failed to send query ack [counter={counter}, node={name node}]: {cause.message name}"
  | received message node => s!"Received {message.kind} from {name node}"
  | undecodable node length cause =>
      s!"Unexpected message received [node={name node}, len={length}]: {cause.message name}"
  | txRequestIgnored tx node =>
      s!"Ignore tx counter request processing, node left [tx={tx.text}, node={name node}]"
  | txRequestRejected node cause =>
      s!"Rejected tx counter request [node={name node}]: {cause.message name}"
  | queryRequestIgnored node =>
      s!"Ignore query counter request processing, node left [node={name node}]"
  | replyUnneeded reply node => s!"Failed to send {reply.text}, node left [node={name node}]"
  | replyUnsent reply node cause =>
      s!"Failed to send {reply.text} [node={name node}]: {cause.message name}"
  | futureNotFound what node future =>
      s!"Failed to find {what.text} future [node={name node}, futureId={future}]"
  | futureGone what node future =>
      s!"Failed to find {what.text} future, node left [node={name node}, futureId={future}]"
  | channelSkipped channel node =>
      s!"Skipping message on channel {channel.text} from {name node}"
  | dispatcherStopped node => s!"Dispatcher for {name node} stopped"
  | requestsCancelled event count =>
      s!"Node {name event.node} {event.kind.text}, cancelled {count} pending coordinator " ++
        s!"requests (topology={event.version})"
  | eventsMissed node count =>
      s!"Failure listener on {name node} missed {count} membership events, resyncing"
  | listenerStopped node => s!"Failure listener for {name node} stopped"
  | serviceStarted node => s!"Starting MVCC coordinator service: {name node}"
  | serviceStopped node => s!"Stopping MVCC coordinator service: {name node}"
  | retrying attempt cause delay =>
      s!"Retry attempt {attempt} failed: {cause.message name}, retrying in {delay.text}"

/-- The level and the text on one line. -/
def line (name : Naming) (n : Notice) : String :=
  n.level.text ++ " " ++ n.text name

end Notice
end CounterCoordinator.Log
