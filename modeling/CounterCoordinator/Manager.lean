import CounterCoordinator.Counters
import CounterCoordinator.Log.Notice
import CounterCoordinator.Metrics
import CounterCoordinator.Outlook
import CounterCoordinator.Waitlist

/-!
# Managers

Every node runs one manager, which plays both roles: it asks coordinators for counters, and it
answers such requests when it is asked. It does not remember who coordinates; callers elect the
coordinator and name it in every request. An operation is a function of the manager and of an
`Outlook`, its view of membership and transport at that moment, and yields a `Reaction`: the manager
after it, the message it put in flight, if any, and what it reported.
-/
namespace CounterCoordinator

/-- A message put in flight. -/
structure Outgoing where
  target : NodeId
  payload : Bytes
deriving DecidableEq, Repr

structure Manager where
  self : NodeId
  /-- Complete waiting commit acknowledgements when their coordinator departs. -/
  cancelAcks : Bool := true
  /-- What this node has assigned as a coordinator. -/
  counters : Counters := {}
  counterWaits : Waitlist Version := {}
  ackWaits : Waitlist Unit := {}
  metrics : Metrics := {}
deriving Repr

/-- The result of an operation. -/
structure Reaction where
  manager : Manager
  sent : Option Outgoing := none
  log : List Log.Notice := []
deriving Repr

namespace Manager

/-- Futures given up by their callers while they were still waiting. -/
def abandoned (m : Manager) : UInt64 :=
  m.counterWaits.abandoned + m.ackWaits.abandoned

def bump (m : Manager) (c : Metrics.Counter) : Manager :=
  { m with metrics := m.metrics.bump c }

/-- Metrics with the gauges read off the tables. -/
def currentMetrics (m : Manager) : Metrics :=
  { m.metrics with
    activeTransactions := UInt64.ofNat m.counters.activeCount
    pendingFutures := UInt64.ofNat (m.counterWaits.size + m.ackWaits.size)
    futuresAbandoned := m.abandoned }

/-- Try to put a message in flight; a refusal is counted and handed back. -/
def transmit (m : Manager) (view : Outlook) (target : NodeId) (message : Message) :
    Except Error Outgoing × Manager :=
  match view.refusal? target with
  | none => (.ok ⟨target, Wire.encode message⟩, m)
  | some cause => (.error cause, m.bump .sendFailures)

/-- The caller of a counter request gives its future up. -/
def dropCounterFuture (m : Manager) (id : FutureId) : Manager :=
  { m with counterWaits := m.counterWaits.drop id }

/-- The caller of a commit acknowledgement gives its future up. -/
def dropAckFuture (m : Manager) (id : FutureId) : Manager :=
  { m with ackWaits := m.ackWaits.drop id }

/-- A one-line description for debugging, with nodes shown by `name`. -/
def describe (m : Manager) (name : Naming) : String :=
  s!"MvccManager \x7b local: NodeId({name m.self}), counter: {m.counters.current}, " ++
    s!"active_txs: {m.counters.activeCount}, " ++
    s!"pending_counter_requests: {m.counterWaits.size}, pending_acks: {m.ackWaits.size} \x7d"

end Manager
end CounterCoordinator
