import CounterCoordinator.Manager

/-!
# Departures

What waits on a node that left or failed can never be answered. Counter requests end with a topology
error, so that the caller can elect anew and try again; commit acknowledgements end well, since the
entry they would clear is gone with the node. A manager that may have missed departures looks at all
its targets at once instead.
-/
namespace CounterCoordinator.Manager

/-- Put the two waitlists back and count what was cancelled in them. -/
def withCancelled (m : Manager) (counters : Nat × Waitlist Version) (acks : Nat × Waitlist Unit) :
    Nat × Manager :=
  let count := counters.1 + acks.1
  (count, { m with
    counterWaits := counters.2
    ackWaits := acks.2
    metrics := m.metrics.add .futuresCancelled (UInt64.ofNat count) })

/-- Cancel everything that waits on `node`; the count says how many futures this settled. -/
def nodeLeft (m : Manager) (node : NodeId) : Nat × Manager :=
  m.withCancelled (m.counterWaits.completeAllFor node (.error (.coordinatorLost node)))
    (if m.cancelAcks then m.ackWaits.completeAllFor node (.ok ()) else (0, m.ackWaits))

/-- Cancel everything that waits on a node that is not alive. -/
def resync (m : Manager) (alive : NodeId → Bool) : Nat × Manager :=
  m.withCancelled (m.counterWaits.completeAllGone alive fun node => .error (.coordinatorLost node))
    (if m.cancelAcks then m.ackWaits.completeAllGone alive fun _ => .ok () else (0, m.ackWaits))

/-- React to a departure; it is reported only if something waited on the node. -/
def departed (m : Manager) (event : MembershipEvent) : Reaction :=
  let (count, m) := m.nodeLeft event.node
  ⟨m, none, if 0 < count then [.requestsCancelled event count] else []⟩

/-- Make up for a number of missed departures. -/
def eventsMissed (m : Manager) (alive : NodeId → Bool) (count : Nat) : Reaction :=
  ⟨(m.resync alive).2, none, [.eventsMissed m.self count]⟩

end CounterCoordinator.Manager
