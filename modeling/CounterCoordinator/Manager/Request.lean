import CounterCoordinator.Manager

/-!
# Requests of a manager

Each request enters its future before it sends, so that no answer can come too early, and returns
at once. A send that fails on the spot settles the future before the call returns: with the error,
except that a commit acknowledgement to a coordinator that already left counts as acknowledged.
Rollbacks and finished queries are announced without waiting for anything.
-/
namespace CounterCoordinator.Manager

/-- Enter a counter request under a fresh id. -/
def enterCounterWait (m : Manager) (id : FutureId) (target : NodeId) : Manager :=
  { m.bump .futuresRegistered with counterWaits := m.counterWaits.register id target }

/-- Enter a commit acknowledgement under a fresh id. -/
def enterAckWait (m : Manager) (id : FutureId) (target : NodeId) : Manager :=
  { m.bump .futuresRegistered with ackWaits := m.ackWaits.register id target }

/-- Complete a counter request, and count it unless somebody else already did. -/
def settleCounterWait (m : Manager) (id : FutureId) (outcome : Outcome Version) : Manager :=
  let (won, waits) := m.counterWaits.complete id outcome
  let m := { m with counterWaits := waits }
  if won then m.bump .futuresCompleted else m

/-- Complete a commit acknowledgement, and count it unless somebody else already did. -/
def settleAckWait (m : Manager) (id : FutureId) (outcome : Outcome Unit) : Manager :=
  let (won, waits) := m.ackWaits.complete id outcome
  let m := { m with ackWaits := waits }
  if won then m.bump .futuresCompleted else m

/-- Ask `target` for a counter for a transaction. -/
def requestTx (m : Manager) (view : Outlook) (id : FutureId) (target : NodeId) (tx : TxId) :
    Reaction :=
  match (m.enterCounterWait id target).transmit view target (.txCounterRequest id tx) with
  | (.ok out, m) => ⟨m, some out, []⟩
  | (.error cause, m) =>
      ⟨m.settleCounterWait id (.error cause), none, [.txRequestUnsent tx target cause]⟩

/-- Ask `target` for the snapshot boundary of a query. -/
def requestQuery (m : Manager) (view : Outlook) (id : FutureId) (target : NodeId) : Reaction :=
  match (m.enterCounterWait id target).transmit view target (.queryCounterRequest id) with
  | (.ok out, m) => ⟨m, some out, []⟩
  | (.error cause, m) =>
      ⟨m.settleCounterWait id (.error cause), none, [.queryRequestUnsent target cause]⟩

/-- Tell `target` that a transaction committed. -/
def ackCommit (m : Manager) (view : Outlook) (id : FutureId) (target : NodeId) (tx : TxId) :
    Reaction :=
  match (m.enterAckWait id target).transmit view target (.txAckRequest id tx false) with
  | (.ok out, m) => ⟨m, some out, []⟩
  | (.error cause, m) =>
      if cause.isTopology then
        ⟨m.settleAckWait id (.ok ()), none, [.commitAckUnneeded tx target]⟩
      else ⟨m.settleAckWait id (.error cause), none, [.commitAckUnsent tx target cause]⟩

/-- Tell `target` that a transaction rolled back; nothing is awaited. -/
def ackRollback (m : Manager) (view : Outlook) (target : NodeId) (tx : TxId) : Reaction :=
  match m.transmit view target (.txAckRequest noFuture tx true) with
  | (.ok out, m) => ⟨m, some out, []⟩
  | (.error cause, m) =>
      if cause.isTopology then ⟨m, none, [.rollbackAckUnneeded tx target]⟩
      else ⟨m, none, [.rollbackAckUnsent tx target cause]⟩

/-- Tell `target` that a query is done with its snapshot; nothing is awaited. -/
def ackQuery (m : Manager) (view : Outlook) (target : NodeId) (counter : Version) : Reaction :=
  match m.transmit view target (.queryAckRequest counter) with
  | (.ok out, m) => ⟨m, some out, []⟩
  | (.error cause, m) =>
      if cause.isTopology then ⟨m, none, [.queryAckUnneeded counter target]⟩
      else ⟨m, none, [.queryAckUnsent counter target cause]⟩

end CounterCoordinator.Manager
