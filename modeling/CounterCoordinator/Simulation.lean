import CounterCoordinator.Config
import CounterCoordinator.Deployment
import CounterCoordinator.Retry

/-!
# Simulations

A simulation runs a number of transactions on a deployment. Each one picks a requester among the
live nodes in turn, asks the elected coordinator for a counter, again if need be, and then commits
or rolls back. It moves in steps that may come in any order: a transaction goes on, the time it was
ready to wait runs out, a dispatcher takes an envelope, a failure listener reads an event. When a
given number of transactions have ended, the coordinator of that moment fails.
-/
namespace CounterCoordinator

namespace Simulation

/-- How a transaction that got its counter ended. -/
inductive Ending where
  | committed
  | rolledBack
  | ackTimedOut
deriving DecidableEq, Repr

/-- What became of a transaction. -/
inductive Result where
  /-- Its requester left in the middle of it. -/
  | aborted
  | finished (coordinator : NodeId) (counter : Version) (ending : Ending)
  | failed (cause : Error)
deriving DecidableEq, Repr

/-- Where a transaction stands. -/
inductive Phase where
  | unstarted
  /-- It waits for a counter, with `left` more attempts allowed. -/
  | requesting (requester : NodeId) (left : Nat) (coordinator : NodeId) (tx : TxId)
      (future : FutureId)
  /-- It waits before the next attempt. -/
  | pausing (requester : NodeId) (left : Nat)
  /-- It waits for its commit to be acknowledged. -/
  | committing (requester : NodeId) (coordinator : NodeId) (counter : Version) (future : FutureId)
  | done (result : Result)
deriving DecidableEq, Repr

structure Run where
  /-- Is it to roll back rather than commit? -/
  rollback : Bool
  phase : Phase := .unstarted
deriving DecidableEq, Repr

/-- A node of the simulation. -/
structure Station where
  node : ClusterNode
  txIds : TxId.Generator
  /-- How many departures its failure listener has read. -/
  heard : Nat := 0
deriving DecidableEq, Repr

inductive Move where
  | advance (transaction : Nat)
  | giveUp (transaction : Nat)
  | dispatch (node : NodeId)
  | listen (node : NodeId)
deriving DecidableEq, Repr

/-- How many attempts a transaction has to get a counter. -/
def counterAttempts : Nat := 5

end Simulation

structure Simulation where
  deployment : Deployment
  stations : List Simulation.Station
  runs : List Simulation.Run
  /-- Fail the coordinator when this many transactions have ended. -/
  failAfter : Option Nat
  completed : Nat := 0
  failedCoordinator : Option NodeId := none
deriving Repr

namespace Simulation

/-- Add a number of nodes of one kind. -/
def populate (client cancelAcks : Bool) :
    Nat → Deployment × List Station → Deployment × List Station
  | 0, x => x
  | n + 1, (d, stations) =>
      let (node, _, d) := d.join client cancelAcks
      populate client cancelAcks n (d, stations ++ [⟨node, ⟨node.order, 0⟩, 0⟩])

/-- A fresh simulation: the clients join first, so that election has to pass over them. The
decisions say which transactions roll back. -/
def start (c : Config) (rollbacks : List Bool) : Outcome Simulation :=
  match c.validate with
  | .error e => .error e
  | .ok () =>
      let sim := c.simulation
      let cancelAcks := c.protocol.cancelAcksOnCoordinatorLoss
      let (deployment, stations) :=
        populate false cancelAcks (sim.nodes - sim.clientNodes)
          (populate true cancelAcks sim.clientNodes ({}, []))
      .ok {
        deployment, stations
        runs := rollbacks.map fun rollback => { rollback }
        failAfter := sim.failCoordinatorAfter }

def alive (s : Simulation) (node : NodeId) : Bool := s.deployment.cluster.alive node

def snapshot (s : Simulation) : Snapshot := s.deployment.cluster.snapshot

def setPhase (s : Simulation) (i : Nat) (phase : Phase) : Simulation :=
  { s with runs := s.runs.modify i fun r => { r with phase } }

/-- Fail the coordinator of this moment, if the number of ended transactions says so. -/
def failIfDue (s : Simulation) : Simulation :=
  if s.failAfter = some s.completed then
    match s.snapshot.coordinator? with
    | some c =>
        let (_, _, cluster) := s.deployment.cluster.depart .failed c.id
        { s with
          deployment := { s.deployment with cluster }
          failedCoordinator := some c.id }
    | none => s
  else s

def finish (s : Simulation) (i : Nat) (result : Result) : Simulation :=
  failIfDue { s.setPhase i (.done result) with completed := s.completed + 1 }

/-- The node that requests on behalf of transaction `i`: the live nodes take turns. -/
def requester? (s : Simulation) (i : Nat) : Option NodeId :=
  let live := s.stations.filter fun st => s.alive st.node.id
  (live[i % live.length]?).map fun st => st.node.id

/-- Draw the next transaction id of a node under a topology version. -/
def drawTx (s : Simulation) (node : NodeId) (version : UInt64) : Option TxId × Simulation :=
  match s.stations.find? fun st => st.node.id == node with
  | some st =>
      let (tx, txIds) := st.txIds.next version
      (some tx, { s with stations := s.stations.map fun st =>
        if st.node.id = node then { st with txIds } else st })
  | none => (none, s)

/-- An attempt of transaction `i` failed. A retryable error leads to another attempt, if one is
left; otherwise the transaction ends, as aborted if its requester is gone. -/
def attemptFailed (s : Simulation) (i : Nat) (requester : NodeId) (left : Nat) (cause : Error) :
    Simulation :=
  if Retry.again cause left then s.setPhase i (.pausing requester left)
  else if s.alive requester then s.finish i (.failed cause)
  else s.finish i .aborted

/-- Transaction `i` asks the elected coordinator for a counter, under a transaction id drawn for
this attempt; `left` more attempts are allowed after it. -/
def attempt (s : Simulation) (i : Nat) (requester : NodeId) (left : Nat) : Simulation :=
  let topology := s.snapshot
  match s.drawTx requester topology.version with
  | (none, s) => s
  | (some tx, s) =>
      if !s.alive requester then s.attemptFailed i requester left (.nodeLeft requester)
      else match topology.coordinator? with
        | none => s.attemptFailed i requester left (.internal "no server node to coordinate")
        | some c =>
            let (future, _, deployment) := s.deployment.requestTx requester c.id tx
            { s with deployment }.setPhase i (.requesting requester left c.id tx future)

/-- A counter arrived for transaction `i`: it rolls back or commits. -/
def counterArrived (s : Simulation) (i : Nat) (rollback : Bool) (requester coordinator : NodeId)
    (tx : TxId) (counter : Version) : Simulation :=
  if rollback then
    let (_, deployment) := s.deployment.ackRollback requester coordinator tx
    { s with deployment }.finish i (.finished coordinator counter .rolledBack)
  else
    let (future, _, deployment) := s.deployment.ackCommit requester coordinator tx
    { s with deployment }.setPhase i (.committing requester coordinator counter future)

def counterFuture? (s : Simulation) (node : NodeId) (future : FutureId) : Option (Future Version) :=
  (s.deployment.manager? node).bind fun m => m.counterWaits.future? future

def ackFuture? (s : Simulation) (node : NodeId) (future : FutureId) : Option (Future Unit) :=
  (s.deployment.manager? node).bind fun m => m.ackWaits.future? future

/-- Transaction `i` goes on as far as it can: it starts, takes the answer it waits for, or makes its
next attempt. -/
def advance (s : Simulation) (i : Nat) : Simulation :=
  match s.runs[i]? with
  | none => s
  | some run =>
      match run.phase with
      | .unstarted =>
          match s.requester? i with
          | some requester => s.attempt i requester (counterAttempts - 1)
          | none => s.finish i (.failed (.internal "no live nodes left"))
      | .requesting requester left coordinator tx future =>
          match s.counterFuture? requester future with
          | some (.resolved (.ok counter)) =>
              s.counterArrived i run.rollback requester coordinator tx counter
          | some (.resolved (.error cause)) => s.attemptFailed i requester left cause
          | _ => s
      | .pausing requester left => s.attempt i requester (left - 1)
      | .committing requester coordinator counter future =>
          match s.ackFuture? requester future with
          | some (.resolved (.ok ())) => s.finish i (.finished coordinator counter .committed)
          | some (.resolved (.error cause)) => s.finish i (.failed cause)
          | _ => s
      | .done _ => s

def dropFuture (s : Simulation) (node : NodeId) (drop : Manager → Manager) : Simulation :=
  match s.deployment.manager? node with
  | some m => { s with deployment := s.deployment.setManager (drop m) }
  | none => s

/-- The time that transaction `i` was ready to wait runs out: it gives up on the answer. -/
def giveUp (s : Simulation) (i : Nat) : Simulation :=
  match s.runs[i]?.map Run.phase with
  | some (.requesting requester left _ tx future) =>
      match s.counterFuture? requester future with
      | some .waiting =>
          let s := s.dropFuture requester fun m => m.dropCounterFuture future
          s.attemptFailed i requester left (.timeout s!"counter request for {tx.text}")
      | _ => s
  | some (.committing requester coordinator counter future) =>
      match s.ackFuture? requester future with
      | some .waiting =>
          let s := s.dropFuture requester fun m => m.dropAckFuture future
          if s.alive requester then s.finish i (.finished coordinator counter .ackTimedOut)
          else s.finish i .aborted
      | _ => s
  | _ => s

def dispatch (s : Simulation) (node : NodeId) : Simulation :=
  let (_, _, deployment) := s.deployment.dispatchOne node
  { s with deployment }

def listen (s : Simulation) (node : NodeId) : Simulation :=
  match s.stations.find? fun st => st.node.id == node with
  | some st =>
      let (_, heard, _, deployment) := s.deployment.listenOne node st.heard
      { s with
        deployment
        stations := s.stations.map fun st => if st.node.id = node then { st with heard } else st }
  | none => s

def step (s : Simulation) : Move → Simulation
  | .advance i => s.advance i
  | .giveUp i => s.giveUp i
  | .dispatch node => s.dispatch node
  | .listen node => s.listen node

def play (s : Simulation) (moves : List Move) : Simulation := moves.foldl step s

/-- Have all transactions ended? -/
def isOver (s : Simulation) : Bool :=
  s.runs.all fun r => match r.phase with
    | .done _ => true
    | _ => false

end Simulation
end CounterCoordinator
