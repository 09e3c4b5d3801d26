import CounterCoordinator.Simulation.Report

/-!
# Running a simulation

The schedule goes in rounds. In a round every dispatcher takes what lies in its inbox, every
listener reads the departures, and every transaction goes on whose answer has come. Pauses end only
when nothing else is left to do, and waits are given up only when no pause is left either, as if
messages took no time, pauses little and waits long.
-/
namespace CounterCoordinator.Simulation

/-- Which of `count` transactions roll back, when a fraction `ratio` of them is to: those at which
the multiples of the ratio reach the next whole number. -/
def spread (ratio : Float) (count : Nat) : List Bool :=
  (List.range count).map fun i =>
    decide ((Float.ofNat i * ratio).floor < (Float.ofNat (i + 1) * ratio).floor)

/-- What a round has to do: a move for each envelope that lies in an inbox and for each departure
that is not yet read. -/
def traffic (s : Simulation) : List Move :=
  let d := s.deployment
  let dispatches := s.stations.flatMap fun st =>
    let queued := (d.cluster.inbox? st.node.id).elim 0 fun b => b.queue.length
    List.replicate queued (Move.dispatch st.node.id)
  let listens := s.stations.flatMap fun st =>
    List.replicate (d.cluster.events.sent.length - st.heard) (Move.listen st.node.id)
  dispatches ++ listens

def isResolved {α : Type} : Option (Future α) → Bool
  | some (.resolved _) => true
  | _ => false

/-- Can a transaction go on without waiting for the clock? -/
def canAdvance (s : Simulation) (phase : Phase) : Bool :=
  match phase with
  | .unstarted => true
  | .requesting requester _ _ _ future => isResolved (s.counterFuture? requester future)
  | .committing requester _ _ future => isResolved (s.ackFuture? requester future)
  | .pausing .. | .done _ => false

/-- A move for each transaction whose phase qualifies. -/
def movesWhere (s : Simulation) (qualifies : Phase → Bool) (move : Nat → Move) : List Move :=
  (s.runs.zipIdx.filter fun (r, _) => qualifies r.phase).map fun (_, i) => move i

def isPausing : Phase → Bool
  | .pausing .. => true
  | _ => false

def isWaiting : Phase → Bool
  | .requesting .. | .committing .. => true
  | _ => false

/-- The moves of the next round; none when everything is done. -/
def round (s : Simulation) : List Move :=
  let now := s.traffic ++ s.movesWhere s.canAdvance .advance
  if !now.isEmpty then now
  else
    let pauses := s.movesWhere isPausing .advance
    if !pauses.isEmpty then pauses else s.movesWhere isWaiting .giveUp

/-- Play rounds until nothing is left to do, at most `fuel` of them. -/
def settleFor : Nat → Simulation → Simulation
  | 0, s => s
  | fuel + 1, s =>
      let moves := s.round
      if moves.isEmpty then s else settleFor fuel (s.play moves)

/-- Run all transactions to their end. Every round takes an envelope, reads a departure or moves a
transaction on, and the attempts of a transaction bound how often each of these can happen. -/
def run (s : Simulation) : Simulation :=
  settleFor (100 * (s.runs.length + s.stations.length + 1)) s

/-- Start a simulation under the settings and run it, rollbacks spread evenly. -/
def runConfig (c : Config) : Outcome Simulation :=
  (start c (spread c.simulation.rollbackRatio c.simulation.transactions)).map run

end CounterCoordinator.Simulation
