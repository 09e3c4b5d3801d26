import CounterCoordinator.Simulation

/-!
# Reports of simulations

A report counts how the transactions ended and lists the counters that each coordinator assigned to
those that got one.
-/
namespace CounterCoordinator.Simulation

structure Report where
  committed : Nat := 0
  rolledBack : Nat := 0
  ackTimeouts : Nat := 0
  aborted : Nat := 0
  failed : Nat := 0
  /-- The counters by the coordinator that assigned them. -/
  counters : List (NodeId × List Version) := []
  failedCoordinator : Option NodeId := none
deriving DecidableEq, Repr

namespace Report

def total (r : Report) : Nat :=
  r.committed + r.rolledBack + r.ackTimeouts + r.aborted + r.failed

def enter (coordinator : NodeId) (counter : Version) :
    List (NodeId × List Version) → List (NodeId × List Version)
  | [] => [(coordinator, [counter])]
  | (c, counters) :: rest =>
      if c = coordinator then (c, counters ++ [counter]) :: rest
      else (c, counters) :: enter coordinator counter rest

def addEnding (r : Report) : Ending → Report
  | .committed => { r with committed := r.committed + 1 }
  | .rolledBack => { r with rolledBack := r.rolledBack + 1 }
  | .ackTimedOut => { r with ackTimeouts := r.ackTimeouts + 1 }

def add (r : Report) : Result → Report
  | .aborted => { r with aborted := r.aborted + 1 }
  | .failed _ => { r with failed := r.failed + 1 }
  | .finished coordinator counter ending =>
      { r with counters := enter coordinator counter r.counters }.addEnding ending

/-- The greatest of some counters; zero if there are none. -/
def greatest (counters : List Version) : Version :=
  match counters with
  | [] => 0
  | c :: cs => cs.foldl max c

end Report

/-- The results of the transactions that have ended, in their order. -/
def results (s : Simulation) : List Result :=
  s.runs.filterMap fun r => match r.phase with
    | .done result => some result
    | _ => none

def report (s : Simulation) : Report :=
  s.results.foldl Report.add { failedCoordinator := s.failedCoordinator }

end CounterCoordinator.Simulation
