import CounterCoordinator.Decimal.Layout
import CounterCoordinator.Error

/-!
# Settings

Settings of the program: the logging level, the protocol and the simulation. `Config.validate`
refuses settings that no simulation can run with and names the first fault it finds.
-/
namespace CounterCoordinator

structure ProtocolConfig where
  /-- Complete waiting commit acknowledgements when their coordinator departs. Otherwise they wait
  until the caller gives up. -/
  cancelAcksOnCoordinatorLoss : Bool := true
deriving DecidableEq, Repr

structure SimulationConfig where
  nodes : Nat := 3
  /-- How many of the nodes join as clients. -/
  clientNodes : Nat := 0
  transactions : Nat := 1000
  /-- The fraction of transactions that roll back. -/
  rollbackRatio : Float := 0.1
  /-- Fail the coordinator after this many transactions. -/
  failCoordinatorAfter : Option Nat := none
deriving Repr

structure Config where
  logLevel : String := "info"
  protocol : ProtocolConfig := {}
  simulation : SimulationConfig := {}
deriving Repr

namespace SimulationConfig

/-- Why no simulation can run with some settings. -/
inductive Fault where
  | noNodes
  | noServers (clients nodes : Nat)
  | ratioOutOfRange (ratio : String)
  | failureOutOfRange (transactions after : Nat)
deriving DecidableEq, Repr

def Fault.message : Fault → String
  | noNodes => "simulation.nodes must be at least 1"
  | noServers clients nodes =>
      s!"simulation.client_nodes ({clients}) must leave at least one server node out of {nodes}"
  | ratioOutOfRange ratio => s!"simulation.rollback_ratio must be within [0, 1], got {ratio}"
  | failureOutOfRange transactions after =>
      s!"simulation.fail_coordinator_after must be within [1, {transactions}], got {after}"

/-- Does the failure fall on a transaction that is run? -/
def failureInRange (s : SimulationConfig) : Bool :=
  match s.failCoordinatorAfter with
  | none => true
  | some after => decide (1 ≤ after ∧ after ≤ s.transactions)

/-- The first fault of some settings, if they have one. -/
def fault? (s : SimulationConfig) : Option Fault :=
  if s.nodes = 0 then some .noNodes
  else if s.nodes ≤ s.clientNodes then some (.noServers s.clientNodes s.nodes)
  else if !(decide (0.0 ≤ s.rollbackRatio) && decide (s.rollbackRatio ≤ 1.0)) then
    some (.ratioOutOfRange (Decimal.Layout.plain.text s.rollbackRatio))
  else if !s.failureInRange then
    some (.failureOutOfRange s.transactions (s.failCoordinatorAfter.getD 0))
  else none

end SimulationConfig

def Config.validate (c : Config) : Outcome Unit :=
  match c.simulation.fault? with
  | some fault => .error (.invalidConfig fault.message)
  | none => .ok ()

end CounterCoordinator
