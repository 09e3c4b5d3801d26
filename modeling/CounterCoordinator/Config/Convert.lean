import CounterCoordinator.Config
import CounterCoordinator.Config.Tree
import CounterCoordinator.Decimal.Read
import CounterCoordinator.Text.Case

/-!
# Settings from a tree

A setting takes values of other types where they have a plain meaning: a count takes truth values,
floats and texts, a text takes numbers and truth values, and so on. Settings of one group stand in a
table by their names or in a list by their order. Parts that are no setting are ignored; a missing
setting keeps its default.
-/
namespace CounterCoordinator.Config

/-- The texts that stand for a truth value, in any case. -/
def truth? (s : String) : Option Bool :=
  let word := Text.lower s
  if ["true", "on", "yes"].contains word then some true
  else if ["false", "off", "no"].contains word then some false
  else none

/-- Round to the nearest integer, halves away from zero; what is out of range goes to its end. -/
def roundToWord (x : Float) : Nat := x.round.toUInt64.toNat

/-- A count written in digits, with an optional plus in front. -/
def count? (s : String) : Option Nat :=
  let digits := match s.toList with
    | '+' :: ds => ds
    | ds => ds
  (Text.value? 10 digits).filter (· < UInt64.size)

def toNat? : Tree → Option Nat
  | .integer n => if 0 ≤ n then some n.toNat else none
  | .boolean b => some b.toNat
  | .float x => some (roundToWord x)
  | .text s =>
      match truth? s with
      | some b => some b.toNat
      | none => count? s
  | .nothing | .list _ | .table _ => none

def toFloat? : Tree → Option Float
  | .float x => some x
  | .integer n => some (Float.ofInt n)
  | .boolean b => some (if b then 1.0 else 0.0)
  | .text s =>
      match truth? s with
      | some b => some (if b then 1.0 else 0.0)
      | none => Decimal.number? s.toList
  | .nothing | .list _ | .table _ => none

def toBool? : Tree → Option Bool
  | .boolean b => some b
  | .integer n => some (n != 0)
  | .float x => some (x != 0.0)
  | .text s => if s = "1" then some true else if s = "0" then some false else truth? s
  | .nothing | .list _ | .table _ => none

def toText? : Tree → Option String
  | .text s => some s
  | .boolean b => some (toString b)
  | .integer n => some (toString n)
  | .float x => some (Decimal.Layout.plain.text x)
  | .nothing | .list _ | .table _ => none

/-- A count that may be left out. -/
def toOptionalNat? : Tree → Option (Option Nat)
  | .nothing => some none
  | t => (toNat? t).map some

/-- The part of a group that a setting is read from. -/
def part? (t : Tree) (place : Nat) (key : String) : Option Tree :=
  match t with
  | .table es => es.lookup key
  | .list items => items[place]?
  | _ => none

/-- A setting of a group, or its default. -/
def setting {α : Type} (t : Tree) (place : Nat) (key : String) (fallback : α)
    (convert : Tree → Option α) : Option α :=
  match part? t place key with
  | some v => convert v
  | none => some fallback

/-- A value that has to be a group of settings. -/
def asGroup {α : Type} (read : Tree → Option α) (t : Tree) : Option α :=
  match t with
  | .table _ | .list _ => read t
  | _ => none

def protocolOfTree? (t : Tree) : Option ProtocolConfig := do
  let d : ProtocolConfig := {}
  return ⟨← setting t 0 "cancel_acks_on_coordinator_loss" d.cancelAcksOnCoordinatorLoss toBool?⟩

def simulationOfTree? (t : Tree) : Option SimulationConfig := do
  let d : SimulationConfig := {}
  return ⟨← setting t 0 "nodes" d.nodes toNat?, ← setting t 1 "client_nodes" d.clientNodes toNat?,
    ← setting t 2 "transactions" d.transactions toNat?,
    ← setting t 3 "rollback_ratio" d.rollbackRatio toFloat?,
    ← setting t 4 "fail_coordinator_after" d.failCoordinatorAfter toOptionalNat?⟩

/-- The settings of a tree. -/
def ofTree? (t : Tree) : Option Config := do
  let d : Config := {}
  return ⟨← setting t 0 "log_level" d.logLevel toText?,
    ← setting t 1 "protocol" d.protocol (asGroup protocolOfTree?),
    ← setting t 2 "simulation" d.simulation (asGroup simulationOfTree?)⟩

end CounterCoordinator.Config
