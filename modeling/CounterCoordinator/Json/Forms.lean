import CounterCoordinator.Config
import CounterCoordinator.Json.Field
import CounterCoordinator.Json.Writer
import CounterCoordinator.Message
import CounterCoordinator.Topology

/-!
# JSON forms of the domain

How identities, nodes, snapshots, messages and settings are written in JSON and read back. A
snapshot is taken as it is written: its nodes are not put into canonical order.
-/
namespace CounterCoordinator

open Json

namespace TxId

def fieldNames : List String := ["topology_version", "order", "node_order"]

def ofJson? : Decoder TxId := fun v => do
  match ← fields? fieldNames v with
  | [version, order, node] =>
      return ⟨← required word? version, ← required word? order, ← required word? node⟩
  | _ => none

def toJson (t : TxId) : Json :=
  ofMembers [("topology_version", ofNat t.topologyVersion.toNat), ("order", ofNat t.order.toNat),
    ("node_order", ofNat t.nodeOrder.toNat)]

end TxId

namespace NodeId

def ofJson? : Decoder NodeId := fun v => (string? v).bind ofText?

def toJson (id : NodeId) : Json := ofString id.text

end NodeId

namespace ClusterNode

def ofJson? : Decoder ClusterNode := fun v => do
  match ← fields? ["id", "order", "client"] v with
  | [id, order, client] =>
      return ⟨← required NodeId.ofJson? id, ← required word? order, ← required bool? client⟩
  | _ => none

def toJson (n : ClusterNode) : Json :=
  ofMembers [("id", n.id.toJson), ("order", ofNat n.order.toNat), ("client", .bool n.client)]

end ClusterNode

namespace Snapshot

def ofJson? : Decoder Snapshot := fun v => do
  match ← fields? ["version", "nodes"] v with
  | [version, nodes] =>
      return ⟨← required word? version, ← required (list? ClusterNode.ofJson?) nodes⟩
  | _ => none

def toJson (s : Snapshot) : Json :=
  ofMembers [("version", ofNat s.version.toNat), ("nodes", .array (s.nodes.map ClusterNode.toJson))]

end Snapshot

namespace Departure

def name : Departure → String
  | left => "node_left"
  | failed => "node_failed"

def ofName? (s : String) : Option Departure :=
  [left, failed].find? fun d => d.name == s

/-- A name, alone or as the tag of a null. -/
def ofJson? : Decoder Departure
  | .string text => text.bind ofName?
  | v => do
      match ← tagged? v with
      | (name, .null) => ofName? name
      | _ => none

def toJson (d : Departure) : Json := ofString d.name

end Departure

namespace Message

/-- The fields of a message of the named kind. -/
def ofFields? (kind : String) (v : Json) : Option Message :=
  match kind with
  | "TxCounterRequest" => do
      match ← fields? ["future_id", "tx_id"] v with
      | [future, tx] =>
          return .txCounterRequest (← required word? future) (← required TxId.ofJson? tx)
      | _ => none
  | "QueryCounterRequest" => do
      match ← fields? ["future_id"] v with
      | [future] => return .queryCounterRequest (← required word? future)
      | _ => none
  | "CounterResponse" => do
      match ← fields? ["future_id", "counter"] v with
      | [future, counter] =>
          return .counterResponse (← required word? future) (← required counter? counter)
      | _ => none
  | "TxAckRequest" => do
      match ← fields? ["future_id", "tx_id", "skip_response"] v with
      | [future, tx, skip] =>
          return .txAckRequest (← required word? future) (← required TxId.ofJson? tx)
            (← required bool? skip)
      | _ => none
  | "TxAckResponse" => do
      match ← fields? ["future_id"] v with
      | [future] => return .txAckResponse (← required word? future)
      | _ => none
  | "QueryAckRequest" => do
      match ← fields? ["counter"] v with
      | [counter] => return .queryAckRequest (← required counter? counter)
      | _ => none
  | _ => none

/-- The fields, tagged with the kind. -/
def ofJson? : Decoder Message := fun v => do
  let (kind, content) ← tagged? v
  ofFields? kind content

def fieldsToJson : Message → Json
  | txCounterRequest future tx =>
      ofMembers [("future_id", ofNat future.toNat), ("tx_id", tx.toJson)]
  | queryCounterRequest future => ofMembers [("future_id", ofNat future.toNat)]
  | counterResponse future counter =>
      ofMembers [("future_id", ofNat future.toNat), ("counter", ofInt counter.toInt)]
  | txAckRequest future tx skip =>
      ofMembers [("future_id", ofNat future.toNat), ("tx_id", tx.toJson),
        ("skip_response", .bool skip)]
  | txAckResponse future => ofMembers [("future_id", ofNat future.toNat)]
  | queryAckRequest counter => ofMembers [("counter", ofInt counter.toInt)]

def toJson (m : Message) : Json := ofMembers [(m.kind, m.fieldsToJson)]

end Message

namespace ProtocolConfig

def ofJson? : Decoder ProtocolConfig := fun v => do
  let d : ProtocolConfig := {}
  match ← fields? ["cancel_acks_on_coordinator_loss"] v with
  | [cancel] => return ⟨← withDefault d.cancelAcksOnCoordinatorLoss bool? cancel⟩
  | _ => none

def toJson (c : ProtocolConfig) : Json :=
  ofMembers [("cancel_acks_on_coordinator_loss", .bool c.cancelAcksOnCoordinatorLoss)]

end ProtocolConfig

namespace SimulationConfig

def fieldNames : List String :=
  ["nodes", "client_nodes", "transactions", "rollback_ratio", "fail_coordinator_after"]

def ofJson? : Decoder SimulationConfig := fun v => do
  let d : SimulationConfig := {}
  match ← fields? fieldNames v with
  | [nodes, clients, transactions, ratio, after] =>
      return ⟨← withDefault d.nodes nat? nodes, ← withDefault d.clientNodes nat? clients,
        ← withDefault d.transactions nat? transactions, ← withDefault d.rollbackRatio float? ratio,
        ← withDefault d.failCoordinatorAfter (nullable nat?) after⟩
  | _ => none

/-- The failure point is left out when there is none. -/
def toJson (c : SimulationConfig) : Json :=
  let after := c.failCoordinatorAfter.toList.map fun n => ("fail_coordinator_after", ofNat n)
  ofMembers ([("nodes", ofNat c.nodes), ("client_nodes", ofNat c.clientNodes),
    ("transactions", ofNat c.transactions), ("rollback_ratio", ofFloat c.rollbackRatio)] ++ after)

end SimulationConfig

namespace Config

def ofJson? : Decoder Config := fun v => do
  let d : Config := {}
  match ← fields? ["log_level", "protocol", "simulation"] v with
  | [level, protocol, simulation] =>
      return ⟨← withDefault d.logLevel string? level,
        ← withDefault d.protocol ProtocolConfig.ofJson? protocol,
        ← withDefault d.simulation SimulationConfig.ofJson? simulation⟩
  | _ => none

def toJson (c : Config) : Json :=
  ofMembers [("log_level", ofString c.logLevel), ("protocol", c.protocol.toJson),
    ("simulation", c.simulation.toJson)]

end Config
end CounterCoordinator
