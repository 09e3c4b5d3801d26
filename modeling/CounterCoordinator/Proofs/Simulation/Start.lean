import CounterCoordinator.Proofs.Deployment.SendOrder
import CounterCoordinator.Proofs.Simulation.Crew

/-!
# The start of a simulation

A simulation starts with the nodes of its settings on a cluster where nothing else happened yet.
The nodes are numbered in the order in which they joined, and their numbers are their identities.
-/
namespace CounterCoordinator

theorem NodeId.toNat_ofNat {n : Nat} (h : n < 2 ^ 128) : (NodeId.ofNat n).toNat = n := by
  rw [NodeId.toNat, NodeId.ofNat, BitVec.toNat_ofNat, Nat.mod_eq_of_lt h]

/-- Settings that are accepted, with a decision for each transaction. Nodes are numbered by machine
words, and so are requests, at most six for a transaction. A run keeps several words for each
transaction in memory, so that no machine has room for more transactions. -/
structure Config.Accepts (c : Config) (rollbacks : List Bool) : Prop where
  valid : c.validate = .ok ()
  decided : rollbacks.length = c.simulation.transactions
  nodes : c.simulation.nodes < UInt64.size
  requests : 6 * c.simulation.transactions < 2 ^ 63

namespace SimulationConfig

/-- What makes settings free of faults, the rollback ratio aside. -/
theorem of_fault?_eq_none {s : SimulationConfig} (h : s.fault? = none) :
    s.clientNodes < s.nodes ∧
      ∀ count, s.failCoordinatorAfter = some count → 1 ≤ count ∧ count ≤ s.transactions := by
  unfold fault? at h
  split at h
  · cases h
  · split at h
    · cases h
    · rename_i hservers
      split at h
      · cases h
      · split at h
        · cases h
        · rename_i hrange
          refine ⟨Nat.not_le.mp hservers, ?_⟩
          intro count hcount
          simpa [failureInRange, hcount, Nat.one_le_iff_ne_zero] using hrange

end SimulationConfig

namespace Config.Accepts
variable {c : Config} {rollbacks : List Bool}

theorem fault? (ha : c.Accepts rollbacks) : c.simulation.fault? = none := by
  have hvalid := ha.valid
  unfold validate at hvalid
  split at hvalid
  · cases hvalid
  · assumption

end Config.Accepts

namespace Simulation

/-- The node that joins after `i` others, when the first `clients` nodes are clients. -/
def recruit (clients i : Nat) : ClusterNode :=
  ⟨.ofNat (i + 1), UInt64.ofNat (i + 1), decide (i < clients)⟩

def recruits (clients n : Nat) : List ClusterNode :=
  (List.range n).map (recruit clients)

/-- A deployment whose nodes have joined and did nothing else. -/
def gathered (nodes : List ClusterNode) (cancelAcks : Bool) : Deployment where
  cluster := {
    version := UInt64.ofNat nodes.length
    lastOrder := UInt64.ofNat nodes.length
    members := nodes
    inboxes := nodes.reverse.map fun n => { owner := n.id } }
  managers := nodes.map fun n => { self := n.id, cancelAcks }

/-- The stations of nodes that did nothing yet. -/
def posts (nodes : List ClusterNode) : List Station :=
  nodes.map fun n => ⟨n, ⟨n.order, 0⟩, 0⟩

variable {clients n : Nat} {cancelAcks : Bool}

theorem recruits_succ (clients n : Nat) :
    recruits clients (n + 1) = recruits clients n ++ [recruit clients n] := by
  rw [recruits, List.range_succ, List.map_append]
  rfl

@[simp] theorem length_recruits (clients n : Nat) : (recruits clients n).length = n := by
  simp [recruits]

theorem mem_recruits {node : ClusterNode} :
    node ∈ recruits clients n ↔ ∃ i < n, recruit clients i = node := by
  simp [recruits]

theorem toNat_order {i : Nat} (h : i + 1 < UInt64.size) :
    (recruit clients i).order.toNat = i + 1 :=
  UInt64.toNat_ofNat_of_lt' h

theorem nodup_ids (clients : Nat) (hn : n < UInt64.size) :
    ((recruits clients n).map ClusterNode.id).Nodup := by
  rw [recruits, List.map_map]
  refine List.Nodup.map_on ?_ List.nodup_range
  intro i hi j hj hid
  have hi := List.mem_range.mp hi
  have hj := List.mem_range.mp hj
  have hsame := congrArg NodeId.toNat hid
  have hwide : UInt64.size < 2 ^ 128 := by decide
  simp only [Function.comp_apply, recruit] at hsame
  rw [NodeId.toNat_ofNat (by omega), NodeId.toNat_ofNat (by omega)] at hsame
  omega

theorem crew (hclients : clients < n) (hn : n < UInt64.size) :
    Crew (recruits clients n) clients (recruit clients clients) := by
  have orders : ∀ i < n, (recruit clients i).order.toNat = i + 1 := fun i hi =>
    toNat_order (by omega)
  constructor
  · rw [length_recruits, List.range'_eq_map_range, recruits, List.map_map]
    apply List.map_congr_left
    intro i hi
    rw [Function.comp_apply, orders i (List.mem_range.mp hi), Nat.add_comm]
  · exact nodup_ids clients hn
  · intro node hnode
    obtain ⟨i, hi, rfl⟩ := mem_recruits.mp hnode
    rw [orders i hi]
    rfl
  · exact mem_recruits.mpr ⟨clients, hclients, rfl⟩
  · exact orders clients hclients

theorem join_gathered (clients : Nat) (hn : n < UInt64.size) (cancelAcks : Bool) :
    (gathered (recruits clients n) cancelAcks).cluster.freshId = (recruit clients n).id ∧
      ((gathered (recruits clients n) cancelAcks).joinAs (recruit clients n).id
        (recruit clients n).client cancelAcks).1 = recruit clients n ∧
      ((gathered (recruits clients n) cancelAcks).joinAs (recruit clients n).id
        (recruit clients n).client cancelAcks).2.2 =
          gathered (recruits clients (n + 1)) cancelAcks := by
  have hnext : UInt64.ofNat n + 1 = UInt64.ofNat (n + 1) := (UInt64.ofNat_add n 1).symm
  have hlast : (UInt64.ofNat n).toNat = n := UInt64.toNat_ofNat_of_lt' hn
  refine ⟨?_, ?_, ?_⟩
  · simp only [Cluster.freshId, gathered, length_recruits, hlast]
    rfl
  · simp only [Deployment.joinAs, Cluster.join, gathered, length_recruits, hnext]
    rfl
  · simp only [Deployment.joinAs, Cluster.join, gathered, length_recruits, hnext]
    rw [recruits_succ, List.reverse_append, List.map_append, List.map_append]
    rfl

theorem populate_gathered (clients : Nat) (client cancelAcks : Bool) (more : Nat)
    (hkind : ∀ i, n ≤ i → i < n + more → decide (i < clients) = client)
    (hn : n + more ≤ UInt64.size) :
    populate client cancelAcks more
        (gathered (recruits clients n) cancelAcks, posts (recruits clients n)) =
      (gathered (recruits clients (n + more)) cancelAcks, posts (recruits clients (n + more))) := by
  induction more generalizing n with
  | zero => rfl
  | succ more ih =>
    obtain ⟨hid, hnode, hdeployment⟩ := join_gathered clients (n := n) (by omega) cancelAcks
    have hclient : (recruit clients n).client = client := hkind n (Nat.le_refl n) (by omega)
    rw [hclient] at hnode hdeployment
    have hposts : posts (recruits clients n) ++
        [⟨recruit clients n, ⟨(recruit clients n).order, 0⟩, 0⟩] =
          posts (recruits clients (n + 1)) := by
      rw [recruits_succ, posts, posts, List.map_append]
      rfl
    have hrest := ih (n := n + 1) (fun i hi hlt => hkind i (by omega) (by omega)) (by omega)
    rw [Nat.add_assoc, Nat.add_comm 1] at hrest
    simp only [populate, Deployment.join, hid, hnode, hdeployment, hposts]
    exact hrest

def fresh (c : Config) (rollbacks : List Bool) : Simulation where
  deployment := gathered (recruits c.simulation.clientNodes c.simulation.nodes)
    c.protocol.cancelAcksOnCoordinatorLoss
  stations := posts (recruits c.simulation.clientNodes c.simulation.nodes)
  runs := rollbacks.map fun rollback => { rollback }
  failAfter := c.simulation.failCoordinatorAfter

variable {c : Config} {rollbacks : List Bool}

theorem start_eq (ha : c.Accepts rollbacks) : start c rollbacks = .ok (fresh c rollbacks) := by
  obtain ⟨hservers, -⟩ := SimulationConfig.of_fault?_eq_none ha.fault?
  have hnodes := ha.nodes
  have hclients := populate_gathered (n := 0) c.simulation.clientNodes true
    c.protocol.cancelAcksOnCoordinatorLoss c.simulation.clientNodes
    (fun i _ hi => decide_eq_true (by omega)) (by omega)
  have hservers' := populate_gathered (n := c.simulation.clientNodes) c.simulation.clientNodes
    false c.protocol.cancelAcksOnCoordinatorLoss
    (c.simulation.nodes - c.simulation.clientNodes)
    (fun i hi _ => decide_eq_false (by omega)) (by omega)
  rw [Nat.zero_add] at hclients
  rw [Nat.add_sub_cancel' (by omega)] at hservers'
  have hempty : (({}, []) : Deployment × List Station) =
      (gathered (recruits c.simulation.clientNodes 0) c.protocol.cancelAcksOnCoordinatorLoss,
        posts (recruits c.simulation.clientNodes 0)) := rfl
  simp only [start, ha.valid, hempty, hclients, hservers']
  rfl

theorem staffed_fresh (ha : c.Accepts rollbacks) :
    (fresh c rollbacks).Staffed (recruits c.simulation.clientNodes c.simulation.nodes)
      (recruit c.simulation.clientNodes c.simulation.clientNodes) := by
  have hstruck : (fresh c rollbacks).struck = false := by
    obtain ⟨-, hrange⟩ := SimulationConfig.of_fault?_eq_none ha.fault?
    cases hcount : c.simulation.failCoordinatorAfter with
    | none => simp [struck, fresh, hcount]
    | some count =>
      have hpositive : count ≠ 0 := Nat.one_le_iff_ne_zero.mp (hrange count hcount).1
      simpa [struck, fresh, hcount] using hpositive
  constructor
  · simp [fresh, posts, Function.comp_def]
  · simp [fresh, gathered, Nat.mod_eq_of_lt ha.nodes]
  · rw [hstruck]
    rfl
  · simp [fresh, gathered, Deployment.slot]
  · simp [fresh, gathered]
  · rw [hstruck]
    rfl
  · rw [hstruck]
    rfl
  · simp [fresh, Phase.ended, Function.comp_def]

def enlist (clients : Nat) (cancelAcks : Bool) (n : Nat) : List Deployment.Move :=
  (recruits clients n).map fun node => .join node.id node.client cancelAcks

theorem journal_enlist (clients : Nat) (cancelAcks : Bool) (hn : n ≤ UInt64.size) :
    (Journal.ofMoves (enlist clients cancelAcks n)).deployment =
        gathered (recruits clients n) cancelAcks ∧
      (Journal.ofMoves (enlist clients cancelAcks n)).issues = [] := by
  induction n with
  | zero => exact ⟨rfl, rfl⟩
  | succ n ih =>
    obtain ⟨hdeployment, hissues⟩ := ih (by omega)
    obtain ⟨-, -, hjoin⟩ := join_gathered clients (n := n) (by omega) cancelAcks
    have hmoves : enlist clients cancelAcks (n + 1) = enlist clients cancelAcks n ++
        [.join (recruit clients n).id (recruit clients n).client cancelAcks] := by
      rw [enlist, recruits_succ, List.map_append]
      rfl
    rw [hmoves, Journal.ofMoves_concat]
    refine ⟨?_, (List.append_nil _).trans hissues⟩
    rw [← hjoin, ← hdeployment]
    rfl

theorem kept_enlist (hclients : clients < n) (hn : n < UInt64.size) (cancelAcks : Bool) :
    (Journal.ofMoves (enlist clients cancelAcks n)).Kept := by
  have hjoins : (enlist clients cancelAcks n).filterMap Deployment.Move.joins? =
      (recruits clients n).map ClusterNode.id := by
    rw [enlist, List.filterMap_map]
    exact List.filterMap_eq_map (f := ClusterNode.id) ▸ rfl
  refine Journal.kept_of_regular ⟨?_, ?_⟩
  · rw [hjoins]
    exact (crew hclients hn).ids
  · simp [enlist, List.countP_map, Deployment.Move.asks, Function.comp_def]

end Simulation
end CounterCoordinator
