import CounterCoordinator.Cluster
import CounterCoordinator.Proofs.Fresh
import CounterCoordinator.Proofs.Topology.Election

/-!
# Enrolment

Everybody who ever joined a cluster, in the order of joining: the k-th of them has join order k, no
two share an identity, and the members are those that have not departed. A server that joined before
all other live servers keeps this place until it departs, and as long as it is a member it is the
one that is elected.
-/
namespace CounterCoordinator

namespace Cluster
variable {c : Cluster} {joined : List ClusterNode}

structure Enrolled (c : Cluster) (joined : List ClusterNode) : Prop where
  count : c.lastOrder.toNat = joined.length
  orders : joined.map (fun n => n.order.toNat) = List.range' 1 joined.length
  ids : (joined.map ClusterNode.id).Nodup
  members : c.members.Sublist joined

/-- The node is a server, and joined before every other live server. -/
def Heads (c : Cluster) (joined : List ClusterNode) (n : ClusterNode) : Prop :=
  n ∈ joined ∧ n.client = false ∧ ∀ s ∈ c.members, s.client = false → n.order ≤ s.order

theorem Enrolled.new : Enrolled {} [] := by
  constructor <;> simp

namespace Enrolled

theorem ascending (he : c.Enrolled joined) :
    joined.Pairwise fun a b => a.order.toNat < b.order.toNat := by
  rw [← List.pairwise_map (f := fun n : ClusterNode => n.order.toNat), he.orders]
  exact List.pairwise_lt_range'

theorem order_injective (he : c.Enrolled joined) {a b : ClusterNode} (ha : a ∈ joined)
    (hb : b ∈ joined) (horder : a.order = b.order) : a = b := by
  have hnodup : (joined.map fun n => n.order.toNat).Nodup := he.orders ▸ List.nodup_range'
  exact List.inj_on_of_nodup_map hnodup ha hb (congrArg UInt64.toNat horder)

theorem id_injective (he : c.Enrolled joined) {a b : ClusterNode} (ha : a ∈ joined)
    (hb : b ∈ joined) (hid : a.id = b.id) : a = b :=
  List.inj_on_of_nodup_map he.ids ha hb hid

theorem toNat_order_le (he : c.Enrolled joined) {n : ClusterNode} (hn : n ∈ joined) :
    n.order.toNat ≤ c.lastOrder.toNat := by
  have horder := List.mem_map_of_mem (f := fun n : ClusterNode => n.order.toNat) hn
  rw [he.orders, List.mem_range'_1] at horder
  rw [he.count]
  omega

theorem toNat_next (he : c.Enrolled joined) (hroom : joined.length + 1 < UInt64.size) :
    (c.lastOrder + 1).toNat = c.lastOrder.toNat + 1 :=
  toNat_add_of_lt (by rw [he.count]; exact hroom)

theorem lt_next (he : c.Enrolled joined) (hroom : joined.length + 1 < UInt64.size)
    {n : ClusterNode} (hn : n ∈ joined) : n.order < c.lastOrder + 1 := by
  rw [UInt64.lt_iff_toNat_lt, he.toNat_next hroom]
  exact Nat.lt_succ_of_le (he.toNat_order_le hn)

theorem join (he : c.Enrolled joined) {id : NodeId} (hid : ∀ n ∈ joined, n.id ≠ id)
    (hroom : joined.length + 1 < UInt64.size) (client : Bool) :
    (c.join id client).2.2.Enrolled (joined ++ [(c.join id client).1]) := by
  have hnext := he.toNat_next hroom
  constructor
  · change (c.lastOrder + 1).toNat = _
    rw [hnext, he.count, List.length_append, List.length_singleton]
  · rw [List.map_append, List.length_append, List.length_singleton, List.range'_1_concat, he.orders,
      ← he.count, Nat.add_comm 1, ← hnext]
    rfl
  · exact nodup_map_concat he.ids hid
  · exact he.members.append (List.Sublist.refl _)

theorem of_sublist (he : c.Enrolled joined) {c' : Cluster} (horder : c'.lastOrder = c.lastOrder)
    (hmembers : c'.members.Sublist c.members) : c'.Enrolled joined :=
  ⟨horder ▸ he.count, he.orders, he.ids, hmembers.trans he.members⟩

end Enrolled

theorem alive_iff {c : Cluster} {node : NodeId} :
    c.alive node ↔ ∃ n ∈ c.members, n.id = node := by
  simp [alive]

theorem depart_members (c : Cluster) (kind : Departure) (node : NodeId) :
    (c.depart kind node).2.2.members = c.members.filter fun m => m.id != node := by
  unfold depart
  split
  · rfl
  · rename_i hgone
    refine (List.filter_eq_self.mpr ?_).symm
    intro m hm
    have hne : m.id ≠ node := fun hid => hgone (List.any_eq_true.mpr ⟨m, hm, by simp [hid]⟩)
    simpa using hne

theorem depart_lastOrder (c : Cluster) (kind : Departure) (node : NodeId) :
    (c.depart kind node).2.2.lastOrder = c.lastOrder := by
  unfold depart
  split <;> rfl

theorem depart_inboxes (c : Cluster) (kind : Departure) (node : NodeId) :
    (c.depart kind node).2.2.inboxes = c.inboxes := by
  unfold depart
  split <;> rfl

theorem Enrolled.depart (he : c.Enrolled joined) (kind : Departure) (node : NodeId) :
    (c.depart kind node).2.2.Enrolled joined := by
  refine he.of_sublist (c.depart_lastOrder kind node) ?_
  rw [depart_members]
  exact List.filter_sublist

section Election
variable {n : ClusterNode}

/-- Join orders tell members apart, so the coordinator is the first server that joined, in whatever
order the members are listed. -/
theorem Enrolled.coordinator?_eq_some_iff (he : c.Enrolled joined) (version : UInt64)
    {nodes : List ClusterNode} (hnodes : ∀ m, m ∈ nodes ↔ m ∈ c.members) :
    (Snapshot.ofNodes version nodes).coordinator? = some n ↔
      n ∈ c.members ∧ n.client = false ∧ ∀ s ∈ c.members, s.client = false → n.order ≤ s.order := by
  have horders : ∀ a ∈ nodes, ∀ b ∈ nodes, a.order = b.order → a = b := by
    intro a ha b hb
    exact he.order_injective (he.members.subset ((hnodes a).mp ha))
      (he.members.subset ((hnodes b).mp hb))
  simp only [Snapshot.coordinator?_ofNodes_eq_some_iff horders, hnodes]

theorem coordinator?_eq_none_iff :
    c.snapshot.coordinator? = none ↔ ∀ s ∈ c.members, s.client = true := by
  simp only [Snapshot.coordinator?_eq_none_iff, snapshot, Snapshot.mem_ofNodes]

theorem Enrolled.heads_of_coordinator (he : c.Enrolled joined)
    (h : c.snapshot.coordinator? = some n) : c.Heads joined n := by
  obtain ⟨hmem, hserver, hfirst⟩ := (he.coordinator?_eq_some_iff _ fun _ => Iff.rfl).mp h
  exact ⟨he.members.subset hmem, hserver, hfirst⟩

namespace Heads

theorem of_subset (hn : c.Heads joined n) {c' : Cluster}
    (hmembers : ∀ m ∈ c'.members, m ∈ c.members) : c'.Heads joined n :=
  ⟨hn.1, hn.2.1, fun s hs => hn.2.2 s (hmembers s hs)⟩

/-- Who joins comes after everybody else. -/
theorem join (hn : c.Heads joined n) (he : c.Enrolled joined)
    (hroom : joined.length + 1 < UInt64.size) (id : NodeId) (client : Bool) :
    (c.join id client).2.2.Heads (joined ++ [(c.join id client).1]) n := by
  obtain ⟨hjoined, hserver, hfirst⟩ := hn
  refine ⟨List.mem_append_left _ hjoined, hserver, ?_⟩
  intro s hs hclient
  rcases List.mem_append.mp hs with hs | hs
  · exact hfirst s hs hclient
  · rw [List.mem_singleton.mp hs]
    exact UInt64.le_of_lt (he.lt_next hroom hjoined)

theorem coordinator? (hn : c.Heads joined n) (he : c.Enrolled joined) (hmem : n ∈ c.members) :
    c.snapshot.coordinator? = some n :=
  (he.coordinator?_eq_some_iff _ fun _ => Iff.rfl).mpr ⟨hmem, hn.2⟩

end Heads

end Election

end Cluster
end CounterCoordinator
