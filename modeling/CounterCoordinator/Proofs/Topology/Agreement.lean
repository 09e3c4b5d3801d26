import CounterCoordinator.Proofs.Deployment.History
import CounterCoordinator.Proofs.Topology.Enrolment

/-!
# Election agreement

A snapshot puts its nodes in the same order whatever order they were enumerated in, provided join
orders tell them apart; and in every state a cluster gets into they do. So all who take a snapshot
of one state hold equal snapshots, and elect the same coordinator from them.
-/
namespace CounterCoordinator

namespace Cluster
variable {c : Cluster}

/-- The states of a cluster. Nodes join under whatever identities, as long as join orders last;
anybody may depart, send, read an inbox or close one, at any time. -/
inductive Reachable : Cluster → Prop
  | new : Reachable {}
  | join {c : Cluster} (id : NodeId) (client : Bool) :
      Reachable c → c.lastOrder.toNat + 1 < UInt64.size → Reachable (c.join id client).2.2
  | depart {c : Cluster} (kind : Departure) (node : NodeId) :
      Reachable c → Reachable (c.depart kind node).2.2
  | send {c : Cluster} (sender target : NodeId) (channel : Channel) (payload : Bytes) :
      Reachable c → Reachable (c.send sender target channel payload).2
  | take {c : Cluster} (node : NodeId) : Reachable c → Reachable (c.take node).2
  | closeInbox {c : Cluster} (node : NodeId) : Reachable c → Reachable (c.closeInbox node).2

structure Lined (c : Cluster) : Prop where
  rising : c.members.Pairwise fun a b => a.order < b.order
  given : ∀ n ∈ c.members, n.order ≤ c.lastOrder

namespace Lined

theorem new : Lined {} := by
  constructor <;> simp

theorem of_sublist (hc : c.Lined) {c' : Cluster} (horder : c'.lastOrder = c.lastOrder)
    (hmembers : c'.members.Sublist c.members) : c'.Lined := by
  constructor
  · exact hc.rising.sublist hmembers
  · intro n hn
    rw [horder]
    exact hc.given n (hmembers.subset hn)

theorem join (hc : c.Lined) (hroom : c.lastOrder.toNat + 1 < UInt64.size) (id : NodeId)
    (client : Bool) : (c.join id client).2.2.Lined := by
  have hnext : c.lastOrder < c.lastOrder + 1 := by
    rw [UInt64.lt_iff_toNat_lt, toNat_add_of_lt hroom]
    exact Nat.lt_succ_self _
  constructor
  · refine List.pairwise_append.mpr ⟨hc.rising, List.pairwise_singleton .., ?_⟩
    intro a ha b hb
    rw [List.mem_singleton.mp hb]
    exact UInt64.lt_of_le_of_lt (hc.given a ha) hnext
  · intro n hn
    rcases List.mem_append.mp hn with hn | hn
    · exact UInt64.le_trans (hc.given n hn) (UInt64.le_of_lt hnext)
    · rw [List.mem_singleton.mp hn]
      exact UInt64.le_refl _

theorem depart (hc : c.Lined) (kind : Departure) (node : NodeId) :
    (c.depart kind node).2.2.Lined := by
  refine hc.of_sublist (c.depart_lastOrder kind node) ?_
  rw [depart_members]
  exact List.filter_sublist

theorem send (hc : c.Lined) (sender target : NodeId) (channel : Channel) (payload : Bytes) :
    (c.send sender target channel payload).2.Lined := by
  unfold Cluster.send
  split
  · exact hc
  · exact ⟨hc.rising, hc.given⟩

theorem of_drained (hc : c.Lined) {c' : Cluster} (hdrained : Drained c c') : c'.Lined :=
  hc.of_sublist hdrained.lastOrder (hdrained.members ▸ .refl _)

theorem nodup_orders (hc : c.Lined) : (c.members.map ClusterNode.order).Nodup :=
  (List.pairwise_map.mpr hc.rising).imp UInt64.ne_of_lt

end Lined

theorem Reachable.lined (hc : c.Reachable) : c.Lined := by
  induction hc with
  | new => exact .new
  | join id client _ hroom ih => exact ih.join hroom id client
  | depart kind node _ ih => exact ih.depart kind node
  | send sender target channel payload _ ih => exact ih.send sender target channel payload
  | take node _ ih => exact ih.of_drained (drained_take _ node)
  | closeInbox node _ ih => exact ih.of_drained (drained_closeInbox _ node)

end Cluster

namespace Snapshot

/-- However nodes with different join orders are listed, the snapshot of them is the same and elects
the server of smallest order, or nobody if there are clients only. The members of a cluster have
different orders in every state, so neither the snapshot of a state nor its coordinator depends on
how the members are enumerated. -/
theorem election_agreement :
    (∀ (version : UInt64) (nodes nodes' : List ClusterNode), nodes.Perm nodes' →
      (nodes.map ClusterNode.order).Nodup →
        ofNodes version nodes = ofNodes version nodes' ∧
        (ofNodes version nodes).coordinator? = (ofNodes version nodes').coordinator? ∧
        (∀ c, (ofNodes version nodes).coordinator? = some c ↔
          c ∈ nodes ∧ c.client = false ∧
            ∀ n ∈ nodes, n.client = false → n ≠ c → c.order < n.order) ∧
        ((ofNodes version nodes).coordinator? = none ↔ ∀ n ∈ nodes, n.client = true)) ∧
    ∀ c : Cluster, c.Reachable →
      (c.members.map ClusterNode.order).Nodup ∧
      ∀ members, members.Perm c.members →
        ofNodes c.version members = c.snapshot ∧
        (ofNodes c.version members).coordinator? = c.snapshot.coordinator? := by
  constructor
  · intro version nodes nodes' hperm hnodup
    have horders : ∀ a ∈ nodes, ∀ b ∈ nodes, a.order = b.order → a = b :=
      fun a ha b hb => List.inj_on_of_nodup_map hnodup ha hb
    have hsame : ofNodes version nodes = ofNodes version nodes' := ofNodes_congr hperm hnodup
    refine ⟨hsame, congrArg coordinator? hsame, fun c => ?_, ?_⟩
    · rw [coordinator?_ofNodes_eq_some_iff horders]
      refine and_congr_right fun hc => and_congr_right fun _ => ?_
      refine forall₃_congr fun n hn _ => ?_
      constructor
      · intro hle hne
        exact UInt64.lt_of_le_of_ne hle fun heq => hne (horders c hc n hn heq).symm
      · intro hlt
        by_cases heq : n = c
        · exact heq ▸ UInt64.le_refl _
        · exact UInt64.le_of_lt (hlt heq)
    · simp only [coordinator?_eq_none_iff, mem_ofNodes]
  · intro c hc
    have hnodup := hc.lined.nodup_orders
    refine ⟨hnodup, ?_⟩
    intro members hperm
    have hsame : ofNodes c.version members = c.snapshot :=
      (ofNodes_congr hperm.symm hnodup).symm
    exact ⟨hsame, congrArg coordinator? hsame⟩

/-- Two servers and a client, as two members may enumerate them. -/
def enumerated : List ClusterNode :=
  [⟨.ofNat 3, 3, false⟩, ⟨.ofNat 1, 1, true⟩, ⟨.ofNat 2, 2, false⟩]

theorem election_agreement_enumerated :
    (ofNodes 3 enumerated).coordinator? = some ⟨.ofNat 2, 2, false⟩ ∧
      ofNodes 3 enumerated = ofNodes 3 enumerated.reverse ∧
      ofNodes 3 enumerated =
        ((((({} : Cluster).join (.ofNat 1) true).2.2.join (.ofNat 2) false).2.2.join
          (.ofNat 3) false).2.2).snapshot := by
  have hnodup : (enumerated.map ClusterNode.order).Nodup := by decide
  have hreachable : ((((({} : Cluster).join (.ofNat 1) true).2.2.join (.ofNat 2) false).2.2.join
      (.ofNat 3) false).2.2).Reachable := by
    refine .join _ _ (.join _ _ (.join _ _ .new ?_) ?_) ?_
    all_goals decide
  obtain ⟨hlisted, hstates⟩ := election_agreement
  obtain ⟨hsame, -, helected, -⟩ :=
    hlisted 3 enumerated enumerated.reverse enumerated.reverse_perm.symm hnodup
  refine ⟨(helected _).mpr (by decide), hsame, ?_⟩
  exact ((hstates _ hreachable).2 enumerated (by decide)).1

end Snapshot
end CounterCoordinator
