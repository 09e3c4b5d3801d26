import CounterCoordinator.Topology
import Mathlib.Data.List.Nodup

/-!
# Who is elected

In a canonical snapshot no node stands behind one that joined later, so its coordinator is the
server that joined first among those it lists. When join orders tell nodes apart there is only one
canonical way to list them, and whoever lists the same nodes elects the same one.
-/
namespace CounterCoordinator.Snapshot
variable {s t : Snapshot} {version : UInt64} {nodes : List ClusterNode} {c n : ClusterNode}

/-- No node stands behind one that joined later. -/
def Canonical (s : Snapshot) : Prop :=
  s.nodes.Pairwise fun a b => a.order ≤ b.order

instance (s : Snapshot) : Decidable s.Canonical :=
  inferInstanceAs (Decidable (s.nodes.Pairwise fun a b => a.order ≤ b.order))

theorem canonical_ofNodes (version : UInt64) (nodes : List ClusterNode) :
    (ofNodes version nodes).Canonical := by
  have sorted : (ofNodes version nodes).nodes.Pairwise fun a b =>
      decide (a.order ≤ b.order) = true := by
    apply List.pairwise_mergeSort
    · simpa using fun _ _ _ => UInt64.le_trans
    · simpa using fun _ _ => UInt64.le_total _ _
  exact sorted.imp fun hle => of_decide_eq_true hle

theorem perm_ofNodes (version : UInt64) (nodes : List ClusterNode) :
    (ofNodes version nodes).nodes.Perm nodes :=
  List.mergeSort_perm ..

theorem mem_ofNodes : n ∈ (ofNodes version nodes).nodes ↔ n ∈ nodes :=
  List.mem_mergeSort

theorem mem_servers : n ∈ s.servers ↔ n ∈ s.nodes ∧ n.client = false := by
  rw [servers, List.mem_filter, Bool.not_eq_true']

/-- The coordinator is a server of the snapshot, in whatever order it lists its nodes. -/
theorem mem_of_coordinator? (h : s.coordinator? = some c) : c ∈ s.nodes ∧ c.client = false :=
  mem_servers.mp (List.mem_of_head? h)

theorem coordinator?_eq_none_iff : s.coordinator? = none ↔ ∀ n ∈ s.nodes, n.client = true := by
  rw [coordinator?, List.head?_eq_none_iff, List.eq_nil_iff_forall_not_mem]
  simp only [mem_servers, not_and, Bool.not_eq_false]

namespace Canonical

/-- No server joined before the coordinator. -/
theorem coordinator?_first (hs : s.Canonical) (h : s.coordinator? = some c) :
    ∀ n ∈ s.nodes, n.client = false → c.order ≤ n.order := by
  intro n hn hserver
  obtain ⟨rest, hservers⟩ := List.head?_eq_some_iff.mp h
  have sorted : s.servers.Pairwise fun a b => a.order ≤ b.order := List.Pairwise.filter _ hs
  have hlisted : n ∈ s.servers := mem_servers.mpr ⟨hn, hserver⟩
  rw [hservers] at hlisted sorted
  rcases List.mem_cons.mp hlisted with rfl | hlater
  · exact UInt64.le_refl _
  · exact (List.pairwise_cons.mp sorted).1 n hlater

/-- When join orders tell nodes apart, the server that joined first is the coordinator. -/
theorem coordinator?_eq_some_iff (hs : s.Canonical)
    (horders : ∀ a ∈ s.nodes, ∀ b ∈ s.nodes, a.order = b.order → a = b) :
    s.coordinator? = some c ↔
      c ∈ s.nodes ∧ c.client = false ∧ ∀ n ∈ s.nodes, n.client = false → c.order ≤ n.order := by
  constructor
  · intro h
    obtain ⟨hmem, hserver⟩ := mem_of_coordinator? h
    exact ⟨hmem, hserver, hs.coordinator?_first h⟩
  · rintro ⟨hmem, hserver, hfirst⟩
    cases helected : s.coordinator? with
    | none =>
      have hclient := coordinator?_eq_none_iff.mp helected c hmem
      rw [hserver] at hclient
      cases hclient
    | some elected =>
      obtain ⟨hmem', hserver'⟩ := mem_of_coordinator? helected
      have hle := hfirst elected hmem' hserver'
      have hge := hs.coordinator?_first helected c hmem hserver
      rw [horders elected hmem' c hmem (UInt64.le_antisymm hge hle)]

/-- There is one canonical way to list nodes that join orders tell apart. -/
theorem eq_of_perm (hs : s.Canonical) (ht : t.Canonical) (hversion : s.version = t.version)
    (hnodes : s.nodes.Perm t.nodes) (horders : (s.nodes.map ClusterNode.order).Nodup) : s = t := by
  have hsame : s.nodes = t.nodes := by
    apply hnodes.eq_of_pairwise ?_ hs ht
    intro a b ha hb hab hba
    exact List.inj_on_of_nodup_map horders ha (hnodes.mem_iff.mpr hb) (UInt64.le_antisymm hab hba)
  cases s
  cases t
  cases hversion
  cases hsame
  rfl

end Canonical

theorem ofNodes_congr {nodes' : List ClusterNode} (hnodes : nodes.Perm nodes')
    (horders : (nodes.map ClusterNode.order).Nodup) :
    ofNodes version nodes = ofNodes version nodes' := by
  have hperm := perm_ofNodes version nodes
  refine (canonical_ofNodes version nodes).eq_of_perm (canonical_ofNodes version nodes') rfl ?_ ?_
  · exact hperm.trans (hnodes.trans (perm_ofNodes version nodes').symm)
  · exact (hperm.map ClusterNode.order).nodup_iff.mpr horders

theorem coordinator?_ofNodes_eq_some_iff
    (horders : ∀ a ∈ nodes, ∀ b ∈ nodes, a.order = b.order → a = b) :
    (ofNodes version nodes).coordinator? = some c ↔
      c ∈ nodes ∧ c.client = false ∧ ∀ n ∈ nodes, n.client = false → c.order ≤ n.order := by
  have elected := (canonical_ofNodes version nodes).coordinator?_eq_some_iff (c := c)
  simp only [mem_ofNodes] at elected
  exact elected horders

end CounterCoordinator.Snapshot
