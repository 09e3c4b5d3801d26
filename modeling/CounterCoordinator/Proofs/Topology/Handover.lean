import CounterCoordinator.Proofs.Runs
import CounterCoordinator.Proofs.Topology.Enrolment

/-!
# Handover

Along a run of joins and departures the coordinator only changes when it departs itself. Its place
is then taken by the live server that joined next, so coordinators follow one another in the order
of joining, and nobody who was replaced comes back.
-/
namespace CounterCoordinator

namespace Cluster

inductive Move where
  | join (id : NodeId) (client : Bool)
  | depart (kind : Departure) (node : NodeId)
deriving DecidableEq, Repr

end Cluster

structure Census where
  cluster : Cluster := {}
  joined : List ClusterNode := []

namespace Census
variable {r r' : Census} {c d : ClusterNode}

def step (r : Census) : Cluster.Move → Census
  | .join id client =>
      ⟨(r.cluster.join id client).2.2, r.joined ++ [(r.cluster.join id client).1]⟩
  | .depart kind node => { r with cluster := (r.cluster.depart kind node).2.2 }

/-- Nodes join under new identities and while join orders last; anybody may depart. -/
def Allowed (r : Census) : Cluster.Move → Prop
  | .join id _ => (∀ n ∈ r.joined, n.id ≠ id) ∧ r.joined.length + 1 < UInt64.size
  | .depart _ _ => True

def Next (r r' : Census) : Prop :=
  ∃ move, r.Allowed move ∧ r' = r.step move

/-- Some run leads from the one to the other. -/
def Later : Census → Census → Prop := Relation.ReflTransGen Next

def coordinator? (r : Census) : Option ClusterNode :=
  r.cluster.snapshot.coordinator?

/-- Of the live servers that joined after `c`, the node `d` joined first. -/
def Follows (r : Census) (c d : ClusterNode) : Prop :=
  d ∈ r.cluster.members ∧ d.client = false ∧ c.order < d.order ∧
    ∀ s ∈ r.cluster.members, s.client = false → c.order < s.order → d.order ≤ s.order

theorem mem_members_depart {kind : Departure} {node : NodeId} {n : ClusterNode} :
    n ∈ (r.step (.depart kind node)).cluster.members ↔ n ∈ r.cluster.members ∧ n.id ≠ node := by
  change n ∈ (r.cluster.depart kind node).2.2.members ↔ _
  rw [Cluster.depart_members, List.mem_filter, bne_iff_ne]

def Enrolled (r : Census) : Prop := r.cluster.Enrolled r.joined

def Heads (r : Census) (n : ClusterNode) : Prop := r.cluster.Heads r.joined n

namespace Enrolled

theorem new : Enrolled {} := Cluster.Enrolled.new

theorem step (he : r.Enrolled) {move : Cluster.Move} (hallowed : r.Allowed move) :
    (r.step move).Enrolled := by
  cases move with
  | join id client => exact Cluster.Enrolled.join he hallowed.1 hallowed.2 client
  | depart kind node => exact Cluster.Enrolled.depart he kind node

theorem later (he : r.Enrolled) (hrun : Later r r') : r'.Enrolled := by
  induction hrun with
  | refl => exact he
  | tail _ hnext ih =>
    obtain ⟨move, hallowed, rfl⟩ := hnext
    exact ih.step hallowed

theorem heads (he : r.Enrolled) (hc : r.coordinator? = some c) : r.Heads c :=
  Cluster.Enrolled.heads_of_coordinator he hc

theorem mem_members (he : r.Enrolled) (hc : r.coordinator? = some c) : c ∈ r.cluster.members :=
  ((he.coordinator?_eq_some_iff _ fun _ => Iff.rfl).mp hc).1

theorem order_lt (he : r.Enrolled) (hc : r.Heads c) (hd : d ∈ r.cluster.members)
    (hserver : d.client = false) (hne : d ≠ c) : c.order < d.order := by
  refine UInt64.lt_of_le_of_ne (hc.2.2 d hd hserver) ?_
  exact fun horder => hne (he.order_injective (he.members.subset hd) hc.1 horder.symm)

/-- Who is still there after the coordinator departed joined after it. -/
theorem mem_server_depart (he : r.Enrolled) (hc : r.Heads c) (kind : Departure)
    (hserver : d.client = false) :
    d ∈ (r.step (.depart kind c.id)).cluster.members ↔
      d ∈ r.cluster.members ∧ c.order < d.order := by
  rw [mem_members_depart]
  constructor
  · rintro ⟨hd, hid⟩
    exact ⟨hd, he.order_lt hc hd hserver fun heq => hid (congrArg ClusterNode.id heq)⟩
  · rintro ⟨hd, horder⟩
    refine ⟨hd, ?_⟩
    intro hid
    have hsame : d = c := he.id_injective (he.members.subset hd) hc.1 hid
    exact absurd (hsame ▸ horder) (UInt64.lt_irrefl _)

theorem coordinator?_depart (he : r.Enrolled) (hc : r.Heads c) (kind : Departure) :
    (r.step (.depart kind c.id)).coordinator? = some d ↔ r.Follows c d := by
  have later : (r.step (.depart kind c.id)).Enrolled := he.step trivial
  refine (later.coordinator?_eq_some_iff _ fun _ => Iff.rfl).trans ?_
  constructor
  · rintro ⟨hd, hserver, hfirst⟩
    obtain ⟨hmem, horder⟩ := (he.mem_server_depart hc kind hserver).mp hd
    refine ⟨hmem, hserver, horder, ?_⟩
    intro s hs hclient hlt
    exact hfirst s ((he.mem_server_depart hc kind hclient).mpr ⟨hs, hlt⟩) hclient
  · rintro ⟨hmem, hserver, horder, hfirst⟩
    refine ⟨(he.mem_server_depart hc kind hserver).mpr ⟨hmem, horder⟩, hserver, ?_⟩
    intro s hs hclient
    obtain ⟨hs, hlt⟩ := (he.mem_server_depart hc kind hclient).mp hs
    exact hfirst s hs hclient hlt

theorem coordinator?_depart_none (he : r.Enrolled) (hc : r.Heads c) (kind : Departure) :
    (r.step (.depart kind c.id)).coordinator? = none ↔
      ∀ s ∈ r.cluster.members, s.client = false → s = c := by
  refine Cluster.coordinator?_eq_none_iff.trans ?_
  constructor
  · intro hclients s hs hserver
    by_contra hne
    have hleft := (he.mem_server_depart hc kind hserver).mpr
      ⟨hs, he.order_lt hc hs hserver hne⟩
    have hclient := hclients s hleft
    rw [hserver] at hclient
    cases hclient
  · intro halone s hs
    by_contra hclient
    obtain ⟨hmem, hid⟩ := mem_members_depart.mp hs
    exact hid (congrArg ClusterNode.id (halone s hmem (eq_false_of_ne_true hclient)))

end Enrolled

namespace Heads

theorem step (hn : r.Heads c) (he : r.Enrolled) {move : Cluster.Move} (hallowed : r.Allowed move) :
    (r.step move).Heads c := by
  cases move with
  | join id client => exact Cluster.Heads.join hn he hallowed.2 id client
  | depart kind node =>
    exact Cluster.Heads.of_subset hn fun m hm => (mem_members_depart.mp hm).1

theorem later (hn : r.Heads c) (he : r.Enrolled) (hrun : Later r r') : r'.Heads c := by
  induction hrun with
  | refl => exact hn
  | tail hrun hnext ih =>
    obtain ⟨move, hallowed, rfl⟩ := hnext
    exact ih.step (he.later hrun) hallowed

end Heads

/-- Identities are not given out twice, so who departed stays away. -/
theorem not_mem_later (hc : c ∈ r.joined) (haway : c ∉ r.cluster.members) (hrun : Later r r') :
    c ∈ r'.joined ∧ c ∉ r'.cluster.members := by
  induction hrun with
  | refl => exact ⟨hc, haway⟩
  | tail _ hnext ih =>
    obtain ⟨move, hallowed, rfl⟩ := hnext
    obtain ⟨hjoined, haway⟩ := ih
    cases move with
    | depart kind node => exact ⟨hjoined, fun hmem => haway (mem_members_depart.mp hmem).1⟩
    | join id client =>
      refine ⟨List.mem_append_left _ hjoined, ?_⟩
      intro hmem
      rcases List.mem_append.mp hmem with hmem | hmem
      · exact haway hmem
      · exact hallowed.1 c hjoined (congrArg ClusterNode.id (List.mem_singleton.mp hmem))

theorem order_lt_of_later (he : r.Enrolled) (hrun : Later r r') (hc : r.coordinator? = some c)
    (hd : r'.coordinator? = some d) : c = d ∨ c.order < d.order := by
  have he' := he.later hrun
  have heads : r'.Heads c := (he.heads hc).later he hrun
  rcases Decidable.em (d = c) with rfl | hne
  · exact .inl rfl
  · exact .inr (he'.order_lt heads (he'.mem_members hd) (he'.heads hd).2.1 hne)

theorem not_mem_of_replaced (he : r.Enrolled) (hrun : Later r r') (hc : r.coordinator? = some c)
    (hreplaced : r'.coordinator? ≠ some c) : c ∈ r'.joined ∧ c ∉ r'.cluster.members := by
  have heads : r'.Heads c := (he.heads hc).later he hrun
  exact ⟨heads.1, fun hmem => hreplaced (Cluster.Heads.coordinator? heads (he.later hrun) hmem)⟩

/-- Whoever lists the members in whatever order finds the same coordinator, and it stays coordinator
until it departs. The live server that joined next follows, or nobody if there is none. So
coordinators join one after the other, and none comes back after it was replaced. -/
theorem coordinator_handover (hr : Later {} r) :
    (∀ version nodes, nodes.Perm r.cluster.members →
      (Snapshot.ofNodes version nodes).coordinator? = r.coordinator?) ∧
    (∀ c, r.coordinator? = some c →
      (∀ id client, r.Allowed (.join id client) →
        (r.step (.join id client)).coordinator? = some c) ∧
      (∀ kind node, node ≠ c.id → (r.step (.depart kind node)).coordinator? = some c) ∧
      ∀ kind,
        (∀ d, (r.step (.depart kind c.id)).coordinator? = some d ↔ r.Follows c d) ∧
        ((r.step (.depart kind c.id)).coordinator? = none ↔
          ∀ s ∈ r.cluster.members, s.client = false → s = c)) ∧
    (∀ r', Later r r' → ∀ c c', r.coordinator? = some c → r'.coordinator? = some c' →
      c = c' ∨ c.order < c'.order) ∧
    ∀ r' r'', Later r r' → Later r' r'' → ∀ c, r.coordinator? = some c →
      r'.coordinator? ≠ some c → ∀ d, r''.coordinator? = some d → d.id ≠ c.id := by
  have he : r.Enrolled := Enrolled.new.later hr
  refine ⟨?_, ?_, fun _ hrun _ _ hc hc' => order_lt_of_later he hrun hc hc', ?_⟩
  · intro version nodes hperm
    refine Option.ext fun n => ?_
    exact (he.coordinator?_eq_some_iff version fun _ => hperm.mem_iff).trans
      (he.coordinator?_eq_some_iff _ fun _ => Iff.rfl).symm
  · intro c hc
    have heads := he.heads hc
    have hmem := he.mem_members hc
    refine ⟨?_, ?_, ?_⟩
    · intro id client hallowed
      exact Cluster.Heads.coordinator? (heads.step he hallowed) (he.step hallowed)
        (List.mem_append_left _ hmem)
    · intro kind node hne
      have hallowed : r.Allowed (.depart kind node) := trivial
      exact Cluster.Heads.coordinator? (heads.step he hallowed) (he.step hallowed)
        (mem_members_depart.mpr ⟨hmem, hne.symm⟩)
    · exact fun kind => ⟨fun d => he.coordinator?_depart heads kind,
        he.coordinator?_depart_none heads kind⟩
  · intro r' r'' hrun hrun' c hc hreplaced d hd hid
    obtain ⟨hjoined, haway⟩ := not_mem_of_replaced he hrun hc hreplaced
    obtain ⟨hjoined, haway⟩ := not_mem_later hjoined haway hrun'
    have he'' := (he.later hrun).later hrun'
    have hmem := he''.mem_members hd
    have hsame : d = c := he''.id_injective (he''.members.subset hmem) hjoined hid
    exact haway (hsame ▸ hmem)

/-- A client and three servers join, with another client between them, and the second server
fails. -/
def relay : List Cluster.Move :=
  [.join (.ofNat 1) true, .join (.ofNat 2) false, .join (.ofNat 3) false, .join (.ofNat 4) true,
    .join (.ofNat 5) false, .depart .failed (.ofNat 3)]

theorem coordinator_handover_relay :
    (relay.foldl step {}).coordinator? = some ⟨.ofNat 2, 2, false⟩ ∧
      ((relay.foldl step {}).step (.depart .left (.ofNat 2))).coordinator? =
        some ⟨.ofNat 5, 5, false⟩ := by
  have hrun : Later {} (relay.foldl step {}) := by
    have hall : AllAllowed Allowed step {} relay := by
      refine ⟨⟨?_, ?_⟩, ⟨?_, ?_⟩, ⟨?_, ?_⟩, ⟨?_, ?_⟩, ⟨?_, ?_⟩, trivial, trivial⟩
      all_goals decide
    exact hall.run
  have hc : (relay.foldl step {}).coordinator? = some ⟨.ofNat 2, 2, false⟩ :=
    ((Enrolled.new.later hrun).coordinator?_eq_some_iff _ fun _ => Iff.rfl).mpr (by decide)
  have follows : (relay.foldl step {}).Follows ⟨.ofNat 2, 2, false⟩ ⟨.ofNat 5, 5, false⟩ := by
    unfold Follows
    decide
  exact ⟨hc, (((coordinator_handover hrun).2.1 _ hc).2.2 .left).1 _ |>.mpr follows⟩

end Census
end CounterCoordinator
