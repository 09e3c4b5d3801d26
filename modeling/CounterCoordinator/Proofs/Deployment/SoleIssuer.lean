import CounterCoordinator.Proofs.Deployment.History
import CounterCoordinator.Proofs.Manager.Fate
import CounterCoordinator.Proofs.Topology.Enrolment

/-!
# One issuer at a time

Every manager answers requests for counters, elected or not. Still, of the live nodes only the one
that the present topology elects has ever assigned any. A node is only asked once it was elected;
whoever was elected joined before all servers then alive, and those that join later get later join
orders; so as long as it lives it stays first, whatever becomes of the others.
-/
namespace CounterCoordinator

namespace History
variable {h : History}

structure Orderly (h : History) : Prop extends h.deployment.cluster.Enrolled h.joined where
  elected : ∀ s ∈ h.seen, ∀ c, s.coordinator? = some c → h.deployment.cluster.Heads h.joined c

/-- Only elected nodes have assigned counters, and only they are asked for some. -/
structure Confined (h : History) : Prop where
  issuers : ∀ m ∈ h.deployment.managers, m.counters.current ≠ 0 → h.Elected m.self
  requests : ∀ b ∈ h.deployment.cluster.inboxes, ∀ e ∈ b.queue,
    Wire.WantsCounter e.payload → h.Elected b.owner

namespace Orderly

theorem with_deployment (ho : h.Orderly) {d : Deployment}
    (hmembers : d.cluster.members.Sublist h.deployment.cluster.members)
    (horder : d.cluster.lastOrder = h.deployment.cluster.lastOrder) :
    Orderly { h with deployment := d } :=
  ⟨ho.of_sublist horder hmembers,
    fun s hs c hc => (ho.elected s hs c hc).of_subset fun _ hn => hmembers.subset hn⟩

theorem of_roster (ho : h.Orderly) {d : Deployment}
    (hroster : d.cluster.members = h.deployment.cluster.members ∧
      d.cluster.lastOrder = h.deployment.cluster.lastOrder) :
    Orderly { h with deployment := d } :=
  ho.with_deployment (hroster.1 ▸ .refl _) hroster.2

theorem look (ho : h.Orderly) :
    Orderly { h with seen := h.deployment.cluster.snapshot :: h.seen } := by
  refine ⟨ho.toEnrolled, ?_⟩
  intro s hs c hc
  rcases List.mem_cons.mp hs with rfl | hs
  · exact ho.heads_of_coordinator hc
  · exact ho.elected s hs c hc

theorem join (ho : h.Orderly) {id : NodeId} {client cancelAcks : Bool}
    (hid : ∀ n ∈ h.joined, n.id ≠ id) (hroom : h.joined.length + 1 < UInt64.size) :
    (h.step (.join id client cancelAcks)).Orderly :=
  ⟨ho.toEnrolled.join hid hroom client,
    fun s hs c hc => (ho.elected s hs c hc).join ho.toEnrolled hroom id client⟩

/-- Every move keeps the order: only joining adds members, and only at the end. -/
theorem step (ho : h.Orderly) {move : Deployment.Move} (hallowed : h.Allowed move) :
    (h.step move).Orderly := by
  cases move with
  | join id client cancelAcks => exact ho.join hallowed.1 hallowed.2
  | look => exact ho.look
  | depart kind node =>
    refine ho.with_deployment ?_ (Cluster.depart_lastOrder ..)
    rw [Deployment.perform, Cluster.depart_members]
    exact List.filter_sublist
  | ask node target what => exact ho.of_roster (Deployment.react_roster _ node _)
  | call node c => exact ho.of_roster (Deployment.react_roster _ node _)
  | dispatch node =>
    have drained := h.deployment.cluster.drained_take node
    rcases h.deployment.perform_dispatch node with heq | ⟨_, _, _, _, _, heq⟩
    · exact ho.of_roster (by rw [heq]; exact ⟨rfl, rfl⟩)
    · refine ho.of_roster ?_
      rw [heq]
      obtain ⟨hmembers, horder⟩ := Deployment.react_roster
        { h.deployment with cluster := (h.deployment.cluster.take node).2 } node _
      exact ⟨hmembers.trans drained.members, horder.trans drained.lastOrder⟩
  | listen node position =>
    rcases h.deployment.perform_listen node position with heq | ⟨c, heq⟩
    · exact ho.of_roster (by rw [heq]; exact ⟨rfl, rfl⟩)
    · exact ho.of_roster (by rw [heq]; exact Deployment.react_roster _ node _)
  | closeInbox node =>
    have drained := h.deployment.cluster.drained_closeInbox node
    exact ho.of_roster ⟨drained.members, drained.lastOrder⟩

/-- A live node that was elected once is the coordinator of the present topology. -/
theorem coordinator?_of_elected (ho : h.Orderly) {node : NodeId} (helected : h.Elected node)
    (halive : h.deployment.cluster.alive node) :
    ∃ c, h.deployment.cluster.snapshot.coordinator? = some c ∧ c.id = node := by
  obtain ⟨s, hs, hcoordinator⟩ := helected
  obtain ⟨c, hc, hnode⟩ := Option.map_eq_some_iff.mp hcoordinator
  obtain ⟨n, hmember, hid⟩ := List.any_eq_true.mp halive
  have heads := ho.elected s hs c hc
  have hsame : n = c :=
    ho.id_injective (ho.members.subset hmember) heads.1 ((beq_iff_eq.mp hid).trans hnode.symm)
  exact ⟨c, heads.coordinator? ho.toEnrolled (hsame ▸ hmember), hnode⟩

end Orderly

namespace Confined

theorem with_deployment (hc : h.Confined) {d : Deployment}
    (hmanagers : d.managers = h.deployment.managers)
    (hqueues : ∀ b ∈ d.cluster.inboxes, ∀ e ∈ b.queue,
      ∃ old ∈ h.deployment.cluster.inboxes, old.owner = b.owner ∧ e ∈ old.queue) :
    Confined { h with deployment := d } := by
  constructor
  · intro m hm
    exact hc.issuers m (hmanagers ▸ hm)
  · intro b hb e he hwants
    obtain ⟨old, hold, howner, he⟩ := hqueues b hb e he
    exact howner ▸ hc.requests old hold e he hwants

/-- A manager acts: if its counter moves it was elected, and so was everybody it asks for one. -/
theorem react (hc : h.Confined) {node : NodeId} {f : Manager → Reaction}
    (hself : ∀ m, (f m).manager.self = m.self)
    (hcurrent : ∀ m ∈ h.deployment.managers,
      (f m).manager.counters.current = m.counters.current ∨ h.Elected node)
    (hsent : ∀ m out, (f m).sent = some out → Wire.WantsCounter out.payload →
      h.Elected out.target) :
    Confined { h with deployment := (h.deployment.react node f).2 } := by
  cases hm : h.deployment.manager? node with
  | none =>
    rw [Deployment.react_of_none hm]
    exact hc
  | some m =>
    obtain ⟨hmem, hnode⟩ := Deployment.mem_of_manager? hm
    rw [Deployment.react_of_some hm]
    constructor
    · intro m' hm' hne
      rcases Deployment.mem_managers_absorb hm' with rfl | ⟨hm', -⟩
      · rw [hself]
        rcases hcurrent m hmem with hsame | helected
        · exact hc.issuers m hmem (hsame ▸ hne)
        · exact hnode.symm ▸ helected
      · exact hc.issuers m' hm' hne
    · intro b hb e he hwants
      rcases Deployment.mem_queue_absorb hb he with ⟨old, hold, howner, he⟩ | ⟨out, hout, heq⟩
      · exact howner ▸ hc.requests old hold e he hwants
      · obtain ⟨howner, hpayload⟩ := heq
        rw [howner]
        exact hsent m out hout (hpayload ▸ hwants)

theorem ask (hc : h.Confined) {node target : NodeId} {what : Request}
    (hallowed : h.Allowed (.ask node target what)) :
    (h.step (.ask node target what)).Confined := by
  have counted : Confined { h with
      deployment := { h.deployment with ids := h.deployment.ids.next.2 } } :=
    hc.with_deployment rfl fun b hb _ he => ⟨b, hb, rfl, he⟩
  apply counted.react
  · exact fun m => Manager.ask_self ..
  · exact fun m _ => .inl (congrArg Counters.current (Manager.ask_counters ..))
  · intro m out hout hwants
    rw [Manager.ask_sent, Outlook.outgoing?] at hout
    split at hout <;> cases hout
    obtain ⟨future, tx, hmessage⟩ := Wire.wantsCounter_encode hwants
    cases what with
    | txCounter => exact hallowed
    | queryCounter | commit => cases hmessage

theorem call (hc : h.Confined) (node : NodeId) (c : Call) :
    (h.step (.call node c)).Confined := by
  apply hc.react
  · exact fun m => Manager.call_self ..
  · exact fun m _ => .inl (congrArg Counters.current (Manager.call_counters ..))
  · exact fun m out hout hwants => absurd hwants (Manager.not_wantsCounter_of_call hout)

theorem dispatch (hc : h.Confined) (node : NodeId) : (h.step (.dispatch node)).Confined := by
  have drained := h.deployment.cluster.drained_take node
  rcases h.deployment.perform_dispatch node with heq | ⟨b, hb, howner, e, he, heq⟩
  · change Confined { h with deployment := _ }
    rw [heq]
    exact hc
  · have taken : Confined { h with deployment :=
        { h.deployment with cluster := (h.deployment.cluster.take node).2 } } :=
      hc.with_deployment rfl drained.queues
    change Confined { h with deployment := _ }
    rw [heq]
    apply taken.react
    · exact fun m => Manager.dispatch_self ..
    · intro m _
      by_cases hwants : Wire.WantsCounter e.payload
      · exact .inr (howner ▸ hc.requests b hb e he hwants)
      · unfold Manager.dispatch
        split
        · exact .inl (Manager.current_receive hwants)
        · exact .inl rfl
    · exact fun m out hout hwants => absurd hwants (Manager.dispatch_sent hout)

theorem join (hc : h.Confined) (id : NodeId) (client cancelAcks : Bool) :
    (h.step (.join id client cancelAcks)).Confined := by
  constructor
  · intro m hm hne
    rcases List.mem_append.mp hm with hm | hm
    · exact hc.issuers m hm hne
    · rw [List.mem_singleton.mp hm] at hne
      exact absurd rfl hne
  · intro b hb e he hwants
    rcases List.mem_cons.mp hb with rfl | hb
    · cases he
    · exact hc.requests b hb e he hwants

theorem look (hc : h.Confined) : (h.step .look).Confined := by
  have later : ∀ node, h.Elected node → (h.step .look).Elected node := by
    rintro node ⟨s, hs, hnode⟩
    exact ⟨s, List.mem_cons_of_mem _ hs, hnode⟩
  constructor
  · exact fun m hm hne => later _ (hc.issuers m hm hne)
  · exact fun b hb e he hwants => later _ (hc.requests b hb e he hwants)

theorem step (hc : h.Confined) {move : Deployment.Move} (hallowed : h.Allowed move) :
    (h.step move).Confined := by
  cases move with
  | join id client cancelAcks => exact hc.join id client cancelAcks
  | look => exact hc.look
  | ask node target what => exact hc.ask hallowed
  | call node c => exact hc.call node c
  | dispatch node => exact hc.dispatch node
  | depart kind node =>
    refine hc.with_deployment rfl ?_
    intro b hb e he
    rw [Deployment.perform, Cluster.depart_inboxes] at hb
    exact ⟨b, hb, rfl, he⟩
  | listen node position =>
    rcases h.deployment.perform_listen node position with heq | ⟨c, heq⟩
    · change Confined { h with deployment := _ }
      rw [heq]
      exact hc
    · change Confined { h with deployment := _ }
      rw [heq]
      exact hc.call node c
  | closeInbox node =>
    exact hc.with_deployment rfl (h.deployment.cluster.drained_closeInbox node).queues

end Confined

theorem Reachable.orderly (hr : Reachable h) : h.Orderly := by
  induction hr with
  | start => exact ⟨.new, by simp⟩
  | step _ hallowed ih => exact ih.step hallowed

theorem Reachable.confined (hr : Reachable h) : h.Confined := by
  induction hr with
  | start => constructor <;> simp
  | step _ hallowed ih => exact ih.step hallowed

/-- In every state of every run, a live node that has assigned a counter is the one the topology of
that state elects. So no two live nodes have, and no client ever has. -/
theorem sole_live_issuer (hr : Reachable h) :
    (∀ m ∈ h.deployment.managers, h.deployment.cluster.alive m.self → m.counters.current ≠ 0 →
      ∃ c, h.deployment.cluster.snapshot.coordinator? = some c ∧ c.id = m.self) ∧
    (∀ m ∈ h.deployment.managers, ∀ m' ∈ h.deployment.managers,
      h.deployment.cluster.alive m.self → h.deployment.cluster.alive m'.self →
        m.counters.current ≠ 0 → m'.counters.current ≠ 0 → m.self = m'.self) ∧
    ∀ n ∈ h.joined, n.client → ∀ m ∈ h.deployment.managers, m.self = n.id →
      m.counters.current = 0 := by
  have ho := hr.orderly
  have hc := hr.confined
  have elected : ∀ m ∈ h.deployment.managers, h.deployment.cluster.alive m.self →
      m.counters.current ≠ 0 →
        ∃ c, h.deployment.cluster.snapshot.coordinator? = some c ∧ c.id = m.self :=
    fun m hm halive hne => ho.coordinator?_of_elected (hc.issuers m hm hne) halive
  refine ⟨elected, ?_, ?_⟩
  · intro m hm m' hm' halive halive' hne hne'
    obtain ⟨c, hcoordinator, hself⟩ := elected m hm halive hne
    obtain ⟨c', hcoordinator', hself'⟩ := elected m' hm' halive' hne'
    rw [hcoordinator] at hcoordinator'
    cases hcoordinator'
    exact hself.symm.trans hself'
  · intro n hn hclient m hm hself
    by_contra hne
    obtain ⟨s, hs, hnode⟩ := hc.issuers m hm hne
    obtain ⟨c, hcoordinator, hid⟩ := Option.map_eq_some_iff.mp hnode
    obtain ⟨hjoined, hserver, -⟩ := ho.elected s hs c hcoordinator
    have hsame : c = n := List.inj_on_of_nodup_map ho.ids hjoined hn (hid.trans hself)
    rw [hsame, hclient] at hserver
    cases hserver

theorem elected_look {c : ClusterNode} (hc : c ∈ h.deployment.cluster.members)
    (hserver : c.client = false)
    (hfirst : ∀ n ∈ h.deployment.cluster.members, n.client = false → c.order ≤ n.order)
    (horders : ∀ a ∈ h.deployment.cluster.members, ∀ b ∈ h.deployment.cluster.members,
      a.order = b.order → a = b) : (h.step .look).Elected c.id :=
  ⟨_, List.mem_cons_self, congrArg (Option.map ClusterNode.id)
    ((Snapshot.coordinator?_ofNodes_eq_some_iff horders).mpr ⟨hc, hserver, hfirst⟩)⟩

/-- Two servers and a client join. The first server assigns a counter and fails, and the second one
takes over, while somebody still asks the first. -/
def handover : List Deployment.Move :=
  [.join (.ofNat 1) false true, .join (.ofNat 2) false true, .join (.ofNat 3) true true, .look,
    .ask (.ofNat 3) (.ofNat 1) (.txCounter ⟨1, 1, 3⟩), .dispatch (.ofNat 1),
    .depart .failed (.ofNat 1), .look,
    .ask (.ofNat 2) (.ofNat 1) (.txCounter ⟨1, 1, 2⟩),
    .ask (.ofNat 3) (.ofNat 2) (.txCounter ⟨1, 2, 3⟩), .dispatch (.ofNat 2)]

theorem reachable_handover : Reachable (handover.foldl step {}) := by
  have first : (((handover.take 3).foldl step {}).step .look).Elected (.ofNat 1) :=
    elected_look (c := ⟨.ofNat 1, 1, false⟩) (by decide) rfl (by decide) (by decide)
  have second : (((handover.take 7).foldl step {}).step .look).Elected (.ofNat 2) :=
    elected_look (c := ⟨.ofNat 2, 2, false⟩) (by decide) rfl (by decide) (by decide)
  have still : (((handover.take 7).foldl step {}).step .look).Elected (.ofNat 1) := by
    obtain ⟨s, hs, hnode⟩ := first
    exact ⟨s, List.mem_cons_of_mem _ hs, hnode⟩
  apply Reachable.start.run
  exact ⟨⟨by decide, by decide⟩, ⟨by decide, by decide⟩, ⟨by decide, by decide⟩, trivial, first,
    trivial, trivial, trivial, still, second, trivial, trivial⟩

theorem sole_live_issuer_handover :
    ∃ c, (handover.foldl step {}).deployment.cluster.snapshot.coordinator? = some c ∧
      c.id = .ofNat 2 := by
  obtain ⟨m, hm, hself, halive, hne⟩ : ∃ m ∈ (handover.foldl step {}).deployment.managers,
      m.self = .ofNat 2 ∧ (handover.foldl step {}).deployment.cluster.alive m.self ∧
        m.counters.current ≠ 0 := by decide
  obtain ⟨c, hcoordinator, hid⟩ := (sole_live_issuer reachable_handover).1 m hm halive hne
  exact ⟨c, hcoordinator, hid.trans hself⟩

end History
end CounterCoordinator
