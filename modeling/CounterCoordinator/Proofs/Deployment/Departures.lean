import CounterCoordinator.Proofs.Deployment.Effects
import CounterCoordinator.Proofs.Manager.Waits
import Mathlib.Logic.Function.Basic

/-!
# Nobody waits for a departed node

A departure reaches a manager through its failure listener: as the next event the listener reads, or
among a run of events it missed, which it makes up for by looking at all targets at once. Requests
made afterwards fail on the spot, because a node is taken out of the cluster before its departure is
announced. So whatever a manager waits for is alive, or its departure is still to be read.
-/
namespace CounterCoordinator

namespace EventFeed
variable {α : Type}

inductive Yields (f : EventFeed α) (position : Nat) : Reading α → Prop
  | event {e : α} : f.sent[position]? = some e → Yields f position (.event e)
  | missed {count : Nat} : position + count ≤ f.sent.length → Yields f position (.missed count)

/-- How far a reading takes the subscriber. -/
def Reading.span : Reading α → Nat
  | .event _ => 1
  | .missed count => count
  | .nothing => 0

/-- Reading a feed yields the next event or a run of missed ones, and moves on behind them. -/
theorem read_spec (f : EventFeed α) {position : Nat} (h : position ≤ f.sent.length) :
    ((f.read position).1 = .nothing ∧ position = f.sent.length ∨
      f.Yields position (f.read position).1) ∧
    (f.read position).2 = position + (f.read position).1.span := by
  unfold read
  split
  · rename_i hlag
    unfold oldest at hlag ⊢
    refine ⟨.inr (.missed (by omega)), ?_⟩
    simp only [Reading.span]
    omega
  · split
    · rename_i e he
      exact ⟨.inr (.event he), rfl⟩
    · rename_i hend
      have hlast := List.getElem?_eq_none_iff.mp hend
      exact ⟨.inl ⟨rfl, by omega⟩, rfl⟩

end EventFeed

namespace Cluster

theorem take_eq (c : Cluster) (node : NodeId) :
    ∃ inboxes, (c.take node).2 = { c with inboxes } := by
  unfold take
  split
  · exact ⟨_, rfl⟩
  · split
    · exact ⟨_, rfl⟩
    · split <;> exact ⟨_, rfl⟩

theorem closeInbox_eq (c : Cluster) (node : NodeId) :
    ∃ inboxes, (c.closeInbox node).2 = { c with inboxes } := by
  unfold closeInbox
  split
  · split <;> exact ⟨_, rfl⟩
  · exact ⟨_, rfl⟩

end Cluster

namespace Deployment

theorem react_cluster (d : Deployment) (node : NodeId) (f : Manager → Reaction) :
    ∃ inboxes, (d.react node f).2.cluster = { d.cluster with inboxes } := by
  cases hm : d.manager? node with
  | none =>
    rw [react_of_none hm]
    exact ⟨_, rfl⟩
  | some m =>
    rw [react_of_some hm]
    unfold absorb
    split <;> exact ⟨_, rfl⟩

/-- Sending, receiving and listening leave the members and the departures as they are. -/
theorem perform_cluster (d : Deployment) {move : Move}
    (hjoin : ∀ id client cancelAcks, move ≠ .join id client cancelAcks)
    (hdepart : ∀ kind node, move ≠ .depart kind node) :
    ∃ inboxes, (d.perform move).cluster = { d.cluster with inboxes } := by
  cases move with
  | join id client cancelAcks => exact absurd rfl (hjoin id client cancelAcks)
  | depart kind node => exact absurd rfl (hdepart kind node)
  | look => exact ⟨_, rfl⟩
  | ask node target what => exact react_cluster { d with ids := d.ids.next.2 } node _
  | call node c => exact d.react_cluster node _
  | dispatch node =>
    rcases d.perform_dispatch node with heq | ⟨_, _, _, e, _, heq⟩
    · exact ⟨_, by rw [heq]⟩
    · obtain ⟨taken, htaken⟩ := d.cluster.take_eq node
      obtain ⟨inboxes, hinboxes⟩ := react_cluster { d with cluster := (d.cluster.take node).2 } node
        fun m => m.dispatch (d.cluster.take node).2.outlook e
      exact ⟨inboxes, by rw [heq, hinboxes, htaken]⟩
  | listen node position =>
    rcases d.perform_listen node position with heq | ⟨c, heq⟩
    · exact ⟨_, by rw [heq]⟩
    · rw [heq]
      exact d.react_cluster node _
  | closeInbox node => exact d.cluster.closeInbox_eq node

theorem mem_managers_react {d : Deployment} {node : NodeId} {f : Manager → Reaction}
    (hself : ∀ m, (f m).manager.self = m.self) {m : Manager}
    (h : m ∈ (d.react node f).2.managers) :
    (m ∈ d.managers ∧ m.self ≠ node) ∨
      ∃ old ∈ d.managers, old.self = node ∧ m = (f old).manager := by
  cases hm : d.manager? node with
  | none =>
    rw [react_of_none hm] at h
    have hnobody := List.find?_eq_none.mp hm m h
    exact .inl ⟨h, by simpa using hnobody⟩
  | some old =>
    obtain ⟨hold, hnode⟩ := mem_of_manager? hm
    rw [react_of_some hm] at h
    rcases mem_managers_absorb h with rfl | ⟨h, hne⟩
    · exact .inr ⟨old, hold, hnode, rfl⟩
    · rw [hself, hnode] at hne
      exact .inl ⟨h, hne⟩

theorem isSome_manager?_react (d : Deployment) (node other : NodeId) (f : Manager → Reaction) :
    ((d.react node f).2.manager? other).isSome = (d.manager? other).isSome := by
  rw [Bool.eq_iff_iff, isSome_manager?_iff, isSome_manager?_iff, selfs_react]

theorem waitsOn_react_call {d : Deployment} {here node : NodeId} {c : Call} {m : Manager}
    (hm : m ∈ (d.react here fun m => m.call d.cluster.outlook c).2.managers)
    (hwaits : m.WaitsOn node) : ∃ old ∈ d.managers, old.self = m.self ∧ old.WaitsOn node := by
  rcases mem_managers_react (fun m => m.call_self ..) hm with ⟨hm, -⟩ | ⟨old, hold, -, rfl⟩
  · exact ⟨m, hm, rfl, hwaits⟩
  · exact ⟨old, hold, (old.call_self ..).symm, hwaits.of_call⟩

/-- A request is the only way to start waiting. -/
theorem waitsOn_perform {d : Deployment} {move : Move} {m : Manager} {node : NodeId}
    (hm : m ∈ (d.perform move).managers) (hwaits : m.WaitsOn node) :
    (∃ old ∈ d.managers, old.self = m.self ∧ old.WaitsOn node) ∨
      ∃ what, move = .ask m.self node what ∧ d.cluster.refusal? node = none := by
  cases move with
  | join id client cancelAcks =>
    rcases List.mem_append.mp hm with hm | hm
    · exact .inl ⟨m, hm, rfl, hwaits⟩
    · rw [List.mem_singleton.mp hm] at hwaits
      rcases hwaits with ⟨e, he, -⟩ | ⟨-, e, he, -⟩ <;> cases he
  | ask here target what =>
    rcases mem_managers_react (fun m => m.ask_self ..) hm with ⟨hm, -⟩ | ⟨old, hold, hself, rfl⟩
    · exact .inl ⟨m, hm, rfl, hwaits⟩
    · rcases hwaits.of_ask with hwaits | ⟨rfl, hsent⟩
      · exact .inl ⟨old, hold, (old.ask_self ..).symm, hwaits⟩
      · exact .inr ⟨what, by rw [Manager.ask_self, hself], hsent⟩
  | call here c => exact .inl (waitsOn_react_call hm hwaits)
  | dispatch here =>
    rcases d.perform_dispatch here with heq | ⟨_, _, _, e, _, heq⟩
    · rw [heq] at hm
      exact .inl ⟨m, hm, rfl, hwaits⟩
    · rw [heq] at hm
      rcases mem_managers_react (fun m => m.dispatch_self ..) hm with ⟨hm, -⟩ | ⟨old, hold, -, rfl⟩
      · exact .inl ⟨m, hm, rfl, hwaits⟩
      · exact .inl ⟨old, hold, (old.dispatch_self ..).symm, hwaits.of_dispatch⟩
  | listen here position =>
    rcases d.perform_listen here position with heq | ⟨c, heq⟩
    · rw [heq] at hm
      exact .inl ⟨m, hm, rfl, hwaits⟩
    · rw [heq] at hm
      exact .inl (waitsOn_react_call hm hwaits)
  | depart | look | closeInbox => exact .inl ⟨m, hm, rfl, hwaits⟩

theorem isSome_manager?_perform {d : Deployment} {node : NodeId} (h : (d.manager? node).isSome)
    (move : Move) : ((d.perform move).manager? node).isSome := by
  rw [isSome_manager?_iff] at h ⊢
  rw [(d.grown move).selfs]
  exact List.mem_append_left _ h

theorem hear_eq (d : Deployment) (node : NodeId) (reading : EventFeed.Reading MembershipEvent) :
    (d.hear node reading).2 = d ∨
      ∃ c, (d.hear node reading).2 = (d.react node fun m => m.call d.cluster.outlook c).2 := by
  cases reading with
  | event e => exact .inr ⟨.departed e, rfl⟩
  | missed count => exact .inr ⟨.missed count, rfl⟩
  | nothing => exact .inl rfl

end Deployment

/-- A deployment, who ever joined it and made requests in it, and where the failure listeners read
on. -/
structure Watch where
  deployment : Deployment := {}
  joined : List NodeId := []
  asked : List NodeId := []
  positions : NodeId → Option Nat := fun _ => none

namespace Watch

inductive Move where
  | turn (move : Deployment.Move)
  /-- The failure listener of a node subscribes. -/
  | subscribe (node : NodeId)
  /-- The failure listener of a node handles what it read. -/
  | hear (node : NodeId) (reading : EventFeed.Reading MembershipEvent)
deriving DecidableEq, Repr

def step (w : Watch) : Move → Watch
  | .turn move => { w with
      deployment := w.deployment.perform move
      joined :=
        match move with
        | .join id _ _ => id :: w.joined
        | _ => w.joined
      asked :=
        match move with
        | .ask node _ _ => node :: w.asked
        | _ => w.asked }
  | .subscribe node => { w with
      positions := Function.update w.positions node w.deployment.cluster.events.position }
  | .hear node reading => { w with
      deployment := (w.deployment.hear node reading).2
      positions := Function.update w.positions node
        ((w.positions node).map fun position => position + reading.span) }

/-- Nodes join under new identities. A listener subscribes before its manager makes a request, and
handles what its subscription yields, one reading after the other. -/
def Allowed (w : Watch) : Move → Prop
  | .turn (.join id _ _) => id ∉ w.joined
  | .turn (.listen _ _) => False
  | .turn _ => True
  | .subscribe node =>
    (w.deployment.manager? node).isSome ∧ w.positions node = none ∧ node ∉ w.asked
  | .hear node reading => ∃ position, w.positions node = some position ∧
      w.deployment.cluster.events.Yields position reading

def Next (w w' : Watch) : Prop :=
  ∃ move, w.Allowed move ∧ w' = w.step move

def Departed (w : Watch) (node : NodeId) : Prop :=
  ∃ e ∈ w.deployment.cluster.events.sent, e.node = node

/-- The reading announces the departure of the node, or that departures were missed, after the node
departed. -/
def Tells (w : Watch) (reading : EventFeed.Reading MembershipEvent) (node : NodeId) : Prop :=
  match reading with
  | .event e => e.node = node
  | .missed _ => w.Departed node
  | .nothing => False

/-- Departed nodes stay away, and a manager with a listener waits only for live nodes and for
departed ones whose departure the listener has yet to read. -/
structure Attentive (w : Watch) : Prop where
  members : ∀ n ∈ w.deployment.cluster.members, n.id ∈ w.joined
  departed : ∀ node, w.Departed node → node ∈ w.joined ∧ w.deployment.cluster.alive node = false
  subscribed : ∀ node position, w.positions node = some position →
    (w.deployment.manager? node).isSome ∧ position ≤ w.deployment.cluster.events.sent.length
  waits : ∀ m ∈ w.deployment.managers, ∀ node, m.WaitsOn node →
    m.self ∈ w.asked ∧ ∀ position, w.positions m.self = some position →
      w.deployment.cluster.alive node ∨
        ∃ e ∈ w.deployment.cluster.events.sent.drop position, e.node = node

structure Settled (w : Watch) (here node : NodeId) : Prop where
  subscribed : (w.positions here).isSome
  departed : w.Departed node
  waits : ∀ m ∈ w.deployment.managers, m.self = here → ¬ m.WaitsOn node

section Steps
variable {w : Watch} {here node : NodeId} {reading : EventFeed.Reading MembershipEvent}

theorem waitsOn_step {move : Move} {m : Manager}
    (hm : m ∈ (w.step move).deployment.managers) (hwaits : m.WaitsOn node) :
    (∃ old ∈ w.deployment.managers, old.self = m.self ∧ old.WaitsOn node) ∨
      ∃ what, move = .turn (.ask m.self node what) ∧
        w.deployment.cluster.refusal? node = none := by
  cases move with
  | turn move =>
    rcases Deployment.waitsOn_perform hm hwaits with hold | ⟨what, rfl, hsent⟩
    · exact .inl hold
    · exact .inr ⟨what, rfl, hsent⟩
  | subscribe => exact .inl ⟨m, hm, rfl, hwaits⟩
  | hear here reading =>
    left
    change m ∈ (w.deployment.hear here reading).2.managers at hm
    rcases w.deployment.hear_eq here reading with heq | ⟨c, heq⟩
    · rw [heq] at hm
      exact ⟨m, hm, rfl, hwaits⟩
    · rw [heq] at hm
      exact Deployment.waitsOn_react_call hm hwaits

theorem hear_cluster (w : Watch) (here : NodeId) (reading : EventFeed.Reading MembershipEvent) :
    ∃ inboxes, (w.step (.hear here reading)).deployment.cluster =
      { w.deployment.cluster with inboxes } := by
  change ∃ inboxes, (w.deployment.hear here reading).2.cluster = _
  rcases w.deployment.hear_eq here reading with heq | ⟨c, heq⟩
  · exact ⟨_, by rw [heq]⟩
  · rw [heq]
    exact w.deployment.react_cluster here _

theorem not_waitsOn_of_tells (hgone : w.deployment.cluster.alive node = false)
    (htells : w.Tells reading node) {m : Manager}
    (hm : m ∈ (w.step (.hear here reading)).deployment.managers) (hself : m.self = here) :
    ¬ m.WaitsOn node := by
  intro hwaits
  cases reading with
  | event e =>
    rcases Deployment.mem_managers_react (fun m => m.call_self w.deployment.cluster.outlook
      (.departed e)) hm with ⟨-, hne⟩ | ⟨old, -, -, rfl⟩
    · exact hne hself
    · exact hwaits.ne_of_departed htells.symm
  | missed count =>
    rcases Deployment.mem_managers_react (fun m => m.call_self w.deployment.cluster.outlook
      (.missed count)) hm with ⟨-, hne⟩ | ⟨old, -, -, rfl⟩
    · exact hne hself
    · have halive : w.deployment.cluster.alive node = true := hwaits.alive_of_missed
      rw [hgone] at halive
      cases halive
  | nothing => exact htells

end Steps

namespace Attentive
variable {w : Watch}

theorem quiet (ha : w.Attentive) {move : Deployment.Move}
    (hjoin : ∀ id client cancelAcks, move ≠ .join id client cancelAcks)
    (hdepart : ∀ kind node, move ≠ .depart kind node) : (w.step (.turn move)).Attentive := by
  obtain ⟨inboxes, hcluster⟩ := w.deployment.perform_cluster hjoin hdepart
  have hjoined : (w.step (.turn move)).joined = w.joined := by
    cases move with
    | join id client cancelAcks => exact absurd rfl (hjoin id client cancelAcks)
    | depart | look | ask | call | dispatch | listen | closeInbox => rfl
  replace hcluster : (w.step (.turn move)).deployment.cluster =
      { w.deployment.cluster with inboxes } := hcluster
  constructor
  · rw [hcluster, hjoined]
    exact ha.members
  · unfold Departed
    rw [hcluster, hjoined]
    exact ha.departed
  · intro node position h
    obtain ⟨hmanager, hposition⟩ := ha.subscribed node position h
    rw [hcluster]
    exact ⟨Deployment.isSome_manager?_perform hmanager move, hposition⟩
  · intro m hm node hwaits
    rw [hcluster]
    rcases waitsOn_step hm hwaits with ⟨old, hold, hself, hwaits⟩ | ⟨what, hmove, hsent⟩
    · obtain ⟨hasked, hcause⟩ := ha.waits old hold node hwaits
      rw [← hself]
      refine ⟨?_, hcause⟩
      cases move <;> first | exact hasked | exact List.mem_cons_of_mem _ hasked
    · cases hmove
      have halive := (Cluster.inbox?_of_refusal? hsent).1
      exact ⟨List.mem_cons_self, fun _ _ => .inl halive⟩

theorem join (ha : w.Attentive) {id : NodeId} (hid : id ∉ w.joined) (client cancelAcks : Bool) :
    (w.step (.turn (.join id client cancelAcks))).Attentive := by
  have hmembers : (w.step (.turn (.join id client cancelAcks))).deployment.cluster.members =
      w.deployment.cluster.members ++ [⟨id, w.deployment.cluster.lastOrder + 1, client⟩] := rfl
  have halive : ∀ node,
      (w.step (.turn (.join id client cancelAcks))).deployment.cluster.alive node =
        (w.deployment.cluster.alive node || id == node) := by
    intro node
    simp [Cluster.alive, hmembers]
  constructor
  · intro n hn
    rw [hmembers] at hn
    rcases List.mem_append.mp hn with hn | hn
    · exact List.mem_cons_of_mem _ (ha.members n hn)
    · rw [List.mem_singleton.mp hn]
      exact List.mem_cons_self
  · intro node hdeparted
    obtain ⟨hjoined, hgone⟩ := ha.departed node hdeparted
    have hne : id ≠ node := fun h => hid (h ▸ hjoined)
    refine ⟨List.mem_cons_of_mem _ hjoined, ?_⟩
    simp [halive, hgone, hne]
  · intro node position h
    obtain ⟨hmanager, hposition⟩ := ha.subscribed node position h
    exact ⟨Deployment.isSome_manager?_perform hmanager _, hposition⟩
  · intro m hm node hwaits
    rcases waitsOn_step hm hwaits with ⟨old, hold, hself, hwaits⟩ | ⟨what, hmove, -⟩
    · obtain ⟨hasked, hcause⟩ := ha.waits old hold node hwaits
      rw [← hself]
      refine ⟨hasked, fun position hposition => (hcause position hposition).imp_left ?_⟩
      intro h
      simp [halive, h]
    · cases hmove

theorem depart (ha : w.Attentive) (kind : Departure) (gone : NodeId) :
    (w.step (.turn (.depart kind gone))).Attentive := by
  cases hmember : w.deployment.cluster.alive gone with
  | false =>
    have hsame : w.step (.turn (.depart kind gone)) = w := by
      simp [step, Deployment.perform, Cluster.depart, hmember]
    rw [hsame]
    exact ha
  | true =>
    have hcluster : (w.step (.turn (.depart kind gone))).deployment.cluster =
        { w.deployment.cluster with
          version := w.deployment.cluster.version + 1
          members := w.deployment.cluster.members.filter fun m => m.id != gone
          events := w.deployment.cluster.events.send
            ⟨kind, gone, w.deployment.cluster.version + 1⟩ } := by
      simp [step, Deployment.perform, Cluster.depart, hmember]
    have halive : ∀ node, (w.step (.turn (.depart kind gone))).deployment.cluster.alive node =
        (w.deployment.cluster.alive node && node != gone) := by
      intro node
      rw [hcluster, Bool.eq_iff_iff]
      simp only [Cluster.alive, List.any_filter, List.any_eq_true, Bool.and_eq_true, bne_iff_ne,
        beq_iff_eq]
      constructor
      · rintro ⟨n, hn, hne, rfl⟩
        exact ⟨⟨n, hn, rfl⟩, hne⟩
      · rintro ⟨⟨n, hn, rfl⟩, hne⟩
        exact ⟨n, hn, hne, rfl⟩
    constructor
    · intro n hn
      rw [hcluster] at hn
      exact ha.members n (List.mem_filter.mp hn).1
    · intro node hdeparted
      obtain ⟨n, hn, hid⟩ := Cluster.alive_iff.mp hmember
      unfold Departed at hdeparted
      rw [hcluster] at hdeparted
      obtain ⟨e, he, rfl⟩ := hdeparted
      rcases List.mem_append.mp he with he | he
      · obtain ⟨hjoined, hgone⟩ := ha.departed e.node ⟨e, he, rfl⟩
        exact ⟨hjoined, by simp [halive, hgone]⟩
      · rw [List.mem_singleton.mp he]
        exact ⟨hid ▸ ha.members n hn, by simp [halive]⟩
    · intro node position h
      obtain ⟨hmanager, hposition⟩ := ha.subscribed node position h
      refine ⟨hmanager, ?_⟩
      rw [hcluster]
      simp only [EventFeed.send, List.length_append]
      omega
    · intro m hm node hwaits
      rcases waitsOn_step hm hwaits with ⟨old, hold, hself, hwaits⟩ | ⟨what, hmove, -⟩
      · obtain ⟨hasked, hcause⟩ := ha.waits old hold node hwaits
        rw [← hself]
        refine ⟨hasked, fun position hposition => ?_⟩
        obtain ⟨-, hle⟩ := ha.subscribed _ position hposition
        rw [halive, hcluster]
        simp only [EventFeed.send, List.drop_append_of_le_length hle, List.mem_append,
          List.mem_singleton]
        rcases hcause position hposition with hlive | ⟨e, he, hnode⟩
        · by_cases hsame : node = gone
          · exact .inr ⟨_, .inr rfl, hsame.symm⟩
          · exact .inl (by simp [hlive, hsame])
        · exact .inr ⟨e, .inl he, hnode⟩
      · cases hmove

theorem subscribe (ha : w.Attentive) {node : NodeId} (hallowed : w.Allowed (.subscribe node)) :
    (w.step (.subscribe node)).Attentive := by
  obtain ⟨hmanager, -, hnew⟩ := hallowed
  refine ⟨ha.members, ha.departed, ?_, ?_⟩
  · intro other position h
    simp only [step, Function.update_apply] at h
    split at h
    · rename_i hother
      cases h
      exact ⟨hother ▸ hmanager, Nat.le_refl _⟩
    · exact ha.subscribed other position h
  · intro m hm target hwaits
    obtain ⟨hasked, hcause⟩ := ha.waits m hm target hwaits
    have hother : m.self ≠ node := fun h => hnew (h ▸ hasked)
    refine ⟨hasked, fun position hposition => hcause position ?_⟩
    simpa [step, Function.update_apply, hother] using hposition

theorem hear (ha : w.Attentive) {node : NodeId} {reading : EventFeed.Reading MembershipEvent}
    (hallowed : w.Allowed (.hear node reading)) : (w.step (.hear node reading)).Attentive := by
  obtain ⟨position, hposition, hyields⟩ := hallowed
  obtain ⟨inboxes, hcluster⟩ := w.hear_cluster node reading
  have hpositions : ∀ other, (w.step (.hear node reading)).positions other =
      if other = node then some (position + reading.span) else w.positions other := by
    intro other
    simp [step, Function.update_apply, hposition]
  constructor
  · rw [hcluster]
    exact ha.members
  · unfold Departed
    rw [hcluster]
    exact ha.departed
  · intro other p h
    rw [hpositions] at h
    rw [hcluster]
    have hkept : ∀ other, (w.deployment.manager? other).isSome →
        ((w.step (.hear node reading)).deployment.manager? other).isSome := by
      intro other h
      change ((w.deployment.hear node reading).2.manager? other).isSome
      rcases w.deployment.hear_eq node reading with heq | ⟨c, heq⟩
      · rw [heq]
        exact h
      · rw [heq]
        exact (w.deployment.isSome_manager?_react node other _).trans h
    split at h
    · rename_i hother
      cases h
      refine ⟨hkept other (hother ▸ (ha.subscribed node position hposition).1), ?_⟩
      cases hyields with
      | event he =>
        obtain ⟨hlt, -⟩ := List.getElem?_eq_some_iff.mp he
        exact hlt
      | missed hle => exact hle
    · obtain ⟨hmanager, hle⟩ := ha.subscribed other p h
      exact ⟨hkept other hmanager, hle⟩
  · intro m hm target hwaits
    rw [hcluster, hpositions]
    rcases waitsOn_step hm hwaits with ⟨old, hold, hself, hbefore⟩ | ⟨what, hmove, -⟩
    · obtain ⟨hasked, hcause⟩ := ha.waits old hold target hbefore
      rw [hself] at hasked hcause
      refine ⟨hasked, fun p hp => ?_⟩
      by_cases hnode : m.self = node
      · rw [if_pos hnode] at hp
        cases hp
        rcases hcause position (hnode ▸ hposition) with hlive | ⟨e, he, htarget⟩
        · exact .inl hlive
        · -- the departure is still to be read, or the manager has just stopped to wait
          have hdeparted : w.Departed target := ⟨e, List.mem_of_mem_drop he, htarget⟩
          have hgone := (ha.departed target hdeparted).2
          cases hyields with
          | @missed count =>
            have htells : w.Tells (.missed count) target := hdeparted
            exact absurd hwaits (not_waitsOn_of_tells hgone htells hm hnode)
          | @event next hnext =>
            obtain ⟨hlt, hnext⟩ := List.getElem?_eq_some_iff.mp hnext
            rw [List.drop_eq_getElem_cons hlt, hnext] at he
            rcases List.mem_cons.mp he with rfl | he
            · have htells : w.Tells (.event e) target := htarget
              exact absurd hwaits (not_waitsOn_of_tells hgone htells hm hnode)
            · exact .inr ⟨e, he, htarget⟩
      · rw [if_neg hnode] at hp
        exact hcause p hp
    · cases hmove

theorem step (ha : w.Attentive) {move : Move} (hallowed : w.Allowed move) :
    (w.step move).Attentive := by
  cases move with
  | subscribe node => exact ha.subscribe hallowed
  | hear node reading => exact ha.hear hallowed
  | turn move =>
    cases move with
    | join id client cancelAcks => exact ha.join hallowed client cancelAcks
    | depart kind node => exact ha.depart kind node
    | look | ask | call | dispatch | listen | closeInbox =>
      refine ha.quiet ?_ ?_ <;> intros <;> simp

theorem new : Attentive {} := by
  constructor <;> simp [Departed]

end Attentive

theorem departed_step {w : Watch} {node : NodeId} (h : w.Departed node) (move : Move) :
    (w.step move).Departed node := by
  obtain ⟨e, he, hnode⟩ := h
  refine ⟨e, ?_, hnode⟩
  have quiet : ∀ {c : Cluster}, (∃ inboxes, c = { w.deployment.cluster with inboxes }) →
      e ∈ c.events.sent := by
    rintro c ⟨inboxes, rfl⟩
    exact he
  cases move with
  | subscribe => exact he
  | hear here reading => exact quiet (w.hear_cluster here reading)
  | turn move =>
    cases move with
    | join => exact he
    | depart kind gone =>
      simp only [step, Deployment.perform, Cluster.depart]
      split
      · exact List.mem_append_left _ he
      · exact he
    | look | ask | call | dispatch | listen | closeInbox =>
      refine quiet (w.deployment.perform_cluster ?_ ?_) <;> intros <;> simp

/-- The deployment's own listener step reads nothing, or is a step that the watch knows. -/
theorem Attentive.listenOne {w : Watch} (ha : w.Attentive) {here : NodeId} {position : Nat}
    (h : w.positions here = some position) :
    let (reading, next, _, deployment) := w.deployment.listenOne here position
    (reading = .nothing ∧ next = position ∧ deployment = w.deployment) ∨
      (w.Allowed (.hear here reading) ∧ (w.step (.hear here reading)).deployment = deployment ∧
        (w.step (.hear here reading)).positions here = some next) := by
  have hle := (ha.subscribed here position h).2
  obtain ⟨hyields, hspan⟩ := w.deployment.cluster.events.read_spec hle
  simp only [Deployment.listenOne]
  rcases hyields with ⟨hnothing, -⟩ | hyields
  · rw [hnothing] at hspan ⊢
    exact .inl ⟨rfl, hspan, rfl⟩
  · refine .inr ⟨⟨position, h, hyields⟩, rfl, ?_⟩
    show Function.update w.positions here _ here = _
    rw [Function.update_self, h, Option.map_some, hspan]

namespace Settled
variable {w : Watch} {here node : NodeId}

theorem of_tells (ha : w.Attentive) {reading : EventFeed.Reading MembershipEvent}
    (hallowed : w.Allowed (.hear here reading)) (htells : w.Tells reading node) :
    (w.step (.hear here reading)).Settled here node := by
  obtain ⟨position, hposition, hyields⟩ := hallowed
  have hdeparted : w.Departed node := by
    cases hyields with
    | event he => exact ⟨_, List.mem_of_getElem? he, htells⟩
    | missed => exact htells
  refine ⟨?_, departed_step hdeparted _, ?_⟩
  · simp [step, hposition]
  · exact fun m hm hself => not_waitsOn_of_tells (ha.departed node hdeparted).2 htells hm hself

/-- Nobody starts to wait for a departed node: a request to it is refused. -/
theorem step (hs : w.Settled here node) (ha : w.Attentive) (move : Move) :
    (w.step move).Settled here node := by
  refine ⟨?_, departed_step hs.departed move, ?_⟩
  · cases move with
    | turn => exact hs.subscribed
    | subscribe other | hear other =>
      simp only [Watch.step, Function.update_apply]
      split
      · rename_i h
        simp [← h, hs.subscribed]
      · exact hs.subscribed
  · intro m hm hself hwaits
    rcases waitsOn_step hm hwaits with ⟨old, hold, hsame, hbefore⟩ | ⟨what, -, hsent⟩
    · exact hs.waits old hold (hsame.trans hself) hbefore
    · have halive := (Cluster.inbox?_of_refusal? hsent).1
      rw [(ha.departed node hs.departed).2] at halive
      cases halive

end Settled

theorem attentive_of_run {w w' : Watch} (ha : w.Attentive)
    (hrun : Relation.ReflTransGen Next w w') : w'.Attentive := by
  induction hrun with
  | refl => exact ha
  | tail _ hnext ih =>
    obtain ⟨move, hallowed, rfl⟩ := hnext
    exact ih.step hallowed

theorem settled_of_run {w w' : Watch} {here node : NodeId} (ha : w.Attentive)
    (hs : w.Settled here node) (hrun : Relation.ReflTransGen Next w w') : w'.Settled here node := by
  induction hrun with
  | refl => exact hs
  | tail hbefore hnext ih =>
    obtain ⟨move, -, rfl⟩ := hnext
    exact ih.step (attentive_of_run ha hbefore) move

/-- Once the failure listener of a manager was told that a node departed, by its departure event or
by a resync after it departed, the manager never waits for an answer of that node again, for commit
acknowledgements as far as it cancels these. And whatever a manager with a listener waits for is
alive, or its departure is among the events the listener has yet to read. What a listener is told
is what the deployment's own listener step reads. -/
theorem nobody_waits_for_departed {w : Watch} (hrun : Relation.ReflTransGen Next {} w) :
    (∀ here reading node, w.Allowed (.hear here reading) → w.Tells reading node →
      ∀ w', Relation.ReflTransGen Next (w.step (.hear here reading)) w' →
        ∃ m, w'.deployment.manager? here = some m ∧ m.counterWaits.countFor node = 0 ∧
          (m.cancelAcks → m.ackWaits.countFor node = 0)) ∧
    (∀ here position m node, w.positions here = some position →
      w.deployment.manager? here = some m → m.WaitsOn node →
        w.deployment.cluster.alive node ∨
          ∃ e ∈ w.deployment.cluster.events.sent.drop position, e.node = node) ∧
    ∀ here position, w.positions here = some position →
      let (reading, next, _, deployment) := w.deployment.listenOne here position
      (reading = .nothing ∧ next = position ∧ deployment = w.deployment) ∨
        (w.Allowed (.hear here reading) ∧ (w.step (.hear here reading)).deployment = deployment ∧
          (w.step (.hear here reading)).positions here = some next) := by
  have ha := attentive_of_run .new hrun
  refine ⟨?_, ?_, fun here position hposition => ha.listenOne hposition⟩
  · intro here reading node hallowed htells w' hlater
    have hs := settled_of_run (ha.step hallowed) (.of_tells ha hallowed htells) hlater
    have ha' := attentive_of_run (ha.step hallowed) hlater
    obtain ⟨position, hposition⟩ := Option.isSome_iff_exists.mp hs.subscribed
    obtain ⟨m, hm⟩ := Option.isSome_iff_exists.mp (ha'.subscribed here position hposition).1
    obtain ⟨hmem, hself⟩ := Deployment.mem_of_manager? hm
    exact ⟨m, hm, Manager.not_waitsOn_iff.mp (hs.waits m hmem hself)⟩
  · intro here position m node hposition hm hwaits
    obtain ⟨hmem, hself⟩ := Deployment.mem_of_manager? hm
    exact (ha.waits m hmem node hwaits).2 position (hself ▸ hposition)

/-- Node 1 asks node 2 for a counter and acknowledges a commit; node 2 and node 3 fail. -/
def failure : List Move :=
  [.turn (.join (.ofNat 1) false true), .subscribe (.ofNat 1),
    .turn (.join (.ofNat 2) false true), .turn (.join (.ofNat 3) false true),
    .turn (.ask (.ofNat 1) (.ofNat 2) (.txCounter ⟨1, 1, 1⟩)),
    .turn (.ask (.ofNat 1) (.ofNat 2) (.commit ⟨1, 1, 1⟩)),
    .turn (.ask (.ofNat 1) (.ofNat 3) .queryCounter),
    .turn (.depart .failed (.ofNat 2)), .turn (.depart .left (.ofNat 3))]

/-- The listener missed the first departure, and node 1 asks the departed nodes again. -/
def recovery : List Move :=
  [.turn (.ask (.ofNat 1) (.ofNat 2) (.txCounter ⟨1, 2, 1⟩)),
    .turn (.ask (.ofNat 1) (.ofNat 3) .queryCounter)]

theorem nobody_waits_for_departed_failure :
    Relation.ReflTransGen Next {} (failure.foldl step {}) ∧
      ∀ node ∈ [NodeId.ofNat 2, NodeId.ofNat 3],
        ∃ m, (recovery.foldl step ((failure.foldl step {}).step
            (.hear (.ofNat 1) (.missed 1)))).deployment.manager? (.ofNat 1) = some m ∧
          m.counterWaits.countFor node = 0 ∧ (m.cancelAcks → m.ackWaits.countFor node = 0) := by
  have hrun : Relation.ReflTransGen Next {} (failure.foldl step {}) := by
    apply AllAllowed.run
    have hsecond : NodeId.ofNat 2 ∉ [NodeId.ofNat 1] := by decide
    have hthird : NodeId.ofNat 3 ∉ [NodeId.ofNat 2, NodeId.ofNat 1] := by decide
    exact ⟨List.not_mem_nil, ⟨rfl, rfl, List.not_mem_nil⟩, hsecond, hthird, trivial, trivial,
      trivial, trivial, trivial, trivial⟩
  have hallowed : (failure.foldl step {}).Allowed (.hear (.ofNat 1) (.missed 1)) :=
    ⟨0, rfl, .missed (by decide)⟩
  refine ⟨hrun, ?_⟩
  intro node hnode
  have htells : (failure.foldl step {}).Tells (.missed 1) node := by
    have hdeparted : ∀ node ∈ [NodeId.ofNat 2, NodeId.ofNat 3],
        ∃ e ∈ (failure.foldl step {}).deployment.cluster.events.sent, e.node = node := by decide
    exact hdeparted node hnode
  refine (nobody_waits_for_departed hrun).1 _ _ node hallowed htells _ (AllAllowed.run ?_)
  exact ⟨trivial, trivial, trivial⟩

end Watch
end CounterCoordinator
