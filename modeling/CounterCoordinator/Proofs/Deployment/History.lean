import CounterCoordinator.Deployment
import CounterCoordinator.Proofs.Manager.Turn
import CounterCoordinator.Proofs.Runs

/-!
# Runs of a deployment

A run of a deployment is a row of moves: nodes join and depart, anybody takes a snapshot of the
topology, and managers ask, are called, and serve their inboxes and the departures they hear of. The
history remembers who joined and which snapshots were taken. A counter for a transaction is only
ever asked of a node that some snapshot elected, but that snapshot may be as old as the run.
-/
namespace CounterCoordinator

theorem Inbox.put_owner (b : Inbox) (e : Envelope) : (b.put e).owner = b.owner := by
  unfold put
  split <;> rfl

theorem Inbox.mem_put {b : Inbox} {e x : Envelope} (h : x ∈ (b.put e).queue) :
    x ∈ b.queue ∨ x = e := by
  unfold put at h
  split at h
  · exact .inl h
  · exact (List.mem_append.mp h).imp_right List.mem_singleton.mp

namespace Cluster
variable {c : Cluster} {node : NodeId}

/-- From `c` to `c'` the members stay, and inboxes only lose envelopes. -/
structure Drained (c c' : Cluster) : Prop where
  members : c'.members = c.members
  lastOrder : c'.lastOrder = c.lastOrder
  queues : ∀ b ∈ c'.inboxes, ∀ e ∈ b.queue, ∃ old ∈ c.inboxes, old.owner = b.owner ∧ e ∈ old.queue

theorem Drained.refl (c : Cluster) : Drained c c :=
  ⟨rfl, rfl, fun b hb _ he => ⟨b, hb, rfl, he⟩⟩

theorem inbox?_spec {b : Inbox} (h : c.inbox? node = some b) : b ∈ c.inboxes ∧ b.owner = node :=
  ⟨List.mem_of_find?_eq_some h, by simpa using List.find?_some h⟩

theorem drained_updateInbox {change : Inbox → Inbox}
    (howner : ∀ b, (change b).owner = b.owner)
    (hqueue : ∀ b ∈ c.inboxes, b.owner = node → ∀ e ∈ (change b).queue,
      ∃ old ∈ c.inboxes, old.owner = node ∧ e ∈ old.queue) :
    Drained c (c.updateInbox node change) := by
  refine ⟨rfl, rfl, ?_⟩
  intro b hb e he
  obtain ⟨old, hold, hb⟩ := List.mem_map.mp hb
  by_cases hnode : old.owner = node
  · rw [if_pos hnode] at hb
    subst hb
    rw [howner, hnode]
    exact hqueue old hold hnode e he
  · rw [if_neg hnode] at hb
    subst hb
    exact ⟨old, hold, rfl, he⟩

theorem drained_take (c : Cluster) (node : NodeId) : Drained c (c.take node).2 := by
  unfold take
  split
  · exact .refl c
  · rename_i b hb
    obtain ⟨hmem, howner⟩ := inbox?_spec hb
    split
    · exact .refl c
    · split
      · rename_i first rest hqueue
        refine drained_updateInbox (fun _ => rfl) ?_
        intro _ _ _ e he
        refine ⟨b, hmem, howner, ?_⟩
        rw [hqueue]
        exact List.mem_cons_of_mem _ he
      · exact .refl c

theorem drained_closeInbox (c : Cluster) (node : NodeId) : Drained c (c.closeInbox node).2 := by
  unfold closeInbox
  split
  · split
    · exact .refl c
    · refine drained_updateInbox (fun _ => rfl) ?_
      intro _ _ _ e he
      cases he
  · exact .refl c

/-- What the reader of an inbox takes is the oldest envelope in it. -/
theorem take_spec {e : Envelope} (h : (c.take node).1 = .envelope e) :
    ∃ b rest, c.inbox? node = some b ∧ b.closed = false ∧ b.queue = e :: rest ∧
      (c.take node).2 = c.updateInbox node fun b => { b with queue := rest } := by
  unfold take at h ⊢
  cases hb : c.inbox? node with
  | none =>
    rw [hb] at h
    cases h
  | some b =>
    rw [hb] at h
    simp only at h ⊢
    split at h
    · cases h
    · rename_i hopen
      cases hqueue : b.queue with
      | nil =>
        simp only [hqueue] at h
        split at h <;> cases h
      | cons first rest =>
        simp only [hqueue] at h
        cases h
        exact ⟨b, rest, rfl, by simpa using hopen, hqueue, by rw [if_neg hopen]⟩

theorem mem_of_take {e : Envelope} (h : (c.take node).1 = .envelope e) :
    ∃ b ∈ c.inboxes, b.owner = node ∧ e ∈ b.queue := by
  obtain ⟨b, rest, hb, -, hqueue, -⟩ := take_spec h
  obtain ⟨hmem, howner⟩ := inbox?_spec hb
  exact ⟨b, hmem, howner, hqueue ▸ List.mem_cons_self⟩

end Cluster

namespace Deployment

inductive Move where
  | join (id : NodeId) (client cancelAcks : Bool)
  | depart (kind : Departure) (node : NodeId)
  | look
  | ask (node target : NodeId) (what : Request)
  | call (node : NodeId) (c : Call)
  | dispatch (node : NodeId)
  | listen (node : NodeId) (position : Nat)
  | closeInbox (node : NodeId)
deriving DecidableEq, Repr

def perform (d : Deployment) : Move → Deployment
  | .join id client cancelAcks => (d.joinAs id client cancelAcks).2.2
  | .depart kind node => { d with cluster := (d.cluster.depart kind node).2.2 }
  | .look => d
  | .ask node target what => (d.request node fun view m id => m.ask view id target what).2.2
  | .call node c => (d.react node fun m => m.call d.cluster.outlook c).2
  | .dispatch node => (d.dispatchOne node).2.2
  | .listen node position => (d.listenOne node position).2.2.2
  | .closeInbox node => { d with cluster := (d.cluster.closeInbox node).2 }

theorem mem_of_manager? {d : Deployment} {node : NodeId} {m : Manager}
    (h : d.manager? node = some m) : m ∈ d.managers ∧ m.self = node :=
  ⟨List.mem_of_find?_eq_some h, by simpa using List.find?_some h⟩

theorem react_eq_of_none {d : Deployment} {node : NodeId} (h : d.manager? node = none)
    (f : Manager → Reaction) : d.react node f = (none, d) := by
  simp [react, h]

theorem react_eq_of_some {d : Deployment} {node : NodeId} {m : Manager}
    (h : d.manager? node = some m) (f : Manager → Reaction) :
    d.react node f = (some (f m), d.absorb (f m)) := by
  simp [react, h]

theorem react_of_none {d : Deployment} {node : NodeId} (h : d.manager? node = none)
    (f : Manager → Reaction) : (d.react node f).2 = d := by
  rw [react_eq_of_none h]

theorem react_of_some {d : Deployment} {node : NodeId} {m : Manager}
    (h : d.manager? node = some m) (f : Manager → Reaction) :
    (d.react node f).2 = d.absorb (f m) := by
  rw [react_eq_of_some h]

theorem absorb_managers (d : Deployment) (r : Reaction) :
    (d.absorb r).managers = (d.setManager r.manager).managers := by
  unfold absorb
  split <;> rfl

theorem mem_managers_absorb {d : Deployment} {r : Reaction} {m : Manager}
    (h : m ∈ (d.absorb r).managers) :
    m = r.manager ∨ (m ∈ d.managers ∧ m.self ≠ r.manager.self) := by
  rw [absorb_managers] at h
  obtain ⟨old, hold, rfl⟩ := List.mem_map.mp h
  by_cases hself : old.self = r.manager.self
  · exact .inl (if_pos hself)
  · rw [if_neg hself]
    exact .inr ⟨hold, hself⟩

theorem absorb_roster (d : Deployment) (r : Reaction) :
    (d.absorb r).cluster.members = d.cluster.members ∧
      (d.absorb r).cluster.lastOrder = d.cluster.lastOrder := by
  unfold absorb
  split <;> exact ⟨rfl, rfl⟩

theorem react_roster (d : Deployment) (node : NodeId) (f : Manager → Reaction) :
    (d.react node f).2.cluster.members = d.cluster.members ∧
      (d.react node f).2.cluster.lastOrder = d.cluster.lastOrder := by
  cases h : d.manager? node with
  | none =>
    rw [react_of_none h]
    exact ⟨rfl, rfl⟩
  | some m =>
    rw [react_of_some h]
    exact absorb_roster ..

/-- Whatever is in an inbox after a message was sent was there before, or is that message. -/
theorem mem_queue_absorb {d : Deployment} {r : Reaction} {b : Inbox} {e : Envelope}
    (hb : b ∈ (d.absorb r).cluster.inboxes) (he : e ∈ b.queue) :
    (∃ old ∈ d.cluster.inboxes, old.owner = b.owner ∧ e ∈ old.queue) ∨
      ∃ out, r.sent = some out ∧ b.owner = out.target ∧ e.payload = out.payload := by
  unfold absorb at hb
  split at hb
  · rename_i out hout
    obtain ⟨old, hold, hb⟩ := List.mem_map.mp hb
    by_cases howner : old.owner = out.target
    · rw [if_pos howner] at hb
      subst hb
      rcases Inbox.mem_put he with he | rfl
      · exact .inl ⟨old, hold, (Inbox.put_owner ..).symm, he⟩
      · exact .inr ⟨out, hout, (Inbox.put_owner ..).trans howner, rfl⟩
    · rw [if_neg howner] at hb
      subst hb
      exact .inl ⟨old, hold, rfl, he⟩
  · exact .inl ⟨b, hb, rfl, he⟩

/-- A dispatcher hands its manager an envelope that was in the inbox, or does nothing. -/
theorem perform_dispatch (d : Deployment) (node : NodeId) :
    d.perform (.dispatch node) = d ∨
      ∃ b ∈ d.cluster.inboxes, b.owner = node ∧ ∃ e ∈ b.queue, d.perform (.dispatch node) =
        (react { d with cluster := (d.cluster.take node).2 } node fun m =>
          m.dispatch (d.cluster.take node).2.outlook e).2 := by
  simp only [perform, dispatchOne]
  split
  · rename_i e cluster htake
    have hfirst : (d.cluster.take node).1 = .envelope e := by rw [htake]
    obtain ⟨b, hb, howner, he⟩ := Cluster.mem_of_take hfirst
    rw [htake]
    exact .inr ⟨b, hb, howner, e, he, rfl⟩
  · exact .inl rfl

/-- What a listener reads makes its manager do nothing but a call. -/
theorem perform_listen (d : Deployment) (node : NodeId) (position : Nat) :
    d.perform (.listen node position) = d ∨ ∃ c, d.perform (.listen node position) =
      (d.react node fun m => m.call d.cluster.outlook c).2 := by
  simp only [perform, listenOne, hear]
  split
  · exact .inr ⟨.departed _, rfl⟩
  · exact .inr ⟨.missed _, rfl⟩
  · exact .inl rfl

end Deployment

structure History where
  deployment : Deployment := {}
  joined : List ClusterNode := []
  seen : List Snapshot := []

namespace History

def step (h : History) (move : Deployment.Move) : History where
  deployment := h.deployment.perform move
  joined :=
    match move with
    | .join id client cancelAcks =>
        h.joined ++ [(h.deployment.joinAs id client cancelAcks).1]
    | _ => h.joined
  seen :=
    match move with
    | .look => h.deployment.cluster.snapshot :: h.seen
    | _ => h.seen

/-- Some snapshot of the run elected the node. -/
def Elected (h : History) (node : NodeId) : Prop :=
  ∃ s ∈ h.seen, s.coordinator?.map ClusterNode.id = some node

/-- Nodes join under new identities and while join orders last, and counters are asked of elected
nodes. -/
def Allowed (h : History) : Deployment.Move → Prop
  | .join id _ _ => (∀ n ∈ h.joined, n.id ≠ id) ∧ h.joined.length + 1 < UInt64.size
  | .ask _ target (.txCounter _) => h.Elected target
  | _ => True

inductive Reachable : History → Prop
  | start : Reachable {}
  | step {h : History} {move : Deployment.Move} :
      Reachable h → h.Allowed move → Reachable (h.step move)

theorem Reachable.run {h : History} (hr : Reachable h) {moves : List Deployment.Move}
    (hall : AllAllowed Allowed History.step h moves) : Reachable (moves.foldl History.step h) :=
  hall.keeps hr .step

end History
end CounterCoordinator
