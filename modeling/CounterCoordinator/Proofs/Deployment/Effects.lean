import CounterCoordinator.Proofs.Deployment.History
import CounterCoordinator.Proofs.Network.Chronicle
import CounterCoordinator.Proofs.Topology.Enrolment
import Mathlib.Data.List.Perm.Subperm

/-!
# What a move does

A move of a deployment changes who belongs to it, closes an inbox, or is a turn of one manager. A
turn may take one envelope out of the manager's inbox and put one into another inbox, and nothing
else touches them.
-/
namespace CounterCoordinator

namespace Cluster
variable {c : Cluster} {node : NodeId} {change : Inbox → Inbox}

theorem inbox?_eq_none_iff : c.inbox? node = none ↔ node ∉ c.inboxes.map Inbox.owner := by
  simp [inbox?]

theorem inbox?_updateInbox (c : Cluster) (target : NodeId) (change : Inbox → Inbox)
    (howner : ∀ b, (change b).owner = b.owner) (node : NodeId) :
    (c.updateInbox target change).inbox? node =
      if node = target then (c.inbox? node).map change else c.inbox? node := by
  have hsame : ∀ b : Inbox,
      ((if b.owner = target then change b else b).owner == node) = (b.owner == node) := by
    intro b
    split
    · rw [howner]
    · rfl
  simp only [inbox?, updateInbox, List.find?_map, Function.comp_def, hsame]
  cases hb : c.inboxes.find? fun b => b.owner == node with
  | none => simp
  | some b =>
    have hnode : b.owner = node := by simpa using List.find?_some hb
    rw [Option.map_some, Option.map_some, hnode]
    exact apply_ite some _ _ _

theorem owners_updateInbox (c : Cluster) (node : NodeId)
    (howner : ∀ b, (change b).owner = b.owner) :
    (c.updateInbox node change).inboxes.map Inbox.owner = c.inboxes.map Inbox.owner := by
  rw [updateInbox, List.map_map]
  apply List.map_congr_left
  intro b _
  rw [Function.comp_apply]
  split
  · exact howner b
  · rfl

theorem updateInbox_of_none (h : c.inbox? node = none) : c.updateInbox node change = c := by
  have hfixed : ∀ b ∈ c.inboxes, (if b.owner = node then change b else b) = b := by
    intro b hb
    rw [if_neg]
    simpa using List.find?_eq_none.mp h b hb
  have hinboxes := (List.map_congr_left hfixed).trans (List.map_id _)
  rw [updateInbox, hinboxes]

theorem outlook_updateInbox (c : Cluster) (node : NodeId)
    (howner : ∀ b, (change b).owner = b.owner) (hclosed : ∀ b, (change b).closed = b.closed) :
    (c.updateInbox node change).outlook = c.outlook := by
  refine congrArg (Outlook.mk c.alive) (funext fun target => ?_)
  simp only [refusal?, inbox?_updateInbox c node change howner]
  cases c.inbox? target with
  | none => simp [alive, updateInbox]
  | some b => by_cases htarget : target = node <;> simp [htarget, hclosed, alive, updateInbox]

theorem outlook_take (c : Cluster) (node : NodeId) : (c.take node).2.outlook = c.outlook := by
  unfold take
  split
  · rfl
  · split
    · rfl
    · split
      · exact c.outlook_updateInbox node (fun _ => rfl) fun _ => rfl
      · rfl

theorem refusal?_take (c : Cluster) (node target : NodeId) :
    (c.take node).2.refusal? target = c.refusal? target :=
  congrFun (congrArg Outlook.refusal? (c.outlook_take node)) target

theorem closeInbox_eq_update (c : Cluster) (node : NodeId) :
    (c.closeInbox node).2 = c ∨ (c.closeInbox node).2 = c.updateInbox node Inbox.close := by
  unfold closeInbox
  split
  · split
    · exact .inl rfl
    · exact .inr rfl
  · exact .inl rfl

/-- A message is only sent to an inbox that takes it. -/
theorem inbox?_of_refusal? (h : c.refusal? node = none) :
    c.alive node ∧ ∃ b, c.inbox? node = some b ∧ b.closed = false := by
  unfold refusal? at h
  split at h
  · cases h
  · rename_i halive
    refine ⟨by simpa using halive, ?_⟩
    split at h
    · rename_i b hb
      split at h
      · cases h
      · rename_i hopen
        exact ⟨b, hb, by simpa using hopen⟩
    · cases h

end Cluster

namespace Deployment

/-- The deployment as a network of its members, with nothing in flight. -/
def network (d : Deployment) : Network where
  version := d.cluster.version
  live := d.cluster.members
  managers := d.managers
  ids := d.ids

def taken? (d : Deployment) : Move → Option Envelope
  | .dispatch node =>
      match (d.cluster.take node).1 with
      | .envelope e => some e
      | _ => none
  | _ => none

/-- The reaction of the manager whose turn a move is. -/
def reaction? (d : Deployment) : Move → Option Reaction
  | .ask node target what => (d.request node fun view m id => m.ask view id target what).2.1
  | .call node c => (d.react node fun m => m.call d.cluster.outlook c).1
  | .dispatch node => (d.dispatchOne node).2.1
  | .listen node position => (d.listenOne node position).2.2.1
  | _ => none

/-- All that a move can be: what it takes out of an inbox, how a manager reacts, and the deployment
after it. -/
inductive Effect (d : Deployment) : Move → Option Envelope → Option Reaction → Deployment → Prop
  | look : Effect d .look none none d
  | joined (id : NodeId) (client cancelAcks : Bool) :
      Effect d (.join id client cancelAcks) none none (d.joinAs id client cancelAcks).2.2
  | departed (kind : Departure) (node : NodeId) :
      Effect d (.depart kind node) none none
        { d with cluster := (d.cluster.depart kind node).2.2 }
  | closed (node : NodeId) :
      Effect d (.closeInbox node) none none { d with cluster := (d.cluster.closeInbox node).2 }
  | unasked {node target : NodeId} {what : Request} : d.manager? node = none →
      Effect d (.ask node target what) none none { d with ids := d.ids.next.2 }
  | asked {node target : NodeId} {what : Request} {m : Manager} : d.manager? node = some m →
      Effect d (.ask node target what) none
        (some (m.ask d.cluster.outlook d.ids.next.1 target what))
        (absorb { d with ids := d.ids.next.2 }
          (m.ask d.cluster.outlook d.ids.next.1 target what))
  | uncalled {node : NodeId} {c : Call} : d.manager? node = none →
      Effect d (.call node c) none none d
  | called {node : NodeId} {c : Call} {m : Manager} : d.manager? node = some m →
      Effect d (.call node c) none (some (m.call d.cluster.outlook c))
        (d.absorb (m.call d.cluster.outlook c))
  | unheard {node : NodeId} {position : Nat} : Effect d (.listen node position) none none d
  | heard {node : NodeId} {position : Nat} {c : Call} {m : Manager} : d.manager? node = some m →
      Effect d (.listen node position) none (some (m.call d.cluster.outlook c))
        (d.absorb (m.call d.cluster.outlook c))
  | untaken {node : NodeId} : Effect d (.dispatch node) none none d
  | unread {node : NodeId} {e : Envelope} : (d.cluster.take node).1 = .envelope e →
      d.manager? node = none →
        Effect d (.dispatch node) (some e) none { d with cluster := (d.cluster.take node).2 }
  | read {node : NodeId} {e : Envelope} {m : Manager} :
      (d.cluster.take node).1 = .envelope e → d.manager? node = some m →
        Effect d (.dispatch node) (some e)
          (some (m.dispatch d.cluster.outlook e))
          (absorb { d with cluster := (d.cluster.take node).2 } (m.dispatch d.cluster.outlook e))

theorem owners_absorb (d : Deployment) (r : Reaction) :
    (d.absorb r).cluster.inboxes.map Inbox.owner = d.cluster.inboxes.map Inbox.owner := by
  unfold absorb
  split
  · exact d.cluster.owners_updateInbox _ fun b => b.put_owner _
  · rfl

theorem isSome_manager?_iff {d : Deployment} {node : NodeId} :
    (d.manager? node).isSome ↔ node ∈ d.managers.map Manager.self := by
  simp [manager?]

theorem selfs_absorb (d : Deployment) (r : Reaction) :
    (d.absorb r).managers.map Manager.self = d.managers.map Manager.self := by
  rw [absorb_managers, setManager, List.map_map]
  apply List.map_congr_left
  intro m _
  rw [Function.comp_apply]
  split
  · rename_i hself
    exact hself.symm
  · rfl

theorem selfs_react (d : Deployment) (node : NodeId) (f : Manager → Reaction) :
    (d.react node f).2.managers.map Manager.self = d.managers.map Manager.self := by
  cases h : d.manager? node with
  | none => rw [react_of_none h]
  | some m => rw [react_of_some h, selfs_absorb]

theorem ids_absorb (d : Deployment) (r : Reaction) : (d.absorb r).ids = d.ids := by
  unfold absorb
  split <;> rfl

theorem manager?_absorb_eq {d : Deployment} {here : NodeId} {m : Manager} {r : Reaction}
    (hm : d.manager? here = some m) (hself : r.manager.self = m.self) (node : NodeId) :
    (d.absorb r).manager? node = if node = here then some r.manager else d.manager? node := by
  unfold manager?
  rw [absorb_managers]
  exact Network.manager?_absorb_eq (n := d.network) hm hself node

theorem dispatchOne_eq (d : Deployment) {node : NodeId} {e : Envelope}
    (htake : (d.cluster.take node).1 = .envelope e) :
    d.dispatchOne node =
      (.envelope e, react { d with cluster := (d.cluster.take node).2 } node fun m =>
        m.dispatch d.cluster.outlook e) := by
  have hpair : d.cluster.take node = (.envelope e, (d.cluster.take node).2) := Prod.ext htake rfl
  rw [dispatchOne, hpair, ← d.cluster.outlook_take node]

theorem dispatchOne_of_manager {d : Deployment} {node : NodeId} {e : Envelope} {m : Manager}
    (htake : (d.cluster.take node).1 = .envelope e) (hm : d.manager? node = some m) :
    d.dispatchOne node =
      (.envelope e, some (m.dispatch d.cluster.outlook e),
        absorb { d with cluster := (d.cluster.take node).2 } (m.dispatch d.cluster.outlook e)) := by
  rw [d.dispatchOne_eq htake,
    react_eq_of_some (d := { d with cluster := (d.cluster.take node).2 }) hm]

theorem effect (d : Deployment) (move : Move) :
    Effect d move (d.taken? move) (d.reaction? move) (d.perform move) := by
  cases move with
  | look => exact .look
  | join id client cancelAcks => exact .joined id client cancelAcks
  | depart kind node => exact .departed kind node
  | closeInbox node => exact .closed node
  | ask node target what =>
    cases hm : d.manager? node with
    | none =>
      have hreact := react_eq_of_none (d := { d with ids := d.ids.next.2 }) hm
      simp only [taken?, reaction?, perform, request, hreact]
      exact .unasked hm
    | some m =>
      have hreact := react_eq_of_some (d := { d with ids := d.ids.next.2 }) hm
      simp only [taken?, reaction?, perform, request, hreact]
      exact .asked hm
  | call node c =>
    cases hm : d.manager? node with
    | none =>
      simp only [taken?, reaction?, perform, react_eq_of_none hm]
      exact .uncalled hm
    | some m =>
      simp only [taken?, reaction?, perform, react_eq_of_some hm]
      exact .called hm
  | listen node position =>
    have heard : ∀ c, Effect d (.listen node position) none
        (d.react node fun m => m.call d.cluster.outlook c).1
        (d.react node fun m => m.call d.cluster.outlook c).2 := by
      intro c
      cases hm : d.manager? node with
      | none =>
        rw [react_eq_of_none hm]
        exact .unheard
      | some m =>
        rw [react_eq_of_some hm]
        exact .heard hm
    simp only [taken?, reaction?, perform, listenOne, hear]
    split
    · exact heard (.departed _)
    · exact heard (.missed _)
    · exact .unheard
  | dispatch node =>
    simp only [taken?, reaction?, perform]
    cases htake : (d.cluster.take node).1 with
    | envelope e =>
      cases hm : d.manager? node with
      | none =>
        rw [d.dispatchOne_eq htake,
          react_eq_of_none (d := { d with cluster := (d.cluster.take node).2 }) hm]
        exact .unread htake hm
      | some m =>
        rw [dispatchOne_of_manager htake hm]
        exact .read htake hm
    | empty | disconnected | closed =>
      have hpair : d.cluster.take node = (_, (d.cluster.take node).2) := Prod.ext htake rfl
      rw [dispatchOne, hpair]
      exact .untaken

def Move.joins? : Move → Option NodeId
  | join id _ _ => some id
  | _ => none

def Move.asks : Move → Bool
  | ask .. => true
  | _ => false

section Grown
variable {d d' : Deployment}

/-- From `d` to `d'` somebody may have joined, and members may have gone. -/
structure Grown (d d' : Deployment) (joined? : Option NodeId) : Prop where
  owners : d'.cluster.inboxes.map Inbox.owner =
    joined?.toList ++ d.cluster.inboxes.map Inbox.owner
  selfs : d'.managers.map Manager.self = d.managers.map Manager.self ++ joined?.toList
  members : ∀ n ∈ d'.cluster.members, n ∈ d.cluster.members ∨ joined? = some n.id

namespace Grown

theorem with_ids (d : Deployment) (ids : IdSource) : Grown d { d with ids } none :=
  ⟨rfl, (List.append_nil _).symm, fun _ hn => .inl hn⟩

theorem absorb (hg : Grown d d' none) (r : Reaction) : Grown d (d'.absorb r) none := by
  refine ⟨(owners_absorb ..).trans hg.owners, (selfs_absorb ..).trans hg.selfs, ?_⟩
  rw [(absorb_roster ..).1]
  exact hg.members

theorem updateInbox (d : Deployment) (node : NodeId) {change : Inbox → Inbox}
    (howner : ∀ b, (change b).owner = b.owner) :
    Grown d { d with cluster := d.cluster.updateInbox node change } none :=
  ⟨Cluster.owners_updateInbox _ _ howner, (List.append_nil _).symm, fun _ hn => .inl hn⟩

theorem take {node : NodeId} {e : Envelope} (htake : (d.cluster.take node).1 = .envelope e) :
    Grown d { d with cluster := (d.cluster.take node).2 } none := by
  obtain ⟨_, _, _, _, _, hafter⟩ := Cluster.take_spec htake
  rw [hafter]
  exact .updateInbox d node fun _ => rfl

end Grown

theorem grown (d : Deployment) (move : Move) : Grown d (d.perform move) move.joins? := by
  have heffect := d.effect move
  generalize d.taken? move = t, d.reaction? move = r, d.perform move = d' at heffect ⊢
  cases heffect with
  | look | unheard | uncalled | untaken | unasked => exact .with_ids d _
  | joined id client cancelAcks =>
    refine ⟨rfl, List.map_append, ?_⟩
    intro n hn
    rcases List.mem_append.mp hn with hn | hn
    · exact .inl hn
    · rw [List.mem_singleton.mp hn]
      exact .inr rfl
  | departed kind node =>
    refine ⟨?_, (List.append_nil _).symm, ?_⟩
    · exact congrArg _ (d.cluster.depart_inboxes kind node)
    · intro n hn
      rw [Cluster.depart_members] at hn
      exact .inl (List.mem_of_mem_filter hn)
  | closed node =>
    rcases d.cluster.closeInbox_eq_update node with hsame | hclose
    · rw [hsame]
      exact .with_ids d d.ids
    · rw [hclose]
      exact .updateInbox d node fun _ => rfl
  | asked | called | heard => exact (Grown.with_ids d _).absorb _
  | unread htake => exact .take htake
  | read htake => exact (Grown.take htake).absorb _

theorem ids_perform (d : Deployment) (move : Move) :
    (d.perform move).ids = if move.asks then d.ids.next.2 else d.ids := by
  have heffect := d.effect move
  generalize d.taken? move = t, d.reaction? move = r, d.perform move = d' at heffect ⊢
  cases heffect with
  | asked => exact ids_absorb ..
  | called | heard | read => exact ids_absorb ..
  | _ => rfl

theorem last_perform {d : Deployment} {move : Move}
    (hroom : move.asks → d.ids.last.toNat + 1 < UInt64.size) :
    (d.perform move).ids.last.toNat = d.ids.last.toNat + move.asks.toNat := by
  rw [ids_perform]
  cases hasks : move.asks with
  | false => rfl
  | true => exact IdSource.toNat_next (hroom hasks)

end Grown

end Deployment
end CounterCoordinator
