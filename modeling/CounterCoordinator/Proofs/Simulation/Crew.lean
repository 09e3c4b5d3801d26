import CounterCoordinator.Proofs.Deployment.Departures
import CounterCoordinator.Proofs.Deployment.Effects
import CounterCoordinator.Proofs.Simulation.Course
import Mathlib.Algebra.Order.Ring.Nat

/-!
# The crew of a simulation

The nodes of a simulation join before it starts, clients first. After that nobody joins, and only
the failure takes a node away: the server that joined first, at the moment when the given number of
transactions have ended. `Staffed` says so of a state, and every step keeps it.
-/
namespace CounterCoordinator

theorem sum_map_modify {α : Type} {l : List α} {i : Nat} {x : α} (hx : l[i]? = some x)
    (change : α → α) (weight : α → Nat) :
    ((l.modify i change).map weight).sum + weight x =
      (l.map weight).sum + weight (change x) := by
  induction l generalizing i with
  | nil => cases hx
  | cons y rest ih =>
    cases i with
    | zero =>
      cases hx
      simp only [List.modify_zero_cons, List.map_cons, List.sum_cons]
      omega
    | succ i =>
      have hrest := ih (i := i) hx
      simp only [List.modify_succ_cons, List.map_cons, List.sum_cons]
      omega

namespace Deployment

/-- The move neither brings nor takes a node, nor closes an inbox. -/
def Move.stays : Move → Bool
  | join .. | depart .. | closeInbox _ => false
  | _ => true

theorem cluster_of_stays (d : Deployment) {move : Move} (hstays : move.stays) :
    ∃ inboxes, (d.perform move).cluster = { d.cluster with inboxes } := by
  apply d.perform_cluster
  · rintro id client cancelAcks rfl
    cases hstays
  · rintro kind node rfl
    cases hstays

/-- Whose an inbox is, and whether it is closed. -/
def slot (b : Inbox) : NodeId × Bool := (b.owner, b.closed)

structure Houses (d d' : Deployment) : Prop where
  slots : d'.cluster.inboxes.map slot = d.cluster.inboxes.map slot
  selfs : d'.managers.map Manager.self = d.managers.map Manager.self

namespace Houses
variable {d d' : Deployment} {move : Move}

theorem of_ids (d : Deployment) (ids : IdSource) : Houses d { d with ids } :=
  ⟨rfl, rfl⟩

theorem slots_updateInbox (c : Cluster) (node : NodeId) {change : Inbox → Inbox}
    (hslot : ∀ b, slot (change b) = slot b) :
    (c.updateInbox node change).inboxes.map slot = c.inboxes.map slot := by
  rw [Cluster.updateInbox, List.map_map]
  apply List.map_congr_left
  intro b _
  rw [Function.comp_apply]
  split
  · exact hslot b
  · rfl

theorem slot_put (b : Inbox) (e : Envelope) : slot (b.put e) = slot b := by
  unfold Inbox.put
  split <;> rfl

theorem absorb (hh : Houses d d') (r : Reaction) : Houses d (d'.absorb r) := by
  refine ⟨?_, (selfs_absorb ..).trans hh.selfs⟩
  unfold Deployment.absorb
  split
  · exact (slots_updateInbox _ _ fun b => slot_put b _).trans hh.slots
  · exact hh.slots

theorem take {node : NodeId} {e : Envelope} (htake : (d.cluster.take node).1 = .envelope e) :
    Houses d { d with cluster := (d.cluster.take node).2 } := by
  obtain ⟨_, _, _, _, _, hafter⟩ := Cluster.take_spec htake
  rw [hafter]
  exact ⟨slots_updateInbox _ _ fun _ => rfl, rfl⟩

theorem perform (d : Deployment) (hstays : move.stays) : Houses d (d.perform move) := by
  have heffect := d.effect move
  generalize d.taken? move = t, d.reaction? move = r, d.perform move = d' at heffect ⊢
  cases heffect with
  | joined | departed | closed => cases hstays
  | look | unheard | uncalled | untaken | unasked => exact .of_ids d _
  | asked | called | heard => exact (Houses.of_ids d _).absorb _
  | unread htake => exact .take htake
  | read htake => exact (Houses.take htake).absorb _

end Houses

end Deployment

namespace Simulation

namespace Phase

def ended : Phase → Bool
  | done _ => true
  | _ => false

end Phase

theorem isOver_iff {s : Simulation} : s.isOver ↔ ∀ run ∈ s.runs, run.phase.ended := by
  rw [isOver, List.all_eq_true]
  refine forall₂_congr fun run _ => ?_
  cases run.phase <;> rfl

theorem Passage.ended {s : Simulation} {i : Nat} {run : Run} {move : Move} {dm : Deployment.Move}
    {stations : List Station} {phase : Phase} (h : Passage s i run move dm stations phase) :
    run.phase.ended = false := by
  cases h with
  | deserted hphase | refused hphase | lapsed _ hphase | rolledBack hphase | commits hphase
  | acknowledged hphase | unacknowledged hphase | timedOut hphase =>
    rw [hphase]
    rfl
  | asked hasks | foundered _ hasks =>
    generalize run.phase = p at hasks ⊢
    cases hasks <;> rfl

/-- Transaction `i` is counted among those that ended. -/
def conclude (s : Simulation) (i : Nat) (result : Result) : Simulation :=
  { s.setPhase i (.done result) with completed := s.completed + 1 }

def lose (s : Simulation) (node : NodeId) : Simulation :=
  { s with
    deployment := s.deployment.perform (.depart .failed node)
    failedCoordinator := some node }

def struck (s : Simulation) : Bool :=
  s.failAfter.any fun count => decide (count ≤ s.completed)

theorem struck_conclude (s : Simulation) (i : Nat) (result : Result) :
    (s.conclude i result).struck = s.failAfter.any fun count => decide (count ≤ s.completed + 1) :=
  rfl

/-- The failure happens exactly when its count is reached. -/
theorem struck_conclude_of_not_due {s : Simulation} (hdue : s.failAfter ≠ some (s.completed + 1))
    (i : Nat) (result : Result) : (s.conclude i result).struck = s.struck := by
  rw [struck_conclude, struck]
  cases hafter : s.failAfter with
  | none => rfl
  | some count =>
    have hne : count ≠ s.completed + 1 := fun h => hdue (hafter.trans (congrArg some h))
    simp only [Option.any_some, decide_eq_decide]
    omega

theorem struck_of_due {s : Simulation} (hdue : s.failAfter = some (s.completed + 1)) (i : Nat)
    (result : Result) (node : NodeId) :
    s.struck = false ∧ ((s.conclude i result).lose node).struck = true := by
  refine ⟨by simp [struck, hdue], (s.struck_conclude i result).trans ?_⟩
  simp [hdue]

/-- Nodes in join order, clients first; `first` is the first server. -/
structure Crew (nodes : List ClusterNode) (clients : Nat) (first : ClusterNode) : Prop where
  orders : nodes.map (fun n => n.order.toNat) = List.range' 1 nodes.length
  ids : (nodes.map ClusterNode.id).Nodup
  kinds : ∀ n ∈ nodes, n.client = decide (n.order.toNat ≤ clients)
  mem : first ∈ nodes
  order : first.order.toNat = clients + 1

/-- Everybody of the crew has a station, a manager and an open inbox, and all are members until the
failure takes the first server. -/
structure Staffed (s : Simulation) (nodes : List ClusterNode) (first : ClusterNode) : Prop where
  stations : s.stations.map Station.node = nodes
  count : s.deployment.cluster.lastOrder.toNat = nodes.length
  members : s.deployment.cluster.members =
    if s.struck then nodes.filter fun n => n.id != first.id else nodes
  inboxes : s.deployment.cluster.inboxes.map Deployment.slot =
    nodes.reverse.map fun n => (n.id, false)
  managers : s.deployment.managers.map Manager.self = nodes.map ClusterNode.id
  departures : (s.deployment.cluster.events.sent.map fun e => (e.kind, e.node)) =
    if s.struck then [(.failed, first.id)] else []
  failed : s.failedCoordinator = if s.struck then some first.id else none
  completed : s.completed = (s.runs.map fun run => run.phase.ended.toNat).sum

variable {s : Simulation} {nodes : List ClusterNode} {first n : ClusterNode} {clients : Nat}

theorem Crew.server_iff (hc : Crew nodes clients first) (hn : n ∈ nodes) :
    n.client = false ↔ clients < n.order.toNat := by
  rw [hc.kinds n hn, decide_eq_false_iff_not, Nat.not_le]

namespace Staffed

theorem enrolled (hs : s.Staffed nodes first) (hc : Crew nodes clients first) :
    s.deployment.cluster.Enrolled nodes := by
  refine ⟨hs.count, hc.orders, hc.ids, ?_⟩
  rw [hs.members]
  split
  · exact List.filter_sublist
  · exact .refl _

theorem manager (hs : s.Staffed nodes first) (hn : n ∈ nodes) :
    ∃ m, s.deployment.manager? n.id = some m := by
  apply Option.isSome_iff_exists.mp
  rw [Deployment.isSome_manager?_iff, hs.managers]
  exact List.mem_map_of_mem hn

theorem owners (hs : s.Staffed nodes first) :
    s.deployment.cluster.inboxes.map Inbox.owner = nodes.reverse.map ClusterNode.id := by
  have howners := congrArg (List.map Prod.fst) hs.inboxes
  rw [List.map_map, List.map_map] at howners
  exact howners

theorem nodup_owners (hs : s.Staffed nodes first) (hc : Crew nodes clients first) :
    (s.deployment.cluster.inboxes.map Inbox.owner).Nodup := by
  rw [hs.owners, List.map_reverse, List.nodup_reverse]
  exact hc.ids

theorem inbox (hs : s.Staffed nodes first) (hn : n ∈ nodes) :
    ∃ b, s.deployment.cluster.inbox? n.id = some b ∧ b.closed = false := by
  cases hb : s.deployment.cluster.inbox? n.id with
  | none =>
    rw [Cluster.inbox?_eq_none_iff, hs.owners] at hb
    exact absurd (List.mem_map_of_mem (List.mem_reverse.mpr hn)) hb
  | some b =>
    have hslot := List.mem_map_of_mem (f := Deployment.slot) (Cluster.inbox?_spec hb).1
    rw [hs.inboxes] at hslot
    obtain ⟨_, _, hsame⟩ := List.mem_map.mp hslot
    exact ⟨b, rfl, (congrArg Prod.snd hsame).symm⟩

theorem manager_of_inbox (hs : s.Staffed nodes first) {node : NodeId} {b : Inbox}
    (hb : s.deployment.cluster.inbox? node = some b) : (s.deployment.manager? node).isSome := by
  obtain ⟨hmem, rfl⟩ := Cluster.inbox?_spec hb
  have howner := List.mem_map_of_mem (f := Inbox.owner) hmem
  rw [hs.owners, List.map_reverse, List.mem_reverse] at howner
  rw [Deployment.isSome_manager?_iff, hs.managers]
  exact howner

theorem mem_members (hs : s.Staffed nodes first) :
    n ∈ s.deployment.cluster.members ↔ n ∈ nodes ∧ (s.struck → n.id ≠ first.id) := by
  rw [hs.members]
  cases s.struck <;> simp

/-- As long as nothing failed, the coordinator is the first server; afterwards it is the one that
joined next. -/
theorem coordinator? (hs : s.Staffed nodes first) (hc : Crew nodes clients first)
    (h : s.snapshot.coordinator? = some n) :
    n ∈ nodes ∧ n.client = false ∧
      n.order.toNat = if s.struck then clients + 2 else clients + 1 := by
  have he := hs.enrolled hc
  obtain ⟨hmem, hserver, hleast⟩ := (he.coordinator?_eq_some_iff _ fun _ => Iff.rfl).mp h
  obtain ⟨hnodes, hother⟩ := hs.mem_members.mp hmem
  have hlow := (hc.server_iff hnodes).mp hserver
  refine ⟨hnodes, hserver, ?_⟩
  have below : ∀ m ∈ nodes, clients < m.order.toNat → (s.struck → m.id ≠ first.id) →
      n.order.toNat ≤ m.order.toNat := by
    intro m hm horder hstays
    exact hleast m (hs.mem_members.mpr ⟨hm, hstays⟩) ((hc.server_iff hm).mpr horder)
  split
  · rename_i hstruck
    have hne : n.order.toNat ≠ clients + 1 := by
      intro horder
      have hsame : n = first := he.order_injective hnodes hc.mem
        (UInt64.toNat_inj.mp (horder.trans hc.order.symm))
      exact hother hstruck (congrArg ClusterNode.id hsame)
    -- Somebody joined right after the first server, since `n` joined later still, or then.
    obtain ⟨m, hm, horder⟩ : ∃ m ∈ nodes, m.order.toNat = clients + 2 := by
      have hlast := he.toNat_order_le hnodes
      rw [he.count] at hlast
      apply List.mem_map.mp
      rw [hc.orders, List.mem_range'_1]
      omega
    have hle := below m hm (by omega) fun _ hid => by
      have hsame : m = first := he.id_injective hm hc.mem hid
      rw [hsame, hc.order] at horder
      omega
    omega
  · rename_i hstruck
    have hle := below first hc.mem (by rw [hc.order]; omega) fun h => absurd h hstruck
    rw [hc.order] at hle
    omega

theorem coordinator?_of_not_struck (hs : s.Staffed nodes first) (hc : Crew nodes clients first)
    (hstruck : s.struck = false) : s.snapshot.coordinator? = some first := by
  have he := hs.enrolled hc
  have hmembers : ∀ m, m ∈ s.deployment.cluster.members ↔ m ∈ nodes := by
    intro m
    rw [hs.mem_members, hstruck]
    simp
  refine (he.coordinator?_eq_some_iff _ fun _ => Iff.rfl).mpr ⟨(hmembers first).mpr hc.mem, ?_, ?_⟩
  · rw [hc.server_iff hc.mem, hc.order]
    omega
  · intro m hm hserver
    have hlow := (hc.server_iff ((hmembers m).mp hm)).mp hserver
    rw [UInt64.le_iff_toNat_le, hc.order]
    exact hlow

/-- Only members that did not fail are alive. -/
theorem alive_iff (hs : s.Staffed nodes first) {node : NodeId} :
    s.alive node ↔ ∃ n ∈ nodes, n.id = node ∧ (s.struck → node ≠ first.id) := by
  rw [Simulation.alive, Cluster.alive, List.any_eq_true]
  constructor
  · rintro ⟨m, hm, hid⟩
    obtain ⟨hmem, hstays⟩ := hs.mem_members.mp hm
    have hid : m.id = node := by simpa using hid
    exact ⟨m, hmem, hid, hid ▸ hstays⟩
  · rintro ⟨m, hm, rfl, hstays⟩
    exact ⟨m, hs.mem_members.mpr ⟨hm, hstays⟩, by simp⟩

/-- As long as nothing failed, messages get to everybody. -/
theorem reachable (hs : s.Staffed nodes first) (hstruck : s.struck = false) (hn : n ∈ nodes) :
    s.deployment.cluster.refusal? n.id = none := by
  have halive : s.deployment.cluster.alive n.id := by
    refine hs.alive_iff.mpr ⟨n, hn, rfl, fun h => ?_⟩
    rw [hstruck] at h
    cases h
  obtain ⟨b, hb, hopen⟩ := hs.inbox hn
  simp [Cluster.refusal?, halive, hb, hopen]

theorem station_unique (hs : s.Staffed nodes first) (hc : Crew nodes clients first)
    {a b : Station} (ha : a ∈ s.stations) (hb : b ∈ s.stations) (hid : a.node.id = b.node.id) :
    a = b := by
  have hnodup : (s.stations.map fun st => st.node.id).Nodup := by
    have hids := hc.ids
    rw [← hs.stations, List.map_map] at hids
    exact hids
  exact List.inj_on_of_nodup_map hnodup ha hb hid

/-! What the deployment does on behalf of a transaction changes nobody's place, and neither does
a phase in which a transaction goes on. -/

theorem act (hs : s.Staffed nodes first) {move : Deployment.Move} (hstays : move.stays)
    {stations : List Station}
    (hstations : stations.map Station.node = s.stations.map Station.node) :
    (s.act move stations).Staffed nodes first := by
  have hh := Deployment.Houses.perform s.deployment hstays
  obtain ⟨inboxes, hcluster⟩ := s.deployment.cluster_of_stays hstays
  constructor
  · exact hstations.trans hs.stations
  · simp only [Simulation.act, hcluster]
    exact hs.count
  · simp only [Simulation.act, hcluster]
    exact hs.members
  · exact hh.slots.trans hs.inboxes
  · exact hh.selfs.trans hs.managers
  · simp only [Simulation.act, hcluster]
    exact hs.departures
  · exact hs.failed
  · exact hs.completed

theorem setPhase (hs : s.Staffed nodes first) {i : Nat} {run : Run} (hrun : s.runs[i]? = some run)
    (hbefore : run.phase.ended = false) {phase : Phase} (hafter : phase.ended = false) :
    (s.setPhase i phase).Staffed nodes first := by
  have hsum := sum_map_modify hrun (fun r => { r with phase }) fun r => r.phase.ended.toNat
  rw [hbefore, hafter] at hsum
  exact ⟨hs.stations, hs.count, hs.members, hs.inboxes, hs.managers, hs.departures, hs.failed,
    hs.completed.trans hsum.symm⟩

/-- When a transaction ends, the first server fails if it is due, and nobody else ever does. -/
theorem finish_cases (hs : s.Staffed nodes first) (hc : Crew nodes clients first) (i : Nat)
    (result : Result) :
    (s.failAfter ≠ some (s.completed + 1) ∧ s.finish i result = s.conclude i result) ∨
      (s.failAfter = some (s.completed + 1) ∧
        s.finish i result = (s.conclude i result).lose first.id) := by
  have hfinish : s.finish i result = failIfDue (s.conclude i result) := rfl
  rw [hfinish, failIfDue]
  by_cases hdue : s.failAfter = some (s.completed + 1)
  · have hstruck := (struck_of_due hdue i result first.id).1
    have helected : (s.conclude i result).snapshot.coordinator? = some first :=
      hs.coordinator?_of_not_struck hc hstruck
    refine .inr ⟨hdue, ?_⟩
    refine (if_pos hdue).trans ?_
    rw [helected]
    rfl
  · exact .inl ⟨hdue, if_neg hdue⟩

theorem finish (hs : s.Staffed nodes first) (hc : Crew nodes clients first) {i : Nat} {run : Run}
    (hrun : s.runs[i]? = some run) (hbefore : run.phase.ended = false) (result : Result) :
    (s.finish i result).Staffed nodes first := by
  have hcompleted : s.completed + 1 =
      ((s.runs.modify i fun r => { r with phase := .done result }).map
        fun run => run.phase.ended.toNat).sum := by
    have hsum := sum_map_modify hrun (fun r => { r with phase := .done result })
      fun r => r.phase.ended.toNat
    rw [hbefore, ← hs.completed] at hsum
    exact hsum.symm
  rcases hs.finish_cases hc i result with ⟨hdue, heq⟩ | ⟨hdue, heq⟩
  · have hstruck := struck_conclude_of_not_due hdue i result
    rw [heq]
    refine ⟨hs.stations, hs.count, ?_, hs.inboxes, hs.managers, ?_, ?_, hcompleted⟩
    · rw [hstruck]
      exact hs.members
    · rw [hstruck]
      exact hs.departures
    · rw [hstruck]
      exact hs.failed
  · obtain ⟨hbefore, hafter⟩ := struck_of_due hdue i result first.id
    have hmembers := hs.members
    have hdepartures := hs.departures
    rw [hbefore] at hmembers hdepartures
    have halive : s.deployment.cluster.alive first.id :=
      List.any_eq_true.mpr ⟨first, hmembers ▸ hc.mem, by simp⟩
    rw [heq]
    refine ⟨hs.stations, ?_, ?_, ?_, hs.managers, ?_, ?_, hcompleted⟩
    · exact (congrArg UInt64.toNat (Cluster.depart_lastOrder ..)).trans hs.count
    · rw [hafter]
      refine (Cluster.depart_members ..).trans ?_
      exact congrArg (List.filter fun m => m.id != first.id) hmembers
    · exact (congrArg (List.map Deployment.slot) (Cluster.depart_inboxes ..)).trans hs.inboxes
    · rw [hafter]
      simp only [lose, conclude, Deployment.perform, Simulation.setPhase, Cluster.depart, halive]
      simp [EventFeed.send, hdepartures]
    · rw [hafter]
      rfl

theorem land (hs : s.Staffed nodes first) (hc : Crew nodes clients first) {i : Nat} {run : Run}
    (hrun : s.runs[i]? = some run) (hbefore : run.phase.ended = false) (phase : Phase) :
    (s.land i phase).Staffed nodes first := by
  cases phase with
  | done result => exact hs.finish hc hrun hbefore result
  | unstarted | requesting | pausing | committing => exact hs.setPhase hrun hbefore rfl

end Staffed

theorem map_drawn {α : Type} (s : Simulation) (node : NodeId) {f : Station → α}
    (hf : ∀ st txIds, f { st with txIds } = f st) : (s.drawn node).map f = s.stations.map f := by
  unfold drawn drawTx
  split
  · rw [List.map_map]
    apply List.map_congr_left
    intro st _
    rw [Function.comp_apply]
    split
    · exact hf st _
    · rfl
  · rfl

theorem Passage.stays {i : Nat} {run : Run} {move : Move} {dm : Deployment.Move}
    {stations : List Station} {phase : Phase} (h : Passage s i run move dm stations phase) :
    dm.stays ∧ ∀ {α : Type} {f : Station → α}, (∀ st txIds, f { st with txIds } = f st) →
      stations.map f = s.stations.map f := by
  cases h with
  | asked | foundered => exact ⟨rfl, s.map_drawn _⟩
  | deserted | refused | lapsed | rolledBack | commits | acknowledged | unacknowledged | timedOut =>
    exact ⟨rfl, fun _ => rfl⟩

theorem Staffed.step (hs : s.Staffed nodes first) (hc : Crew nodes clients first) (move : Move) :
    (s.step move).Staffed nodes first := by
  have hcourse := s.course move
  generalize s.step move = s' at hcourse ⊢
  cases hcourse with
  | idle => exact hs
  | dispatched => exact hs.act rfl rfl
  | listened =>
    refine hs.act rfl ?_
    rw [advanced, List.map_map]
    apply List.map_congr_left
    intro st _
    rw [Function.comp_apply]
    split <;> rfl
  | passed hrun hpassage =>
    obtain ⟨hstays, hstations⟩ := hpassage.stays
    exact (hs.act hstays (hstations fun _ _ => rfl)).land hc hrun hpassage.ended _

end Simulation
end CounterCoordinator
