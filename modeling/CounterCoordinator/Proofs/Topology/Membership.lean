import CounterCoordinator.Proofs.Topology.Handover

/-!
# Membership history

What a cluster shows of its membership follows from the joins and departures so far: the topology
version counts them all, the k-th node to join has order k, and the members are the nodes that
joined and have not departed. Only a member can depart, and only once. A subscriber is sent the
departures since it subscribed, each with the topology version after it.
-/
namespace CounterCoordinator

/-- A subscriber that missed nothing reads the event at its position, if it was sent already. -/
theorem EventFeed.read_of_kept {α : Type} {f : EventFeed α} {position : Nat}
    (h : f.oldest ≤ position) :
    f.read position = match f.sent[position]? with
      | some e => (.event e, position + 1)
      | none => (.nothing, position) :=
  if_neg (Nat.not_lt.mpr h)

namespace Cluster
variable {c : Cluster} {kind : Departure} {node : NodeId}

def Move.newcomer? : Move → Option NodeId
  | join id _ => some id
  | depart _ _ => none

theorem depart_fst (c : Cluster) (kind : Departure) (node : NodeId) :
    (c.depart kind node).1 = c.alive node := by
  unfold depart
  split <;> simp_all

/-- Who is no member cannot depart: nothing changes, nothing is logged, nothing is sent. -/
theorem depart_of_not_alive (h : c.alive node = false) : c.depart kind node = (false, [], c) :=
  if_neg (by simp [h])

theorem depart_of_alive (kind : Departure) (h : c.alive node) :
    (c.depart kind node).2.2.version = c.version + 1 ∧
      (c.depart kind node).2.2.events.sent =
        c.events.sent ++ [⟨kind, node, (c.depart kind node).2.2.version⟩] := by
  rw [depart, if_pos h]
  exact ⟨rfl, rfl⟩

structure Accords (c : Cluster) (joined : List ClusterNode) (gone : List MembershipEvent) :
    Prop where
  version : c.snapshot.version.toNat = joined.length + gone.length
  /-- The k-th node to join has order k. -/
  orders : joined.map (fun n => n.order.toNat) = List.range' 1 joined.length
  nodes : ∀ n, n ∈ c.snapshot.nodes ↔ n ∈ joined ∧ ∀ e ∈ gone, e.node ≠ n.id
  ascending : c.snapshot.nodes.Pairwise fun a b => a.order < b.order
  alive : ∀ node, c.alive node ↔ ∃ n ∈ c.snapshot.nodes, n.id = node
  contains : ∀ node, c.snapshot.contains node = c.alive node
  size : c.size = c.snapshot.nodes.length

/-- From a position on, subscribers are sent exactly these departures: each node departs once, and
the topology version goes up every time. One that has not fallen behind reads them one by one. -/
structure Tells (c : Cluster) (position : Nat) (gone : List MembershipEvent) : Prop where
  sent : c.events.sent.drop position = gone
  once : (gone.map MembershipEvent.node).Nodup
  rising : gone.Pairwise fun d e => d.version < e.version
  reads : ∀ i, c.events.oldest ≤ position + i →
    c.events.read (position + i) = match gone[i]? with
      | some e => (.event e, position + i + 1)
      | none => (.nothing, position + i)

end Cluster

namespace Census
variable {r : Census}

/-- The departure that a move brings about, with the topology version after it. -/
def departure? (r : Census) : Cluster.Move → Option MembershipEvent
  | .join _ _ => none
  | .depart kind node =>
      let (gone, _, cluster) := r.cluster.depart kind node
      if gone then some ⟨kind, node, cluster.version⟩ else none

def departures (r : Census) : List Cluster.Move → List MembershipEvent
  | [] => []
  | move :: moves => (r.departure? move).toList ++ (r.step move).departures moves

structure Recorded (r : Census) : Prop extends r.cluster.Enrolled r.joined where
  version : r.cluster.version.toNat = r.joined.length + r.cluster.events.sent.length
  present : ∀ n ∈ r.joined,
    n ∈ r.cluster.members ↔ ∀ e ∈ r.cluster.events.sent, e.node ≠ n.id
  known : ∀ e ∈ r.cluster.events.sent, ∃ n ∈ r.joined, n.id = e.node
  once : (r.cluster.events.sent.map MembershipEvent.node).Nodup
  rising : r.cluster.events.sent.Pairwise fun d e => d.version < e.version
  latest : ∀ e ∈ r.cluster.events.sent, e.version ≤ r.cluster.version

theorem sent_step (r : Census) (move : Cluster.Move) :
    (r.step move).cluster.events.sent =
      r.cluster.events.sent ++ (r.departure? move).toList := by
  cases move with
  | join id client => exact (List.append_nil _).symm
  | depart kind node =>
    simp only [step, departure?, Cluster.depart_fst]
    cases h : r.cluster.alive node with
    | false => simp [Cluster.depart_of_not_alive h]
    | true => simpa using (Cluster.depart_of_alive kind h).2

theorem sent_run (r : Census) (moves : List Cluster.Move) :
    (moves.foldl step r).cluster.events.sent = r.cluster.events.sent ++ r.departures moves := by
  induction moves generalizing r with
  | nil => exact (List.append_nil _).symm
  | cons move moves ih =>
    rw [List.foldl_cons, ih, sent_step, List.append_assoc]
    rfl

theorem ids_run (r : Census) (moves : List Cluster.Move) :
    (moves.foldl step r).joined.map ClusterNode.id =
      r.joined.map ClusterNode.id ++ moves.filterMap Cluster.Move.newcomer? := by
  induction moves generalizing r with
  | nil => exact (List.append_nil _).symm
  | cons move moves ih =>
    rw [List.foldl_cons, ih]
    cases move with
    | join id client =>
      rw [step, List.map_append, List.append_assoc]
      rfl
    | depart kind node => rfl

namespace Recorded

theorem new : Recorded {} := by
  refine ⟨.new, ?_, ?_, ?_, ?_, ?_, ?_⟩ <;> simp

theorem toNat_version (hroom : r.cluster.version.toNat + 1 < UInt64.size) :
    (r.cluster.version + 1).toNat = r.cluster.version.toNat + 1 :=
  toNat_add_of_lt hroom

theorem lt_version (hroom : r.cluster.version.toNat + 1 < UInt64.size) :
    r.cluster.version < r.cluster.version + 1 := by
  rw [UInt64.lt_iff_toNat_lt, toNat_version hroom]
  exact Nat.lt_succ_self _

theorem join (hr : r.Recorded) {id : NodeId} (hid : ∀ n ∈ r.joined, n.id ≠ id)
    (hroom : r.cluster.version.toNat + 1 < UInt64.size) (client : Bool) :
    (r.step (.join id client)).Recorded := by
  have hlast : r.joined.length + 1 < UInt64.size := by
    have := hr.version
    omega
  refine ⟨hr.toEnrolled.join hid hlast client, ?_, ?_, ?_, hr.once, hr.rising, ?_⟩
  · change (r.cluster.version + 1).toNat = (r.joined ++ [_]).length + _
    rw [toNat_version hroom, hr.version, List.length_append, List.length_singleton]
    exact Nat.add_right_comm ..
  · intro n hn
    rcases List.mem_append.mp hn with hold | hnew
    · refine Iff.trans ?_ (hr.present n hold)
      refine ⟨fun hmem => ?_, fun hmem => List.mem_append_left _ hmem⟩
      rcases List.mem_append.mp hmem with hmem | hmem
      · exact hmem
      · exact absurd (congrArg ClusterNode.id (List.mem_singleton.mp hmem)) (hid n hold)
    · rw [List.mem_singleton.mp hnew]
      refine ⟨fun _ e he heq => ?_, fun _ => List.mem_append_right _ (List.mem_singleton_self _)⟩
      obtain ⟨old, hold, hname⟩ := hr.known e he
      exact hid old hold (hname.trans heq)
  · intro e he
    obtain ⟨n, hn, hname⟩ := hr.known e he
    exact ⟨n, List.mem_append_left _ hn, hname⟩
  · exact fun e he => UInt64.le_trans (hr.latest e he) (UInt64.le_of_lt (lt_version hroom))

theorem depart_of_alive (hr : r.Recorded) (kind : Departure) {node : NodeId}
    (halive : r.cluster.alive node) (hroom : r.cluster.version.toNat + 1 < UInt64.size) :
    (r.step (.depart kind node)).Recorded := by
  obtain ⟨member, hmember, hnode⟩ := Cluster.alive_iff.mp halive
  have hjoined : member ∈ r.joined := hr.members.subset hmember
  have hunannounced : ∀ e ∈ r.cluster.events.sent, e.node ≠ node := by
    rw [← hnode]
    exact (hr.present member hjoined).mp hmember
  obtain ⟨hversion, hsent⟩ := Cluster.depart_of_alive kind halive
  rw [hversion] at hsent
  have hevents : (r.step (.depart kind node)).cluster.events.sent =
      r.cluster.events.sent ++ [⟨kind, node, r.cluster.version + 1⟩] := hsent
  have hcluster : (r.step (.depart kind node)).cluster.version = r.cluster.version + 1 := hversion
  refine ⟨hr.toEnrolled.depart kind node, ?_, ?_, ?_, ?_, ?_, ?_⟩
  · rw [hcluster, hevents, toNat_version hroom, hr.version, List.length_append]
    rfl
  · intro n hn
    rw [mem_members_depart, hr.present n hn, hevents]
    simp [or_imp, forall_and, ne_comm]
  · rw [hevents]
    intro e he
    rcases List.mem_append.mp he with he | he
    · exact hr.known e he
    · rw [List.mem_singleton.mp he]
      exact ⟨member, hjoined, hnode⟩
  · rw [hevents]
    exact nodup_map_concat hr.once hunannounced
  · rw [hevents]
    refine List.pairwise_append.mpr ⟨hr.rising, List.pairwise_singleton .., ?_⟩
    intro d hd e he
    rw [List.mem_singleton.mp he]
    exact UInt64.lt_of_le_of_lt (hr.latest d hd) (lt_version hroom)
  · rw [hcluster, hevents]
    intro e he
    rcases List.mem_append.mp he with he | he
    · exact UInt64.le_trans (hr.latest e he) (UInt64.le_of_lt (lt_version hroom))
    · rw [List.mem_singleton.mp he]
      exact UInt64.le_refl _

theorem depart (hr : r.Recorded) (kind : Departure) (node : NodeId)
    (hroom : r.cluster.version.toNat + 1 < UInt64.size) :
    (r.step (.depart kind node)).Recorded := by
  cases halive : r.cluster.alive node with
  | true => exact hr.depart_of_alive kind halive hroom
  | false =>
    rw [step, Cluster.depart_of_not_alive halive]
    exact hr

theorem step (hr : r.Recorded) {move : Cluster.Move}
    (hfresh : ∀ id ∈ move.newcomer?, ∀ n ∈ r.joined, n.id ≠ id)
    (hroom : r.cluster.version.toNat + 1 < UInt64.size) : (r.step move).Recorded := by
  cases move with
  | join id client => exact hr.join (hfresh id rfl) hroom client
  | depart kind node => exact hr.depart kind node hroom

end Recorded

theorem toNat_version_step_le (r : Census) (move : Cluster.Move) :
    (r.step move).cluster.version.toNat ≤ r.cluster.version.toNat + 1 := by
  have hnext : (r.cluster.version + 1).toNat ≤ r.cluster.version.toNat + 1 := by
    rw [UInt64.toNat_add]
    exact Nat.mod_le ..
  cases move with
  | join id client => exact hnext
  | depart kind node =>
    change (r.cluster.depart kind node).2.2.version.toNat ≤ _
    cases halive : r.cluster.alive node with
    | true => rwa [(Cluster.depart_of_alive kind halive).1]
    | false =>
      rw [Cluster.depart_of_not_alive halive]
      exact Nat.le_succ _

/-- Every row of moves with new identities is recorded, as long as versions last. -/
theorem Recorded.run (hr : r.Recorded) {moves : List Cluster.Move}
    (hfresh : (r.joined.map ClusterNode.id ++ moves.filterMap Cluster.Move.newcomer?).Nodup)
    (hroom : r.cluster.version.toNat + moves.length < UInt64.size) :
    (moves.foldl Census.step r).Recorded := by
  induction moves generalizing r with
  | nil => exact hr
  | cons move moves ih =>
    rw [List.length_cons] at hroom
    have hfirst : (r.step move).Recorded := by
      refine hr.step ?_ (by omega)
      intro id hid n hn hname
      have hlisted : id ∈ (move :: moves).filterMap Cluster.Move.newcomer? :=
        List.mem_filterMap.mpr ⟨move, List.mem_cons_self, hid⟩
      refine (List.nodup_append.mp hfresh).2.2 _ (List.mem_map_of_mem hn) _ hlisted hname
    refine ih hfirst ?_ ?_
    · have hids := ids_run r [move]
      rw [List.foldl_cons, List.foldl_nil] at hids
      rwa [hids, List.append_assoc, ← List.filterMap_append]
    · have hstep := r.toNat_version_step_le move
      omega

namespace Recorded

theorem mem_members (hr : r.Recorded) (n : ClusterNode) :
    n ∈ r.cluster.members ↔
      n ∈ r.joined ∧ ∀ e ∈ r.cluster.events.sent, e.node ≠ n.id := by
  constructor
  · intro hn
    have hjoined := hr.members.subset hn
    exact ⟨hjoined, (hr.present n hjoined).mp hn⟩
  · rintro ⟨hjoined, hstays⟩
    exact (hr.present n hjoined).mpr hstays

/-- Members are kept in join order already, so a snapshot leaves them as they are. -/
theorem snapshot_nodes (hr : r.Recorded) : r.cluster.snapshot.nodes = r.cluster.members := by
  have hascending := hr.ascending.sublist hr.members
  apply List.mergeSort_of_pairwise
  refine hascending.imp fun hlt => decide_eq_true ?_
  exact UInt64.le_of_lt (UInt64.lt_iff_toNat_lt.mpr hlt)

theorem accords (hr : r.Recorded) : r.cluster.Accords r.joined r.cluster.events.sent := by
  have hnodes := hr.snapshot_nodes
  refine ⟨hr.version, hr.orders, ?_, ?_, ?_, ?_, ?_⟩
  · intro n
    rw [hnodes, hr.mem_members]
  · rw [hnodes]
    exact (hr.ascending.sublist hr.members).imp UInt64.lt_iff_toNat_lt.mpr
  · intro node
    rw [hnodes, Cluster.alive_iff]
  · intro node
    rw [Snapshot.contains, Snapshot.node?, hnodes, List.isSome_find?]
    rfl
  · rw [hnodes]
    rfl

theorem tells (hr : r.Recorded) (position : Nat) :
    r.cluster.Tells position (r.cluster.events.sent.drop position) := by
  have hpart := List.drop_sublist position r.cluster.events.sent
  refine ⟨rfl, ?_, hr.rising.sublist hpart, ?_⟩
  · exact hr.once.sublist (hpart.map _)
  · intro i hkept
    rw [EventFeed.read_of_kept hkept, List.getElem?_drop]
    cases r.cluster.events.sent[position + i]? <;> rfl

end Recorded

/-- At any moment of any history the cluster shows the nodes that joined and have not departed, and
its version counts all joins and departures. Departing succeeds for members and does nothing for
others. Who subscribed at an earlier moment was sent exactly the departures since, and who departed
by then is listed no more. -/
theorem membership_history {before later : List Cluster.Move}
    (hfresh : ((before ++ later).filterMap Cluster.Move.newcomer?).Nodup)
    (hfew : (before ++ later).length < UInt64.size) :
    let past : Census := before.foldl step {}
    let present : Census := (before ++ later).foldl step {}
    present.joined.map ClusterNode.id = (before ++ later).filterMap Cluster.Move.newcomer? ∧
    present.cluster.Accords present.joined (departures {} (before ++ later)) ∧
    (∀ kind node, (present.cluster.depart kind node).1 = present.cluster.alive node ∧
      (present.cluster.alive node = false →
        present.cluster.depart kind node = (false, [], present.cluster))) ∧
    present.cluster.Tells past.cluster.events.position (past.departures later) ∧
    ∀ e ∈ past.cluster.events.sent, ∀ n ∈ present.cluster.snapshot.nodes, n.id ≠ e.node := by
  intro past present
  have hrecorded : present.Recorded := Recorded.new.run hfresh (by simpa using hfew)
  have hall : present.cluster.events.sent = departures {} (before ++ later) := sent_run {} _
  have hsince : present.cluster.events.sent =
      past.cluster.events.sent ++ past.departures later := by
    change ((before ++ later).foldl step {}).cluster.events.sent = _
    rw [List.foldl_append]
    exact sent_run past later
  refine ⟨ids_run {} _, hall ▸ hrecorded.accords, ?_, ?_, ?_⟩
  · intro kind node
    exact ⟨Cluster.depart_fst .., Cluster.depart_of_not_alive⟩
  · have htells := hrecorded.tells past.cluster.events.position
    rwa [hsince, EventFeed.position, List.drop_left] at htells
  · intro e he n hn hname
    have hsent : e ∈ present.cluster.events.sent := by
      rw [hsince]
      exact List.mem_append_left _ he
    exact ((hrecorded.accords.nodes n).mp hn).2 e hsent hname.symm

/-- Who failed before and a stranger are told to depart, a client joins, and the first server
leaves. -/
def aftermath : List Cluster.Move :=
  [.depart .left (.ofNat 3), .depart .failed (.ofNat 9), .join (.ofNat 6) true,
    .depart .left (.ofNat 2)]

theorem membership_history_aftermath :
    ((relay ++ aftermath).foldl step {}).cluster.events.sent.drop 1 = [⟨.left, .ofNat 2, 8⟩] ∧
    ((relay ++ aftermath).foldl step {}).cluster.snapshot.version.toNat = 6 + 2 ∧
    ∀ n ∈ ((relay ++ aftermath).foldl step {}).cluster.snapshot.nodes, n.id ≠ .ofNat 3 := by
  obtain ⟨-, haccords, -, htells, hgone⟩ :=
    @membership_history relay aftermath (by decide) (by decide)
  refine ⟨htells.sent.trans (by decide), haccords.version.trans (by decide), ?_⟩
  exact hgone ⟨.failed, .ofNat 3, 6⟩ (by decide)

end Census
end CounterCoordinator
