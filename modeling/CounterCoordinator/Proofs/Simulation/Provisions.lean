import CounterCoordinator.Proofs.Deployment.FreshTransactions
import CounterCoordinator.Proofs.Simulation.Start

/-!
# The transaction ids of a simulation

The generators at the stations of a simulation are those of its deployment, and each attempt draws
an id for its request at once. So the supply of ids stays fresh, as long as nobody runs out of them.
-/
namespace CounterCoordinator

namespace Supply
variable {u : Supply} {move : Deployment.Move}

theorem deployment_turn (u : Supply) (move : Deployment.Move) :
    (u.step (.turn move)).deployment = u.deployment.perform move := by
  cases move with
  | ask node target what => cases what <;> rfl
  | look | join | depart | call | dispatch | listen | closeInbox => rfl

theorem generators_turn (hjoins : move.joins? = none) :
    (u.step (.turn move)).generators = u.generators := by
  cases move with
  | join => cases hjoins
  | ask node target what => cases what <;> rfl
  | look | depart | call | dispatch | listen | closeInbox => rfl

end Supply

namespace Simulation
variable {s : Simulation} {u : Supply}

structure Provisioned (s : Simulation) (u : Supply) : Prop where
  fresh : u.Fresh
  deployment : u.deployment = s.deployment
  generators : ∀ st ∈ s.stations, u.generators st.node.id = some st.txIds
  paced : ∀ st ∈ s.stations, st.txIds.last.toNat ≤ s.deployment.ids.last.toNat

/-- Who draws an id has a station, and its generator moves on. -/
theorem drawn_of_drawTx {requester : NodeId} {tx : TxId}
    (htx : (s.drawTx requester s.snapshot.version).1 = some tx) :
    ∃ st ∈ s.stations, st.node.id = requester ∧ (st.txIds.next s.snapshot.version).1 = tx ∧
      s.drawn requester = s.stations.map fun old =>
        if old.node.id = requester then
          { old with txIds := (st.txIds.next s.snapshot.version).2 }
        else old := by
  unfold drawn
  unfold drawTx at htx ⊢
  split at htx
  · rename_i st hfound
    refine ⟨st, List.mem_of_find?_eq_some hfound, ?_, Option.some.inj htx, rfl⟩
    simpa using List.find?_some hfound
  · cases htx

namespace Provisioned

theorem turn (hp : s.Provisioned u) (hroom : s.deployment.ids.last.toNat + 1 < UInt64.size)
    {move : Deployment.Move} (hjoins : move.joins? = none) (hallowed : u.Allowed (.turn move)) :
    (s.act move s.stations).Provisioned (u.step (.turn move)) := by
  constructor
  · exact hp.fresh.turned hallowed
  · exact (u.deployment_turn move).trans (congrArg (fun d => d.perform move) hp.deployment)
  · rw [Supply.generators_turn hjoins]
    exact hp.generators
  · intro st hst
    have hlast : (s.deployment.perform move).ids.last.toNat =
        s.deployment.ids.last.toNat + move.asks.toNat := Deployment.last_perform fun _ => hroom
    exact Nat.le_trans (hp.paced st hst) (hlast ▸ Nat.le_add_right ..)

theorem asked (hp : s.Provisioned u) (hroom : s.deployment.ids.last.toNat + 1 < UInt64.size)
    {requester : NodeId} {tx : TxId}
    (htx : (s.drawTx requester s.snapshot.version).1 = some tx) (target : NodeId) :
    ∃ u', (s.act (.ask requester target (.txCounter tx)) (s.drawn requester)).Provisioned u' := by
  obtain ⟨st, hst, rfl, hnew, hdrawn⟩ := drawn_of_drawTx htx
  have hg := hp.generators st hst
  have hpace := hp.paced st hst
  have hgroom : st.txIds.last.toNat + 1 < UInt64.size := by omega
  have hfresh := hp.fresh.draw hg hgroom s.snapshot.version
  have hallowed : (u.draw st.node.id st.txIds s.snapshot.version).Allowed
      (.turn (.ask st.node.id target (.txCounter tx))) := hnew ▸ List.mem_cons_self
  have hsame : (u.draw st.node.id st.txIds s.snapshot.version).deployment = s.deployment :=
    hp.deployment
  refine ⟨_, hfresh.turned hallowed, ?_, ?_, ?_⟩
  · rw [Supply.deployment_turn, hsame]
    rfl
  · intro st' hst'
    rw [act, hdrawn] at hst'
    obtain ⟨old, hold, rfl⟩ := List.mem_map.mp hst'
    rw [Supply.generators_turn rfl]
    split
    · rename_i hown
      exact (congrArg _ hown).trans (Function.update_self ..)
    · rename_i hother
      exact (Function.update_of_ne hother ..).trans (hp.generators old hold)
  · intro st' hst'
    rw [act, hdrawn] at hst'
    obtain ⟨old, hold, rfl⟩ := List.mem_map.mp hst'
    have hpace' := hp.paced old hold
    have hnext : (st.txIds.next s.snapshot.version).2.last.toNat = st.txIds.last.toNat + 1 :=
      toNat_add_of_lt hgroom
    have hlast : (s.deployment.perform (.ask st.node.id target (.txCounter tx))).ids.last.toNat =
        s.deployment.ids.last.toNat + 1 := Deployment.last_perform fun _ => hroom
    rw [act, hlast]
    split
    · exact hnext ▸ Nat.succ_le_succ hpace
    · exact Nat.le_succ_of_le hpace'

end Provisioned

theorem supply_recruits (clients : Nat) {n : Nat} (hn : n < UInt64.size) (cancelAcks : Bool) :
    ∃ u : Supply, u.Fresh ∧ u.deployment = gathered (recruits clients n) cancelAcks ∧
      u.joined = recruits clients n ∧
      ∀ node ∈ recruits clients n, u.generators node.id = some ⟨node.order, 0⟩ := by
  induction n with
  | zero => exact ⟨{}, .new, rfl, rfl, nofun⟩
  | succ n ih =>
    obtain ⟨u, hf, hdeployment, hjoined, hgenerators⟩ := ih (by omega)
    obtain ⟨-, hnode, hgathered⟩ := join_gathered clients (n := n) (by omega) cancelAcks
    have hids := nodup_ids clients hn
    rw [recruits_succ, List.map_append, List.map_singleton, ← List.concat_eq_append,
      List.nodup_concat] at hids
    have hnew : ∀ node ∈ recruits clients n, node.id ≠ (recruit clients n).id :=
      fun node hmem hid => hids.1 (hid ▸ List.mem_map_of_mem hmem)
    rw [← hdeployment] at hnode hgathered
    refine ⟨u.step (.turn (.join (recruit clients n).id (recruit clients n).client cancelAcks)),
      hf.join ⟨hjoined ▸ hnew, ?_⟩, hgathered, ?_, ?_⟩
    · rw [hjoined, length_recruits]
      exact hn
    · rw [recruits_succ, ← hjoined, Supply.step, hnode]
    · intro node hmem
      rw [Supply.step, hnode]
      rw [recruits_succ] at hmem
      rcases List.mem_append.mp hmem with hmem | hmem
      · exact (Function.update_of_ne (hnew node hmem) ..).trans (hgenerators node hmem)
      · rw [List.mem_singleton.mp hmem]
        exact Function.update_self ..

theorem provisioned_fresh {c : Config} {rollbacks : List Bool} (ha : c.Accepts rollbacks) :
    ∃ u, (fresh c rollbacks).Provisioned u := by
  obtain ⟨u, hf, hdeployment, -, hgenerators⟩ :=
    supply_recruits c.simulation.clientNodes ha.nodes c.protocol.cancelAcksOnCoordinatorLoss
  refine ⟨u, hf, hdeployment, ?_, ?_⟩
  · intro st hst
    obtain ⟨node, hnode, rfl⟩ := List.mem_map.mp hst
    exact hgenerators node hnode
  · intro st hst
    obtain ⟨node, hnode, rfl⟩ := List.mem_map.mp hst
    exact Nat.zero_le _

end Simulation
end CounterCoordinator
