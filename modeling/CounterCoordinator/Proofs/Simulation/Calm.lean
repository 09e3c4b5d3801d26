import CounterCoordinator.Proofs.Deployment.Underway
import CounterCoordinator.Proofs.Simulation.Provisions
import CounterCoordinator.Proofs.Simulation.Trace

/-!
# Simulations without failure

When the coordinator is not to fail and nobody gives up on an answer, all transactions go straight
on: the first server answers the first attempt of each, under a new id, and the transaction ends as
it was decided.
-/
namespace CounterCoordinator.Simulation

def Move.patient : Move → Bool
  | giveUp _ => false
  | _ => true

def Phase.started : Phase → Bool
  | unstarted => false
  | _ => true

def Ending.planned (rollback : Bool) : Ending :=
  if rollback then .rolledBack else .committed

/-- The transaction has had no trouble so far: what it waits for is on its way from the server, or
it ended as it was decided, with a counter of the server. -/
def Going (d : Deployment) (server : NodeId) (run : Run) : Prop :=
  match run.phase with
  | .unstarted => True
  | .requesting requester _ coordinator tx future =>
      coordinator = server ∧ d.Underway requester server future (.txCounter tx)
  | .pausing .. => False
  | .committing requester coordinator _ future =>
      run.rollback = false ∧ coordinator = server ∧
        ∃ tx, d.Underway requester server future (.commit tx)
  | .done result => ∃ counter, result = .finished server counter (.planned run.rollback)

/-- Everybody is in place for good, and all transactions are going. No transaction has asked for a
counter twice. -/
structure Calm (s : Simulation) (nodes : List ClusterNode) (first : ClusterNode) (clients : Nat)
    (j : Journal) (owner : FutureId → Nat) (u : Supply) : Prop where
  staffed : s.Staffed nodes first
  traced : s.Traced nodes clients j owner
  provisioned : s.Provisioned u
  unharmed : s.failAfter = none
  frugal : j.asked.length ≤ (s.runs.map fun run => run.phase.started.toNat).sum
  going : ∀ run ∈ s.runs, Going s.deployment first.id run

variable {s : Simulation} {nodes : List ClusterNode} {first : ClusterNode} {clients i : Nat}
  {j : Journal} {owner : FutureId → Nat} {u u' : Supply} {run : Run} {move : Move}
  {dm : Deployment.Move} {stations : List Station} {phase : Phase}

/-- Without a failure to come, a transaction that ends is only counted. -/
theorem land_of_unharmed (hunharmed : s.failAfter = none) (i : Nat) (phase : Phase) :
    s.land i phase =
      { s.setPhase i phase with completed := s.completed + phase.ended.toNat } := by
  cases phase with
  | done result =>
    refine (if_neg ?_ : s.finish i result = s.conclude i result)
    intro hdue
    cases hunharmed.symm.trans hdue
  | unstarted | requesting | pausing | committing => rfl

namespace Calm

theorem struck (hcalm : s.Calm nodes first clients j owner u) : s.struck = false := by
  rw [Simulation.struck, hcalm.unharmed]
  rfl

theorem coordinator? (hcalm : s.Calm nodes first clients j owner u)
    (hc : Crew nodes clients first) : s.snapshot.coordinator? = some first :=
  hcalm.staffed.coordinator?_of_not_struck hc hcalm.struck

theorem reachable (hcalm : s.Calm nodes first clients j owner u) {node : NodeId}
    (hmanaged : (s.deployment.manager? node).isSome) :
    s.deployment.cluster.refusal? node = none := by
  rw [Deployment.isSome_manager?_iff, hcalm.staffed.managers] at hmanaged
  obtain ⟨n, hn, rfl⟩ := List.mem_map.mp hmanaged
  exact hcalm.staffed.reachable hcalm.struck hn

theorem reachable_first (hcalm : s.Calm nodes first clients j owner u)
    (hc : Crew nodes clients first) : s.deployment.cluster.refusal? first.id = none :=
  hcalm.staffed.reachable hcalm.struck hc.mem

theorem requester?_ne_none (hcalm : s.Calm nodes first clients j owner u)
    (hc : Crew nodes clients first) (i : Nat) : s.requester? i ≠ none := by
  have hfirst := hc.mem
  rw [← hcalm.staffed.stations] at hfirst
  obtain ⟨st, hst, hnode⟩ := List.mem_map.mp hfirst
  have halive : s.alive st.node.id := by
    refine hcalm.staffed.alive_iff.mpr ⟨first, hc.mem, congrArg ClusterNode.id hnode.symm, ?_⟩
    intro h
    cases hcalm.struck.symm.trans h
  have hlive : st ∈ s.stations.filter fun st => s.alive st.node.id :=
    List.mem_filter.mpr ⟨hst, halive⟩
  have hlt := Nat.mod_lt i (List.length_pos_of_mem hlive)
  rw [requester?, List.getElem?_eq_getElem hlt]
  exact Option.some_ne_none _

/-- Transactions keep going if requests on record stay underway. -/
theorem keeps_going (hcalm : s.Calm nodes first clients j owner u) {d : Deployment}
    (hkeeps : ∀ issue ∈ j.issues, ∀ requester what,
      s.deployment.Underway requester first.id issue.future what →
        d.Underway requester first.id issue.future what) :
    ∀ run ∈ s.runs, Going d first.id run := by
  intro run hrun
  obtain ⟨i, hi⟩ := List.getElem?_of_mem hrun
  have hbacked := hcalm.traced.backed i run hi
  have hgoing := hcalm.going run hrun
  obtain ⟨rollback, phase⟩ := run
  cases phase with
  | unstarted => trivial
  | requesting requester left coordinator tx future =>
    obtain ⟨-, -, hissue, -⟩ := hbacked
    exact hgoing.imp_right (hkeeps _ hissue requester _)
  | pausing => exact hgoing
  | committing requester coordinator counter future =>
    obtain ⟨-, -, ⟨issue, hissue, rfl⟩, -⟩ := hbacked
    obtain ⟨hcommits, hserver, tx, hunderway⟩ := hgoing
    exact ⟨hcommits, hserver, tx, hkeeps _ hissue requester _ hunderway⟩
  | done => exact hgoing

theorem keeps_ask (hcalm : s.Calm nodes first clients j owner u) (hc : Crew nodes clients first)
    (requester : NodeId) (what : Request) :
    ∀ run ∈ s.runs,
      Going (s.deployment.perform (.ask requester first.id what)) first.id run := by
  refine hcalm.keeps_going fun issue hissue other request hunderway => ?_
  refine hunderway.ask ?_ (hcalm.reachable_first hc) requester what
  have hroom := hcalm.traced.next_lt
  rw [← hcalm.traced.deployment] at hroom ⊢
  exact hcalm.traced.kept.future_ne_next hroom hissue

theorem passed (hcalm : s.Calm nodes first clients j owner u) (hc : Crew nodes clients first)
    (hrun : s.runs[i]? = some run) (h : Passage s i run move dm stations phase)
    (hp : (s.act dm stations).Provisioned u')
    (hfrugal : run.phase.started.toNat + dm.seeks.toNat ≤ phase.started.toNat)
    (hothers : ∀ run ∈ s.runs, Going (s.deployment.perform dm) first.id run)
    (hnext : Going (s.deployment.perform dm) first.id { run with phase }) :
    ∃ owner', ((s.act dm stations).land i phase).Calm nodes first clients (j.step dm) owner'
      u' := by
  obtain ⟨hstays, hstations⟩ := h.stays
  have hstaffed := (hcalm.staffed.act hstays (hstations fun _ _ => rfl)).land hc hrun h.ended phase
  have htraced := hcalm.traced.passed hcalm.staffed hc hrun h
  have hsum := sum_map_modify hrun (fun r => { r with phase }) fun r => r.phase.started.toNat
  have hasked := j.length_asked_step dm
  have hbefore := hcalm.frugal
  rw [land_of_unharmed (s := s.act dm stations) hcalm.unharmed] at hstaffed ⊢
  refine ⟨Function.update owner s.deployment.ids.next.1 i, hstaffed, ?_,
    ⟨hp.fresh, hp.deployment, hp.generators, hp.paced⟩, hcalm.unharmed, ?_, ?_⟩
  · cases phase with
    | done => exact htraced.concluded
    | unstarted | requesting | pausing | committing => exact htraced
  · change _ ≤ ((s.runs.modify i fun r => { r with phase }).map fun r => r.phase.started.toNat).sum
    dsimp only at hsum
    omega
  · intro other hother
    obtain ⟨k, hk⟩ := List.getElem?_of_mem hother
    rcases setPhase_cases (s := s.act dm stations) hrun hk with ⟨-, rfl⟩ | ⟨-, hother⟩
    · exact hnext
    · exact hothers other (List.mem_of_getElem? hother)

/-- The first attempt asks the first server, under a new id. -/
theorem asked (hcalm : s.Calm nodes first clients j owner u) (hc : Crew nodes clients first)
    (hrun : s.runs[i]? = some run) {requester : NodeId} {left : Nat} {tx : TxId}
    (hasks : Asks s i run.phase requester left)
    (h : Passage s i run move (.ask requester first.id (.txCounter tx)) (s.drawn requester)
      (.requesting requester left first.id tx s.deployment.ids.next.1))
    (htx : (s.drawTx requester s.snapshot.version).1 = some tx) :
    ∃ j' owner' u', ((s.act (.ask requester first.id (.txCounter tx)) (s.drawn requester)).land i
      (.requesting requester left first.id tx s.deployment.ids.next.1)).Calm
        nodes first clients j' owner' u' := by
  obtain ⟨u', hp⟩ := hcalm.provisioned.asked hcalm.traced.next_lt htx first.id
  have hmanaged := hcalm.traced.managed hcalm.staffed hrun hasks
  obtain ⟨m, hm⟩ := Option.isSome_iff_exists.mp hmanaged
  have hgoing := hcalm.going run (List.mem_of_getElem? hrun)
  have hnew : run.phase.started = false := by
    unfold Going at hgoing
    generalize run.phase = phase at hasks hgoing
    cases hasks with
    | first => rfl
    | again => exact hgoing.elim
  obtain ⟨owner', hafter⟩ := hcalm.passed hc hrun h hp (by rw [hnew]; exact Nat.le_refl 1)
    (hcalm.keeps_ask hc requester _)
    ⟨rfl, Deployment.underway_ask hm (hcalm.reachable_first hc) _⟩
  exact ⟨_, owner', u', hafter⟩

/-- A transaction that goes on has no trouble with it. -/
theorem proceeds (hcalm : s.Calm nodes first clients j owner u) (hc : Crew nodes clients first)
    (hrun : s.runs[i]? = some run) (h : Passage s i run move dm stations phase)
    (hpatient : move.patient) :
    ∃ j' owner' u', ((s.act dm stations).land i phase).Calm nodes first clients j' owner' u' := by
  have hroom := hcalm.traced.next_lt
  have hgoing := hcalm.going run (List.mem_of_getElem? hrun)
  unfold Going at hgoing
  cases h with
  | deserted _ hnobody => exact absurd hnobody (hcalm.requester?_ne_none hc i)
  | asked hasks htx halive helected =>
    cases (hcalm.coordinator? hc).symm.trans helected
    exact hcalm.asked hc hrun hasks (.asked hasks htx halive helected) htx
  | foundered _ hasks _ hlost =>
    have hopen := hcalm.reachable (hcalm.traced.managed hcalm.staffed hrun hasks)
    rcases hlost with hgone | hnobody
    · exact Bool.noConfusion (hgone.symm.trans (Cluster.inbox?_of_refusal? hopen).1)
    · cases (hcalm.coordinator? hc).symm.trans hnobody
  | refused hphase hfuture =>
    rw [hphase] at hgoing
    exact absurd hfuture (hgoing.2.counter_ne_error _)
  | lapsed | timedOut => cases hpatient
  | rolledBack hphase hfuture hrollback =>
    rw [hphase] at hgoing
    obtain ⟨rfl, -⟩ := hgoing
    obtain ⟨owner', hafter⟩ := hcalm.passed hc hrun (.rolledBack hphase hfuture hrollback)
      (hcalm.provisioned.turn hroom rfl trivial) (by rw [hphase]; exact Nat.le_refl 1)
      (hcalm.keeps_going fun _ _ _ _ hunderway => hunderway.rollback ..)
      ⟨_, by rw [hrollback]; rfl⟩
    exact ⟨_, owner', _, hafter⟩
  | commits hphase hfuture hcommit =>
    rw [hphase] at hgoing
    obtain ⟨rfl, m, hm, -⟩ := hgoing
    obtain ⟨owner', hafter⟩ := hcalm.passed hc hrun (.commits hphase hfuture hcommit)
      (hcalm.provisioned.turn hroom rfl trivial) (by rw [hphase]; exact Nat.le_refl 1)
      (hcalm.keeps_ask hc _ _)
      ⟨hcommit, rfl, _, Deployment.underway_ask hm (hcalm.reachable_first hc) _⟩
    exact ⟨_, owner', _, hafter⟩
  | acknowledged hphase hfuture =>
    rw [hphase] at hgoing
    obtain ⟨hcommit, rfl, -⟩ := hgoing
    obtain ⟨owner', hafter⟩ := hcalm.passed hc hrun (.acknowledged hphase hfuture)
      (hcalm.provisioned.turn hroom rfl trivial) (by rw [hphase]; exact Nat.le_refl 1)
      hcalm.going ⟨_, by rw [hcommit]; rfl⟩
    exact ⟨_, owner', _, hafter⟩
  | unacknowledged hphase hfuture =>
    rw [hphase] at hgoing
    obtain ⟨-, -, tx, hunderway⟩ := hgoing
    exact absurd hfuture (hunderway.ack_ne_error _)

/-- A dispatcher takes an envelope. Requests underway stay so, since the transactions they name are
active nowhere yet. -/
theorem dispatched (hcalm : s.Calm nodes first clients j owner u) {node : NodeId} {e : Envelope}
    (htake : (s.deployment.cluster.take node).1 = .envelope e) :
    (s.act (.dispatch node) s.stations).Calm nodes first clients (j.step (.dispatch node)) owner
      (u.step (.turn (.dispatch node))) := by
  obtain ⟨b, -, hb, -⟩ := Cluster.take_spec htake
  constructor
  · exact hcalm.staffed.act rfl rfl
  · exact hcalm.traced.moved (.dispatch node) rfl rfl rfl rfl rfl fun h => h
  · exact hcalm.provisioned.turn hcalm.traced.next_lt rfl trivial
  · exact hcalm.unharmed
  · exact Nat.le_trans (j.length_asked_step (.dispatch node)) hcalm.frugal
  · refine hcalm.keeps_going fun issue _ requester what hunderway => ?_
    refine hunderway.dispatch (hcalm.reachable hunderway.managed)
      (hcalm.staffed.manager_of_inbox hb) ?_
    rintro tx server rfl hserver htaken
    rw [← hcalm.provisioned.deployment] at hserver htaken
    exact hcalm.provisioned.fresh.inactive (Deployment.mem_of_manager? hserver).1 htaken
      (Wire.wanted?_of_decode (Wire.decode_encode _))

/-- Nobody has left, so that listeners read nothing. -/
theorem listened (hcalm : s.Calm nodes first clients j owner u) (hc : Crew nodes clients first)
    {node : NodeId} {st : Station}
    (hst : (s.stations.find? fun st => st.node.id == node) = some st) :
    s.act (.listen node st.heard)
      (s.advanced node (s.deployment.cluster.events.read st.heard).2) = s := by
  have hsent := hcalm.staffed.departures
  rw [hcalm.struck] at hsent
  have hquiet : s.deployment.cluster.events.sent.length = 0 := by
    rw [List.map_eq_nil_iff.mp hsent]
    rfl
  rcases s.deployment.cluster.events.read_cases st.heard with hnothing | ⟨-, hmore⟩
  · exact listen_nothing hcalm.staffed hc hst hnothing
  · omega

/-- Every move keeps the calm, unless somebody gives up with it. -/
theorem step (hcalm : s.Calm nodes first clients j owner u) (hc : Crew nodes clients first)
    (hpatient : move.patient) :
    ∃ j' owner' u', (s.step move).Calm nodes first clients j' owner' u' := by
  have hcourse := s.course move
  generalize s.step move = s' at hcourse ⊢
  cases hcourse with
  | idle => exact ⟨j, owner, u, hcalm⟩
  | dispatched htake => exact ⟨_, owner, _, hcalm.dispatched htake⟩
  | listened hst =>
    rw [hcalm.listened hc hst]
    exact ⟨j, owner, u, hcalm⟩
  | passed hrun h => exact hcalm.proceeds hc hrun h hpatient

end Calm

end CounterCoordinator.Simulation
