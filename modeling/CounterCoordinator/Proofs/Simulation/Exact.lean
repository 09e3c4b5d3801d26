import CounterCoordinator.Proofs.Simulation.Accounting
import CounterCoordinator.Proofs.Simulation.Calm
import Mathlib.Data.List.Perm.Subperm

/-!
# Exact simulations

Without failure the report of a simulation is determined by its settings: every transaction ends as
it was decided, and the first server assigns each of the first counters to one of them. No order of
messages and transactions changes more than which transaction gets which counter.
-/
namespace CounterCoordinator.Simulation
variable {s : Simulation} {nodes : List ClusterNode} {first : ClusterNode} {clients : Nat}
  {j : Journal} {owner : FutureId → Nat} {u : Supply} {c : Config} {rollbacks : List Bool}

theorem calm_fresh (ha : c.Accepts rollbacks)
    (hunharmed : c.simulation.failCoordinatorAfter = none) :
    ∃ j owner u, (fresh c rollbacks).Calm (recruits c.simulation.clientNodes c.simulation.nodes)
      (recruit c.simulation.clientNodes c.simulation.clientNodes) c.simulation.clientNodes
      j owner u := by
  obtain ⟨u, hprovisioned⟩ := provisioned_fresh ha
  have htraced := traced_fresh ha
  refine ⟨_, _, u, staffed_fresh ha, htraced, hprovisioned, hunharmed,
    Nat.le_trans htraced.asked (Nat.zero_le _), ?_⟩
  intro run hrun
  obtain ⟨rollback, -, rfl⟩ := List.mem_map.mp hrun
  trivial

theorem traffic_ne_nil {node : NodeId} {e : Envelope} (hlies : s.deployment.cluster.Lies node e)
    (hstation : ∃ st ∈ s.stations, st.node.id = node) : s.traffic ≠ [] := by
  obtain ⟨st, hst, rfl⟩ := hstation
  obtain ⟨b, hb, he⟩ := hlies
  have hqueued := List.length_pos_of_mem he
  have hmove : Move.dispatch st.node.id ∈ s.traffic := by
    refine List.mem_append_left _ (List.mem_flatMap.mpr ⟨st, hst, List.mem_replicate.mpr ⟨?_, rfl⟩⟩)
    rw [hb]
    exact Nat.ne_of_gt hqueued
  exact List.ne_nil_of_mem hmove

namespace Calm

theorem orderly (hcalm : s.Calm nodes first clients j owner u) : s.Orderly nodes first clients :=
  ⟨hcalm.staffed, j, owner, hcalm.traced⟩

/-- A request underway has something to happen next. -/
theorem prompt_of_underway (hcalm : s.Calm nodes first clients j owner u)
    (hc : Crew nodes clients first) {requester : NodeId} {f : FutureId} {what : Request}
    (h : s.deployment.Underway requester first.id f what) :
    s.traffic ≠ [] ∨ ∃ m, s.deployment.manager? requester = some m ∧ m.Settled f what := by
  have station : ∀ {node}, node ∈ nodes.map ClusterNode.id →
      ∃ st ∈ s.stations, st.node.id = node := by
    intro node hnode
    rw [← hcalm.staffed.stations, List.map_map] at hnode
    exact List.mem_map.mp hnode
  have hmanaged := h.managed
  rw [Deployment.isSome_manager?_iff, hcalm.staffed.managers] at hmanaged
  obtain ⟨m, hm, -, hsettled | hlies | ⟨sender, answer, -, hlies⟩⟩ := h
  · exact .inr ⟨m, hm, hsettled⟩
  · exact .inl (traffic_ne_nil hlies (station (List.mem_map_of_mem hc.mem)))
  · exact .inl (traffic_ne_nil hlies (station hmanaged))

/-- As long as a transaction has not ended, there is something to do without the clock. -/
theorem isOver_of_prompt (hcalm : s.Calm nodes first clients j owner u)
    (hc : Crew nodes clients first) (hnothing : s.prompt = []) : s.isOver := by
  obtain ⟨hquiet, hready⟩ := List.append_eq_nil_iff.mp hnothing
  rw [isOver_iff]
  intro run hrun
  have hgoing := hcalm.going run hrun
  have hwaits := movesWhere_eq_nil.mp hready run hrun
  unfold Going at hgoing
  generalize run.phase = phase at hgoing hwaits ⊢
  cases phase with
  | unstarted => cases hwaits
  | requesting requester left coordinator tx future =>
    rcases hcalm.prompt_of_underway hc hgoing.2 with hbusy | ⟨m, hm, hsettled⟩
    · exact absurd hquiet hbusy
    · have hfuture : isResolved (s.counterFuture? requester future) := by
        rw [isResolved_iff, counterFuture?, hm]
        exact hsettled
      exact Bool.noConfusion (hwaits.symm.trans hfuture)
  | pausing => exact hgoing.elim
  | committing requester coordinator counter future =>
    obtain ⟨-, -, tx, hunderway⟩ := hgoing
    rcases hcalm.prompt_of_underway hc hunderway with hbusy | ⟨m, hm, hsettled⟩
    · exact absurd hquiet hbusy
    · have hfuture : isResolved (s.ackFuture? requester future) := by
        rw [isResolved_iff, ackFuture?, hm]
        exact hsettled
      exact Bool.noConfusion (hwaits.symm.trans hfuture)
  | done => rfl

theorem patient_of_prompt {move : Move} (hmove : move ∈ s.prompt) : move.patient := by
  rcases List.mem_append.mp hmove with hmove | hmove
  · rcases List.mem_append.mp hmove with hmove | hmove
    all_goals
      obtain ⟨st, -, hmove⟩ := List.mem_flatMap.mp hmove
      rw [(List.mem_replicate.mp hmove).2]
      rfl
  · obtain ⟨i, run, -, -, rfl⟩ := mem_movesWhere.mp hmove
    rfl

theorem patient_of_round (hcalm : s.Calm nodes first clients j owner u)
    (hc : Crew nodes clients first) : ∀ move ∈ s.round, move.patient := by
  intro move hmove
  rcases s.round_cases with ⟨-, heq⟩ | ⟨hnothing, ⟨-, heq⟩ | ⟨-, heq⟩⟩
  · exact patient_of_prompt (heq ▸ hmove)
  · rw [heq] at hmove
    obtain ⟨i, run, -, -, rfl⟩ := mem_movesWhere.mp hmove
    rfl
  · rw [heq] at hmove
    obtain ⟨i, run, hrun, hwaiting, -⟩ := mem_movesWhere.mp hmove
    have hover := hcalm.isOver_of_prompt hc hnothing
    have hended := isOver_iff.mp hover run (List.mem_of_getElem? hrun)
    generalize run.phase = phase at hwaiting hended
    cases phase with
    | requesting | committing => cases hended
    | unstarted | pausing | done => cases hwaiting

theorem play (hcalm : s.Calm nodes first clients j owner u) (hc : Crew nodes clients first)
    {moves : List Move} (hpatient : ∀ move ∈ moves, move.patient) :
    ∃ j' owner' u', (s.play moves).Calm nodes first clients j' owner' u' :=
  play_keeps (P := fun s => ∃ j owner u, s.Calm nodes first clients j owner u)
    (fun _ _ ⟨_, _, _, h⟩ => h.step hc) ⟨j, owner, u, hcalm⟩ hpatient

end Calm

/-- The server gave every transaction a counter, and all ended as they were decided. -/
def Settled (s : Simulation) (server : NodeId) : Prop :=
  ∀ run ∈ s.runs, ∃ counter,
    run.phase.result? = some (.finished server counter (.planned run.rollback))

theorem Calm.settled (hcalm : s.Calm nodes first clients j owner u) (hover : s.isOver) :
    s.Settled first.id := by
  intro run hrun
  have hgoing := hcalm.going run hrun
  have hended := isOver_iff.mp hover run hrun
  unfold Going at hgoing
  generalize run.phase = phase at hgoing hended ⊢
  cases phase with
  | done result =>
    obtain ⟨counter, rfl⟩ := hgoing
    exact ⟨counter, rfl⟩
  | unstarted | requesting | pausing | committing => cases hended

namespace Settled
variable {server : NodeId}

theorem countP_results (hs : s.Settled server) {p : Result → Bool} {q : Bool → Bool}
    (hpq : ∀ counter rollback, p (.finished server counter (.planned rollback)) = q rollback) :
    s.results.countP p = s.plan.1.countP q := by
  rw [results_eq, List.countP_filterMap, plan, List.countP_map]
  refine List.countP_congr fun run hrun => ?_
  obtain ⟨counter, hresult⟩ := hs run hrun
  simp [hresult, hpq]

theorem counters_of_ne (hs : s.Settled server) {node : NodeId} (hnode : server ≠ node) :
    s.results.filterMap (Result.counterOf? node) = [] := by
  rw [List.filterMap_eq_nil_iff, results_eq]
  intro result hresult
  obtain ⟨run, hrun, hresult⟩ := List.mem_filterMap.mp hresult
  obtain ⟨counter, hfinished⟩ := hs run hrun
  cases hresult.symm.trans hfinished
  exact if_neg hnode

theorem length_counters (hs : s.Settled server) :
    (s.results.filterMap (Result.counterOf? server)).length = s.runs.length := by
  rw [results_eq, List.filterMap_filterMap, List.length_filterMap_eq_countP, List.countP_eq_length]
  intro run hrun
  obtain ⟨counter, hresult⟩ := hs run hrun
  simp [hresult, Result.counterOf?]

end Settled

/-- Every counter that the first server gave is one of as many as there are transactions. -/
theorem Calm.mem_counters (hcalm : s.Calm nodes first clients j owner u) {counter : Version}
    (h : counter ∈ s.results.filterMap (Result.counterOf? first.id)) :
    counter ∈ (List.range s.runs.length).map fun k => Int64.ofNat (k + 1) := by
  have ht := hcalm.traced
  have hasked : j.asked.length ≤ s.runs.length := by
    refine Nat.le_trans hcalm.frugal ?_
    refine Nat.le_trans (List.sum_le_card_nsmul _ 1 fun n hn => ?_) (by simp)
    obtain ⟨run, -, rfl⟩ := List.mem_map.mp hn
    exact Bool.toNat_le _
  have hassigned := Nat.le_trans (ht.kept.length_assignedBy_le first.id) hasked
  rw [results_eq, List.filterMap_filterMap] at h
  obtain ⟨run, hrun, hcounter⟩ := List.mem_filterMap.mp h
  obtain ⟨i, hi⟩ := List.getElem?_of_mem hrun
  obtain ⟨-, f, tx, -, hmade⟩ := ht.earned_of_result hi hcounter
  have hnumber := List.mem_map_of_mem (f := Assignment.counter)
    (Chronicle.mem_assignedBy (h := j.chronicle) hmade)
  rw [ht.kept.sound.numbered] at hnumber
  obtain ⟨k, hk, rfl⟩ := List.mem_map.mp hnumber
  have hk := Nat.lt_of_lt_of_le (List.mem_range.mp hk) hassigned
  exact List.mem_map.mpr ⟨k, List.mem_range.mpr hk, rfl⟩

/-- They are different, so that they are all of these. -/
theorem Calm.counters_perm (hcalm : s.Calm nodes first clients j owner u)
    (hsettled : s.Settled first.id) :
    ((s.results.filterMap (Result.counterOf? first.id)).map Int64.toInt).Perm
      ((List.range' 1 s.runs.length).map Int.ofNat) := by
  have hsize := hcalm.traced.size
  have hsub := (hcalm.traced.nodup_counters first.id).subperm fun _ => hcalm.mem_counters
  have hperm := hsub.perm_of_length_le (by simp [hsettled.length_counters])
  refine (hperm.map Int64.toInt).trans (.of_eq ?_)
  rw [List.range'_eq_map_range, List.map_map, List.map_map]
  refine List.map_congr_left fun k hk => ?_
  have hk := List.mem_range.mp hk
  rw [Function.comp_apply, Int64.toInt_ofNat_of_lt (by omega), Function.comp_apply, Nat.add_comm]
  rfl

/-- The report says that all transactions ended as they were decided, and that the first server gave
them the first counters. -/
structure Exact (s : Simulation) (c : Config) (rollbacks : List Bool) : Prop where
  committed : s.report.committed = rollbacks.count false
  rolledBack : s.report.rolledBack = rollbacks.count true
  ackTimeouts : s.report.ackTimeouts = 0
  aborted : s.report.aborted = 0
  failed : s.report.failed = 0
  failedCoordinator : s.report.failedCoordinator = none
  idle : c.simulation.transactions = 0 → s.report.counters = []
  counters : c.simulation.transactions ≠ 0 → ∃ server counters,
    s.IsServer (c.simulation.clientNodes + 1) server ∧
      s.report.counters = [(server, counters)] ∧
      (counters.map Int64.toInt).Perm ((List.range' 1 c.simulation.transactions).map Int.ofNat)

theorem Settled.keys {server : NodeId} (hs : s.Settled server) :
    ∀ entry ∈ s.report.counters, entry.1 = server := by
  intro entry hentry
  by_contra hother
  exact (s.counts_report.listed entry.1).mp (List.mem_map_of_mem hentry)
    (hs.counters_of_ne (Ne.symm hother))

theorem Settled.report_counters {server : NodeId} (hs : s.Settled server) :
    s.report.counters = if s.runs.length = 0 then []
      else [(server, s.results.filterMap (Result.counterOf? server))] := by
  have hcounts := s.counts_report
  have hkeys := hs.keys
  have hlisted : server ∈ s.report.counters.map Prod.fst ↔ s.runs.length ≠ 0 := by
    rw [hcounts.listed, ← hs.length_counters, ne_eq, ne_eq, List.length_eq_zero_iff]
  have hnodup := hcounts.keys
  have hlists := hcounts.lists
  generalize s.report.counters = l at hkeys hlisted hnodup hlists ⊢
  cases l with
  | nil => rw [if_pos (not_not.mp (mt hlisted.mpr List.not_mem_nil))]
  | cons entry rest =>
    have hserver := hkeys entry List.mem_cons_self
    have hown := hlists entry List.mem_cons_self
    have hrest : rest = [] := by
      refine List.eq_nil_iff_forall_not_mem.mpr fun other hother => ?_
      have hsame := hkeys other (List.mem_cons_of_mem _ hother)
      refine (List.nodup_cons.mp hnodup).1 ?_
      exact (hserver.trans hsame.symm) ▸ List.mem_map_of_mem hother
    rw [if_neg (hlisted.mp (hserver ▸ List.mem_cons_self)), hrest]
    rw [hserver] at hown
    exact congrArg (· :: []) (Prod.ext hserver hown)

theorem Calm.exact (hcalm : s.Calm nodes first clients j owner u) (hc : Crew nodes clients first)
    (hplan : s.plan.1 = rollbacks) (hdecided : rollbacks.length = c.simulation.transactions)
    (hclients : clients = c.simulation.clientNodes) (hover : s.isOver) : s.Exact c rollbacks := by
  subst hclients
  have hsettled := hcalm.settled hover
  have hcounts := s.counts_report
  have hlength : s.runs.length = c.simulation.transactions := by
    rw [← hdecided, ← hplan, plan, List.length_map]
  have hcounted := fun p q => hsettled.countP_results (p := p) (q := q)
  have hlisted := hsettled.report_counters
  rw [hplan] at hcounted
  rw [hlength] at hlisted
  constructor
  · rw [hcounts.committed, hcounted _ (· == false) (by rintro _ (_ | _) <;> rfl)]
    rfl
  · rw [hcounts.rolledBack, hcounted _ (· == true) (by rintro _ (_ | _) <;> rfl)]
    rfl
  · rw [hcounts.ackTimeouts, hcounted _ (fun _ => false) (by rintro _ (_ | _) <;> rfl)]
    exact congrFun List.countP_false rollbacks
  · rw [hcounts.aborted, List.count, hcounted _ (fun _ => false) (fun _ _ => rfl)]
    exact congrFun List.countP_false rollbacks
  · rw [hcounts.failed, hcounted _ (fun _ => false) (fun _ _ => rfl)]
    exact congrFun List.countP_false rollbacks
  · rw [failedCoordinator_report, hcalm.staffed.failed, hcalm.struck]
    rfl
  · intro hnone
    rw [hlisted, if_pos hnone]
  · intro hsome
    exact ⟨first.id, _, hcalm.staffed.isServer_first hc, hlisted.trans (if_neg hsome),
      hlength ▸ hcalm.counters_perm hsettled⟩

/-- Every simulation under accepted settings without failure can be started, and as long as nobody
gives up, it comes to an end in whatever order messages and transactions come: a step either has
nothing to do or lowers the work that is left, and as long as a transaction has not ended some step
has something to do for which nobody gives up. The report at the end is exact. Running it is one
such order. -/
theorem calm_run_exact (ha : c.Accepts rollbacks)
    (hunharmed : c.simulation.failCoordinatorAfter = none) :
    ∃ s₀, start c rollbacks = .ok s₀ ∧
      (∀ moves, (∀ move ∈ moves, move.patient) →
        (∀ move, (s₀.play moves).step move = s₀.play moves ∨
          ((s₀.play moves).step move).work < (s₀.play moves).work) ∧
        (¬ (s₀.play moves).isOver → ∃ move, move.patient ∧
          ((s₀.play moves).step move).work < (s₀.play moves).work) ∧
        ((s₀.play moves).isOver → (s₀.play moves).Exact c rollbacks)) ∧
      s₀.run.isOver ∧ s₀.run.Exact c rollbacks ∧
      ∃ moves, (∀ move ∈ moves, move.patient) ∧ s₀.run = s₀.play moves := by
  obtain ⟨hservers, -⟩ := SimulationConfig.of_fault?_eq_none ha.fault?
  have hc := crew hservers ha.nodes
  obtain ⟨j, owner, u, hfresh⟩ := calm_fresh ha hunharmed
  have hexact : ∀ moves, (∀ move ∈ moves, move.patient) → ((fresh c rollbacks).play moves).isOver →
      ((fresh c rollbacks).play moves).Exact c rollbacks := by
    intro moves hpatient hover
    obtain ⟨j, owner, u, hcalm⟩ := hfresh.play hc hpatient
    refine hcalm.exact hc ?_ ha.decided rfl hover
    rw [plan_play]
    simp [plan, fresh, Function.comp_def]
  obtain ⟨moves, hpatient, hrun, hround⟩ := settleFor_spec
    (P := fun s => ∃ j owner u, s.Calm _ _ _ j owner u)
    (by rintro _ ⟨_, _, _, h⟩; exact h.patient_of_round hc)
    (by rintro _ _ ⟨_, _, _, h⟩; exact h.step hc)
    (by rintro _ move ⟨_, _, _, h⟩; exact work_step_le h.staffed hc move)
    (by rintro _ ⟨_, _, _, h⟩; exact h.orderly.round_lt hc) _ ⟨j, owner, u, hfresh⟩ work_fresh
  have hsame : (fresh c rollbacks).run = (fresh c rollbacks).play moves := hrun
  have hover := isOver_of_round hround
  refine ⟨fresh c rollbacks, start_eq ha, ?_, hsame ▸ hover, hsame ▸ hexact moves hpatient hover,
    moves, hpatient, hsame⟩
  intro moves hpatient
  obtain ⟨j, owner, u, hcalm⟩ := hfresh.play hc hpatient
  refine ⟨fun move => ?_, fun hrunning => ?_, hexact moves hpatient⟩
  · exact (work_step hcalm.staffed hc move).imp_left And.right
  · have hround := mt isOver_of_round hrunning
    obtain ⟨move, hmove⟩ := List.exists_mem_of_ne_nil _ hround
    exact ⟨move, hcalm.patient_of_round hc move hmove, hcalm.orderly.round_lt hc move hmove⟩

/-- Three nodes, one of them a client, run two transactions, and nobody fails. -/
def unfailing : Config where
  simulation := { nodes := 3, clientNodes := 1, transactions := 2, rollbackRatio := 0.5 }

theorem calm_run_exact_unfailing :
    ∃ s, start unfailing [true, false] = .ok s ∧ s.run.Exact unfailing [true, false] := by
  have haccepted : unfailing.Accepts [true, false] := ⟨rfl, rfl, by decide, by decide⟩
  obtain ⟨s, hstart, -, -, hexact, -⟩ := calm_run_exact haccepted rfl
  exact ⟨s, hstart, hexact⟩

end CounterCoordinator.Simulation
