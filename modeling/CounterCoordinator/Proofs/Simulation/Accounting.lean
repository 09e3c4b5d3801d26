import CounterCoordinator.Proofs.Simulation.Reports
import CounterCoordinator.Proofs.Simulation.Trace

/-!
# The accounts of a simulation

However a simulation goes, it comes to an end, and then its report accounts for every transaction
and every counter. The coordinator fails once if it is to fail, and only it and the server that
joined next ever coordinate.
-/
namespace CounterCoordinator.Simulation

/-- What was decided beforehand: who rolls back, and when the coordinator fails. -/
def plan (s : Simulation) : List Bool × Option Nat := (s.runs.map Run.rollback, s.failAfter)

theorem plan_setPhase (s : Simulation) (i : Nat) (phase : Phase) :
    (s.setPhase i phase).plan = s.plan := by
  refine Prod.ext ?_ rfl
  change (s.runs.modify i fun r => { r with phase }).map Run.rollback = s.runs.map Run.rollback
  apply List.ext_getElem?
  intro k
  rw [List.getElem?_map, List.getElem?_map, List.getElem?_modify]
  cases s.runs[k]? with
  | none => rfl
  | some run => by_cases hk : i = k <;> simp [hk]

theorem plan_land (s : Simulation) (i : Nat) (phase : Phase) : (s.land i phase).plan = s.plan := by
  cases phase with
  | done result =>
    refine Eq.trans ?_ (s.plan_setPhase i (.done result))
    simp only [land, finish, failIfDue]
    split
    · split <;> rfl
    · rfl
  | unstarted | requesting | pausing | committing => exact s.plan_setPhase i _

theorem plan_step (s : Simulation) (move : Move) : (s.step move).plan = s.plan := by
  have hcourse := s.course move
  generalize s.step move = s' at hcourse ⊢
  cases hcourse with
  | idle | dispatched | listened => rfl
  | passed => exact plan_land ..

theorem plan_play (s : Simulation) (moves : List Move) : (s.play moves).plan = s.plan := by
  induction moves generalizing s with
  | nil => rfl
  | cons move rest ih => exact (ih (s.step move)).trans (s.plan_step move)

def Phase.result? : Phase → Option Result
  | done result => some result
  | _ => none

theorem results_eq (s : Simulation) : s.results = s.runs.filterMap fun run => run.phase.result? :=
  rfl

theorem length_results_of_isOver {s : Simulation} (h : s.isOver) :
    s.results.length = s.runs.length := by
  rw [results_eq, List.length_filterMap_eq_countP, List.countP_eq_length]
  intro run hrun
  have hended := isOver_iff.mp h run hrun
  generalize run.phase = phase at hended ⊢
  cases phase with
  | done => rfl
  | unstarted | requesting | pausing | committing => cases hended

variable {s : Simulation} {nodes : List ClusterNode} {first : ClusterNode} {clients : Nat}
  {j : Journal} {owner : FutureId → Nat}

namespace Traced

theorem earned_of_result (ht : s.Traced nodes clients j owner) {i : Nat} {run : Run}
    (hrun : s.runs[i]? = some run) {c : NodeId} {n : Version}
    (h : run.phase.result?.bind (Result.counterOf? c) = some n) :
    Earned j (s.Leads nodes clients) owner i c n := by
  have hbacked := ht.backed i run hrun
  obtain ⟨result, hresult, hcounter⟩ := Option.bind_eq_some_iff.mp h
  generalize run.phase = phase at hbacked hresult
  cases phase with
  | unstarted | requesting | pausing | committing => cases hresult
  | done =>
    cases hresult
    cases result with
    | aborted | failed => cases hcounter
    | finished c' n' ending =>
      simp only [Result.counterOf?] at hcounter
      split at hcounter
      · rename_i hc
        cases hcounter
        exact hc ▸ hbacked
      · cases hcounter

/-- No coordinator gave two transactions the same counter. -/
theorem nodup_counters (ht : s.Traced nodes clients j owner) (c : NodeId) :
    (s.results.filterMap (Result.counterOf? c)).Nodup := by
  have hbound : (j.chronicle.assignedBy c).length < 2 ^ 63 := by
    have hassigned := ht.kept.length_assignedBy_le c
    have hasked := ht.asked
    have hroom := ht.room
    have hsize := ht.size
    omega
  rw [results_eq, List.filterMap_filterMap, List.Nodup, List.pairwise_filterMap,
    List.pairwise_iff_getElem]
  intro i k hi hk hlt n hn n' hn' heq
  subst heq
  obtain ⟨-, f, tx, hf, hassigned⟩ := ht.earned_of_result (List.getElem?_eq_getElem hi) hn
  obtain ⟨-, f', tx', hf', hassigned'⟩ := ht.earned_of_result (List.getElem?_eq_getElem hk) hn'
  have hsame := ht.kept.sound.counter_injective hbound hassigned hassigned' rfl rfl
  have hfuture : f = f' := congrArg Assignment.future hsame
  have hik : i = k := hf.symm.trans ((congrArg owner hfuture).trans hf')
  omega

theorem leads_of_counters (ht : s.Traced nodes clients j owner) {c : NodeId}
    (h : s.results.filterMap (Result.counterOf? c) ≠ []) : s.Leads nodes clients c := by
  obtain ⟨n, hn⟩ := List.exists_mem_of_ne_nil _ h
  rw [results_eq, List.filterMap_filterMap] at hn
  obtain ⟨run, hrun, hcounter⟩ := List.mem_filterMap.mp hn
  obtain ⟨i, hi⟩ := List.getElem?_of_mem hrun
  exact (ht.earned_of_result hi hcounter).1

end Traced

def IsServer (s : Simulation) (order : Nat) (node : NodeId) : Prop :=
  ∃ st ∈ s.stations, st.node.id = node ∧ st.node.client = false ∧ st.node.order.toNat = order

/-- The report of a simulation accounts for everything: all transactions, all counters, and the
failure, if there was one. -/
structure Accounted (s : Simulation) (c : Config) : Prop where
  total : s.report.total = c.simulation.transactions
  counters : (s.report.counters.map fun entry => entry.2.length).sum =
    s.report.committed + s.report.rolledBack + s.report.ackTimeouts
  keys : (s.report.counters.map Prod.fst).Nodup
  distinct : ∀ entry ∈ s.report.counters, entry.2.Nodup
  unharmed : c.simulation.failCoordinatorAfter = none →
    s.report.failedCoordinator = none ∧ s.deployment.cluster.events.sent = []
  harmed : c.simulation.failCoordinatorAfter ≠ none →
    ∃ node, s.IsServer (c.simulation.clientNodes + 1) node ∧
      s.report.failedCoordinator = some node ∧
      (s.deployment.cluster.events.sent.map fun e => (e.kind, e.node)) = [(.failed, node)]
  coordinators : ∀ entry ∈ s.report.counters,
    s.IsServer (c.simulation.clientNodes + 1) entry.1 ∨
      (c.simulation.failCoordinatorAfter ≠ none ∧ s.IsServer (c.simulation.clientNodes + 2) entry.1)

theorem Staffed.isServer (hs : s.Staffed nodes first) {n : ClusterNode} (hn : n ∈ nodes)
    (hserver : n.client = false) : s.IsServer n.order.toNat n.id := by
  rw [← hs.stations] at hn
  obtain ⟨st, hst, rfl⟩ := List.mem_map.mp hn
  exact ⟨st, hst, rfl, hserver, rfl⟩

theorem Staffed.isServer_first (hs : s.Staffed nodes first) (hc : Crew nodes clients first) :
    s.IsServer (clients + 1) first.id := by
  rw [← hc.order]
  refine hs.isServer hc.mem ((hc.server_iff hc.mem).mpr ?_)
  rw [hc.order]
  exact Nat.lt_succ_self _

/-- The coordinator has failed by the end, if it was to fail at all. -/
theorem Staffed.struck_of_isOver (hs : s.Staffed nodes first) (hover : s.isOver) {count : Nat}
    (hafter : s.failAfter = some count) (hcount : count ≤ s.runs.length) : s.struck := by
  have hended : s.completed = s.runs.length := by
    have hall : (s.runs.map fun run => run.phase.ended.toNat) = s.runs.map fun _ => 1 :=
      List.map_congr_left fun run hrun => congrArg Bool.toNat (isOver_iff.mp hover run hrun)
    rw [hs.completed, hall]
    simp
  rw [struck, hafter]
  exact decide_eq_true (hended ▸ hcount)

theorem Orderly.accounted (ho : s.Orderly nodes first clients) (hc : Crew nodes clients first)
    {c : Config} {rollbacks : List Bool} (ha : c.Accepts rollbacks)
    (hplan : s.plan = (rollbacks, c.simulation.failCoordinatorAfter))
    (hclients : clients = c.simulation.clientNodes) (hover : s.isOver) : s.Accounted c := by
  subst hclients
  obtain ⟨j, owner, ht⟩ := ho.traced
  have hs := ho.staffed
  have hcounts := s.counts_report
  have hafter : s.failAfter = c.simulation.failCoordinatorAfter := congrArg Prod.snd hplan
  have hdecided : s.runs.map Run.rollback = rollbacks := congrArg Prod.fst hplan
  have hlength : s.runs.length = c.simulation.transactions := by
    rw [← ha.decided, ← hdecided, List.length_map]
  obtain ⟨-, hrange⟩ := SimulationConfig.of_fault?_eq_none ha.fault?
  have unharmed : c.simulation.failCoordinatorAfter = none → s.struck = false := by
    intro hnone
    rw [struck, hafter, hnone]
    rfl
  have harmed : c.simulation.failCoordinatorAfter ≠ none → s.struck = true := by
    intro hsome
    obtain ⟨count, hcount⟩ := Option.ne_none_iff_exists'.mp hsome
    exact hs.struck_of_isOver hover (hafter.trans hcount) (hlength ▸ (hrange count hcount).2)
  constructor
  · rw [hcounts.total, length_results_of_isOver hover, hlength]
  · exact hcounts.assigned
  · exact hcounts.keys
  · intro entry hentry
    rw [hcounts.lists entry hentry]
    exact ht.nodup_counters entry.1
  · intro hnone
    have hdepartures := hs.departures
    rw [unharmed hnone] at hdepartures
    refine ⟨?_, List.map_eq_nil_iff.mp hdepartures⟩
    rw [failedCoordinator_report, hs.failed, unharmed hnone]
    rfl
  · intro hsome
    refine ⟨first.id, hs.isServer_first hc, ?_, ?_⟩
    · rw [failedCoordinator_report, hs.failed, harmed hsome]
      rfl
    · rw [hs.departures, harmed hsome]
      rfl
  · intro entry hentry
    have hlisted := (hcounts.listed entry.1).mp (List.mem_map_of_mem hentry)
    obtain ⟨n, hn, hid, hserver, horder⟩ := ht.leads_of_counters hlisted
    have hjoined := hs.isServer hn hserver
    rw [hid] at hjoined
    rcases horder with horder | ⟨hstruck, horder⟩
    · exact .inl (horder ▸ hjoined)
    · refine .inr ⟨fun hnone => ?_, horder ▸ hjoined⟩
      rw [unharmed hnone] at hstruck
      cases hstruck

/-- Every simulation under accepted settings can be started, and whatever order its transactions,
messages and timeouts come in, it comes to an end: a step either has nothing to do or lowers the
work that is left, and as long as a transaction has not ended some step has something to do. At the
end everything is accounted for. Running it is one such order. -/
theorem every_run_accounted {c : Config} {rollbacks : List Bool} (ha : c.Accepts rollbacks) :
    ∃ s₀, start c rollbacks = .ok s₀ ∧
      (∀ moves move, (s₀.play moves).step move = s₀.play moves ∨
        ((s₀.play moves).step move).work < (s₀.play moves).work) ∧
      (∀ moves, ¬ (s₀.play moves).isOver →
        ∃ move, ((s₀.play moves).step move).work < (s₀.play moves).work) ∧
      (∀ moves, (s₀.play moves).isOver → (s₀.play moves).Accounted c) ∧
      s₀.run.isOver ∧ ∃ moves, s₀.run = s₀.play moves := by
  obtain ⟨hservers, -⟩ := SimulationConfig.of_fault?_eq_none ha.fault?
  have hc := crew hservers ha.nodes
  have orderly := (orderly_fresh ha).play hc
  refine ⟨fresh c rollbacks, start_eq ha, ?_, ?_, ?_, ?_⟩
  · intro moves move
    exact (work_step (orderly moves).staffed hc move).imp_left And.right
  · intro moves hrunning
    obtain ⟨move, hmove⟩ := List.exists_mem_of_ne_nil _ (mt isOver_of_round hrunning)
    exact ⟨move, (orderly moves).round_lt hc move hmove⟩
  · intro moves hover
    refine (orderly moves).accounted hc ha ?_ rfl hover
    rw [plan_play]
    simp [plan, fresh, Function.comp_def]
  · obtain ⟨moves, -, hrun, hround⟩ := settleFor_spec
      (P := fun s => s.Orderly _ _ _) (fun _ _ _ _ => True.intro)
      (fun s move ho _ => ho.step hc move) (fun s move ho => work_step_le ho.staffed hc move)
      (fun s ho => ho.round_lt hc) _ (orderly_fresh ha) work_fresh
    have hsame : (fresh c rollbacks).run = (fresh c rollbacks).play moves := hrun
    exact ⟨hsame ▸ isOver_of_round hround, moves, hsame⟩

/-- Three nodes, one of them a client, run two transactions, and the coordinator fails after the
first of them. -/
def failing : Config where
  simulation := {
    nodes := 3, clientNodes := 1, transactions := 2, failCoordinatorAfter := some 1
    rollbackRatio := 0.5 }

theorem every_run_accounted_failing :
    ∃ s, start failing [true, false] = .ok s ∧ s.run.isOver ∧ s.run.Accounted failing := by
  have haccepted : failing.Accepts [true, false] := ⟨rfl, rfl, by decide, by decide⟩
  obtain ⟨s, hstart, -, -, haccounted, hover, moves, hrun⟩ := every_run_accounted haccepted
  exact ⟨s, hstart, hover, hrun ▸ haccounted moves (hrun ▸ hover)⟩

end CounterCoordinator.Simulation
