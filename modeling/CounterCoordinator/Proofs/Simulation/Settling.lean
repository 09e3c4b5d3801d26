import CounterCoordinator.Proofs.Simulation.Start
import CounterCoordinator.Proofs.Simulation.Work

/-!
# Rounds and the end of a run

A run plays rounds until one is empty. Every move of a round finds something to do, so each round
lowers the work that is left, and an empty one means that all transactions have ended. The fuel of a
run exceeds the work at its start.
-/
namespace CounterCoordinator.Simulation
variable {s : Simulation} {nodes : List ClusterNode} {first : ClusterNode} {clients : Nat}

theorem play_append (s : Simulation) (moves more : List Move) :
    s.play (moves ++ more) = (s.play moves).play more :=
  List.foldl_append

/-- A transaction in this phase acts for a node of the simulation, and the answer it waits for can
still come or has come. -/
def Attended (s : Simulation) : Phase → Prop
  | .requesting requester _ _ _ future => Future.stands (s.counterFuture? requester future)
  | .committing requester _ _ future => Future.stands (s.ackFuture? requester future)
  | .pausing requester _ => ∃ st ∈ s.stations, st.node.id = requester
  | .unstarted | .done _ => True

theorem drawTx_ne_none {requester : NodeId}
    (hrequester : ∃ st ∈ s.stations, st.node.id = requester) (version : UInt64) :
    (s.drawTx requester version).1 ≠ none := by
  obtain ⟨st, hst, rfl⟩ := hrequester
  have hfound : (s.stations.find? fun other => other.node.id == st.node.id).isSome :=
    List.find?_isSome.mpr ⟨st, hst, by simp⟩
  obtain ⟨other, hother⟩ := Option.isSome_iff_exists.mp hfound
  simp [drawTx, hother]

theorem station_of_requester? {i : Nat} {requester : NodeId}
    (h : s.requester? i = some requester) :
    s.alive requester ∧ ∃ st ∈ s.stations, st.node.id = requester := by
  obtain ⟨st, hst, rfl⟩ := Option.map_eq_some_iff.mp h
  obtain ⟨hmem, halive⟩ := List.mem_filter.mp (List.mem_of_getElem? hst)
  exact ⟨halive, st, hmem, rfl⟩

theorem mem_movesWhere {qualifies : Phase → Bool} {move : Nat → Move} {m : Move} :
    m ∈ s.movesWhere qualifies move ↔
      ∃ i run, s.runs[i]? = some run ∧ qualifies run.phase ∧ move i = m := by
  simp only [movesWhere, List.mem_map, List.mem_filter, Prod.exists, List.mem_zipIdx_iff_getElem?]
  constructor
  · rintro ⟨run, i, ⟨hrun, hphase⟩, rfl⟩
    exact ⟨i, run, hrun, hphase, rfl⟩
  · rintro ⟨i, run, hrun, hphase, rfl⟩
    exact ⟨run, i, ⟨hrun, hphase⟩, rfl⟩

theorem movesWhere_eq_nil {qualifies : Phase → Bool} {move : Nat → Move} :
    s.movesWhere qualifies move = [] ↔ ∀ run ∈ s.runs, qualifies run.phase = false := by
  rw [List.eq_nil_iff_forall_not_mem]
  constructor
  · intro h run hrun
    obtain ⟨i, hi⟩ := List.getElem?_of_mem hrun
    by_contra hphase
    exact h (move i) (mem_movesWhere.mpr ⟨i, run, hi, by simpa using hphase, rfl⟩)
  · intro h m hm
    obtain ⟨i, run, hrun, hphase, -⟩ := mem_movesWhere.mp hm
    rw [h run (List.mem_of_getElem? hrun)] at hphase
    cases hphase

/-- What can be done without the clock. -/
def prompt (s : Simulation) : List Move := s.traffic ++ s.movesWhere s.canAdvance .advance

/-- Pauses end when nothing can be done without the clock, and waits when no pause is left. -/
theorem round_cases (s : Simulation) :
    (s.prompt ≠ [] ∧ s.round = s.prompt) ∨
      s.prompt = [] ∧ ((s.movesWhere isPausing .advance ≠ [] ∧
          s.round = s.movesWhere isPausing .advance) ∨
        s.movesWhere isPausing .advance = [] ∧ s.round = s.movesWhere isWaiting .giveUp) := by
  have hround : s.round = if !s.prompt.isEmpty then s.prompt
      else if !(s.movesWhere isPausing .advance).isEmpty then s.movesWhere isPausing .advance
      else s.movesWhere isWaiting .giveUp := rfl
  rw [hround]
  cases s.prompt <;> cases s.movesWhere isPausing .advance <;> simp

/-- With no round left, all transactions have ended. -/
theorem isOver_of_round (h : s.round = []) : s.isOver := by
  rw [isOver_iff]
  intro run hrun
  rcases s.round_cases with ⟨hne, heq⟩ | ⟨hprompt, ⟨hne, heq⟩ | ⟨hpausing, heq⟩⟩
  · exact absurd (heq.symm.trans h) hne
  · exact absurd (heq.symm.trans h) hne
  · have hready := movesWhere_eq_nil.mp (List.append_eq_nil_iff.mp hprompt).2 run hrun
    have hpause := movesWhere_eq_nil.mp hpausing run hrun
    have hwait := movesWhere_eq_nil.mp (heq.symm.trans h) run hrun
    generalize run.phase = phase at hready hpause hwait ⊢
    cases phase with
    | done => rfl
    | unstarted => cases hready
    | pausing => cases hpause
    | requesting | committing => cases hwait

theorem traffic_busy (hs : s.Staffed nodes first) (hc : Crew nodes clients first) {move : Move}
    (hmove : move ∈ s.traffic) : ¬ s.Idle move := by
  rcases List.mem_append.mp hmove with hmove | hmove
  · obtain ⟨st, hst, hmove⟩ := List.mem_flatMap.mp hmove
    obtain ⟨hqueued, rfl⟩ := List.mem_replicate.mp hmove
    have hnode : st.node ∈ nodes := hs.stations ▸ List.mem_map_of_mem hst
    obtain ⟨b, hb, hopen⟩ := hs.inbox hnode
    rw [hb] at hqueued
    cases hqueue : b.queue with
    | nil => simp [hqueue] at hqueued
    | cons e rest =>
      intro hidle
      refine hidle e ?_
      simp [Cluster.take, hb, hopen, hqueue]
  · obtain ⟨st, hst, hmove⟩ := List.mem_flatMap.mp hmove
    obtain ⟨hunread, rfl⟩ := List.mem_replicate.mp hmove
    have hfound : (s.stations.find? fun other => other.node.id == st.node.id) = some st := by
      obtain ⟨other, hother⟩ := Option.isSome_iff_exists.mp
        (List.find?_isSome.mpr ⟨st, hst, by simp⟩ :
          (s.stations.find? fun other => other.node.id == st.node.id).isSome)
      have hid : other.node.id = st.node.id := by simpa using List.find?_some hother
      rw [hother, hs.station_unique hc (List.mem_of_find?_eq_some hother) hst hid]
    intro hidle
    have hread := hidle st hfound
    rw [EventFeed.read] at hread
    split at hread
    · cases hread
    · split at hread
      · cases hread
      · rename_i hend
        rw [List.getElem?_eq_none_iff] at hend
        omega

theorem advance_busy (hattended : ∀ run ∈ s.runs, s.Attended run.phase) {i : Nat} {run : Run}
    (hrun : s.runs[i]? = some run) (hready : s.canAdvance run.phase ∨ isPausing run.phase) :
    ¬ s.Idle (.advance i) := by
  intro hidle
  have hstuck := hidle run hrun
  have hattended := hattended run (List.mem_of_getElem? hrun)
  generalize run.phase = phase at hready hstuck hattended
  cases phase with
  | unstarted =>
    obtain ⟨requester, hrequester, hnone⟩ := hstuck
    exact drawTx_ne_none (station_of_requester? hrequester).2 _ hnone
  | pausing requester left => exact drawTx_ne_none hattended _ hstuck
  | requesting | committing =>
    rcases hready with hresolved | hpausing
    · exact hstuck hresolved
    · cases hpausing
  | done => rcases hready with h | h <;> cases h

theorem round_busy (hs : s.Staffed nodes first) (hc : Crew nodes clients first)
    (hattended : ∀ run ∈ s.runs, s.Attended run.phase) {move : Move} (hmove : move ∈ s.round) :
    ¬ s.Idle move := by
  rcases s.round_cases with ⟨-, heq⟩ | ⟨hprompt, ⟨-, heq⟩ | ⟨-, heq⟩⟩
  · rw [heq] at hmove
    rcases List.mem_append.mp hmove with hmove | hmove
    · exact traffic_busy hs hc hmove
    · obtain ⟨i, run, hrun, hready, rfl⟩ := mem_movesWhere.mp hmove
      exact advance_busy hattended hrun (.inl hready)
  · rw [heq] at hmove
    obtain ⟨i, run, hrun, hready, rfl⟩ := mem_movesWhere.mp hmove
    exact advance_busy hattended hrun (.inr hready)
  · rw [heq] at hmove
    obtain ⟨i, run, hrun, hwaiting, rfl⟩ := mem_movesWhere.mp hmove
    have hmem := List.mem_of_getElem? hrun
    have hnever := movesWhere_eq_nil.mp (List.append_eq_nil_iff.mp hprompt).2 run hmem
    have hattended := hattended run hmem
    intro hidle
    have hunbound := hidle run hrun
    generalize run.phase = phase at hwaiting hnever hattended hunbound
    cases phase with
    | requesting | committing =>
      rcases Future.stands_iff.mp hattended with hfuture | hfuture
      · exact hunbound hfuture
      · exact absurd ((isResolved_iff.mpr hfuture).symm.trans hnever) (by decide)
    | unstarted | pausing | done => cases hwaiting

section Settle
variable {P : Simulation → Prop} {allowed : Move → Prop}

theorem play_keeps (hstep : ∀ s move, P s → allowed move → P (s.step move)) (hs : P s)
    {moves : List Move} (hmoves : ∀ move ∈ moves, allowed move) : P (s.play moves) := by
  induction moves generalizing s with
  | nil => exact hs
  | cons move rest ih =>
    exact ih (hstep s move hs (hmoves move List.mem_cons_self))
      fun m hm => hmoves m (List.mem_cons_of_mem _ hm)

theorem work_play (hstep : ∀ s move, P s → allowed move → P (s.step move))
    (hle : ∀ s move, P s → (s.step move).work ≤ s.work) (hs : P s) {moves : List Move}
    (hmoves : ∀ move ∈ moves, allowed move) : (s.play moves).work ≤ s.work := by
  induction moves generalizing s with
  | nil => exact Nat.le_refl _
  | cons move rest ih =>
    have hrest := ih (hstep s move hs (hmoves move List.mem_cons_self))
      fun m hm => hmoves m (List.mem_cons_of_mem _ hm)
    exact Nat.le_trans hrest (hle s move hs)

/-- As long as rounds lower the work, enough fuel lets a run play until nothing is left to do. -/
theorem settleFor_spec (hallowed : ∀ s, P s → ∀ move ∈ s.round, allowed move)
    (hstep : ∀ s move, P s → allowed move → P (s.step move))
    (hle : ∀ s move, P s → (s.step move).work ≤ s.work)
    (hround : ∀ s, P s → ∀ move ∈ s.round, (s.step move).work < s.work)
    (fuel : Nat) (hs : P s) (hfuel : s.work ≤ fuel) :
    ∃ moves, (∀ move ∈ moves, allowed move) ∧ settleFor fuel s = s.play moves ∧
      (s.play moves).round = [] := by
  induction fuel generalizing s with
  | zero =>
    refine ⟨[], nofun, rfl, List.eq_nil_iff_forall_not_mem.mpr fun move hmove => ?_⟩
    have hlt := hround s hs move hmove
    omega
  | succ fuel ih =>
    cases hmoves : s.round with
    | nil => exact ⟨[], nofun, by simp [settleFor, hmoves, play], hmoves⟩
    | cons move rest =>
      have hall := hallowed s hs
      have hlt := hround s hs
      rw [hmoves] at hall hlt
      have hall' := fun m hm => hall m (List.mem_cons_of_mem _ hm)
      have hfirst := hstep s move hs (hall move List.mem_cons_self)
      have hle' : (s.play (move :: rest)).work ≤ (s.step move).work :=
        work_play hstep hle hfirst hall'
      have hlower := hlt move List.mem_cons_self
      obtain ⟨more, hmore, hsettled, hover⟩ :=
        ih (s := s.play (move :: rest)) (play_keeps hstep hs hall) (by omega)
      refine ⟨move :: rest ++ more, ?_, ?_, ?_⟩
      · intro m hm
        rcases List.mem_append.mp hm with hm | hm
        · exact hall m hm
        · exact hmore m hm
      · rw [play_append, ← hsettled]
        simp [settleFor, hmoves]
      · rw [play_append]
        exact hover

end Settle

theorem work_fresh {c : Config} {rollbacks : List Bool} :
    (fresh c rollbacks).work ≤
      100 * ((fresh c rollbacks).runs.length + (fresh c rollbacks).stations.length + 1) := by
  have hruns : ((fresh c rollbacks).runs.map fun run => run.phase.work).sum =
      (fresh c rollbacks).runs.length * 23 := by
    simp [fresh, Function.comp_def, Phase.work, counterAttempts]
  have hload : (fresh c rollbacks).deployment.cluster.load = 0 := by
    simp [fresh, gathered, Cluster.load, Inbox.load, Function.comp_def]
  have hunread : (fresh c rollbacks).unread = 0 := by
    simp [fresh, gathered, posts, unread, Function.comp_def]
  have hpending : (fresh c rollbacks).pending ≤ (fresh c rollbacks).stations.length := by
    unfold pending
    split
    · exact Nat.le_refl _
    · exact Nat.zero_le _
  rw [work, hruns, hload, hunread]
  omega

end CounterCoordinator.Simulation
