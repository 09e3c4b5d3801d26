import CounterCoordinator.Proofs.Deployment.History
import CounterCoordinator.Simulation.Schedule

/-!
# What a step of a simulation is

A step that does anything is a move of the deployment, together with the next phase of the
transaction it belongs to, if it belongs to one. `Passage` lists how transactions go on, and
`Course` all steps. Whatever steps keep is proved by cases on these, without opening the definition
of any step.
-/
namespace CounterCoordinator.Simulation
variable {s : Simulation} {i : Nat}

/-- Transaction `i` enters a phase, and with the last one it ends. -/
def land (s : Simulation) (i : Nat) : Phase → Simulation
  | .done result => s.finish i result
  | phase => s.setPhase i phase

def fallback (s : Simulation) (requester : NodeId) (left : Nat) (cause : Error) : Phase :=
  if Retry.again cause left then .pausing requester left
  else if s.alive requester then .done (.failed cause)
  else .done .aborted

/-- The deployment makes a move, and stations may change. -/
def act (s : Simulation) (move : Deployment.Move) (stations : List Station) : Simulation :=
  { s with deployment := s.deployment.perform move, stations }

def drawn (s : Simulation) (node : NodeId) : List Station :=
  (s.drawTx node s.snapshot.version).2.stations

/-- The stations after the failure listener of a node read up to a position. -/
def advanced (s : Simulation) (node : NodeId) (heard : Nat) : List Station :=
  s.stations.map fun st => if st.node.id = node then { st with heard } else st

inductive Asks (s : Simulation) (i : Nat) : Phase → NodeId → Nat → Prop
  | first {requester : NodeId} : s.requester? i = some requester →
      Asks s i .unstarted requester (counterAttempts - 1)
  | again {requester : NodeId} {left : Nat} :
      Asks s i (.pausing requester left) requester (left - 1)

/-- The steps of transaction `i`: what the deployment does, and the phase after it. -/
inductive Passage (s : Simulation) (i : Nat) (run : Run) :
    Move → Deployment.Move → List Station → Phase → Prop
  | deserted : run.phase = .unstarted → s.requester? i = none →
      Passage s i run (.advance i) .look s.stations
        (.done (.failed (.internal "no live nodes left")))
  | asked {requester : NodeId} {left : Nat} {coordinator : ClusterNode} {tx : TxId} :
      Asks s i run.phase requester left →
      (s.drawTx requester s.snapshot.version).1 = some tx → s.alive requester →
      s.snapshot.coordinator? = some coordinator →
      Passage s i run (.advance i) (.ask requester coordinator.id (.txCounter tx))
        (s.drawn requester)
        (.requesting requester left coordinator.id tx s.deployment.ids.next.1)
  | foundered {requester : NodeId} {left : Nat} {tx : TxId} (cause : Error) :
      Asks s i run.phase requester left →
      (s.drawTx requester s.snapshot.version).1 = some tx →
      (s.alive requester = false ∨ s.snapshot.coordinator? = none) →
      Passage s i run (.advance i) .look (s.drawn requester) (s.fallback requester left cause)
  | refused {requester coordinator : NodeId} {left : Nat} {tx : TxId} {future : FutureId}
      {cause : Error} : run.phase = .requesting requester left coordinator tx future →
      s.counterFuture? requester future = some (.resolved (.error cause)) →
      Passage s i run (.advance i) .look s.stations (s.fallback requester left cause)
  | lapsed {requester coordinator : NodeId} {left : Nat} {tx : TxId} {future : FutureId}
      (cause : Error) : run.phase = .requesting requester left coordinator tx future →
      s.counterFuture? requester future = some .waiting →
      Passage s i run (.giveUp i) (.call requester (.dropCounter future)) s.stations
        (s.fallback requester left cause)
  | rolledBack {requester coordinator : NodeId} {left : Nat} {tx : TxId} {future : FutureId}
      {counter : Version} : run.phase = .requesting requester left coordinator tx future →
      s.counterFuture? requester future = some (.resolved (.ok counter)) → run.rollback = true →
      Passage s i run (.advance i) (.call requester (.rollback coordinator tx)) s.stations
        (.done (.finished coordinator counter .rolledBack))
  | commits {requester coordinator : NodeId} {left : Nat} {tx : TxId} {future : FutureId}
      {counter : Version} : run.phase = .requesting requester left coordinator tx future →
      s.counterFuture? requester future = some (.resolved (.ok counter)) → run.rollback = false →
      Passage s i run (.advance i) (.ask requester coordinator (.commit tx)) s.stations
        (.committing requester coordinator counter s.deployment.ids.next.1)
  | acknowledged {requester coordinator : NodeId} {counter : Version} {future : FutureId} :
      run.phase = .committing requester coordinator counter future →
      s.ackFuture? requester future = some (.resolved (.ok ())) →
      Passage s i run (.advance i) .look s.stations
        (.done (.finished coordinator counter .committed))
  | unacknowledged {requester coordinator : NodeId} {counter : Version} {future : FutureId}
      {cause : Error} : run.phase = .committing requester coordinator counter future →
      s.ackFuture? requester future = some (.resolved (.error cause)) →
      Passage s i run (.advance i) .look s.stations (.done (.failed cause))
  | timedOut {requester coordinator : NodeId} {counter : Version} {future : FutureId} :
      run.phase = .committing requester coordinator counter future →
      s.ackFuture? requester future = some .waiting →
      Passage s i run (.giveUp i) (.call requester (.dropAck future)) s.stations
        (.done (if s.alive requester then .finished coordinator counter .ackTimedOut
          else .aborted))

/-- A transaction in this phase has nothing to go on with. -/
def Stuck (s : Simulation) (i : Nat) : Phase → Prop
  | .unstarted => ∃ requester, s.requester? i = some requester ∧
      (s.drawTx requester s.snapshot.version).1 = none
  | .pausing requester _ => (s.drawTx requester s.snapshot.version).1 = none
  | .requesting requester _ _ _ future => ¬ isResolved (s.counterFuture? requester future)
  | .committing requester _ _ future => ¬ isResolved (s.ackFuture? requester future)
  | .done _ => True

/-- A transaction in this phase waits for no answer. -/
def Unbound (s : Simulation) : Phase → Prop
  | .requesting requester _ _ _ future => s.counterFuture? requester future ≠ some .waiting
  | .committing requester _ _ future => s.ackFuture? requester future ≠ some .waiting
  | _ => True

/-- There is nothing that the move could do. -/
def Idle (s : Simulation) : Move → Prop
  | .advance i => ∀ run, s.runs[i]? = some run → s.Stuck i run.phase
  | .giveUp i => ∀ run, s.runs[i]? = some run → s.Unbound run.phase
  | .dispatch node => ∀ e, (s.deployment.cluster.take node).1 ≠ .envelope e
  | .listen node => ∀ st, (s.stations.find? fun st => st.node.id == node) = some st →
      s.deployment.cluster.events.read st.heard = (.nothing, st.heard)

inductive Course (s : Simulation) : Move → Simulation → Prop
  | idle {move : Move} : s.Idle move → Course s move s
  | dispatched {node : NodeId} {e : Envelope} :
      (s.deployment.cluster.take node).1 = .envelope e →
      Course s (.dispatch node) (s.act (.dispatch node) s.stations)
  | listened {node : NodeId} {st : Station} :
      (s.stations.find? fun st => st.node.id == node) = some st →
      Course s (.listen node) (s.act (.listen node st.heard)
        (s.advanced node (s.deployment.cluster.events.read st.heard).2))
  | passed {move : Move} {i : Nat} {run : Run} {dm : Deployment.Move} {stations : List Station}
      {phase : Phase} : s.runs[i]? = some run → Passage s i run move dm stations phase →
      Course s move ((s.act dm stations).land i phase)

theorem isResolved_iff {α : Type} {future : Option (Future α)} :
    isResolved future ↔ ∃ outcome, future = some (.resolved outcome) := by
  unfold isResolved
  split <;> simp_all

theorem attemptFailed_eq (s : Simulation) (i : Nat) (requester : NodeId) (left : Nat)
    (cause : Error) :
    s.attemptFailed i requester left cause = s.land i (s.fallback requester left cause) := by
  unfold attemptFailed fallback
  split
  · rfl
  · split <;> rfl

theorem drawTx_eq (s : Simulation) (node : NodeId) :
    s.drawTx node s.snapshot.version =
      ((s.drawTx node s.snapshot.version).1, { s with stations := s.drawn node }) := by
  unfold drawn drawTx
  split <;> rfl

/-- An attempt draws an id and asks the coordinator, or fails at once. -/
theorem attempt_course {run : Run} {requester : NodeId} {left : Nat}
    (hasks : Asks s i run.phase requester left) :
    ((s.drawTx requester s.snapshot.version).1 = none ∧ s.attempt i requester left = s) ∨
      ∃ dm stations phase, Passage s i run (.advance i) dm stations phase ∧
        s.attempt i requester left = (s.act dm stations).land i phase := by
  have hdraw := s.drawTx_eq requester
  cases htx : (s.drawTx requester s.snapshot.version).1 with
  | none =>
    left
    refine ⟨rfl, ?_⟩
    have hsame : s.drawTx requester s.snapshot.version = (none, s) := by
      unfold drawTx at htx ⊢
      split at htx
      · cases htx
      · rfl
    simp only [attempt, hsame]
  | some tx =>
    right
    rw [htx] at hdraw
    unfold attempt
    simp only [hdraw]
    have halive :
        alive { s with stations := s.drawn requester } requester = s.alive requester := rfl
    rw [halive]
    by_cases hgone : s.alive requester
    · simp only [hgone, Bool.not_true, Bool.false_eq_true, if_false]
      cases hc : s.snapshot.coordinator? with
      | none =>
        exact ⟨_, _, _, .foundered _ hasks htx (.inr hc), attemptFailed_eq ..⟩
      | some c => exact ⟨_, _, _, .asked hasks htx hgone hc, rfl⟩
    · simp only [hgone, Bool.not_false, if_true]
      exact ⟨_, _, _, .foundered _ hasks htx (.inl (by simpa using hgone)), attemptFailed_eq ..⟩

theorem idle_of_stuck {run : Run} (hrun : s.runs[i]? = some run) (hstuck : s.Stuck i run.phase) :
    Course s (.advance i) s := by
  refine .idle fun run' h => ?_
  cases hrun.symm.trans h
  exact hstuck

theorem asks_course {run : Run} {requester : NodeId} {left : Nat} (hrun : s.runs[i]? = some run)
    (hasks : Asks s i run.phase requester left)
    (hstuck : (s.drawTx requester s.snapshot.version).1 = none → s.Stuck i run.phase) :
    Course s (.advance i) (s.attempt i requester left) := by
  rcases attempt_course hasks with ⟨htx, hsame⟩ | ⟨dm, stations, phase, hpassage, heq⟩
  · rw [hsame]
    exact idle_of_stuck hrun (hstuck htx)
  · rw [heq]
    exact .passed hrun hpassage

theorem requesting_course {run : Run} {requester coordinator : NodeId} {left : Nat} {tx : TxId}
    {future : FutureId} (hrun : s.runs[i]? = some run)
    (hphase : run.phase = .requesting requester left coordinator tx future) :
    Course s (.advance i)
      (match s.counterFuture? requester future with
      | some (.resolved (.ok counter)) =>
          s.counterArrived i run.rollback requester coordinator tx counter
      | some (.resolved (.error cause)) => s.attemptFailed i requester left cause
      | _ => s) := by
  split
  · rename_i counter hfuture
    unfold counterArrived
    split
    · rename_i hrollback
      exact .passed hrun (.rolledBack hphase hfuture hrollback)
    · rename_i hcommit
      exact .passed hrun (.commits hphase hfuture (by simpa using hcommit))
  · rename_i cause hfuture
    rw [attemptFailed_eq]
    exact .passed hrun (.refused hphase hfuture)
  · rename_i hok herror
    apply idle_of_stuck hrun
    rw [hphase, Stuck, isResolved_iff]
    rintro ⟨_ | counter, hfuture⟩
    · exact herror _ hfuture
    · exact hok counter hfuture

theorem committing_course {run : Run} {requester coordinator : NodeId} {counter : Version}
    {future : FutureId} (hrun : s.runs[i]? = some run)
    (hphase : run.phase = .committing requester coordinator counter future) :
    Course s (.advance i)
      (match s.ackFuture? requester future with
      | some (.resolved (.ok ())) => s.finish i (.finished coordinator counter .committed)
      | some (.resolved (.error cause)) => s.finish i (.failed cause)
      | _ => s) := by
  split
  · rename_i hfuture
    exact .passed hrun (.acknowledged hphase hfuture)
  · rename_i cause hfuture
    exact .passed hrun (.unacknowledged hphase hfuture)
  · rename_i hok herror
    apply idle_of_stuck hrun
    rw [hphase, Stuck, isResolved_iff]
    rintro ⟨_ | _, hfuture⟩
    · exact herror _ hfuture
    · exact hok hfuture

theorem advance_course (s : Simulation) (i : Nat) : Course s (.advance i) (s.advance i) := by
  unfold advance
  cases hrun : s.runs[i]? with
  | none => exact .idle fun run h => absurd (hrun.symm.trans h) (by simp)
  | some run =>
    simp only
    cases hphase : run.phase with
    | unstarted =>
      cases hrequester : s.requester? i with
      | none => exact .passed hrun (.deserted hphase hrequester)
      | some requester =>
        refine asks_course hrun (hphase ▸ .first hrequester) fun htx => ?_
        rw [hphase]
        exact ⟨requester, hrequester, htx⟩
    | pausing requester left =>
      refine asks_course hrun (hphase ▸ .again) fun htx => ?_
      rw [hphase]
      exact htx
    | requesting => exact requesting_course hrun hphase
    | committing => exact committing_course hrun hphase
    | done result =>
      apply idle_of_stuck hrun
      rw [hphase]
      trivial

theorem alive_act_call (s : Simulation) (node : NodeId) (c : Call) (stations : List Station) :
    (s.act (.call node c) stations).alive = s.alive := by
  funext other
  have hmembers := (s.deployment.react_roster node fun m => m.call s.deployment.cluster.outlook c).1
  exact congrArg (fun members => members.any fun m => m.id == other) hmembers

theorem dropFuture_eq (s : Simulation) (requester : NodeId) (c : Call) {drop : Manager → Manager}
    (hcall : ∀ view m, Manager.call m view c = ⟨drop m, none, []⟩) :
    s.dropFuture requester drop = s.act (.call requester c) s.stations := by
  simp only [dropFuture, act, Deployment.perform]
  cases hm : s.deployment.manager? requester with
  | none => rw [Deployment.react_of_none hm]
  | some m =>
    rw [Deployment.react_of_some hm, hcall]
    rfl

theorem idle_of_unbound {run : Run} (hrun : s.runs[i]? = some run)
    (hunbound : s.Unbound run.phase) : Course s (.giveUp i) s := by
  refine .idle fun run' h => ?_
  cases hrun.symm.trans h
  exact hunbound

theorem giveUp_course (s : Simulation) (i : Nat) : Course s (.giveUp i) (s.giveUp i) := by
  unfold giveUp
  cases hrun : s.runs[i]? with
  | none => exact .idle fun run h => absurd (hrun.symm.trans h) (by simp)
  | some run =>
    simp only [Option.map_some]
    cases hphase : run.phase with
    | requesting requester left coordinator tx future =>
      simp only
      split
      · rename_i hfuture
        rw [s.dropFuture_eq requester (.dropCounter future) fun _ _ => rfl, attemptFailed_eq,
          fallback, alive_act_call]
        exact .passed hrun (.lapsed _ hphase hfuture)
      · rename_i hfuture
        apply idle_of_unbound hrun
        rw [hphase]
        exact hfuture
    | committing requester coordinator counter future =>
      simp only
      split
      · rename_i hfuture
        rw [s.dropFuture_eq requester (.dropAck future) fun _ _ => rfl, alive_act_call]
        have hpassed := Course.passed hrun (.timedOut hphase hfuture)
        split
        · rename_i halive
          rw [if_pos halive] at hpassed
          exact hpassed
        · rename_i hgone
          rw [if_neg hgone] at hpassed
          exact hpassed
      · rename_i hfuture
        apply idle_of_unbound hrun
        rw [hphase]
        exact hfuture
    | unstarted | pausing | done =>
      apply idle_of_unbound hrun
      rw [hphase]
      trivial

theorem course (s : Simulation) (move : Move) : Course s move (s.step move) := by
  cases move with
  | advance i => exact s.advance_course i
  | giveUp i => exact s.giveUp_course i
  | dispatch node =>
    cases htake : (s.deployment.cluster.take node).1 with
    | envelope e => exact .dispatched htake
    | empty | disconnected | closed =>
      have hpair : s.deployment.cluster.take node = (_, (s.deployment.cluster.take node).2) :=
        Prod.ext htake rfl
      have hsame : s.step (.dispatch node) = s := by
        simp only [step, dispatch, Deployment.dispatchOne]
        rw [hpair]
      rw [hsame]
      refine .idle fun e he => ?_
      rw [htake] at he
      cases he
  | listen node =>
    simp only [step, listen]
    cases hst : s.stations.find? fun st => st.node.id == node with
    | none => exact .idle fun st h => absurd (hst.symm.trans h) (by simp)
    | some st => exact .listened hst

end CounterCoordinator.Simulation
