import CounterCoordinator.Proofs.Deployment.FreshTransactions
import CounterCoordinator.Proofs.Deployment.Promises
import CounterCoordinator.Proofs.Manager.Weight
import CounterCoordinator.Proofs.Simulation.Crew
import Mathlib.Algebra.Order.BigOperators.Group.List

/-!
# The work that is left

A simulation stops because its steps use up a finite amount of work: what transactions still have to
do, the messages in the inboxes and the answers they will get, and the departures not yet read. A
phase is worth more than the next one together with the message that leads to it, so every step
that does anything lowers the sum.
-/
namespace CounterCoordinator

def Inbox.load (b : Inbox) : Nat :=
  (b.queue.map fun e => Wire.weight e.payload).sum

theorem Inbox.load_put (b : Inbox) (e : Envelope) :
    (b.put e).load ≤ b.load + Wire.weight e.payload := by
  unfold put
  split
  · exact Nat.le_add_right ..
  · simp [load]

namespace Cluster
variable {c : Cluster} {node : NodeId} {e : Envelope}

def load (c : Cluster) : Nat := (c.inboxes.map Inbox.load).sum

/-- The load of one inbox and of the others, whatever becomes of that inbox. -/
theorem load_split (hnodup : (c.inboxes.map Inbox.owner).Nodup) {b : Inbox}
    (hb : c.inbox? node = some b) :
    ∃ others, c.load = b.load + others ∧
      ∀ change, (c.updateInbox node change).load = (change b).load + others := by
  obtain ⟨before, after, hsplit, hchange⟩ := inboxes_split hnodup hb
  refine ⟨(before.map Inbox.load).sum + (after.map Inbox.load).sum, ?_, ?_⟩
  · rw [load, hsplit, List.map_append, List.map_cons, List.sum_append, List.sum_cons]
    omega
  · intro change
    rw [load, hchange, List.map_append, List.map_cons, List.sum_append, List.sum_cons]
    omega

theorem load_post (hnodup : (c.inboxes.map Inbox.owner).Nodup) (target : NodeId) (e : Envelope) :
    (c.post target e).load ≤ c.load + Wire.weight e.payload := by
  cases hb : c.inbox? target with
  | none =>
    rw [post, updateInbox_of_none hb]
    exact Nat.le_add_right ..
  | some b =>
    obtain ⟨others, hbefore, hafter⟩ := load_split hnodup hb
    have hput := b.load_put e
    rw [post, hafter, hbefore]
    omega

theorem load_take (hnodup : (c.inboxes.map Inbox.owner).Nodup)
    (htake : (c.take node).1 = .envelope e) :
    (c.take node).2.load + Wire.weight e.payload = c.load := by
  obtain ⟨b, rest, hb, -, hqueue, hafter⟩ := take_spec htake
  obtain ⟨others, hbefore, hchanged⟩ := load_split hnodup hb
  have hload : b.load = Wire.weight e.payload + Inbox.load { b with queue := rest } := by
    rw [Inbox.load, hqueue, List.map_cons, List.sum_cons]
    rfl
  rw [hafter, hchanged, hbefore, hload]
  omega

end Cluster

theorem EventFeed.read_cases {α : Type} (f : EventFeed α) (position : Nat) :
    f.read position = (.nothing, position) ∨
      (position < (f.read position).2 ∧ position < f.sent.length) := by
  unfold read
  split
  · rename_i hlag
    have hkept : f.oldest ≤ f.sent.length := Nat.sub_le ..
    exact .inr ⟨hlag, Nat.lt_of_lt_of_le hlag hkept⟩
  · split
    · rename_i hsome
      exact .inr ⟨Nat.lt_succ_self _, (List.getElem?_eq_some_iff.mp hsome).choose⟩
    · exact .inl rfl

namespace Deployment
variable {d : Deployment}

theorem load_absorb (hnodup : (d.cluster.inboxes.map Inbox.owner).Nodup) (r : Reaction)
    {bound : Nat} (hsent : ∀ out, r.sent = some out → Wire.weight out.payload ≤ bound) :
    (d.absorb r).cluster.load ≤ d.cluster.load + bound := by
  unfold absorb
  split
  · rename_i out hout
    have hpost := Cluster.load_post hnodup out.target ⟨r.manager.self, .coordinator, out.payload⟩
    exact Nat.le_trans hpost (Nat.add_le_add_left (hsent out hout) _)
  · exact Nat.le_add_right ..

/-- Does a manager act without having read anything? -/
def Move.talks : Move → Bool
  | look | ask .. | call .. => true
  | _ => false

/-- The greatest weight of the message that a move sends. -/
def Move.postage : Move → Nat
  | .ask .. => 2
  | .call _ (.dropCounter _) | .call _ (.dropAck _) => 0
  | .call .. => 1
  | _ => 0

/-- Listeners only tell their manager something, which sends nothing. -/
theorem cluster_listen (d : Deployment) (node : NodeId) (position : Nat) :
    (d.perform (.listen node position)).cluster = d.cluster := by
  rcases d.perform_listen_tells node position with heq | ⟨c, hc, heq⟩
  · rw [heq]
  · have hsilent : ∀ m, (Manager.call m d.cluster.outlook c).sent = none := by
      rcases hc with ⟨event, rfl⟩ | ⟨count, rfl⟩ <;> exact fun _ => rfl
    rw [heq]
    cases hm : d.manager? node with
    | none => rw [react_of_none hm]
    | some m =>
      rw [react_of_some hm, absorb, hsilent]
      rfl

theorem load_talk (hnodup : (d.cluster.inboxes.map Inbox.owner).Nodup) {move : Move}
    (htalk : move.talks) : (d.perform move).cluster.load ≤ d.cluster.load + move.postage := by
  have heffect := d.effect move
  generalize d.taken? move = t, d.reaction? move = r, d.perform move = d' at heffect ⊢
  cases heffect with
  | joined | departed | closed | unheard | heard | untaken | unread | read => cases htalk
  | look | uncalled | unasked => exact Nat.le_add_right ..
  | asked =>
    exact load_absorb (d := { d with ids := d.ids.next.2 }) hnodup _ fun _ _ => Wire.weight_le _
  | @called node c m =>
    refine load_absorb hnodup _ fun out hout => ?_
    cases c with
    | dropCounter | dropAck => cases hout
    | rollback | queryDone | nodeLeft | departed | resync | missed =>
      exact Nat.le_of_eq (Manager.weight_call hout)

/-- The answer to an envelope weighs less than the envelope. -/
theorem load_dispatch (hnodup : (d.cluster.inboxes.map Inbox.owner).Nodup) {node : NodeId}
    {e : Envelope} (htake : (d.cluster.take node).1 = .envelope e) :
    (d.perform (.dispatch node)).cluster.load < d.cluster.load := by
  have htaken := Cluster.load_take hnodup htake
  have hpos := Wire.weight_pos e.payload
  have hkept : ((d.cluster.take node).2.inboxes.map Inbox.owner).Nodup := by
    obtain ⟨_, _, _, _, _, hafter⟩ := Cluster.take_spec htake
    rw [hafter, Cluster.owners_updateInbox]
    · exact hnodup
    · exact fun _ => rfl
  cases hm : d.manager? node with
  | none =>
    have hperform : d.perform (.dispatch node) = { d with cluster := (d.cluster.take node).2 } := by
      rw [perform, d.dispatchOne_eq htake]
      exact react_of_none (d := { d with cluster := (d.cluster.take node).2 }) hm _
    rw [hperform]
    dsimp only
    omega
  | some m =>
    have hlighter : ∀ out, (m.dispatch d.cluster.outlook e).sent = some out →
        Wire.weight out.payload ≤ Wire.weight e.payload - 1 := by
      intro out hout
      have hlt := Manager.weight_dispatch hout
      omega
    have hload := load_absorb (d := { d with cluster := (d.cluster.take node).2 }) hkept _ hlighter
    rw [perform, dispatchOne_of_manager htake hm]
    dsimp only at hload ⊢
    omega

end Deployment

namespace Simulation

/-- What is still to be done from a phase on: every attempt, with its request, its answer and the
pause before it, and the end. -/
def Phase.work : Phase → Nat
  | unstarted => 4 * counterAttempts + 3
  | requesting _ left .. => 4 * left + 4
  | pausing _ left => 4 * max left 1 + 3
  | committing .. => 1
  | done _ => 0

def unread (s : Simulation) : Nat :=
  (s.stations.map fun st => s.deployment.cluster.events.sent.length - st.heard).sum

/-- The departures to read once the failure has happened. -/
def pending (s : Simulation) : Nat :=
  if s.failAfter.isSome ∧ s.struck = false then s.stations.length else 0

def work (s : Simulation) : Nat :=
  (s.runs.map fun run => run.phase.work).sum + s.deployment.cluster.load + s.unread + s.pending

variable {s : Simulation} {nodes : List ClusterNode} {first : ClusterNode} {clients : Nat}
  {i : Nat} {run : Run}

theorem work_fallback (s : Simulation) (requester : NodeId) (left : Nat) (cause : Error) :
    (s.fallback requester left cause).work ≤ 4 * left + 3 := by
  unfold fallback Retry.again
  split
  · rename_i hagain
    have hleft : 0 < left := of_decide_eq_true (Bool.and_eq_true_iff.mp hagain).2
    simp only [Phase.work]
    omega
  · split <;> exact Nat.zero_le _

/-- A phase is worth more than the next one and the message in between. -/
theorem Passage.work_lt {move : Move} {dm : Deployment.Move} {stations : List Station}
    {phase : Phase} (h : Passage s i run move dm stations phase) :
    phase.work + dm.postage < run.phase.work := by
  -- Whoever asks for a counter had the work of all later attempts before it.
  have asks : ∀ {p : Phase} {requester : NodeId} {left : Nat}, Asks s i p requester left →
      4 * left + 6 < p.work := by
    intro p requester left hasks
    cases hasks with
    | first =>
      simp only [Phase.work, counterAttempts]
      omega
    | again =>
      simp only [Phase.work]
      omega
  cases h with
  | deserted hphase =>
    rw [hphase]
    exact Nat.succ_pos _
  | asked hasks => exact asks hasks
  | @foundered requester left tx cause hasks =>
    have hbefore := asks hasks
    have hafter := s.work_fallback requester left cause
    simp only [Deployment.Move.postage]
    omega
  | @refused requester _ left _ _ cause hphase | @lapsed requester _ left _ _ cause hphase =>
    have hafter := s.work_fallback requester left cause
    have hbefore : run.phase.work = 4 * left + 4 := by
      rw [hphase]
      rfl
    simp only [Deployment.Move.postage]
    omega
  | rolledBack hphase | commits hphase =>
    rw [hphase]
    simp only [Phase.work, Deployment.Move.postage]
    omega
  | acknowledged hphase | unacknowledged hphase | timedOut hphase =>
    rw [hphase]
    exact Nat.one_pos

theorem Passage.talks {move : Move} {dm : Deployment.Move} {stations : List Station}
    {phase : Phase} (h : Passage s i run move dm stations phase) : dm.talks := by
  cases h <;> rfl

theorem sum_work_modify (hrun : s.runs[i]? = some run) (phase : Phase) :
    ((s.setPhase i phase).runs.map fun run => run.phase.work).sum + run.phase.work =
      (s.runs.map fun run => run.phase.work).sum + phase.work :=
  sum_map_modify hrun (fun r => { r with phase }) fun r => r.phase.work

theorem work_setPhase (hrun : s.runs[i]? = some run) (phase : Phase) :
    (s.setPhase i phase).work + run.phase.work = s.work + phase.work := by
  have hsum := sum_work_modify hrun phase
  have hpending : (s.setPhase i phase).pending = s.pending := rfl
  have hunread : (s.setPhase i phase).unread = s.unread := rfl
  have hload : (s.setPhase i phase).deployment = s.deployment := rfl
  rw [work, work, hpending, hunread, hload]
  omega

/-- One more departure is at most one more to read for every station. -/
theorem sum_unread_le (stations : List Station) {count count' : Nat} (hcount : count' ≤ count + 1) :
    (stations.map fun st => count' - st.heard).sum ≤
      (stations.map fun st => count - st.heard).sum + stations.length := by
  induction stations with
  | nil => exact Nat.le_refl _
  | cons st rest ih =>
    simp only [List.map_cons, List.sum_cons, List.length_cons]
    omega

/-- Ending a transaction adds nothing, since the departure it may lead to was expected. -/
theorem work_finish (hs : s.Staffed nodes first) (hc : Crew nodes clients first)
    (hrun : s.runs[i]? = some run) (result : Result) :
    (s.finish i result).work + run.phase.work ≤ s.work := by
  have hsum := sum_work_modify hrun (.done result)
  have hdone : (Phase.done result).work = 0 := rfl
  rcases hs.finish_cases hc i result with ⟨hdue, heq⟩ | ⟨hdue, heq⟩
  · have hpending : (s.conclude i result).pending = s.pending := by
      rw [pending, pending, struck_conclude_of_not_due hdue]
      rfl
    have hunread : (s.conclude i result).unread = s.unread := rfl
    have hload : (s.conclude i result).deployment = s.deployment := rfl
    have hruns : (s.conclude i result).runs = (s.setPhase i (.done result)).runs := rfl
    rw [heq, work, work, hpending, hunread, hload, hruns]
    omega
  · obtain ⟨hbefore, hafter⟩ := struck_of_due hdue i result first.id
    have hexpected : s.pending = s.stations.length := by simp [pending, hdue, hbefore]
    have hnone : ((s.conclude i result).lose first.id).pending = 0 := by simp [pending, hafter]
    have hload : ((s.conclude i result).lose first.id).deployment.cluster.load =
        s.deployment.cluster.load :=
      congrArg (fun inboxes => (inboxes.map Inbox.load).sum) (Cluster.depart_inboxes ..)
    have hruns : ((s.conclude i result).lose first.id).runs = (s.setPhase i (.done result)).runs :=
      rfl
    have hunread : ((s.conclude i result).lose first.id).unread ≤ s.unread + s.stations.length := by
      apply sum_unread_le
      change (s.deployment.cluster.depart .failed first.id).2.2.events.sent.length ≤ _
      unfold Cluster.depart
      split
      · simp [EventFeed.send]
      · exact Nat.le_succ _
    rw [heq, work, work, hexpected, hnone, hload, hruns]
    omega

theorem work_land (hs : s.Staffed nodes first) (hc : Crew nodes clients first)
    (hrun : s.runs[i]? = some run) (phase : Phase) :
    (s.land i phase).work + run.phase.work ≤ s.work + phase.work := by
  cases phase with
  | done result => exact s.work_finish hs hc hrun result
  | unstarted | requesting | pausing | committing =>
    exact Nat.le_of_eq (work_setPhase hrun _)

theorem unread_act {dm : Deployment.Move} (hstays : dm.stays) {stations : List Station}
    (hheard : stations.map Station.heard = s.stations.map Station.heard) :
    (s.act dm stations).unread = s.unread := by
  obtain ⟨inboxes, hcluster⟩ := s.deployment.cluster_of_stays hstays
  have hevents : (s.act dm stations).deployment.cluster.events = s.deployment.cluster.events := by
    simp only [act, hcluster]
  have hsum := congrArg (fun l => (l.map fun heard =>
    s.deployment.cluster.events.sent.length - heard).sum) hheard
  simp only [List.map_map] at hsum
  rw [unread, hevents]
  exact hsum

theorem pending_act (s : Simulation) (dm : Deployment.Move) {stations : List Station}
    (hlength : stations.length = s.stations.length) : (s.act dm stations).pending = s.pending :=
  congrArg (fun n => if s.failAfter.isSome ∧ s.struck = false then n else 0) hlength

/-- A transaction goes on: it loses more work than its message adds. -/
theorem Passage.work_step (hs : s.Staffed nodes first) (hc : Crew nodes clients first)
    (hrun : s.runs[i]? = some run) {move : Move} {dm : Deployment.Move} {stations : List Station}
    {phase : Phase} (h : Passage s i run move dm stations phase) :
    ((s.act dm stations).land i phase).work < s.work := by
  obtain ⟨hstays, hstations⟩ := h.stays
  have hlanded := work_land (hs.act hstays (hstations fun _ _ => rfl)) hc hrun phase
  have hlt := h.work_lt
  have hload := Deployment.load_talk (hs.nodup_owners hc) h.talks
  have hunread := unread_act hstays (hstations fun _ _ => rfl)
  have hlength : stations.length = s.stations.length := by
    simpa using congrArg List.length (hstations (f := fun _ => ()) fun _ _ => rfl)
  have hpending := s.pending_act dm hlength
  have hacted : (s.act dm stations).work ≤ s.work + dm.postage := by
    rw [work, work, hunread, hpending]
    simp only [act]
    omega
  omega

/-- A listener that reads anything has less to read afterwards. -/
theorem work_listen (hs : s.Staffed nodes first) (hc : Crew nodes clients first) {node : NodeId}
    {st : Station} (hst : (s.stations.find? fun st => st.node.id == node) = some st) {heard : Nat}
    (hread : st.heard < heard)
    (hmore : st.heard < s.deployment.cluster.events.sent.length) :
    (s.act (.listen node st.heard) (s.advanced node heard)).work < s.work := by
  have hmem := List.mem_of_find?_eq_some hst
  have hnode : st.node.id = node := by simpa using List.find?_some hst
  have hcluster := s.deployment.cluster_listen node st.heard
  have hunread : (s.act (.listen node st.heard) (s.advanced node heard)).unread < s.unread := by
    simp only [unread, act, advanced, hcluster, List.map_map, Function.comp_def]
    apply List.sum_lt_sum
    · intro old hold
      split
      · rename_i hown
        have hsame := hs.station_unique hc hold hmem (hown.trans hnode.symm)
        rw [hsame]
        dsimp only
        omega
      · exact Nat.le_refl _
    · refine ⟨st, hmem, ?_⟩
      rw [if_pos hnode]
      dsimp only
      omega
  have hload : (s.act (.listen node st.heard) (s.advanced node heard)).deployment.cluster.load =
      s.deployment.cluster.load := congrArg Cluster.load hcluster
  have hpending : (s.act (.listen node st.heard) (s.advanced node heard)).pending = s.pending :=
    s.pending_act _ (List.length_map _)
  rw [work, work, hload, hpending]
  exact Nat.add_lt_add_right (Nat.add_lt_add_left hunread _) _

theorem listen_nothing (hs : s.Staffed nodes first) (hc : Crew nodes clients first) {node : NodeId}
    {st : Station} (hst : (s.stations.find? fun st => st.node.id == node) = some st)
    (hnothing : s.deployment.cluster.events.read st.heard = (.nothing, st.heard)) :
    s.act (.listen node st.heard)
      (s.advanced node (s.deployment.cluster.events.read st.heard).2) = s := by
  have hnode : st.node.id = node := by simpa using List.find?_some hst
  have hstations : s.advanced node (s.deployment.cluster.events.read st.heard).2 = s.stations := by
    refine (List.map_congr_left fun old hold => ?_).trans (List.map_id _)
    split
    · rename_i hown
      rw [hs.station_unique hc hold (List.mem_of_find?_eq_some hst) (hown.trans hnode.symm),
        hnothing]
      rfl
    · rfl
  have hdeployment : s.deployment.perform (.listen node st.heard) = s.deployment := by
    simp only [Deployment.perform, Deployment.listenOne, hnothing]
    rfl
  rw [hstations, act, hdeployment]

/-- A step with nothing to do leaves everything as it is, and any other lowers the work left. -/
theorem work_step (hs : s.Staffed nodes first) (hc : Crew nodes clients first) (move : Move) :
    (s.Idle move ∧ s.step move = s) ∨ (s.step move).work < s.work := by
  have hcourse := s.course move
  generalize s.step move = s' at hcourse ⊢
  cases hcourse with
  | idle hidle => exact .inl ⟨hidle, rfl⟩
  | @dispatched node e htake =>
    have hload := Deployment.load_dispatch (hs.nodup_owners hc) htake
    have hunread : (s.act (.dispatch node) s.stations).unread = s.unread := unread_act rfl rfl
    right
    rw [work, work, hunread]
    exact Nat.add_lt_add_right (Nat.add_lt_add_right (Nat.add_lt_add_left hload _) _) _
  | @listened node st hst =>
    rcases s.deployment.cluster.events.read_cases st.heard with hnothing | ⟨hread, hmore⟩
    · refine .inl ⟨fun st' hst' => ?_, listen_nothing hs hc hst hnothing⟩
      cases hst.symm.trans hst'
      exact hnothing
    · exact .inr (work_listen hs hc hst hread hmore)
  | passed hrun hpassage => exact .inr (hpassage.work_step hs hc hrun)

theorem work_step_le (hs : s.Staffed nodes first) (hc : Crew nodes clients first) (move : Move) :
    (s.step move).work ≤ s.work := by
  rcases work_step hs hc move with ⟨-, hsame⟩ | hlt
  · rw [hsame]
  · exact Nat.le_of_lt hlt

end Simulation
end CounterCoordinator
