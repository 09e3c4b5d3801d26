import CounterCoordinator.Proofs.Simulation.Settling

/-!
# Where the counters of a simulation come from

The journal of the deployment records every request and every counter that was assigned. Which
transaction a request was made for is noted beside it, once and for all, by the id of its future. So
no two transactions can end with one and the same assignment, and whatever a transaction waits for
stands until it drops it itself.
-/
namespace CounterCoordinator

namespace Journal
variable {j : Journal} {move : Deployment.Move}

theorem length_asked_step (j : Journal) (move : Deployment.Move) :
    (j.step move).asked.length ≤ j.asked.length + move.seeks.toNat := by
  rw [asked_step, List.length_append]
  refine Nat.add_le_add_left ?_ _
  cases hnew : (j.deployment.sent? move).bind fun p => Wire.asking? p.payload with
  | none => exact Nat.zero_le _
  | some f =>
    obtain ⟨p, hp, hf⟩ := Option.bind_eq_some_iff.mp hnew
    obtain ⟨r, hr, hp⟩ := Option.bind_eq_some_iff.mp hp
    have heffect := j.deployment.effect move
    rw [hr] at heffect
    rw [(heffect.asking hp hf).1]
    exact Nat.le_refl 1

theorem Kept.length_assignedBy_le (hk : j.Kept) (node : NodeId) :
    (j.chronicle.assignedBy node).length ≤ j.asked.length := by
  have hsub := (hk.assigned_sublist node).trans (posted_sublist j node)
  simpa using hsub.length_le

theorem Kept.future_ne_next (hk : j.Kept) (hroom : j.deployment.ids.last.toNat + 1 < UInt64.size)
    {issue : Issue} (hissue : issue ∈ j.issues) : issue.future ≠ j.deployment.ids.next.1 :=
  hk.sound.future_ne_next hroom hissue

end Journal

namespace Simulation

/-- How many more requests a transaction may make, the one for its commit included. -/
def Phase.asks : Phase → Nat
  | unstarted => counterAttempts + 1
  | requesting _ left .. => left + 1
  | pausing _ left => max left 1 + 1
  | committing .. | done _ => 0

section Backed
variable {j : Journal} {lead lead' : NodeId → Prop} {owner owner' : FutureId → Nat} {i : Nat}
  {move : Deployment.Move}

/-- A node that may coordinate assigned the counter to transaction `i`. -/
def Earned (j : Journal) (lead : NodeId → Prop) (owner : FutureId → Nat) (i : Nat)
    (coordinator : NodeId) (counter : Version) : Prop :=
  lead coordinator ∧ ∃ f tx, owner f = i ∧ ⟨coordinator, f, tx, counter⟩ ∈ j.assignments

/-- What the journal has to say about transaction `i` in a phase. -/
def Backed (j : Journal) (lead : NodeId → Prop) (owner : FutureId → Nat) (i : Nat) : Phase → Prop
  | .unstarted => True
  | .requesting requester _ coordinator tx future =>
      lead coordinator ∧ owner future = i ∧
        ⟨future, requester, coordinator, .txCounter tx⟩ ∈ j.issues ∧
        Future.stands (j.deployment.counterFuture? requester future)
  | .pausing requester _ => (j.deployment.manager? requester).isSome
  | .committing requester coordinator counter future =>
      Earned j lead owner i coordinator counter ∧ owner future = i ∧
        (∃ issue ∈ j.issues, issue.future = future) ∧
        Future.stands (j.deployment.ackFuture? requester future)
  | .done (.finished coordinator counter _) => Earned j lead owner i coordinator counter
  | .done (.failed _) | .done .aborted => True

/-- Notes about futures on record stay. -/
def Extends (j : Journal) (owner owner' : FutureId → Nat) : Prop :=
  ∀ issue ∈ j.issues, owner' issue.future = owner issue.future

theorem Earned.mono (h : ∀ c, lead c → lead' c) {coordinator : NodeId} {counter : Version}
    (he : Earned j lead owner i coordinator counter) :
    Earned j lead' owner i coordinator counter :=
  ⟨h _ he.1, he.2⟩

theorem Backed.mono (h : ∀ c, lead c → lead' c) {phase : Phase} (hb : Backed j lead owner i phase) :
    Backed j lead' owner i phase := by
  cases phase with
  | unstarted | pausing => exact hb
  | requesting => exact ⟨h _ hb.1, hb.2⟩
  | committing => exact ⟨hb.1.mono h, hb.2⟩
  | done result =>
    cases result with
    | finished => exact Earned.mono h hb
    | failed | aborted => trivial

theorem Earned.step (hk : j.Kept) (howner : Extends j owner owner') {coordinator : NodeId}
    {counter : Version} (h : Earned j lead owner i coordinator counter) :
    Earned (j.step move) lead owner' i coordinator counter := by
  obtain ⟨hcoordinator, f, tx, hf, hassigned⟩ := h
  obtain ⟨issue, hissue, hfuture⟩ := hk.sound.requested _ hassigned
  refine ⟨hcoordinator, f, tx, ?_, List.mem_append_left _ hassigned⟩
  have hsame := howner issue hissue
  rw [hfuture] at hsame
  exact hsame.trans hf

/-- A transaction stays backed, as long as no future of its own is dropped. -/
theorem Backed.step (hk : j.Kept) (hroom : j.deployment.ids.last.toNat + 1 < UInt64.size)
    (howner : Extends j owner owner') (hdrop : ∀ f, move.dropped? = some f → owner f ≠ i)
    {phase : Phase} (h : Backed j lead owner i phase) :
    Backed (j.step move) lead owner' i phase := by
  have keeps : ∀ issue ∈ j.issues, owner issue.future = i → ∀ node,
      j.deployment.Keeps (j.deployment.perform move) node issue.future := by
    intro issue hissue hown node
    refine j.deployment.keeps_perform (fun _ => hk.future_ne_next hroom hissue) ?_ node
    exact fun hdropped => hdrop _ hdropped hown
  cases phase with
  | unstarted => trivial
  | requesting requester left coordinator tx future =>
    obtain ⟨hlead, hown, hissue, hstands⟩ := h
    exact ⟨hlead, (howner _ hissue).trans hown, List.mem_append_left _ hissue,
      (keeps _ hissue hown requester).counter hstands⟩
  | pausing requester left =>
    rw [Backed, Deployment.isSome_manager?_iff] at h ⊢
    have hselfs := (j.deployment.grown move).selfs
    exact hselfs ▸ List.mem_append_left _ h
  | committing requester coordinator counter future =>
    obtain ⟨hearned, hown, ⟨issue, hissue, rfl⟩, hstands⟩ := h
    exact ⟨hearned.step hk howner, (howner _ hissue).trans hown,
      ⟨issue, List.mem_append_left _ hissue, rfl⟩, (keeps _ hissue hown requester).ack hstands⟩
  | done result =>
    cases result with
    | finished => exact Earned.step hk howner h
    | failed | aborted => trivial

end Backed

/-- The nodes that may coordinate: the first server, and the next one after the failure. -/
def Leads (s : Simulation) (nodes : List ClusterNode) (clients : Nat) (node : NodeId) : Prop :=
  ∃ n ∈ nodes, n.id = node ∧ n.client = false ∧
    (n.order.toNat = clients + 1 ∨ s.struck ∧ n.order.toNat = clients + 2)

theorem Leads.mono {s s' : Simulation} (h : s.struck → s'.struck) {nodes : List ClusterNode}
    {clients : Nat} (node : NodeId) (hl : s.Leads nodes clients node) :
    s'.Leads nodes clients node := by
  obtain ⟨n, hn, hid, hserver, horder⟩ := hl
  exact ⟨n, hn, hid, hserver, horder.imp_right (And.imp_left h)⟩

theorem Staffed.leads_of_coordinator? {s : Simulation} {nodes : List ClusterNode}
    {first n : ClusterNode} {clients : Nat} (hs : s.Staffed nodes first)
    (hc : Crew nodes clients first) (h : s.snapshot.coordinator? = some n) :
    s.Leads nodes clients n.id := by
  obtain ⟨hmem, hserver, horder⟩ := hs.coordinator? hc h
  refine ⟨n, hmem, rfl, hserver, ?_⟩
  split at horder
  · rename_i hstruck
    exact .inr ⟨hstruck, horder⟩
  · exact .inl horder

theorem struck_conclude_of_struck {s : Simulation} (h : s.struck) (i : Nat) (result : Result) :
    (s.conclude i result).struck := by
  rw [struck_conclude]
  rw [struck] at h
  cases hafter : s.failAfter with
  | none =>
    rw [hafter] at h
    cases h
  | some count =>
    rw [hafter] at h
    have hreached := of_decide_eq_true (p := count ≤ s.completed) h
    exact decide_eq_true (Nat.le_succ_of_le hreached)

/-- The journal is one of the simulation's deployment, and every transaction is backed by it. The
requests that may still be made do not use up the ids. -/
structure Traced (s : Simulation) (nodes : List ClusterNode) (clients : Nat) (j : Journal)
    (owner : FutureId → Nat) : Prop where
  kept : j.Kept
  deployment : j.deployment = s.deployment
  size : 6 * s.runs.length < 2 ^ 63
  room : s.deployment.ids.last.toNat + (s.runs.map fun run => run.phase.asks).sum ≤
    6 * s.runs.length
  asked : j.asked.length ≤ s.deployment.ids.last.toNat
  backed : ∀ i run, s.runs[i]? = some run → Backed j (s.Leads nodes clients) owner i run.phase

variable {s : Simulation} {nodes : List ClusterNode} {first : ClusterNode} {clients i : Nat}
  {j : Journal} {owner owner' : FutureId → Nat} {run : Run} {move : Move} {dm : Deployment.Move}
  {stations : List Station} {phase : Phase}

theorem setPhase_cases (hrun : s.runs[i]? = some run) {k : Nat} {other : Run}
    (h : (s.setPhase i phase).runs[k]? = some other) :
    (k = i ∧ other = { run with phase }) ∨ (k ≠ i ∧ s.runs[k]? = some other) := by
  change (s.runs.modify i fun r => { r with phase })[k]? = some other at h
  rw [List.getElem?_modify] at h
  by_cases hk : i = k
  · subst hk
    rw [hrun] at h
    cases h
    exact .inl ⟨rfl, if_pos rfl⟩
  · obtain ⟨old, hold, heq⟩ := Option.map_eq_some_iff.mp h
    rw [if_neg hk] at heq
    exact .inr ⟨Ne.symm hk, heq ▸ hold⟩

/-- A phase leaves requests for the next one, and the one made now. -/
theorem Passage.asks_le (h : Passage s i run move dm stations phase) :
    phase.asks + dm.asks.toNat ≤ run.phase.asks := by
  have fallback : ∀ requester left cause, (s.fallback requester left cause).asks ≤ left + 1 := by
    intro requester left cause
    unfold Simulation.fallback Retry.again
    split
    · rename_i hagain
      have hleft : 0 < left := of_decide_eq_true (Bool.and_eq_true_iff.mp hagain).2
      simp only [Phase.asks]
      omega
    · split <;> exact Nat.zero_le _
  have asks : ∀ {p : Phase} {requester : NodeId} {left : Nat}, Asks s i p requester left →
      left + 2 ≤ p.asks := by
    intro p requester left hasks
    cases hasks with
    | first => exact Nat.le_refl _
    | again =>
      simp only [Phase.asks]
      omega
  cases h with
  | asked hasks => exact asks hasks
  | @foundered requester left tx cause hasks =>
    have hbefore := asks hasks
    have hafter := fallback requester left cause
    simp only [Deployment.Move.asks, Bool.toNat_false]
    omega
  | @refused requester _ left _ _ cause hphase | @lapsed requester _ left _ _ cause hphase =>
    have hafter := fallback requester left cause
    have hbefore : run.phase.asks = left + 1 := by
      rw [hphase]
      rfl
    exact hbefore ▸ hafter
  | commits hphase =>
    rw [hphase]
    exact Nat.succ_le_succ (Nat.zero_le _)
  | deserted | rolledBack | acknowledged | unacknowledged | timedOut => exact Nat.zero_le _

namespace Traced

theorem next_lt (ht : s.Traced nodes clients j owner) :
    s.deployment.ids.last.toNat + 1 < UInt64.size := by
  have hroom := ht.room
  have hsize := ht.size
  have hwide : (2 : Nat) ^ 63 < UInt64.size := by decide
  omega

/-- Some move of the deployment keeps the trace, if every transaction is backed afterwards. -/
theorem perform (ht : s.Traced nodes clients j owner) (hjoins : dm.joins? = none)
    {s' : Simulation} (hdeployment : s'.deployment = s.deployment.perform dm)
    (hlength : s'.runs.length = s.runs.length)
    (hasks : (s'.runs.map fun run => run.phase.asks).sum + dm.asks.toNat ≤
      (s.runs.map fun run => run.phase.asks).sum)
    (hbacked : ∀ i run, s'.runs[i]? = some run →
      Backed (j.step dm) (s'.Leads nodes clients) owner' i run.phase) :
    s'.Traced nodes clients (j.step dm) owner' := by
  have hroom := ht.room
  have hlast : s'.deployment.ids.last.toNat = s.deployment.ids.last.toNat + dm.asks.toNat := by
    rw [hdeployment]
    exact Deployment.last_perform fun _ => ht.next_lt
  have hfits : j.Fits dm := by
    refine ⟨fun id hid => ?_, fun id hid => ?_, fun _ => ?_⟩
    · rw [hjoins] at hid
      cases hid
    · rw [hjoins] at hid
      cases hid
    · rw [ht.deployment]
      exact ht.next_lt
  constructor
  · exact ht.kept.step hfits
  · rw [hdeployment, ← ht.deployment]
    rfl
  · rw [hlength]
    exact ht.size
  · rw [hlast, hlength]
    omega
  · rw [hlast]
    have hseeks : dm.seeks.toNat ≤ dm.asks.toNat :=
      Bool.toNat_le_toNat Deployment.Move.asks_of_seeks
    exact Nat.le_trans (j.length_asked_step dm) (Nat.add_le_add ht.asked hseeks)
  · exact hbacked

/-- A move of the deployment that belongs to no transaction. -/
theorem moved (ht : s.Traced nodes clients j owner) (dm : Deployment.Move)
    (hjoins : dm.joins? = none) (hasks : dm.asks = false) (hdropped : dm.dropped? = none)
    {s' : Simulation} (hdeployment : s'.deployment = s.deployment.perform dm)
    (hruns : s'.runs = s.runs) (hstruck : s.struck → s'.struck) :
    s'.Traced nodes clients (j.step dm) owner := by
  refine ht.perform hjoins hdeployment (congrArg List.length hruns) ?_ ?_
  · rw [hruns, hasks]
    exact Nat.le_refl _
  · intro i run hrun
    rw [hruns] at hrun
    refine ((ht.backed i run hrun).step ht.kept (ht.deployment ▸ ht.next_lt) (fun _ _ => rfl)
      fun f hf => ?_).mono (Leads.mono hstruck)
    rw [hdropped] at hf
    cases hf

theorem earned (ht : s.Traced nodes clients j owner) (hrun : s.runs[i]? = some run)
    {requester coordinator : NodeId} {left : Nat} {tx : TxId} {future : FutureId}
    (hphase : run.phase = .requesting requester left coordinator tx future) {counter : Version}
    (hfuture : s.counterFuture? requester future = some (.resolved (.ok counter))) :
    Earned j (s.Leads nodes clients) owner i coordinator counter := by
  have hbacked := ht.backed i run hrun
  rw [hphase] at hbacked
  obtain ⟨hlead, hown, hissue, -⟩ := hbacked
  obtain ⟨m, hm, hresolved⟩ := Option.bind_eq_some_iff.mp hfuture
  have hmem : m ∈ j.deployment.managers := ht.deployment ▸ (Deployment.mem_of_manager? hm).1
  obtain ⟨issue, hmade, hsame, -, hjustified⟩ := ht.kept.sound.credible m hmem _ _ hresolved
  have heq : issue = ⟨future, requester, coordinator, .txCounter tx⟩ :=
    List.inj_on_of_nodup_map ht.kept.sound.unique hmade hissue hsame
  rw [heq] at hjustified
  exact ⟨hlead, future, tx, hown, hjustified⟩

/-- Transactions drop only futures of their own. -/
theorem owner_of_dropped (ht : s.Traced nodes clients j owner) (hrun : s.runs[i]? = some run)
    (h : Passage s i run move dm stations phase) {f : FutureId} (hf : dm.dropped? = some f) :
    owner f = i := by
  have hbacked := ht.backed i run hrun
  cases h with
  | lapsed _ hphase =>
    cases hf
    rw [hphase] at hbacked
    exact hbacked.2.1
  | timedOut hphase =>
    cases hf
    rw [hphase] at hbacked
    exact hbacked.2.1
  | deserted | asked | foundered | refused | rolledBack | commits | acknowledged
  | unacknowledged => cases hf

theorem extends_update (ht : s.Traced nodes clients j owner) (i : Nat) :
    Extends j owner (Function.update owner s.deployment.ids.next.1 i) := by
  intro issue hissue
  refine Function.update_of_ne ?_ _ _
  exact ht.deployment ▸ ht.kept.future_ne_next (ht.deployment ▸ ht.next_lt) hissue

theorem requested (ht : s.Traced nodes clients j owner) {requester : NodeId}
    (hmanaged : (s.deployment.manager? requester).isSome) (target : NodeId) (what : Request) :
    ⟨s.deployment.ids.next.1, requester, target, what⟩ ∈
        (j.step (.ask requester target what)).issues ∧
      if what.isCommit then
        Future.stands ((j.step (.ask requester target what)).deployment.ackFuture? requester
          s.deployment.ids.next.1) = true
      else Future.stands ((j.step (.ask requester target what)).deployment.counterFuture? requester
          s.deployment.ids.next.1) = true := by
  rw [← ht.deployment] at hmanaged ⊢
  refine ⟨List.mem_append_right _ ?_, j.deployment.stands_ask hmanaged target what⟩
  obtain ⟨m, hm⟩ := Option.isSome_iff_exists.mp hmanaged
  have hissued : j.deployment.issued? (.ask requester target what) =
      some ⟨j.deployment.ids.next.1, requester, target, what⟩ := congrArg (Option.map _) hm
  rw [hissued]
  exact List.mem_singleton_self _

theorem managed (ht : s.Traced nodes clients j owner) (hs : s.Staffed nodes first)
    (hrun : s.runs[i]? = some run) {requester : NodeId} {left : Nat}
    (hasks : Asks s i run.phase requester left) : (s.deployment.manager? requester).isSome := by
  have hbacked := ht.backed i run hrun
  generalize run.phase = phase at hasks hbacked
  cases hasks with
  | first hrequester =>
    obtain ⟨-, st, hst, rfl⟩ := station_of_requester? hrequester
    have hnode : st.node ∈ nodes := hs.stations ▸ List.mem_map_of_mem hst
    obtain ⟨m, hm⟩ := hs.manager hnode
    exact Option.isSome_of_eq_some hm
  | again => exact ht.deployment ▸ hbacked

theorem managed_of_requesting (ht : s.Traced nodes clients j owner) (hrun : s.runs[i]? = some run)
    {requester coordinator : NodeId} {left : Nat} {tx : TxId} {future : FutureId}
    (hphase : run.phase = .requesting requester left coordinator tx future) :
    (s.deployment.manager? requester).isSome := by
  have hbacked := ht.backed i run hrun
  rw [hphase] at hbacked
  have hstands := hbacked.2.2.2
  rw [ht.deployment, Deployment.counterFuture?] at hstands
  cases hm : s.deployment.manager? requester with
  | some m => rfl
  | none =>
    rw [hm] at hstands
    cases hstands

/-- After a failed attempt nothing has to be backed but the requester. -/
theorem backed_fallback (ht : s.Traced nodes clients j owner) {requester : NodeId}
    (hmanaged : (s.deployment.manager? requester).isSome) (dm : Deployment.Move)
    {lead : NodeId → Prop} (left : Nat) (cause : Error) :
    Backed (j.step dm) lead owner' i (s.fallback requester left cause) := by
  unfold fallback
  split
  · rw [Backed, Deployment.isSome_manager?_iff]
    rw [← ht.deployment, Deployment.isSome_manager?_iff] at hmanaged
    have hselfs := (j.deployment.grown dm).selfs
    exact hselfs ▸ List.mem_append_left _ hmanaged
  · split <;> trivial

theorem backed_next (ht : s.Traced nodes clients j owner) (hs : s.Staffed nodes first)
    (hc : Crew nodes clients first) (hrun : s.runs[i]? = some run)
    (h : Passage s i run move dm stations phase) :
    Backed (j.step dm) (s.Leads nodes clients)
      (Function.update owner s.deployment.ids.next.1 i) i phase := by
  have hextends := ht.extends_update i
  have hself : Function.update owner s.deployment.ids.next.1 i s.deployment.ids.next.1 = i :=
    Function.update_self ..
  have hbacked := ht.backed i run hrun
  cases h with
  | deserted | unacknowledged => trivial
  | @asked requester left coordinator tx hasks htx halive helected =>
    obtain ⟨hissue, hstands⟩ := ht.requested (ht.managed hs hrun hasks) coordinator.id
      (.txCounter tx)
    exact ⟨hs.leads_of_coordinator? hc helected, hself, hissue, hstands⟩
  | foundered cause hasks => exact ht.backed_fallback (ht.managed hs hrun hasks) ..
  | refused hphase | lapsed _ hphase =>
    exact ht.backed_fallback (ht.managed_of_requesting hrun hphase) ..
  | rolledBack hphase hfuture => exact (ht.earned hrun hphase hfuture).step ht.kept hextends
  | @commits requester coordinator left tx future counter hphase hfuture =>
    obtain ⟨hissue, hstands⟩ := ht.requested (ht.managed_of_requesting hrun hphase) coordinator
      (.commit tx)
    exact ⟨(ht.earned hrun hphase hfuture).step ht.kept hextends, hself, ⟨_, hissue, rfl⟩, hstands⟩
  | acknowledged hphase =>
    rw [hphase] at hbacked
    exact hbacked.1.step ht.kept hextends
  | timedOut hphase =>
    rw [hphase] at hbacked
    split
    · exact hbacked.1.step ht.kept hextends
    · trivial

/-- A transaction goes on; its end is not yet counted. -/
theorem passed (ht : s.Traced nodes clients j owner) (hs : s.Staffed nodes first)
    (hc : Crew nodes clients first) (hrun : s.runs[i]? = some run)
    (h : Passage s i run move dm stations phase) :
    ((s.act dm stations).setPhase i phase).Traced nodes clients (j.step dm)
      (Function.update owner s.deployment.ids.next.1 i) := by
  have hjoins : dm.joins? = none := by cases h <;> rfl
  have hsum := sum_map_modify hrun (fun r => { r with phase }) fun r => r.phase.asks
  have hasks := h.asks_le
  refine ht.perform hjoins rfl (List.length_modify ..) ?_ ?_
  · change ((s.runs.modify i fun r => { r with phase }).map fun r => r.phase.asks).sum + _ ≤ _
    dsimp only at hsum
    omega
  · intro k other hother
    rcases setPhase_cases (s := s.act dm stations) hrun hother with ⟨rfl, rfl⟩ | ⟨hk, hother⟩
    · exact ht.backed_next hs hc hrun h
    · refine (ht.backed k other hother).step ht.kept (ht.deployment ▸ ht.next_lt)
        (ht.extends_update i) fun f hf hown => hk ?_
      exact hown.symm.trans (ht.owner_of_dropped hrun h hf)

/-- Its end is counted. -/
theorem concluded {result : Result}
    (ht : (s.setPhase i (.done result)).Traced nodes clients j owner) :
    (s.conclude i result).Traced nodes clients j owner :=
  ⟨ht.kept, ht.deployment, ht.size, ht.room, ht.asked, fun k other hother =>
    (ht.backed k other hother).mono
      (Leads.mono (s := s.setPhase i (.done result)) fun h =>
        struck_conclude_of_struck (s := s) h i result)⟩

/-- Then the coordinator may fail. -/
theorem finished (hs : s.Staffed nodes first) (hc : Crew nodes clients first) {result : Result}
    (ht : (s.setPhase i (.done result)).Traced nodes clients j owner) :
    ∃ j', (s.finish i result).Traced nodes clients j' owner := by
  rcases hs.finish_cases hc i result with ⟨-, heq⟩ | ⟨-, heq⟩
  · exact ⟨j, heq ▸ ht.concluded⟩
  · rw [heq]
    exact ⟨_, ht.concluded.moved (.depart .failed first.id) rfl rfl rfl rfl rfl fun h => h⟩

theorem step (ht : s.Traced nodes clients j owner) (hs : s.Staffed nodes first)
    (hc : Crew nodes clients first) (move : Move) :
    ∃ j' owner', (s.step move).Traced nodes clients j' owner' := by
  have hcourse := s.course move
  generalize s.step move = s' at hcourse ⊢
  cases hcourse with
  | idle => exact ⟨j, owner, ht⟩
  | @dispatched node => exact ⟨_, owner, ht.moved (.dispatch node) rfl rfl rfl rfl rfl fun h => h⟩
  | @listened node st =>
    exact ⟨_, owner, ht.moved (.listen node st.heard) rfl rfl rfl rfl rfl fun h => h⟩
  | @passed _ i run dm stations phase hrun h =>
    obtain ⟨hstays, hstations⟩ := h.stays
    have hacted := hs.act hstays (hstations fun _ _ => rfl)
    have hpassed := ht.passed hs hc hrun h
    cases phase with
    | done result =>
      obtain ⟨j', hfinished⟩ := hpassed.finished hacted hc
      exact ⟨j', _, hfinished⟩
    | unstarted | requesting | pausing | committing => exact ⟨_, _, hpassed⟩

theorem attended (ht : s.Traced nodes clients j owner) (hs : s.Staffed nodes first) :
    ∀ run ∈ s.runs, s.Attended run.phase := by
  intro run hrun
  obtain ⟨i, hi⟩ := List.getElem?_of_mem hrun
  have hbacked := ht.backed i run hi
  have hdeployment := ht.deployment
  generalize run.phase = phase at hbacked
  cases phase with
  | unstarted | done => trivial
  | requesting | committing =>
    have hstands := hbacked.2.2.2
    rw [hdeployment] at hstands
    exact hstands
  | pausing requester left =>
    have hself := Deployment.isSome_manager?_iff.mp hbacked
    rw [hdeployment, hs.managers, ← hs.stations, List.map_map] at hself
    exact List.mem_map.mp hself

end Traced

structure Orderly (s : Simulation) (nodes : List ClusterNode) (first : ClusterNode)
    (clients : Nat) : Prop where
  staffed : s.Staffed nodes first
  traced : ∃ j owner, s.Traced nodes clients j owner

namespace Orderly

theorem step (ho : s.Orderly nodes first clients) (hc : Crew nodes clients first) (move : Move) :
    (s.step move).Orderly nodes first clients := by
  obtain ⟨j, owner, ht⟩ := ho.traced
  exact ⟨ho.staffed.step hc move, ht.step ho.staffed hc move⟩

theorem play (ho : s.Orderly nodes first clients) (hc : Crew nodes clients first)
    (moves : List Move) : (s.play moves).Orderly nodes first clients :=
  play_keeps (P := fun s => s.Orderly nodes first clients)
    (fun _ move ho (_ : True) => ho.step hc move) ho fun _ _ => trivial

theorem round_lt (ho : s.Orderly nodes first clients) (hc : Crew nodes clients first) :
    ∀ move ∈ s.round, (s.step move).work < s.work := by
  intro move hmove
  obtain ⟨j, owner, ht⟩ := ho.traced
  rcases work_step ho.staffed hc move with ⟨hidle, -⟩ | hlt
  · exact absurd hidle (round_busy ho.staffed hc (ht.attended ho.staffed) hmove)
  · exact hlt

end Orderly

variable {c : Config} {rollbacks : List Bool}

theorem traced_fresh (ha : c.Accepts rollbacks) :
    (fresh c rollbacks).Traced (recruits c.simulation.clientNodes c.simulation.nodes)
      c.simulation.clientNodes
      (.ofMoves (enlist c.simulation.clientNodes c.protocol.cancelAcksOnCoordinatorLoss
        c.simulation.nodes)) fun _ => 0 := by
  obtain ⟨hservers, -⟩ := SimulationConfig.of_fault?_eq_none ha.fault?
  obtain ⟨hdeployment, hissues⟩ := journal_enlist c.simulation.clientNodes
    c.protocol.cancelAcksOnCoordinatorLoss (Nat.le_of_lt ha.nodes)
  have hkept := kept_enlist hservers ha.nodes c.protocol.cancelAcksOnCoordinatorLoss
  have hlength : (fresh c rollbacks).runs.length = c.simulation.transactions := by
    simp [fresh, ha.decided]
  constructor
  · exact hkept
  · exact hdeployment
  · rw [hlength]
    exact ha.requests
  · have hasks : ((fresh c rollbacks).runs.map fun run => run.phase.asks).sum =
        (fresh c rollbacks).runs.length * 6 := by
      simp [fresh, Function.comp_def, Phase.asks, counterAttempts]
    rw [hasks, Nat.mul_comm]
    exact Nat.le_of_eq (Nat.zero_add _)
  · refine Nat.le_of_eq (List.length_eq_zero_iff.mpr (List.eq_nil_iff_forall_not_mem.mpr ?_))
    intro f hf
    obtain ⟨issue, hissue, -⟩ := Journal.issued_of_asked hkept.sound hf
    rw [hissues] at hissue
    cases hissue
  · intro i run hrun
    obtain ⟨rollback, -, rfl⟩ := List.mem_map.mp (List.mem_of_getElem? hrun)
    trivial

theorem orderly_fresh (ha : c.Accepts rollbacks) :
    (fresh c rollbacks).Orderly (recruits c.simulation.clientNodes c.simulation.nodes)
      (recruit c.simulation.clientNodes c.simulation.clientNodes) c.simulation.clientNodes :=
  ⟨staffed_fresh ha, _, _, traced_fresh ha⟩

end Simulation
end CounterCoordinator
