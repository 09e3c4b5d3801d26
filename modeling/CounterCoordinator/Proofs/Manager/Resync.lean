import CounterCoordinator.Proofs.Manager.Accounting
import CounterCoordinator.Proofs.Waitlist.Sweep

/-!
# Resync and departures

A manager can learn that nodes are gone from their departures one by one, or all at once by a
resync. Both are cases of one operation, `cancel`, which cancels everything that waits on the nodes
it is told are gone. Cancelling twice is cancelling for both, so the two ways meet whenever they are
about the same nodes, and whatever they did is done for good.
-/
namespace CounterCoordinator.Manager
open Waitlist (Enumeration)

structure Orders where
  counterWaits : Enumeration := .byAge
  ackWaits : Enumeration := .byAge

def cancelCounters (m : Manager) (order : Orders) (gone : NodeId → Bool) : Nat × Waitlist Version :=
  m.counterWaits.sweep order.counterWaits (fun e => gone e.target)
    fun e => .error (.coordinatorLost e.target)

/-- Cancel the commit acknowledgements to nodes that are `gone`, if the manager does so at all. -/
def cancelCommits (m : Manager) (order : Orders) (gone : NodeId → Bool) : Nat × Waitlist Unit :=
  if m.cancelAcks then m.ackWaits.sweep order.ackWaits (fun e => gone e.target) fun _ => .ok ()
  else (0, m.ackWaits)

/-- Cancel everything that waits on nodes that are `gone`. -/
def cancel (m : Manager) (order : Orders) (gone : NodeId → Bool) : Nat × Manager :=
  m.withCancelled (m.cancelCounters order gone) (m.cancelCommits order gone)

def Targets (m : Manager) (node : NodeId) : Prop :=
  (∃ e ∈ m.counterWaits.entries, e.target = node) ∨ ∃ e ∈ m.ackWaits.entries, e.target = node

/-- Cancel what waits on one node after the other, each time going through the tables in an order
of its own; the count says how many futures this settled in all. -/
def departures (m : Manager) : List (NodeId × Orders) → Nat × Manager
  | [] => (0, m)
  | (node, order) :: rest =>
      let (first, m) := m.cancel order (· == node)
      let (later, m) := m.departures rest
      (first + later, m)

theorem resync_eq_cancel (m : Manager) (alive : NodeId → Bool) :
    m.resync alive = m.cancel {} fun node => !alive node := rfl

theorem nodeLeft_eq_cancel (m : Manager) (node : NodeId) :
    m.nodeLeft node = m.cancel {} (· == node) := by
  have houtcome : ∀ e : Waitlist.Entry, e.target == node →
      (.error (.coordinatorLost node) : Outcome Version) = .error (.coordinatorLost e.target) := by
    intro e he
    rw [eq_of_beq he]
  rw [nodeLeft, cancel, cancelCounters, cancelCommits, Waitlist.completeAllFor_eq_sweep,
    Waitlist.completeAllFor_eq_sweep, Waitlist.sweep_outcome_congr _ houtcome]

structure Keyed (m : Manager) : Prop where
  counterWaits : m.counterWaits.Keyed
  ackWaits : m.ackWaits.Keyed

theorem Balanced.keyed {m : Manager} {last : FutureId} (h : m.Balanced last) : m.Keyed :=
  ⟨h.counterWaits.keyed, h.ackWaits.keyed⟩

theorem withCancelled_withCancelled (m : Manager) (c c' : Nat × Waitlist Version)
    (a a' : Nat × Waitlist Unit) :
    ((m.withCancelled c a).1 + ((m.withCancelled c a).2.withCancelled c' a').1,
      ((m.withCancelled c a).2.withCancelled c' a').2) =
      m.withCancelled (c.1 + c'.1, c'.2) (a.1 + a'.1, a'.2) := by
  have hcount : c.1 + a.1 + (c'.1 + a'.1) = c.1 + c'.1 + (a.1 + a'.1) := by omega
  simp only [withCancelled, Metrics.add, hcount, UInt64.add_assoc, ← UInt64.ofNat_add]

section Laws
variable {m : Manager} {gone gone' : NodeId → Bool}

theorem cancel_congr (order : Orders) (h : ∀ n, m.Targets n → gone n = gone' n) :
    m.cancel order gone = m.cancel order gone' := by
  have hcounter : ∀ e ∈ m.counterWaits.entries, gone e.target = gone' e.target :=
    fun e he => h _ (.inl ⟨e, he, rfl⟩)
  have hack : ∀ e ∈ m.ackWaits.entries, gone e.target = gone' e.target :=
    fun e he => h _ (.inr ⟨e, he, rfl⟩)
  simp only [cancel, cancelCounters, cancelCommits, Waitlist.sweep_congr _ hcounter,
    Waitlist.sweep_congr _ hack]

theorem cancel_of_none (order : Orders)
    (hcounter : ∀ e ∈ m.counterWaits.entries, gone e.target = false)
    (hack : m.cancelAcks → ∀ e ∈ m.ackWaits.entries, gone e.target = false) :
    m.cancel order gone = (0, m) := by
  have hcounters : m.cancelCounters order gone = (0, m.counterWaits) :=
    Waitlist.sweep_of_none _ hcounter
  have hcommits : m.cancelCommits order gone = (0, m.ackWaits) := by
    unfold cancelCommits
    split
    · rename_i hc
      exact Waitlist.sweep_of_none _ (hack hc)
    · rfl
  rw [cancel, hcounters, hcommits]
  simp [withCancelled, Metrics.add]

namespace Keyed

theorem cancel_order (h : m.Keyed) (order : Orders) : m.cancel order gone = m.cancel {} gone := by
  simp only [Manager.cancel, cancelCounters, cancelCommits, h.counterWaits.sweep_order,
    h.ackWaits.sweep_order]

theorem cancel (h : m.Keyed) (order : Orders) : (m.cancel order gone).2.Keyed := by
  refine ⟨h.counterWaits.sweep order.counterWaits, ?_⟩
  simp only [Manager.cancel, cancelCommits, withCancelled]
  split
  · exact h.ackWaits.sweep order.ackWaits
  · exact h.ackWaits

theorem cancelCounters_cancel (h : m.Keyed) (order order' : Orders) :
    ((m.cancelCounters order gone).1 + ((m.cancel order gone).2.cancelCounters order' gone').1,
      ((m.cancel order gone).2.cancelCounters order' gone').2) =
      m.cancelCounters {} fun n => gone n || gone' n :=
  h.counterWaits.sweep_sweep ..

theorem cancelCommits_cancel (h : m.Keyed) (order order' : Orders) :
    ((m.cancelCommits order gone).1 + ((m.cancel order gone).2.cancelCommits order' gone').1,
      ((m.cancel order gone).2.cancelCommits order' gone').2) =
      m.cancelCommits {} fun n => gone n || gone' n := by
  have hsetting : (m.cancel order gone).2.cancelAcks = m.cancelAcks := rfl
  have htable : (m.cancel order gone).2.ackWaits = (m.cancelCommits order gone).2 := rfl
  by_cases hc : m.cancelAcks
  · simp only [cancelCommits, hsetting, htable, hc, if_true]
    exact h.ackWaits.sweep_sweep ..
  · simp only [cancelCommits, hsetting, htable, hc]
    rfl

/-- Cancelling for some nodes and then for others is cancelling for all of them. -/
theorem cancel_cancel (h : m.Keyed) (order order' : Orders) :
    ((m.cancel order gone).1 + ((m.cancel order gone).2.cancel order' gone').1,
      ((m.cancel order gone).2.cancel order' gone').2) =
      m.cancel {} fun n => gone n || gone' n := by
  have hboth : (m.cancel {} fun n => gone n || gone' n) =
      m.withCancelled (m.cancelCounters {} fun n => gone n || gone' n)
        (m.cancelCommits {} fun n => gone n || gone' n) := rfl
  rw [hboth, ← h.cancelCounters_cancel order order', ← h.cancelCommits_cancel order order']
  exact withCancelled_withCancelled ..

theorem cancel_again (h : m.Keyed) (order order' : Orders) (hle : ∀ n, gone' n → gone n) :
    (m.cancel order gone).2.cancel order' gone' = (0, (m.cancel order gone).2) := by
  apply cancel_of_none
  · intro e he
    have hkept : e ∈ m.counterWaits.entries.filter fun e => !gone e.target :=
      h.counterWaits.entries_sweep order.counterWaits ▸ he
    have hthere : gone e.target = false := by simpa using (List.mem_filter.mp hkept).2
    exact Bool.eq_false_iff.mpr fun hgone => by simp [hle _ hgone] at hthere
  · intro hc e he
    replace hc : m.cancelAcks = true := hc
    have htable : (m.cancel order gone).2.ackWaits = (m.cancelCommits order gone).2 := rfl
    rw [htable, cancelCommits, if_pos hc, h.ackWaits.entries_sweep] at he
    have hthere : gone e.target = false := by simpa using (List.mem_filter.mp he).2
    exact Bool.eq_false_iff.mpr fun hgone => by simp [hle _ hgone] at hthere

/-- Departures one after the other are one cancellation for all their nodes. -/
theorem departures_eq (h : m.Keyed) (calls : List (NodeId × Orders)) :
    m.departures calls = m.cancel {} fun n => (calls.map Prod.fst).contains n := by
  induction calls generalizing m with
  | nil => exact (cancel_of_none _ (fun _ _ => rfl) fun _ _ _ => rfl).symm
  | cons call rest ih =>
    obtain ⟨node, order⟩ := call
    rw [departures]
    simp only [ih (h.cancel order)]
    rw [h.cancel_cancel order {}]
    simp only [List.map_cons, List.contains_cons]

/-- A resync behind some departures cancels for their nodes and for all that are not alive. -/
theorem resync_behind (h : m.Keyed) (heard : List (NodeId × Orders)) (alive : NodeId → Bool) :
    ((m.departures heard).1 + ((m.departures heard).2.resync alive).1,
      ((m.departures heard).2.resync alive).2) =
      m.cancel {} fun n => (heard.map Prod.fst).contains n || !alive n := by
  rw [h.departures_eq, resync_eq_cancel]
  exact h.cancel_cancel {} {}

/-- Behind a resync, nothing is left to do for nodes that it found gone or that were heard of. -/
theorem cancel_behind (h : m.Keyed) (heard : List (NodeId × Orders)) (alive : NodeId → Bool)
    (hgone : ∀ n, gone n → (heard.map Prod.fst).contains n || !alive n) :
    let synced := ((m.departures heard).2.resync alive).2
    synced.cancel {} gone = (0, synced) := by
  have hsynced := congrArg Prod.snd (h.resync_behind heard alive)
  simp only at hsynced ⊢
  rw [hsynced]
  exact h.cancel_again {} {} hgone

/-- Some departures and a resync do what the departures of all nodes do that are covered by the
one or the other. -/
theorem resync_behind_eq (h : m.Keyed) (heard all : List (NodeId × Orders))
    (alive : NodeId → Bool)
    (hcovered : ∀ n ∈ all.map Prod.fst, (heard.map Prod.fst).contains n || !alive n)
    (hheard : ∀ n ∈ heard.map Prod.fst, n ∈ all.map Prod.fst)
    (hgone : ∀ n, m.Targets n → alive n = false → n ∈ all.map Prod.fst) :
    ((m.departures heard).1 + ((m.departures heard).2.resync alive).1,
      ((m.departures heard).2.resync alive).2) = m.departures all := by
  rw [h.resync_behind, h.departures_eq]
  apply cancel_congr
  intro n hn
  rw [Bool.eq_iff_iff]
  constructor
  · intro hcancelled
    rw [Bool.or_eq_true, List.contains_iff_mem] at hcancelled
    rw [List.contains_iff_mem]
    rcases hcancelled with hmem | hdead
    · exact hheard n hmem
    · exact hgone n hn (by simpa using hdead)
  · intro hmem
    exact hcovered n (List.contains_iff_mem.mp hmem)

end Keyed
end Laws

/-- A resync makes up for departures. In whatever order the tables are gone through, it leaves the
manager, its futures and metrics included, and counts in all, what the departures of all gone nodes
that something waits on do, one after the other in any order. If some departures were heard and the
others missed, then the resync puts the manager where all of them would have; and from there neither
another resync nor any of these departures finds anything left to do. -/
theorem resync_makes_up (node : NodeId) (cancelAcks : Bool) (turns : List Turn)
    (hids : turns.countP Turn.takesId < UInt64.size) (alive : NodeId → Bool) :
    let m := (Life.ofTurns node cancelAcks turns).manager
    (∀ order, m.cancel order (fun n => !alive n) = m.resync alive) ∧
    (∀ order n, m.cancel order (· == n) = m.nodeLeft n) ∧
    (∀ calls, (∀ n, n ∈ calls.map Prod.fst ↔ m.Targets n ∧ alive n = false) →
      m.departures calls = m.resync alive) ∧
    ∀ heard missed all, (∀ n ∈ missed, alive n = false) →
      (∀ n, m.Targets n → alive n = false → n ∈ all.map Prod.fst) →
      (all.map Prod.fst).Perm (heard.map Prod.fst ++ missed) →
      let behind := m.departures heard
      let synced := behind.2.resync alive
      (behind.1 + synced.1, synced.2) = m.departures all ∧
        synced.2.resync alive = (0, synced.2) ∧
        ∀ n ∈ all.map Prod.fst, synced.2.nodeLeft n = (0, synced.2) := by
  intro m
  have keyed : m.Keyed := (Life.balanced_ofTurns node cancelAcks turns hids).keyed
  refine ⟨fun order => ?_, fun order n => ?_, ?_, ?_⟩
  · rw [resync_eq_cancel, keyed.cancel_order]
  · rw [nodeLeft_eq_cancel, keyed.cancel_order]
  · intro calls hcalls
    rw [keyed.departures_eq, resync_eq_cancel]
    apply cancel_congr
    intro n hn
    rw [Bool.eq_iff_iff, List.contains_iff_mem, hcalls n]
    simp [hn]
  · intro heard missed all hmissed hall hsplit behind synced
    -- every node of `all` was heard of or found gone, and so it was cancelled for
    have hcovered : ∀ n ∈ all.map Prod.fst, (heard.map Prod.fst).contains n || !alive n := by
      intro n hn
      rw [Bool.or_eq_true, List.contains_iff_mem]
      rcases List.mem_append.mp (hsplit.mem_iff.mp hn) with hheard | hn
      · exact .inl hheard
      · exact .inr (by simp [hmissed n hn])
    have hheard : ∀ n ∈ heard.map Prod.fst, n ∈ all.map Prod.fst :=
      fun n hn => hsplit.mem_iff.mpr (List.mem_append_left _ hn)
    refine ⟨keyed.resync_behind_eq heard all alive hcovered hheard hall, ?_, ?_⟩
    · rw [resync_eq_cancel]
      exact keyed.cancel_behind heard alive fun n hn => by rw [hn, Bool.or_true]
    · intro n hn
      rw [nodeLeft_eq_cancel]
      apply keyed.cancel_behind heard alive
      intro n' hn'
      rw [eq_of_beq hn']
      exact hcovered n hn

/-- A node waits on nodes 2 and 3 for counters, on node 2 for a commit, and on node 4. -/
def threeTargets : List Turn :=
  let here : Outlook := ⟨fun _ => true, fun _ => none⟩
  let tx : TxId := ⟨1, 1, 1⟩
  [.ask here (.ofNat 2) (.txCounter tx), .ask here (.ofNat 3) .queryCounter,
    .ask here (.ofNat 2) (.commit tx), .ask here (.ofNat 4) .queryCounter]

/-- Nodes 2 and 3 depart; the node hears of 2 in time, or of both in the wrong order. -/
theorem resync_makes_up_threeTargets :
    let m := (Life.ofTurns (.ofNat 1) true threeTargets).manager
    let alive := fun n : NodeId => n == .ofNat 4
    let newestFirst : Enumeration := ⟨List.reverse, List.reverse_perm⟩
    threeTargets.countP Turn.takesId < UInt64.size ∧ (m.resync alive).1 = 3 ∧
      m.departures [(.ofNat 3, ⟨newestFirst, newestFirst⟩), (.ofNat 2, {})] = m.resync alive ∧
      ((m.nodeLeft (.ofNat 2)).2.resync alive).2 = (m.resync alive).2 ∧
      ((m.nodeLeft (.ofNat 2)).2.resync alive).2.nodeLeft (.ofNat 3) =
        (0, ((m.nodeLeft (.ofNat 2)).2.resync alive).2) := by
  intro m alive newestFirst
  have hids : threeTargets.countP Turn.takesId < UInt64.size := by decide
  obtain ⟨-, horder, hcalls, hsplit⟩ := resync_makes_up (.ofNat 1) true threeTargets hids alive
  have hgone : ∀ n, n ∈ [NodeId.ofNat 3, .ofNat 2] ↔ m.Targets n ∧ alive n = false := by
    intro n
    have hcounters : m.counterWaits.entries =
        [⟨1, .ofNat 2⟩, ⟨2, .ofNat 3⟩, ⟨4, .ofNat 4⟩] := by decide
    have hacks : m.ackWaits.entries = [⟨3, .ofNat 2⟩] := by decide
    rw [Targets, hcounters, hacks]
    constructor
    · intro hn
      rcases List.mem_cons.mp hn with rfl | hn
      · exact ⟨.inl ⟨_, .tail _ (.head _), rfl⟩, by decide⟩
      · obtain rfl := List.mem_singleton.mp hn
        exact ⟨.inl ⟨_, .head _, rfl⟩, by decide⟩
    · rintro ⟨⟨e, he, rfl⟩ | ⟨e, he, rfl⟩, hthere⟩
      · simp only [List.mem_cons, List.not_mem_nil, or_false] at he
        rcases he with rfl | rfl | rfl
        · decide
        · decide
        · exact absurd hthere (by decide)
      · obtain rfl := List.mem_singleton.mp he
        decide
  have hall := hcalls [(.ofNat 3, ⟨newestFirst, newestFirst⟩), (.ofNat 2, {})] hgone
  obtain ⟨hsame, -, hdone⟩ := hsplit [(.ofNat 2, {})] [.ofNat 3]
    [(.ofNat 3, ⟨newestFirst, newestFirst⟩), (.ofNat 2, {})] (by decide)
    (fun n hn hthere => (hgone n).mpr ⟨hn, hthere⟩) (List.Perm.swap ..)
  have hheard : (m.departures [(.ofNat 2, {})]).2 = (m.nodeLeft (.ofNat 2)).2 :=
    congrArg Prod.snd (horder {} (.ofNat 2))
  rw [hheard] at hsame hdone
  have hend := congrArg Prod.snd (hsame.trans hall)
  exact ⟨hids, by decide, hall, hend, hdone _ (.head _)⟩

end CounterCoordinator.Manager
