import CounterCoordinator.Proofs.Manager.Inert
import CounterCoordinator.Proofs.Manager.Release
import CounterCoordinator.Proofs.Manager.Tables

/-!
# Cancellation

When a node departs, a manager settles exactly what waits on it, each future once and with the
outcome of its kind, and counts these. Nothing else changes: not the entries of other nodes, not the
futures that were settled before, and not the counters. A response that comes too late finds no
entry any more, however long the manager has gone on meanwhile.
-/
namespace CounterCoordinator

namespace Manager
open Waitlist (Enumeration)

/-- The futures that the departure of a node settles. -/
def bereft (m : Manager) (gone : NodeId) : List FutureId :=
  m.counterWaits.idsFor gone ++ if m.cancelAcks then m.ackWaits.idsFor gone else []

/-- From `m` to `m'` the futures bereft by the departure of a node were settled, with a topology
error where a counter was wanted and well where a commit was announced; `count` is their number, and
nothing else was done. -/
structure Cancels (m : Manager) (gone : NodeId) (count : Nat) (m' : Manager) : Prop where
  counterWaits : m.counterWaits.Swept m'.counterWaits (fun e => e.target == gone)
    fun _ => .error (.coordinatorLost gone)
  ackWaits :
    if m.cancelAcks then m.ackWaits.Swept m'.ackWaits (fun e => e.target == gone) fun _ => .ok ()
    else m'.ackWaits = m.ackWaits
  distinct : (m.bereft gone).Nodup
  counted : count = (m.bereft gone).length
  cancelled : m'.metrics.futuresCancelled.toNat = m.metrics.futuresCancelled.toNat + count
  rest : m' = { m with
    counterWaits := m'.counterWaits
    ackWaits := m'.ackWaits
    metrics := m.metrics.add .futuresCancelled (UInt64.ofNat count) }

variable {m : Manager} {last : FutureId} {f : FutureId}

theorem mem_bereft {gone : NodeId} :
    f ∈ m.bereft gone ↔ f ∈ m.counterWaits.idsFor gone ∨
      (m.cancelAcks ∧ f ∈ m.ackWaits.idsFor gone) := by
  unfold bereft
  split <;> simp_all

theorem length_bereft_le (m : Manager) (gone : NodeId) :
    (m.bereft gone).length ≤ m.counterWaits.size + m.ackWaits.size := by
  have hcounter : (m.counterWaits.idsFor gone).length ≤ m.counterWaits.size :=
    (List.length_map ..).trans_le (List.length_filter_le ..)
  have hack : (m.ackWaits.idsFor gone).length ≤ m.ackWaits.size :=
    (List.length_map ..).trans_le (List.length_filter_le ..)
  unfold bereft
  split
  · rw [List.length_append]
    omega
  · rw [List.append_nil]
    omega

namespace Cancels
variable {m' : Manager} {gone other : NodeId} {count : Nat} {e : Waitlist.Entry}

theorem mem_counterWaits (h : m.Cancels gone count m') (he : e ∈ m'.counterWaits.entries) :
    e ∈ m.counterWaits.entries ∧ e.target ≠ gone := by
  simpa [h.counterWaits.entries] using he

theorem mem_ackWaits (h : m.Cancels gone count m') (he : e ∈ m'.ackWaits.entries) :
    e ∈ m.ackWaits.entries ∧ (m.cancelAcks → e.target ≠ gone) := by
  have hack := h.ackWaits
  split at hack
  · rw [hack.entries] at he
    simp_all
  · simp_all

theorem bereft_other (h : m.Cancels gone count m') (hne : other ≠ gone) :
    m'.bereft other = m.bereft other := by
  have hsetting : m'.cancelAcks = m.cancelAcks := by rw [h.rest]
  have hack := h.ackWaits
  have hother (e : Waitlist.Entry) (he : e.target == gone) : e.target ≠ other :=
    eq_of_beq he ▸ hne.symm
  unfold bereft
  rw [hsetting, h.counterWaits.idsFor_other hother]
  split
  · rename_i hc
    rw [if_pos hc] at hack
    rw [hack.idsFor_other hother]
  · rfl

end Cancels

theorem Keyed.nodeLeft_comm (h : m.Keyed) (gone other : NodeId) :
    ((m.nodeLeft gone).2.nodeLeft other).2 = ((m.nodeLeft other).2.nodeLeft gone).2 := by
  have both (a b : NodeId) : ((m.cancel {} (· == a)).2.cancel {} (· == b)).2 =
      (m.cancel {} fun n => n == a || n == b).2 := by
    rw [← h.cancel_cancel {} {}]
  simp only [nodeLeft_eq_cancel, both, Bool.or_comm]

namespace Staged

theorem not_mem_ackWaits (h : m.Staged last) {e e' : Waitlist.Entry}
    (he : e ∈ m.counterWaits.entries) (he' : e' ∈ m.ackWaits.entries) : e.id ≠ e'.id := by
  intro hid
  have hcounter := h.counterWaits.waiting_of_mem he
  have hack := h.ackWaits.waiting_of_mem he'
  have hnone := h.apart e.id (by rw [hcounter]; rfl)
  rw [hid, hack] at hnone
  cases hnone

theorem nodup_bereft (h : m.Staged last) (gone : NodeId) : (m.bereft gone).Nodup := by
  have hcounter : (m.counterWaits.idsFor gone).Nodup :=
    h.counterWaits.distinct.nodup.sublist (List.filter_sublist.map _)
  unfold bereft
  split
  · have hack : (m.ackWaits.idsFor gone).Nodup :=
      h.ackWaits.distinct.nodup.sublist (List.filter_sublist.map _)
    refine List.nodup_append.mpr ⟨hcounter, hack, ?_⟩
    intro i hi j hj
    obtain ⟨e, he, rfl⟩ := List.mem_map.mp hi
    obtain ⟨e', he', rfl⟩ := List.mem_map.mp hj
    exact h.not_mem_ackWaits (List.mem_filter.mp he).1 (List.mem_filter.mp he').1
  · simpa using hcounter

theorem nodeLeft_cancels (h : m.Staged last) (hbalanced : m.Balanced last) (gone : NodeId) :
    m.Cancels gone (m.nodeLeft gone).1 (m.nodeLeft gone).2 := by
  have hcounted : (m.nodeLeft gone).1 = (m.bereft gone).length := by
    have hcounter := h.counterWaits.count_sweep .byAge (fun e => e.target == gone)
      fun _ => .error (.coordinatorLost gone)
    rw [← Waitlist.completeAllFor_eq_sweep] at hcounter
    have hack := h.ackWaits.count_sweep .byAge (fun e => e.target == gone) fun _ => .ok ()
    rw [← Waitlist.completeAllFor_eq_sweep] at hack
    unfold Manager.nodeLeft withCancelled bereft
    split <;> simp [hcounter, hack, Waitlist.idsFor]
  constructor
  · simp only [Manager.nodeLeft, withCancelled, Waitlist.completeAllFor_eq_sweep]
    exact h.counterWaits.swept ..
  · simp only [Manager.nodeLeft, withCancelled, Waitlist.completeAllFor_eq_sweep]
    split
    · exact h.ackWaits.swept ..
    · rfl
  · exact h.nodup_bereft gone
  · exact hcounted
  · -- the books bound the futures ever cancelled, so the metric does not wrap around
    have haccounts := hbalanced.accounts
    have hbound : m.metrics.futuresRegistered.toNat < UInt64.size := UInt64.toNat_lt_size _
    have hle := m.length_bereft_le gone
    have hn : (UInt64.ofNat (m.nodeLeft gone).1).toNat = (m.nodeLeft gone).1 :=
      UInt64.toNat_ofNat_of_lt' (by unfold Waitlist.load at haccounts; omega)
    have hadd : (m.nodeLeft gone).2.metrics.futuresCancelled =
        m.metrics.futuresCancelled + UInt64.ofNat (m.nodeLeft gone).1 := rfl
    rw [hadd, toNat_add_of_lt (by unfold Waitlist.load at haccounts; omega), hn]
  · rfl

theorem le_of_bereft (h : m.Staged last) {gone : NodeId} (hf : f ∈ m.bereft gone) :
    f.toNat ≤ last.toNat := by
  rcases mem_bereft.mp hf with hf | ⟨-, hf⟩
  · obtain ⟨e, he, rfl⟩ := List.mem_map.mp hf
    exact h.counterWaits.distinct.issued e (List.mem_filter.mp he).1
  · obtain ⟨e, he, rfl⟩ := List.mem_map.mp hf
    exact h.ackWaits.distinct.issued e (List.mem_filter.mp he).1

/-- Whoever was bereft by a departure has no entry afterwards, in neither table. -/
theorem not_mem_awaited (h : m.Staged last) {m' : Manager} {gone : NodeId} {count : Nat}
    (hcancels : m.Cancels gone count m') (hf : f ∈ m.bereft gone) : f ∉ m'.awaited := by
  intro hawaited
  rcases mem_bereft.mp hf with hf | ⟨hc, hf⟩
  · obtain ⟨e, he, rfl⟩ := List.mem_map.mp hf
    obtain ⟨he, htarget⟩ := List.mem_filter.mp he
    rcases mem_awaited.mp hawaited with ⟨e', he', hid⟩ | ⟨e', he', hid⟩
    · obtain ⟨he', hother⟩ := hcancels.mem_counterWaits he'
      rw [h.keyed.counterWaits.eq_of_id he' he hid] at hother
      exact hother (eq_of_beq htarget)
    · exact h.not_mem_ackWaits he (hcancels.mem_ackWaits he').1 hid.symm
  · obtain ⟨e, he, rfl⟩ := List.mem_map.mp hf
    obtain ⟨he, htarget⟩ := List.mem_filter.mp he
    rcases mem_awaited.mp hawaited with ⟨e', he', hid⟩ | ⟨e', he', hid⟩
    · exact h.not_mem_ackWaits (hcancels.mem_counterWaits he').1 he hid
    · obtain ⟨he', hother⟩ := hcancels.mem_ackWaits he'
      rw [h.keyed.ackWaits.eq_of_id he' he hid] at hother
      exact hother hc (eq_of_beq htarget)

end Staged

/-- Nobody waits for the response, so it is counted and that is all. -/
theorem receive_unawaited {view : Outlook} {sender : NodeId} {payload : Bytes} {message : Message}
    (hdecode : Wire.decode payload = .ok message) (hsettles : message.settled? = some f)
    (hf : f ∉ m.awaited) :
    (m.receive view sender payload).manager = m.bump .unmatchedResponses ∧
      (m.receive view sender payload).sent = none := by
  rw [mem_awaited, not_or, ← Waitlist.contains_iff, ← Waitlist.contains_iff] at hf
  have hidle : m.idle? view sender message = some .unmatched := by
    cases message with
    | counterResponse future counter =>
      cases hsettles
      exact if_neg hf.1
    | txAckResponse future =>
      cases hsettles
      exact if_neg hf.2
    | txCounterRequest | queryCounterRequest | txAckRequest | queryAckRequest => cases hsettles
  obtain ⟨hmanager, hsent⟩ := receive_of_decode m view sender payload hdecode
  have hacted := act_of_idle hidle
  rw [noting_singleton] at hacted
  rw [hmanager, hsent]
  exact hacted

end Manager

namespace Life
variable {f : FutureId}

/-- An id that has its time behind it is never waited for again. -/
theorem not_mem_awaited_run (turns : List Turn) {l : Life} (hissued : f.toNat ≤ l.ids.last.toNat)
    (hf : f ∉ l.manager.awaited)
    (hids : l.ids.last.toNat + turns.countP Turn.takesId < UInt64.size) :
    f ∉ (turns.foldl step l).manager.awaited := by
  suffices h : f.toNat ≤ (turns.foldl step l).ids.last.toNat ∧
      f ∉ (turns.foldl step l).manager.awaited from h.2
  apply run_induction (P := fun l => f.toNat ≤ l.ids.last.toNat ∧ f ∉ l.manager.awaited)
  · intro l t ⟨hissued, hf⟩ hroom
    refine ⟨?_, ?_⟩
    · rw [toNat_last_step hroom]
      omega
    · intro hawaited
      cases t with
      | ask view target what =>
        have hnext := IdSource.toNat_next (hroom rfl)
        rcases Manager.mem_awaited_ask hawaited with hmem | ⟨hid, -⟩
        · exact hf hmem
        · have hnew := (congrArg UInt64.toNat hid).trans hnext
          omega
      | call view c => exact hf (Manager.mem_awaited_call hawaited)
      | receive view sender payload => exact hf (Manager.mem_awaited_receive hawaited)
      | elsewhere => exact hf hawaited
  · exact ⟨hissued, hf⟩
  · exact hids

end Life

/-- A departure cancels exactly what waits on the node, in whatever order the tables are gone
through. A response to one of the futures it settled changes nothing but a metric, whenever it
comes. Departures of different nodes commute, and neither changes the count of the other. -/
theorem Manager.cancellation_exact (node : NodeId) (cancelAcks : Bool) (turns : List Turn)
    (hids : turns.countP Turn.takesId < UInt64.size) (gone : NodeId) :
    let m := (Life.ofTurns node cancelAcks turns).manager
    m.Cancels gone (m.nodeLeft gone).1 (m.nodeLeft gone).2 ∧
      (∀ order, m.cancel order (· == gone) = m.nodeLeft gone) ∧
      (∀ view later,
        (turns ++ .call view (.nodeLeft gone) :: later).countP Turn.takesId < UInt64.size →
        let m' := (Life.ofTurns node cancelAcks
          (turns ++ .call view (.nodeLeft gone) :: later)).manager
        ∀ view' sender payload message, Wire.decode payload = .ok message →
          (∃ f ∈ m.bereft gone, message.settled? = some f) →
          (m'.receive view' sender payload).manager = m'.bump .unmatchedResponses ∧
            (m'.receive view' sender payload).sent = none) ∧
      ∀ other,
        ((m.nodeLeft gone).2.nodeLeft other).2 = ((m.nodeLeft other).2.nodeLeft gone).2 ∧
          (other ≠ gone → ((m.nodeLeft gone).2.nodeLeft other).1 = (m.nodeLeft other).1) := by
  intro m
  have staged : m.Staged _ := Life.staged_ofTurns node cancelAcks turns hids
  have balanced : m.Balanced _ := Life.balanced_ofTurns node cancelAcks turns hids
  have cancels (other : NodeId) := staged.nodeLeft_cancels balanced other
  refine ⟨cancels gone, fun order => ?_, ?_, fun other => ⟨staged.keyed.nodeLeft_comm .., ?_⟩⟩
  · rw [nodeLeft_eq_cancel, staged.keyed.cancel_order]
  · intro view later hroom m' view' sender payload message hdecode ⟨f, hf, hsettles⟩
    refine receive_unawaited hdecode hsettles ?_
    rw [List.countP_append, List.countP_cons] at hroom
    have hm' : m' = (later.foldl Life.step
        ((Life.ofTurns node cancelAcks turns).step (.call view (.nodeLeft gone)))).manager := by
      simp only [m', Life.ofTurns, List.foldl_append, List.foldl_cons]
    rw [hm']
    refine Life.not_mem_awaited_run later (staged.le_of_bereft hf)
      (staged.not_mem_awaited (cancels gone) hf) ?_
    rw [Life.step, Life.ofTurns, Life.toNat_last_run turns ((Nat.zero_add _).symm ▸ hids)]
    exact lt_of_le_of_lt (by simp [noFuture]) hroom
  · intro hne
    have hafter :=
      (staged.nodeLeft gone).nodeLeft_cancels (balanced.nodeLeft gone) other
    rw [hafter.counted, (cancels other).counted, (cancels gone).bereft_other hne]

/-- The counter from node 2 comes after its departure, and after one more request. -/
theorem Manager.cancellation_exact_threeTargets :
    let m := (Life.ofTurns (.ofNat 1) true threeTargets).manager
    let here : Outlook := ⟨fun _ => true, fun _ => none⟩
    let later : List Turn := [.call here (.nodeLeft (.ofNat 2)), .ask here (.ofNat 3) .queryCounter]
    let m' := (Life.ofTurns (.ofNat 1) true (threeTargets ++ later)).manager
    let late := Wire.encode (.counterResponse 1 7)
    threeTargets.countP Turn.takesId < UInt64.size ∧ m.bereft (.ofNat 2) = [1, 3] ∧
      (m.nodeLeft (.ofNat 2)).1 = 2 ∧
      (m.nodeLeft (.ofNat 2)).2.metrics.futuresCancelled.toNat = 2 ∧
      (m'.receive here (.ofNat 2) late).manager = m'.bump .unmatchedResponses ∧
      ((m.nodeLeft (.ofNat 2)).2.nodeLeft (.ofNat 3)).1 = 1 := by
  intro m here later m' late
  have hids : threeTargets.countP Turn.takesId < UInt64.size := by decide
  have hbereft : m.bereft (.ofNat 2) = [1, 3] := by decide
  obtain ⟨hcancels, -, hlate, hother⟩ := cancellation_exact (.ofNat 1) true threeTargets hids
    (.ofNat 2)
  have hcount : (m.nodeLeft (.ofNat 2)).1 = 2 := hcancels.counted.trans (by rw [hbereft]; rfl)
  refine ⟨hids, hbereft, hcount, ?_, ?_, ?_⟩
  · have hnone : m.metrics.futuresCancelled.toNat = 0 := by decide
    rw [hcancels.cancelled, hcount, hnone]
  · refine (hlate here [.ask here (.ofNat 3) .queryCounter] (by decide) here (.ofNat 2) late _
      (Wire.decode_encode _) ⟨1, ?_, rfl⟩).1
    rw [hbereft]
    exact .head _
  · rw [(hother (.ofNat 3)).2 (by decide)]
    decide

end CounterCoordinator
