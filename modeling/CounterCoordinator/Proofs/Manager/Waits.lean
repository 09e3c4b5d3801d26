import CounterCoordinator.Proofs.Manager.Turn
import CounterCoordinator.Proofs.Waitlist.Entries

/-!
# What a manager waits for

A manager starts to wait only when it asks and the transport takes the request; whatever else
happens to it can only end waits. A departure ends all waits for the node that departed, and a
resync all waits for nodes that are gone. Commit acknowledgements are left out of this where the
manager is told to keep them.
-/
namespace CounterCoordinator

/-- Is the answer awaited among the commit acknowledgements? -/
def Request.isCommit : Request → Bool
  | commit _ => true
  | txCounter _ | queryCounter => false

/-- The call tells a manager that the node is gone. -/
def Call.GivesUpOn (c : Call) (view : Outlook) (node : NodeId) : Prop :=
  match c with
  | nodeLeft gone => gone = node
  | departed event => event.node = node
  | resync | missed _ => view.alive node = false
  | _ => False

namespace Manager
variable {m : Manager} {view : Outlook} {e : Waitlist.Entry}

section Ask
variable {id : FutureId} {target : NodeId} {what : Request}

theorem mem_counterWaits_ask
    (h : e ∈ (m.ask view id target what).manager.counterWaits.entries) :
    e ∈ m.counterWaits.entries ∨
      (e = ⟨id, target⟩ ∧ what.isCommit = false ∧ view.refusal? target = none) := by
  rw [ask_counterWaits] at h
  cases what with
  | commit tx => exact .inl h
  | txCounter | queryCounter =>
    cases hsent : view.refusal? target with
    | none =>
      rw [hsent] at h
      exact (Waitlist.mem_entries_register.mp h).imp_right fun he => ⟨he, rfl, rfl⟩
    | some cause =>
      rw [hsent] at h
      exact .inl (Waitlist.mem_entries_of_refused h)

theorem mem_ackWaits_ask (h : e ∈ (m.ask view id target what).manager.ackWaits.entries) :
    e ∈ m.ackWaits.entries ∨
      (e = ⟨id, target⟩ ∧ what.isCommit = true ∧ view.refusal? target = none) := by
  rw [ask_ackWaits] at h
  cases what with
  | txCounter | queryCounter => exact .inl h
  | commit tx =>
    cases hsent : view.refusal? target with
    | none =>
      rw [hsent] at h
      exact (Waitlist.mem_entries_register.mp h).imp_right fun he => ⟨he, rfl, rfl⟩
    | some cause =>
      rw [hsent] at h
      exact .inl (Waitlist.mem_entries_of_refused h)

/-- A request resolves no acknowledgement but its own, and that one if the coordinator is gone. -/
theorem acknowledged_of_ask {f : FutureId}
    (h : (m.ask view id target what).manager.ackWaits.future? f = some (.resolved (.ok ()))) :
    m.ackWaits.future? f = some (.resolved (.ok ())) ∨
      (f = id ∧ ∃ cause, view.refusal? target = some cause ∧ cause.isTopology) := by
  have registered : (m.ackWaits.register id target).future? f = some (.resolved (.ok ())) →
      m.ackWaits.future? f = some (.resolved (.ok ())) := by
    intro hf
    rw [Waitlist.future?_register] at hf
    split at hf
    · cases hf
    · exact hf
  rw [ask_ackWaits] at h
  split at h
  · exact .inl (registered h)
  · rename_i cause hrefused
    rcases (Waitlist.settles_complete ..).resolved f _ h with hf | ⟨hid, hcause⟩
    · exact .inl (registered hf)
    · refine .inr ⟨hid, cause, hrefused, ?_⟩
      by_contra htopology
      rw [if_neg htopology] at hcause
      cases hcause
  · exact .inl h

end Ask

theorem mem_counterWaits_call {c : Call}
    (h : e ∈ (m.call view c).manager.counterWaits.entries) : e ∈ m.counterWaits.entries := by
  cases c with
  | rollback | queryDone => simpa [call] using h
  | nodeLeft | departed => exact (Waitlist.mem_entries_completeAllFor h).1
  | resync | missed => exact (Waitlist.mem_entries_completeAllGone h).1
  | dropCounter future =>
    simp only [call, dropCounterFuture, Waitlist.entries_drop, Waitlist.mem_without] at h
    exact h.1
  | dropAck => exact h

theorem mem_ackWaits_call {c : Call}
    (h : e ∈ (m.call view c).manager.ackWaits.entries) : e ∈ m.ackWaits.entries := by
  cases c with
  | rollback | queryDone => simpa [call] using h
  | nodeLeft | departed =>
    simp only [call, departed, nodeLeft, withCancelled] at h
    split at h
    · exact (Waitlist.mem_entries_completeAllFor h).1
    · exact h
  | resync | missed =>
    simp only [call, eventsMissed, resync, withCancelled] at h
    split at h
    · exact (Waitlist.mem_entries_completeAllGone h).1
    · exact h
  | dropAck future =>
    simp only [call, dropAckFuture, Waitlist.entries_drop, Waitlist.mem_without] at h
    exact h.1
  | dropCounter => exact h

/-- A call resolves a commit acknowledgement only if the manager gives up on its coordinator. -/
theorem call_settles_acks (m : Manager) (view : Outlook) (c : Call) :
    Waitlist.Settles
      (fun f o => o = .ok () ∧ m.cancelAcks ∧
        ∃ e ∈ m.ackWaits.entries, e.id = f ∧ c.GivesUpOn view e.target)
      m.ackWaits (m.call view c).manager.ackWaits := by
  have left : ∀ node, Waitlist.Settles
      (fun f o => o = .ok () ∧ m.cancelAcks ∧ ∃ e ∈ m.ackWaits.entries, e.id = f ∧ node = e.target)
      m.ackWaits (m.nodeLeft node).2.ackWaits := by
    intro node
    simp only [nodeLeft, withCancelled]
    split
    · rename_i hcancel
      refine (Waitlist.settles_completeAllFor _ node _).mono ?_
      rintro f o ⟨ho, e, he, hid, htarget⟩
      exact ⟨ho, hcancel, e, he, hid, htarget.symm⟩
    · exact .refl _
  cases c with
  | rollback | queryDone => simpa [call] using .refl _
  | dropCounter => exact .refl _
  | nodeLeft node => exact left node
  | departed event => exact left event.node
  | resync | missed =>
    simp only [call, eventsMissed, resync, withCancelled]
    split
    · rename_i hcancel
      refine (Waitlist.settles_completeAllGone _ _ _).mono ?_
      rintro f o ⟨e, he, hid, hgone, ho⟩
      exact ⟨ho, hcancel, e, he, hid, hgone⟩
    · exact .refl _
  | dropAck future => exact (Waitlist.settles_drop _ future).mono fun _ _ h => h.elim

section Receive
variable {sender : NodeId} {message : Message} {payload : Bytes}

theorem mem_counterWaits_act
    (h : e ∈ (m.act view sender message).manager.counterWaits.entries) :
    e ∈ m.counterWaits.entries := by
  rw [act_counterWaits] at h
  split at h
  · rw [Waitlist.entries_complete, Waitlist.mem_without] at h
    exact h.1
  · exact h

theorem mem_ackWaits_act (h : e ∈ (m.act view sender message).manager.ackWaits.entries) :
    e ∈ m.ackWaits.entries := by
  rw [act_ackWaits] at h
  split at h
  · rw [Waitlist.entries_complete, Waitlist.mem_without] at h
    exact h.1
  · exact h

end Receive

/-- The manager waits for an answer of the node, and gives up waiting once it departs. -/
def WaitsOn (m : Manager) (node : NodeId) : Prop :=
  (∃ e ∈ m.counterWaits.entries, e.target = node) ∨
    (m.cancelAcks ∧ ∃ e ∈ m.ackWaits.entries, e.target = node)

theorem not_waitsOn_iff {node : NodeId} :
    ¬ m.WaitsOn node ↔
      m.counterWaits.countFor node = 0 ∧ (m.cancelAcks → m.ackWaits.countFor node = 0) := by
  simp [WaitsOn, Waitlist.countFor_eq_zero]

namespace WaitsOn
variable {node : NodeId}

theorem of_subset {m' : Manager} (h : m'.WaitsOn node)
    (hcounter : ∀ e ∈ m'.counterWaits.entries, e ∈ m.counterWaits.entries)
    (hack : ∀ e ∈ m'.ackWaits.entries, e ∈ m.ackWaits.entries)
    (hcancel : m'.cancelAcks = m.cancelAcks) : m.WaitsOn node := by
  rcases h with ⟨e, he, htarget⟩ | ⟨hc, e, he, htarget⟩
  · exact .inl ⟨e, hcounter e he, htarget⟩
  · exact .inr ⟨hcancel ▸ hc, e, hack e he, htarget⟩

theorem of_ask {id : FutureId} {target : NodeId} {what : Request}
    (h : (m.ask view id target what).manager.WaitsOn node) :
    m.WaitsOn node ∨ (node = target ∧ view.refusal? target = none) := by
  rcases h with ⟨e, he, rfl⟩ | ⟨hc, e, he, rfl⟩
  · rcases mem_counterWaits_ask he with he | ⟨rfl, -, hsent⟩
    · exact .inl (.inl ⟨e, he, rfl⟩)
    · exact .inr ⟨rfl, hsent⟩
  · rcases mem_ackWaits_ask he with he | ⟨rfl, -, hsent⟩
    · exact .inl (.inr ⟨(ask_cancelAcks ..).symm.trans hc, e, he, rfl⟩)
    · exact .inr ⟨rfl, hsent⟩

theorem of_call {c : Call} (h : (m.call view c).manager.WaitsOn node) : m.WaitsOn node :=
  h.of_subset (fun _ => mem_counterWaits_call) (fun _ => mem_ackWaits_call) (call_cancelAcks ..)

theorem of_receive {sender : NodeId} {payload : Bytes}
    (h : (m.receive view sender payload).manager.WaitsOn node) : m.WaitsOn node := by
  cases hdecode : Wire.decode payload with
  | error fault =>
    rw [(receive_of_fault m view sender payload hdecode).1] at h
    exact h
  | ok message =>
    rw [(receive_of_decode m view sender payload hdecode).1] at h
    exact h.of_subset (fun _ => mem_counterWaits_act) (fun _ => mem_ackWaits_act)
      (act_cancelAcks ..)

theorem of_dispatch {e : Envelope} (h : (m.dispatch view e).manager.WaitsOn node) :
    m.WaitsOn node := by
  unfold dispatch at h
  split at h
  · exact h.of_receive
  · exact h

/-- After a departure nothing waits for the node. -/
theorem ne_of_departed {event : MembershipEvent} (h : (m.departed event).manager.WaitsOn node) :
    node ≠ event.node := by
  rcases h with ⟨e, he, rfl⟩ | ⟨hc, e, he, rfl⟩
  · exact (Waitlist.mem_entries_completeAllFor he).2
  · replace hc : m.cancelAcks = true := hc
    simp only [departed, nodeLeft, withCancelled, if_pos hc] at he
    exact (Waitlist.mem_entries_completeAllFor he).2

/-- After a resync only live nodes are waited for. -/
theorem alive_of_missed {alive : NodeId → Bool} {count : Nat}
    (h : (m.eventsMissed alive count).manager.WaitsOn node) : alive node := by
  rcases h with ⟨e, he, rfl⟩ | ⟨hc, e, he, rfl⟩
  · exact (Waitlist.mem_entries_completeAllGone he).2
  · replace hc : m.cancelAcks = true := hc
    simp only [eventsMissed, resync, withCancelled, if_pos hc] at he
    exact (Waitlist.mem_entries_completeAllGone he).2

end WaitsOn
end Manager
end CounterCoordinator
