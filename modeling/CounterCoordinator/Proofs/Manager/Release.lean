import CounterCoordinator.Proofs.Manager.Fate
import CounterCoordinator.Proofs.Manager.Resync

/-!
# How waits end

An entry of a manager's waitlists stays until a response to it arrives, the manager gives up on its
coordinator, or the caller drops the future. What a manager registers and completes is counted turn
by turn.
-/
namespace CounterCoordinator

/-- The call makes a manager let go of an entry: it learns that the coordinator is gone, or the
caller drops the future. -/
def Call.LetsGo (c : Call) (m : Manager) (view : Outlook) (what : Request) (e : Waitlist.Entry) :
    Prop :=
  if what.isCommit then c = .dropAck e.id ∨ (m.cancelAcks ∧ c.GivesUpOn view e.target)
  else c = .dropCounter e.id ∨ c.GivesUpOn view e.target

/-- The response to a request: the acknowledgement of a commit, or a counter. -/
def Request.response (what : Request) (f : FutureId) (c : Version) : Message :=
  if what.isCommit then .txAckResponse f else .counterResponse f c

theorem Message.future?_of_settled? {message : Message} {f : FutureId}
    (h : message.settled? = some f) : message.future? = some f := by
  cases message <;> first | exact h | cases h

namespace Manager
variable {m : Manager} {view : Outlook} {what other : Request} {e : Waitlist.Entry} {f : FutureId}

/-- The manager waits for the answer to a request, in the waitlist of its kind. -/
def Waits (m : Manager) (what : Request) (e : Waitlist.Entry) : Prop :=
  e ∈ if what.isCommit then m.ackWaits.entries else m.counterWaits.entries

theorem waits_asked (id : FutureId) {target : NodeId} (hsent : view.refusal? target = none) :
    (m.ask view id target what).manager.Waits what ⟨id, target⟩ := by
  unfold Waits
  rw [ask_counterWaits, ask_ackWaits, hsent]
  cases what <;> exact Waitlist.mem_entries_register.mpr (.inr rfl)

theorem Waits.ask (h : m.Waits other e) {id : FutureId} (hid : e.id ≠ id) (target : NodeId) :
    (m.ask view id target what).manager.Waits other e := by
  unfold Waits at h ⊢
  rw [ask_counterWaits, ask_ackWaits]
  cases hcommit : other.isCommit <;> rw [hcommit] at h <;>
    cases what <;> cases view.refusal? target <;>
      simp_all [Waitlist.mem_entries_register, Waitlist.entries_complete, Waitlist.mem_without]

theorem Waits.cancel (h : m.Waits what e) (hk : m.Keyed) (order : Orders) (gone : NodeId → Bool) :
    (m.cancel order gone).2.Waits what e ∨
      (gone e.target ∧ (what.isCommit → m.cancelAcks)) := by
  unfold Waits at h ⊢
  by_cases hgone : gone e.target
  · by_cases hkept : what.isCommit ∧ ¬ m.cancelAcks
    · obtain ⟨hcommit, hcancel⟩ := hkept
      rw [if_pos hcommit] at h ⊢
      left
      simpa [Manager.cancel, withCancelled, cancelCommits, hcancel] using h
    · exact .inr ⟨hgone, fun hcommit => by_contra fun hcancel => hkept ⟨hcommit, hcancel⟩⟩
  · left
    split at h
    · rename_i hcommit
      rw [if_pos hcommit]
      simp only [Manager.cancel, withCancelled, cancelCommits]
      split
      · rw [hk.ackWaits.entries_sweep]
        exact List.mem_filter.mpr ⟨h, by simpa using hgone⟩
      · exact h
    · rename_i hcommit
      rw [if_neg hcommit]
      simp only [Manager.cancel, withCancelled, cancelCounters]
      rw [hk.counterWaits.entries_sweep]
      exact List.mem_filter.mpr ⟨h, by simpa using hgone⟩

/-- A call ends a wait only by letting go of it. -/
theorem Waits.call (h : m.Waits what e) (hk : m.Keyed) (view : Outlook) (c : Call) :
    (m.call view c).manager.Waits what e ∨ c.LetsGo m view what e := by
  have cancelled : ∀ gone : NodeId → Bool, (gone e.target → c.GivesUpOn view e.target) →
      (m.call view c).manager = (m.cancel {} gone).2 →
        (m.call view c).manager.Waits what e ∨ c.LetsGo m view what e := by
    intro gone hgives hcall
    rw [hcall]
    refine (h.cancel hk {} gone).imp_right ?_
    rintro ⟨hgone, hcancel⟩
    unfold Call.LetsGo
    split
    · rename_i hcommit
      exact .inr ⟨hcancel hcommit, hgives hgone⟩
    · exact .inr (hgives hgone)
  cases c with
  | rollback | queryDone =>
    left
    simpa [Manager.call, Waits] using h
  | nodeLeft node =>
    refine cancelled (· == node) (fun hgone => (eq_of_beq hgone).symm) ?_
    exact congrArg Prod.snd (nodeLeft_eq_cancel m node)
  | departed event =>
    refine cancelled (· == event.node) (fun hgone => (eq_of_beq hgone).symm) ?_
    exact congrArg Prod.snd (nodeLeft_eq_cancel m event.node)
  | resync | missed => exact cancelled (fun node => !view.alive node) (by simp [Call.GivesUpOn]) rfl
  | dropCounter future =>
    unfold Waits at h ⊢
    unfold Call.LetsGo
    split at h
    · rename_i hcommit
      rw [if_pos hcommit]
      exact .inl h
    · rename_i hcommit
      rw [if_neg hcommit, if_neg hcommit]
      simp only [Manager.call, dropCounterFuture, Waitlist.entries_drop, Waitlist.mem_without]
      by_cases hid : e.id = future
      · exact .inr (.inl (by rw [hid]))
      · exact .inl ⟨h, hid⟩
  | dropAck future =>
    unfold Waits at h ⊢
    unfold Call.LetsGo
    split at h
    · rename_i hcommit
      rw [if_pos hcommit, if_pos hcommit]
      simp only [Manager.call, dropAckFuture, Waitlist.entries_drop, Waitlist.mem_without]
      by_cases hid : e.id = future
      · exact .inr (.inl (by rw [hid]))
      · exact .inl ⟨h, hid⟩
    · rename_i hcommit
      rw [if_neg hcommit]
      exact .inl h

theorem Waits.act (h : m.Waits what e) {sender : NodeId} {message : Message}
    (hsettled : message.settled? ≠ some e.id) :
    (m.act view sender message).manager.Waits what e := by
  unfold Waits at h ⊢
  rw [act_counterWaits, act_ackWaits]
  cases message with
  | counterResponse future counter =>
    have hid : e.id ≠ future := fun hid => hsettled (congrArg some hid.symm)
    simp only [Waitlist.entries_complete]
    split at h
    · rename_i hcommit
      rwa [if_pos hcommit]
    · rename_i hcommit
      rw [if_neg hcommit]
      exact Waitlist.mem_without.mpr ⟨h, hid⟩
  | txAckResponse future =>
    have hid : e.id ≠ future := fun hid => hsettled (congrArg some hid.symm)
    simp only [Waitlist.entries_complete]
    split at h
    · rename_i hcommit
      rw [if_pos hcommit]
      exact Waitlist.mem_without.mpr ⟨h, hid⟩
    · rename_i hcommit
      rwa [if_neg hcommit]
  | txCounterRequest | queryCounterRequest | txAckRequest | queryAckRequest => exact h

theorem unexpected_of_settled?_eq_none {message : Message} (h : message.settled? = none) :
    m.unexpected message = false := by
  cases message <;> first | rfl | cases h

theorem Waits.expected (h : m.Waits what e) (c : Version) :
    m.unexpected (what.response e.id c) = false := by
  unfold Waits at h
  cases what <;>
    simpa [Request.response, Request.isCommit, unexpected] using
      Waitlist.contains_iff.mpr ⟨e, h, rfl⟩

theorem not_waits_response (sender : NodeId) (c : Version) :
    ¬ (m.act view sender (what.response e.id c)).manager.Waits what e := by
  unfold Waits
  rw [act_counterWaits, act_ackWaits]
  cases what <;>
    simp [Request.response, Request.isCommit, Waitlist.entries_complete, Waitlist.mem_without]

section Awaited

theorem mem_awaited :
    f ∈ m.awaited ↔
      (∃ e ∈ m.counterWaits.entries, e.id = f) ∨ ∃ e ∈ m.ackWaits.entries, e.id = f := by
  simp [awaited]

theorem mem_awaited_of_subset {m' : Manager} (h : f ∈ m'.awaited)
    (hcounter : ∀ e ∈ m'.counterWaits.entries, e ∈ m.counterWaits.entries)
    (hack : ∀ e ∈ m'.ackWaits.entries, e ∈ m.ackWaits.entries) : f ∈ m.awaited := by
  rw [mem_awaited] at h ⊢
  exact h.imp (fun ⟨e, he, hid⟩ => ⟨e, hcounter e he, hid⟩) fun ⟨e, he, hid⟩ => ⟨e, hack e he, hid⟩

theorem mem_awaited_ask {id : FutureId} {target : NodeId}
    (h : f ∈ (m.ask view id target what).manager.awaited) :
    f ∈ m.awaited ∨ (f = id ∧ view.refusal? target = none) := by
  rw [mem_awaited] at h ⊢
  rcases h with ⟨e, he, rfl⟩ | ⟨e, he, rfl⟩
  · rcases mem_counterWaits_ask he with he | ⟨rfl, -, hsent⟩
    · exact .inl (.inl ⟨e, he, rfl⟩)
    · exact .inr ⟨rfl, hsent⟩
  · rcases mem_ackWaits_ask he with he | ⟨rfl, -, hsent⟩
    · exact .inl (.inr ⟨e, he, rfl⟩)
    · exact .inr ⟨rfl, hsent⟩

theorem mem_awaited_call {c : Call} (h : f ∈ (m.call view c).manager.awaited) : f ∈ m.awaited :=
  mem_awaited_of_subset h (fun _ => mem_counterWaits_call) fun _ => mem_ackWaits_call

theorem mem_awaited_act {sender : NodeId} {message : Message}
    (h : f ∈ (m.act view sender message).manager.awaited) : f ∈ m.awaited :=
  mem_awaited_of_subset h (fun _ => mem_counterWaits_act) fun _ => mem_ackWaits_act

theorem mem_awaited_receive {sender : NodeId} {payload : Bytes}
    (h : f ∈ (m.receive view sender payload).manager.awaited) : f ∈ m.awaited := by
  cases hdecode : Wire.decode payload with
  | ok message =>
    rw [(receive_of_decode m view sender payload hdecode).1] at h
    exact mem_awaited_act h
  | error fault =>
    rw [(receive_of_fault m view sender payload hdecode).1] at h
    exact h

end Awaited

end Manager
end CounterCoordinator
