import CounterCoordinator.Proofs.Manager.Resync
import CounterCoordinator.Proofs.Waitlist.Swept

/-!
# The two tables of a manager

Whatever a manager lives through, every future of either table is at some stage, and no id names
futures in both: ids are fresh, and only `ask` registers one, in the table of the request's kind.
-/
namespace CounterCoordinator

namespace Manager

/-- Each future of a manager is at some stage in one of the two tables, and unknown to the other;
`last` is the newest id of the process. -/
structure Staged (m : Manager) (last : FutureId) : Prop where
  counterWaits : m.counterWaits.Staged last
  ackWaits : m.ackWaits.Staged last
  apart : ∀ f, (m.counterWaits.future? f).isSome → m.ackWaits.future? f = none

namespace Staged
variable {m m' : Manager} {last : FutureId}

theorem new (node : NodeId) (cancelAcks : Bool) (last : FutureId) :
    Staged { self := node, cancelAcks } last :=
  ⟨.new last, .new last, fun _ _ => rfl⟩

theorem mono {last' : FutureId} (h : m.Staged last) (hle : last.toNat ≤ last'.toNat) :
    m.Staged last' :=
  ⟨h.counterWaits.mono hle, h.ackWaits.mono hle, h.apart⟩

theorem keyed (h : m.Staged last) : m.Keyed :=
  ⟨h.counterWaits.distinct.keyed, h.ackWaits.distinct.keyed⟩

theorem of_known (h : m.Staged last) (hcounter : m'.counterWaits.Staged last)
    (hack : m'.ackWaits.Staged last)
    (hcounters : ∀ f, (m'.counterWaits.future? f).isSome → (m.counterWaits.future? f).isSome)
    (hacks : ∀ f, (m'.ackWaits.future? f).isSome → (m.ackWaits.future? f).isSome) :
    m'.Staged last := by
  refine ⟨hcounter, hack, ?_⟩
  intro f hf
  by_contra hknown
  have hother := h.apart f (hcounters f hf)
  have hsome := hacks f (Option.isSome_iff_ne_none.mpr hknown)
  rw [hother] at hsome
  cases hsome

theorem ask (h : m.Staged last) {id : FutureId} (hid : id.toNat = last.toNat + 1) (view : Outlook)
    (target : NodeId) (what : Request) : (m.ask view id target what).manager.Staged id := by
  have hle : last.toNat ≤ id.toNat := by omega
  have hfresh : last.toNat < id.toNat := by omega
  cases what with
  | txCounter | queryCounter =>
    have registered := h.counterWaits.register hid target
    have hother := h.ackWaits.unissued hfresh
    constructor
    · rw [ask_counterWaits]
      cases view.refusal? target with
      | none => exact registered
      | some cause => exact registered.perform (.complete id (.error cause))
    · rw [ask_ackWaits]
      exact h.ackWaits.mono hle
    · intro f hf
      rw [ask_ackWaits]
      rw [ask_counterWaits] at hf
      by_cases hf' : f = id
      · exact hf' ▸ hother
      · refine h.apart f ?_
        cases hrefused : view.refusal? target <;>
          simpa [hrefused, Waitlist.future?_complete, hf'] using hf
  | commit =>
    have registered := h.ackWaits.register hid target
    have hother := h.counterWaits.unissued hfresh
    constructor
    · rw [ask_counterWaits]
      exact h.counterWaits.mono hle
    · rw [ask_ackWaits]
      cases view.refusal? target with
      | none => exact registered
      | some cause => exact registered.perform (.complete id _)
    · intro f hf
      rw [ask_counterWaits] at hf
      have hf' : f ≠ id := by
        rintro rfl
        rw [hother] at hf
        cases hf
      rw [ask_ackWaits]
      cases view.refusal? target <;> simp [Waitlist.future?_complete, hf', h.apart f hf]

theorem cancel (h : m.Staged last) (order : Orders) (gone : NodeId → Bool) :
    (m.cancel order gone).2.Staged last := by
  refine h.of_known (h.counterWaits.sweep ..) ?_ (Waitlist.settles_completeEach ..).known ?_
  · simp only [Manager.cancel, withCancelled, cancelCommits]
    split
    · exact h.ackWaits.sweep ..
    · exact h.ackWaits
  · simp only [Manager.cancel, withCancelled, cancelCommits]
    split
    · exact (Waitlist.settles_completeEach ..).known
    · exact fun _ hf => hf

theorem nodeLeft (h : m.Staged last) (node : NodeId) : (m.nodeLeft node).2.Staged last :=
  nodeLeft_eq_cancel m node ▸ h.cancel {} _

theorem resync (h : m.Staged last) (alive : NodeId → Bool) : (m.resync alive).2.Staged last :=
  resync_eq_cancel m alive ▸ h.cancel {} _

theorem call (h : m.Staged last) (view : Outlook) (c : Call) :
    (m.call view c).manager.Staged last := by
  cases c with
  | rollback | queryDone =>
    simp only [Manager.call, ackRollback_manager, ackQuery_manager]
    exact ⟨h.counterWaits, h.ackWaits, h.apart⟩
  | nodeLeft node => exact h.nodeLeft node
  | departed event => exact h.nodeLeft event.node
  | resync | missed => exact h.resync view.alive
  | dropCounter future =>
    exact h.of_known (h.counterWaits.perform (.drop future)) h.ackWaits
      (Waitlist.settles_drop ..).known fun _ hf => hf
  | dropAck future =>
    exact h.of_known h.counterWaits (h.ackWaits.perform (.drop future)) (fun _ hf => hf)
      (Waitlist.settles_drop ..).known

theorem act (h : m.Staged last) (view : Outlook) (sender : NodeId) (message : Message) :
    (m.act view sender message).manager.Staged last := by
  have hcounter := m.act_counterWaits view sender message
  have hack := m.act_ackWaits view sender message
  apply h.of_known <;> simp only [hcounter, hack]
  · split
    · exact h.counterWaits.perform (.complete _ _)
    · exact h.counterWaits
  · split
    · exact h.ackWaits.perform (.complete _ _)
    · exact h.ackWaits
  · split
    · exact (Waitlist.settles_complete ..).known
    · exact fun _ hf => hf
  · split
    · exact (Waitlist.settles_complete ..).known
    · exact fun _ hf => hf

theorem receive (h : m.Staged last) (view : Outlook) (sender : NodeId) (payload : Bytes) :
    (m.receive view sender payload).manager.Staged last := by
  cases hdecode : Wire.decode payload with
  | ok message =>
    rw [(receive_of_decode m view sender payload hdecode).1]
    exact h.act view sender message
  | error fault =>
    rw [(receive_of_fault m view sender payload hdecode).1]
    exact ⟨h.counterWaits, h.ackWaits, h.apart⟩

end Staged
end Manager

namespace Life

theorem staged_step {l : Life} (h : l.manager.Staged l.ids.last) (t : Turn)
    (hids : t.takesId → l.ids.last.toNat + 1 < UInt64.size) :
    (l.step t).manager.Staged (l.step t).ids.last := by
  cases t with
  | ask view target what => exact h.ask (IdSource.toNat_next (hids rfl)) view target what
  | call view c => exact h.call view c
  | receive view sender payload => exact h.receive view sender payload
  | elsewhere =>
    have hnext := IdSource.toNat_next (hids rfl)
    exact h.mono (Nat.le_trans (Nat.le_succ _) (Nat.le_of_eq hnext.symm))

theorem staged_ofTurns (node : NodeId) (cancelAcks : Bool) (turns : List Turn)
    (hids : turns.countP Turn.takesId < UInt64.size) :
    (ofTurns node cancelAcks turns).manager.Staged (ofTurns node cancelAcks turns).ids.last := by
  apply run_induction (P := fun l => l.manager.Staged l.ids.last)
  · exact fun l t h room => staged_step h t room
  · exact .new node cancelAcks _
  · exact (Nat.zero_add _).symm ▸ hids

end Life
end CounterCoordinator
