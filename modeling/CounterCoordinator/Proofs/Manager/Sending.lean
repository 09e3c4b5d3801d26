import CounterCoordinator.Proofs.Manager.Tables
import CounterCoordinator.Proofs.Manager.Waits

/-!
# What a request leaves behind

A request enters its future before it is sent. If the transport takes the message, then the entry
and the waiting future are all that is new; if it refuses, then the request is taken back at once
and only its future remains, settled. Either way nothing else changes, in whatever state the manager
is, as long as the id is fresh. Announcements enter no future, and leave the tables alone.
-/
namespace CounterCoordinator

namespace Waitlist
variable {α : Type} {w w' : Waitlist α} {id : FutureId}

/-- The id names an entry, an entry that was taken out, or a future. -/
def Knows (w : Waitlist α) (id : FutureId) : Prop :=
  w.contains id ∨ w.holds id ∨ (w.future? id).isSome

/-- From `w` to `w'` a future was issued under `id`, along with some entries, and nothing else was
done. -/
structure Issues (w w' : Waitlist α) (id : FutureId) (added : List Entry) (future : Future α) :
    Prop where
  entries : w'.entries = w.entries ++ added
  held : w'.held = w.held
  abandoned : w'.abandoned = w.abandoned
  future : w'.future? id = some future
  others : ∀ f ≠ id, w'.future? f = w.future? f

theorem issues_register (w : Waitlist α) (id : FutureId) (target : NodeId) :
    w.Issues (w.register id target) id [⟨id, target⟩] .waiting := by
  refine ⟨rfl, rfl, rfl, ?_, ?_⟩
  · rw [future?_register, if_pos rfl]
  · intro f hf
    rw [future?_register, if_neg hf]

theorem contains_register (w : Waitlist α) (id : FutureId) (target : NodeId) :
    (w.register id target).contains id :=
  contains_iff.mpr ⟨⟨id, target⟩, mem_entries_register.mpr (.inr rfl), rfl⟩

theorem issues_refused (hfresh : ¬ w.Knows id) (target : NodeId) (outcome : Outcome α) :
    w.Issues ((w.register id target).complete id outcome).2 id [] (.resolved outcome) := by
  simp only [Knows, not_or] at hfresh
  obtain ⟨hmissing, hheld, -⟩ := hfresh
  have hregistered := issues_register w id target
  have hc := w.contains_register id target
  constructor
  · have hown : without id [(⟨id, target⟩ : Entry)] = [] := by simp [without]
    rw [entries_complete, hregistered.entries, without, List.filter_append, ← without, ← without,
      without_eq_self hmissing, hown]
  · exact held_complete (w := w.register id target) (Bool.eq_false_iff.mpr hheld) outcome
  · rw [complete_eq, if_pos hc]
    rfl
  · rw [future?_complete, if_pos ⟨rfl, hc⟩, hregistered.future]
    rfl
  · intro f hf
    rw [future?_complete, if_neg fun h => hf h.1]
    exact hregistered.others f hf

theorem Staged.le_of_knows {last : FutureId} (h : w.Staged last) (hid : w.Knows id) :
    id.toNat ≤ last.toNat := by
  obtain ⟨s, hs⟩ := h.shows id
  refine (h.issued id fun hnone => ?_).2
  have hunissued := hs.eq_unissued hnone
  subst hunissued
  rcases hid with hlisted | hheld | hknown
  · rw [hs.contains] at hlisted
    cases hlisted
  · rw [hs.held] at hheld
    cases hheld
  · rw [hs.future] at hknown
    cases hknown

end Waitlist

namespace Manager

/-- The id was registered in one of the tables. -/
def Knows (m : Manager) (id : FutureId) : Prop := m.counterWaits.Knows id ∨ m.ackWaits.Knows id

structure Sends (m : Manager) (id : FutureId) (target : NodeId) (what : Request) (r : Reaction) :
    Prop where
  sent : r.sent = some ⟨target, Wire.encode (what.message id)⟩
  counterWaits : if what.isCommit then r.manager.counterWaits = m.counterWaits
    else m.counterWaits.Issues r.manager.counterWaits id [⟨id, target⟩] .waiting
  ackWaits : if what.isCommit then m.ackWaits.Issues r.manager.ackWaits id [⟨id, target⟩] .waiting
    else r.manager.ackWaits = m.ackWaits
  rest : r.manager = { m with
    counterWaits := r.manager.counterWaits
    ackWaits := r.manager.ackWaits
    metrics := m.metrics.bump .futuresRegistered }

/-- The transport refused the request: its future is settled with the cause, except that a commit
needs no acknowledgement from a coordinator that is gone; and no entry is left behind. -/
structure TakesBack (m : Manager) (id : FutureId) (what : Request) (cause : Error) (r : Reaction) :
    Prop where
  sent : r.sent = none
  counterWaits : if what.isCommit then r.manager.counterWaits = m.counterWaits
    else m.counterWaits.Issues r.manager.counterWaits id [] (.resolved (.error cause))
  ackWaits : if what.isCommit then m.ackWaits.Issues r.manager.ackWaits id []
      (.resolved (if cause.isTopology then .ok () else .error cause))
    else r.manager.ackWaits = m.ackWaits
  rest : r.manager = { m with
    counterWaits := r.manager.counterWaits
    ackWaits := r.manager.ackWaits
    metrics := ((m.metrics.bump .futuresRegistered).bump .sendFailures).bump .futuresCompleted }

variable {m : Manager} {view : Outlook} {id : FutureId} {target : NodeId}

theorem ask_sends (what : Request) (haccepted : view.refusal? target = none) :
    m.Sends id target what (m.ask view id target what) := by
  refine ⟨?_, ?_, ?_, ?_⟩
  · rw [ask_sent, Outlook.outgoing?, haccepted]
  · rw [ask_counterWaits, haccepted]
    cases what with
    | commit => rfl
    | txCounter | queryCounter => exact m.counterWaits.issues_register id target
  · rw [ask_ackWaits, haccepted]
    cases what with
    | commit => exact m.ackWaits.issues_register id target
    | txCounter | queryCounter => rfl
  · rw [ask_manager, haccepted]
    cases what <;> rfl

theorem ask_takesBack (what : Request) {cause : Error}
    (hrefused : view.refusal? target = some cause) (hfresh : ¬ m.Knows id) :
    m.TakesBack id what cause (m.ask view id target what) := by
  simp only [Knows, not_or] at hfresh
  refine ⟨?_, ?_, ?_, ?_⟩
  · rw [ask_sent, Outlook.outgoing?, hrefused]
  · rw [ask_counterWaits, hrefused]
    cases what with
    | commit => rfl
    | txCounter | queryCounter => exact Waitlist.issues_refused hfresh.1 target _
  · rw [ask_ackWaits, hrefused]
    cases what with
    | commit => exact Waitlist.issues_refused hfresh.2 target _
    | txCounter | queryCounter => rfl
  · rw [ask_manager, hrefused]
    cases what with
    | commit =>
      have hc : (m.ackWaits.register id target).contains id :=
        m.ackWaits.contains_register id target
      simp only [refuse, settleAckWait_eq]
      simp only [enter, enterAckWait, bump, hc, if_true]
    | txCounter | queryCounter =>
      have hc : (m.counterWaits.register id target).contains id :=
        m.counterWaits.contains_register id target
      simp only [refuse, settleCounterWait_eq]
      simp only [enter, enterCounterWait, bump, hc, if_true]

theorem Staged.le_of_knows {last : FutureId} (h : m.Staged last) (hid : m.Knows id) :
    id.toNat ≤ last.toNat :=
  hid.elim h.counterWaits.le_of_knows h.ackWaits.le_of_knows

/-- A request either waits, with its message in flight, or leaves nothing but a settled future; and
an announcement leaves at most a failure counted. As long as ids last, this holds in every state in
which no id beyond the newest was registered. -/
theorem ask_exact (l : Life) (view : Outlook) (target : NodeId) (what : Request)
    (hknown : ∀ f, l.manager.Knows f → f.toNat ≤ l.ids.last.toNat)
    (hroom : l.ids.last.toNat + 1 < UInt64.size) :
    let m := l.manager
    let id := l.ids.next.1
    let r := m.ask view id target what
    ¬ m.Knows id ∧ l.step (.ask view target what) = ⟨r.manager, ⟨id⟩⟩ ∧
      (view.refusal? target = none → m.Sends id target what r) ∧
      (∀ cause, view.refusal? target = some cause → m.TakesBack id what cause r) ∧
      (∀ tx, ∃ metrics, (m.ackRollback view target tx).manager = { m with metrics }) ∧
      ∀ counter, ∃ metrics, (m.ackQuery view target counter).manager = { m with metrics } := by
  intro m id r
  have hid : id.toNat = l.ids.last.toNat + 1 := IdSource.toNat_next hroom
  have hfresh : ¬ m.Knows id := fun hknows => by
    have hle := hknown id hknows
    omega
  refine ⟨hfresh, rfl, ask_sends what, fun cause hrefused => ask_takesBack what hrefused hfresh,
    fun tx => ?_, fun counter => ?_⟩
  · exact ⟨_, ackRollback_manager m view target tx⟩
  · exact ⟨_, ackQuery_manager m view target counter⟩

/-- Node 2 is gone when a commit is announced to it, and node 3 is not. -/
theorem ask_exact_threeTargets :
    let l := Life.ofTurns (.ofNat 1) true threeTargets
    let view : Outlook := ⟨fun _ => true, fun node =>
      if node = .ofNat 2 then some (.nodeLeft node) else none⟩
    let tx : TxId := ⟨1, 1, 1⟩
    let refused := l.manager.ask view 5 (.ofNat 2) (.commit tx)
    let sent := l.manager.ask view 5 (.ofNat 3) (.commit tx)
    l.ids.last.toNat + 1 < UInt64.size ∧
      (∀ f, l.manager.Knows f → f.toNat ≤ l.ids.last.toNat) ∧
      refused.manager.ackWaits.entries = l.manager.ackWaits.entries ∧
      refused.manager.ackWaits.future? 5 = some (.resolved (.ok ())) ∧
      sent.sent = some ⟨.ofNat 3, Wire.encode (.txAckRequest 5 tx false)⟩ ∧
      sent.manager.ackWaits.future? 5 = some .waiting := by
  intro l view tx refused sent
  have hroom : l.ids.last.toNat + 1 < UInt64.size := by decide
  have hknown : ∀ f, l.manager.Knows f → f.toNat ≤ l.ids.last.toNat := fun f =>
    (Life.staged_ofTurns (.ofNat 1) true threeTargets (by decide)).le_of_knows
  obtain ⟨-, -, -, hrefused, -⟩ := ask_exact l view (.ofNat 2) (.commit tx) hknown hroom
  obtain ⟨-, -, hsent, -⟩ := ask_exact l view (.ofNat 3) (.commit tx) hknown hroom
  have htaken : l.manager.ackWaits.Issues refused.manager.ackWaits 5 [] (.resolved (.ok ())) :=
    (hrefused _ rfl).ackWaits
  have hissued : l.manager.ackWaits.Issues sent.manager.ackWaits 5 [⟨5, .ofNat 3⟩] .waiting :=
    (hsent rfl).ackWaits
  exact ⟨hroom, hknown, htaken.entries.trans (List.append_nil _), htaken.future, (hsent rfl).sent,
    hissued.future⟩

end Manager
end CounterCoordinator
