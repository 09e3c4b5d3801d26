import CounterCoordinator.Proofs.Manager.Life
import CounterCoordinator.Proofs.Waitlist.Load

/-!
# Future accounting

Every future a manager registers is completed, cancelled, abandoned or still waiting, and is counted
as exactly one of these. `Balanced` says so, together with what keeps it true: waiting requests have
distinct ids, and the counts never exceed the number of ids taken, so none of them wraps around.
-/
namespace CounterCoordinator

namespace Manager

/-- The books of a manager are balanced, when `last` is the newest id of its process. -/
structure Balanced (m : Manager) (last : FutureId) : Prop where
  accounts : m.metrics.futuresRegistered.toNat =
    m.metrics.futuresCompleted.toNat + m.metrics.futuresCancelled.toNat +
      (m.counterWaits.load + m.ackWaits.load)
  issued : m.metrics.futuresRegistered.toNat ≤ last.toNat
  counterWaits : m.counterWaits.Distinct last
  ackWaits : m.ackWaits.Distinct last

namespace Balanced
variable {m m' : Manager} {last : FutureId}

theorem mono {last' : FutureId} (h : m.Balanced last) (hle : last.toNat ≤ last'.toNat) :
    m.Balanced last' :=
  ⟨h.accounts, Nat.le_trans h.issued hle, h.counterWaits.mono hle, h.ackWaits.mono hle⟩

/-- The books stay balanced when `n` futures leave the waitlists and one of the two counts of
settled futures rises by as much. -/
theorem settle (h : m.Balanced last) {n : Nat}
    (hcounter : m'.counterWaits.Distinct last) (hack : m'.ackWaits.Distinct last)
    (hload : n + (m'.counterWaits.load + m'.ackWaits.load) =
      m.counterWaits.load + m.ackWaits.load)
    (hregistered : m'.metrics.futuresRegistered = m.metrics.futuresRegistered)
    (hsettled :
      (m'.metrics.futuresCompleted = m.metrics.futuresCompleted + UInt64.ofNat n ∧
        m'.metrics.futuresCancelled = m.metrics.futuresCancelled) ∨
      (m'.metrics.futuresCompleted = m.metrics.futuresCompleted ∧
        m'.metrics.futuresCancelled = m.metrics.futuresCancelled + UInt64.ofNat n)) :
    m'.Balanced last := by
  have haccounts := h.accounts
  have hbound : m.metrics.futuresRegistered.toNat < UInt64.size := UInt64.toNat_lt_size _
  have hn : (UInt64.ofNat n).toNat = n := UInt64.toNat_ofNat_of_lt' (by omega)
  refine ⟨?_, hregistered ▸ h.issued, hcounter, hack⟩
  rw [hregistered]
  rcases hsettled with ⟨hcompleted, hcancelled⟩ | ⟨hcompleted, hcancelled⟩
  · have hadd : m'.metrics.futuresCompleted.toNat = m.metrics.futuresCompleted.toNat + n := by
      rw [hcompleted, toNat_add_of_lt (by omega), hn]
    rw [hadd, hcancelled]
    omega
  · have hadd : m'.metrics.futuresCancelled.toNat = m.metrics.futuresCancelled.toNat + n := by
      rw [hcancelled, toNat_add_of_lt (by omega), hn]
    rw [hadd, hcompleted]
    omega

/-- Whatever touches neither the waitlists nor the three counts keeps the books balanced. -/
theorem of_unchanged (h : m.Balanced last)
    (hcounter : m'.counterWaits = m.counterWaits) (hack : m'.ackWaits = m.ackWaits)
    (hregistered : m'.metrics.futuresRegistered = m.metrics.futuresRegistered)
    (hcompleted : m'.metrics.futuresCompleted = m.metrics.futuresCompleted)
    (hcancelled : m'.metrics.futuresCancelled = m.metrics.futuresCancelled) :
    m'.Balanced last := by
  constructor
  · rw [hregistered, hcompleted, hcancelled, hcounter, hack]
    exact h.accounts
  · rw [hregistered]
    exact h.issued
  · rw [hcounter]
    exact h.counterWaits
  · rw [hack]
    exact h.ackWaits

theorem afterSend (h : m.Balanced last) (view : Outlook) (target : NodeId) :
    (m.afterSend view target).Balanced last := by
  unfold Manager.afterSend
  cases view.refusal? target <;> exact h.of_unchanged rfl rfl rfl rfl rfl

theorem complete_counterWait (h : m.Balanced last) (id : FutureId) (o : Outcome Version)
    {metrics : Metrics}
    (hregistered : metrics.futuresRegistered = m.metrics.futuresRegistered)
    (hcompleted : metrics.futuresCompleted =
      m.metrics.futuresCompleted + if m.counterWaits.contains id then 1 else 0)
    (hcancelled : metrics.futuresCancelled = m.metrics.futuresCancelled) :
    Balanced { m with counterWaits := (m.counterWaits.complete id o).2, metrics } last := by
  have hload := Waitlist.load_complete h.counterWaits id o
  refine h.settle (n := if m.counterWaits.contains id then 1 else 0)
    (h.counterWaits.complete id o) h.ackWaits ?_ hregistered (.inl ⟨?_, hcancelled⟩)
  · simp only
    omega
  · rw [hcompleted]
    split <;> rfl

theorem complete_ackWait (h : m.Balanced last) (id : FutureId) (o : Outcome Unit)
    {metrics : Metrics}
    (hregistered : metrics.futuresRegistered = m.metrics.futuresRegistered)
    (hcompleted : metrics.futuresCompleted =
      m.metrics.futuresCompleted + if m.ackWaits.contains id then 1 else 0)
    (hcancelled : metrics.futuresCancelled = m.metrics.futuresCancelled) :
    Balanced { m with ackWaits := (m.ackWaits.complete id o).2, metrics } last := by
  have hload := Waitlist.load_complete h.ackWaits id o
  refine h.settle (n := if m.ackWaits.contains id then 1 else 0)
    h.counterWaits (h.ackWaits.complete id o) ?_ hregistered (.inl ⟨?_, hcancelled⟩)
  · simp only
    omega
  · rw [hcompleted]
    split <;> rfl

theorem refuse (h : m.Balanced last) (id : FutureId) (cause : Error) (what : Request) :
    (m.refuse id cause what).Balanced last := by
  cases what with
  | txCounter | queryCounter =>
    rw [Manager.refuse, settleCounterWait_eq]
    apply h.complete_counterWait <;> split <;> simp [Metrics.bump, Metrics.add]
  | commit =>
    rw [Manager.refuse, settleAckWait_eq]
    apply h.complete_ackWait <;> split <;> simp [Metrics.bump, Metrics.add]

theorem enter (h : m.Balanced last) {id : FutureId} (hid : id.toNat = last.toNat + 1)
    (target : NodeId) (what : Request) : (m.enter id target what).Balanced id := by
  have hbound := UInt64.toNat_lt_size id
  have hissued := h.issued
  have hadd : (m.metrics.futuresRegistered + 1).toNat = m.metrics.futuresRegistered.toNat + 1 :=
    toNat_add_of_lt (by rw [UInt64.toNat_one]; omega)
  have haccounts := h.accounts
  have hle : last.toNat ≤ id.toNat := by omega
  cases what with
  | txCounter | queryCounter =>
    constructor
    · simp only [Manager.enter, enterCounterWait, bump, Metrics.bump, Metrics.add, hadd,
        Waitlist.load_register]
      omega
    · simp only [Manager.enter, enterCounterWait, bump, Metrics.bump, Metrics.add, hadd]
      omega
    · exact h.counterWaits.register hid target
    · exact h.ackWaits.mono hle
  | commit =>
    constructor
    · simp only [Manager.enter, enterAckWait, bump, Metrics.bump, Metrics.add, hadd,
        Waitlist.load_register]
      omega
    · simp only [Manager.enter, enterAckWait, bump, Metrics.bump, Metrics.add, hadd]
      omega
    · exact h.counterWaits.mono hle
    · exact h.ackWaits.register hid target

theorem ask (h : m.Balanced last) {id : FutureId} (hid : id.toNat = last.toNat + 1)
    (view : Outlook) (target : NodeId) (what : Request) :
    (m.ask view id target what).manager.Balanced id := by
  have entered := h.enter hid target what
  rw [ask_manager]
  split
  · exact entered
  · rename_i cause _
    have counted : (Manager.bump (m.enter id target what) .sendFailures).Balanced id :=
      entered.of_unchanged rfl rfl rfl rfl rfl
    exact counted.refuse id cause what

/-- Cancelling in both waitlists; acknowledgements only if the manager cancels these at all. -/
theorem withCancelled (h : m.Balanced last) (counters : List (FutureId × Outcome Version))
    (acks : List (FutureId × Outcome Unit)) :
    (m.withCancelled (m.counterWaits.completeEach counters)
      (if m.cancelAcks then m.ackWaits.completeEach acks else (0, m.ackWaits))).2.Balanced
      last := by
  have hcounters := Waitlist.load_completeEach h.counterWaits counters
  have hacks := Waitlist.load_completeEach h.ackWaits acks
  split
  · refine h.settle (h.counterWaits.completeEach counters) (h.ackWaits.completeEach acks) ?_ rfl
      (.inr ⟨rfl, rfl⟩)
    simp only [Manager.withCancelled]
    omega
  · refine h.settle (h.counterWaits.completeEach counters) h.ackWaits ?_ rfl (.inr ⟨rfl, rfl⟩)
    simp only [Manager.withCancelled]
    omega

theorem nodeLeft (h : m.Balanced last) (node : NodeId) : (m.nodeLeft node).2.Balanced last :=
  h.withCancelled _ _

theorem resync (h : m.Balanced last) (alive : NodeId → Bool) :
    (m.resync alive).2.Balanced last :=
  h.withCancelled _ _

/-- A dropped future moves from the waiting to the abandoned ones, or was settled before. -/
theorem dropCounterFuture (h : m.Balanced last) (id : FutureId) :
    (m.dropCounterFuture id).Balanced last := by
  have hbound : m.metrics.futuresRegistered.toNat < UInt64.size := UInt64.toNat_lt_size _
  have haccounts := h.accounts
  have hload := Waitlist.load_drop h.counterWaits (by omega) id
  refine h.settle (n := 0) (h.counterWaits.drop id) h.ackWaits ?_ rfl (.inl ⟨?_, rfl⟩)
  · simp only [Manager.dropCounterFuture, hload]
    omega
  · exact (UInt64.add_zero _).symm

theorem dropAckFuture (h : m.Balanced last) (id : FutureId) :
    (m.dropAckFuture id).Balanced last := by
  have hbound : m.metrics.futuresRegistered.toNat < UInt64.size := UInt64.toNat_lt_size _
  have haccounts := h.accounts
  have hload := Waitlist.load_drop h.ackWaits (by omega) id
  refine h.settle (n := 0) h.counterWaits (h.ackWaits.drop id) ?_ rfl (.inl ⟨?_, rfl⟩)
  · simp only [Manager.dropAckFuture, hload]
    omega
  · exact (UInt64.add_zero _).symm

theorem call (h : m.Balanced last) (view : Outlook) (c : Call) :
    (m.call view c).manager.Balanced last := by
  cases c with
  | rollback target =>
    rw [Manager.call, ackRollback_manager]
    exact h.afterSend view target
  | queryDone target =>
    rw [Manager.call, ackQuery_manager]
    exact h.afterSend view target
  | nodeLeft node => exact h.nodeLeft node
  | departed event => exact h.nodeLeft event.node
  | resync => exact h.resync view.alive
  | missed => exact h.resync view.alive
  | dropCounter future => exact h.dropCounterFuture future
  | dropAck future => exact h.dropAckFuture future

theorem act (h : m.Balanced last) (view : Outlook) (sender : NodeId) (message : Message) :
    (m.act view sender message).manager.Balanced last := by
  cases message with
  | txCounterRequest future tx =>
    rw [Manager.act, serveTx_manager]
    split
    · split
      · have served : (Manager.bump { m with counters := (m.counters.assign tx).2 }
            .txCountersAssigned).Balanced last := h.of_unchanged rfl rfl rfl rfl rfl
        exact served.afterSend view sender
      · exact h.of_unchanged rfl rfl rfl rfl rfl
    · exact h
  | queryCounterRequest future =>
    rw [Manager.act, serveQuery_manager]
    split
    · have served : (m.bump .queryCountersAssigned).Balanced last :=
        h.of_unchanged rfl rfl rfl rfl rfl
      exact served.afterSend view sender
    · exact h
  | counterResponse future counter =>
    rw [Manager.act, acceptCounter_manager]
    split
    · rename_i hwaits
      apply h.complete_counterWait <;>
        simp [Metrics.bump, Metrics.add, Metrics.observeLatency, hwaits]
    · exact h.of_unchanged rfl rfl rfl rfl rfl
  | txAckRequest future tx skip =>
    rw [Manager.act, serveTxAck_manager]
    have acked : (Manager.bump { m with counters := (m.counters.ack tx).2 }
        .txAcksProcessed).Balanced last := h.of_unchanged rfl rfl rfl rfl rfl
    simp only
    split
    · exact acked
    · exact acked.afterSend view sender
  | txAckResponse future =>
    rw [Manager.act, acceptAck_manager]
    split
    · rename_i hwaits
      apply h.complete_ackWait <;>
        simp [Metrics.bump, Metrics.add, Metrics.observeLatency, hwaits]
    · exact h.of_unchanged rfl rfl rfl rfl rfl
  | queryAckRequest counter => exact h.of_unchanged rfl rfl rfl rfl rfl

theorem receive (h : m.Balanced last) (view : Outlook) (sender : NodeId) (payload : Bytes) :
    (m.receive view sender payload).manager.Balanced last := by
  cases hdecode : Wire.decode payload with
  | ok message =>
    rw [(receive_of_decode m view sender payload hdecode).1]
    exact h.act view sender message
  | error fault =>
    rw [(receive_of_fault m view sender payload hdecode).1]
    exact h.of_unchanged rfl rfl rfl rfl rfl

/-- The two counts of abandoned futures add up without wrapping around. -/
theorem toNat_abandoned (h : m.Balanced last) :
    m.abandoned.toNat = m.counterWaits.abandoned.toNat + m.ackWaits.abandoned.toNat := by
  have hbound : m.metrics.futuresRegistered.toNat < UInt64.size := UInt64.toNat_lt_size _
  have haccounts := h.accounts
  unfold Waitlist.load at haccounts
  exact toNat_add_of_lt (by omega)

end Balanced

theorem balanced_new (node : NodeId) (cancelAcks : Bool) :
    Balanced { self := node, cancelAcks } noFuture := by
  constructor
  · rfl
  · exact Nat.le_refl _
  · exact ⟨List.nodup_nil, by simp⟩
  · exact ⟨List.nodup_nil, by simp⟩

end Manager

namespace Life

theorem balanced_step {l : Life} (h : l.manager.Balanced l.ids.last) (t : Turn)
    (hids : t.takesId → l.ids.last.toNat + 1 < UInt64.size) :
    (l.step t).manager.Balanced (l.step t).ids.last := by
  cases t with
  | ask view target what => exact h.ask (IdSource.toNat_next (hids rfl)) view target what
  | call view c => exact h.call view c
  | receive view sender payload => exact h.receive view sender payload
  | elsewhere =>
    have hnext := IdSource.toNat_next (hids rfl)
    exact h.mono (Nat.le_trans (Nat.le_succ _) (Nat.le_of_eq hnext.symm))

theorem balanced_ofTurns (node : NodeId) (cancelAcks : Bool) (turns : List Turn)
    (hids : turns.countP Turn.takesId < UInt64.size) :
    (ofTurns node cancelAcks turns).manager.Balanced (ofTurns node cancelAcks turns).ids.last := by
  apply run_induction (P := fun l => l.manager.Balanced l.ids.last)
  · exact fun l t h room => balanced_step h t room
  · exact Manager.balanced_new node cancelAcks
  · exact (Nat.zero_add _).symm ▸ hids

/-- After any turns, every registered future is completed, cancelled, abandoned or waiting, and
counted once. -/
theorem futures_accounted_for (node : NodeId) (cancelAcks : Bool) (turns : List Turn)
    (hids : turns.countP Turn.takesId < UInt64.size) :
    let m := (ofTurns node cancelAcks turns).manager
    m.metrics.futuresRegistered.toNat =
      m.metrics.futuresCompleted.toNat + m.metrics.futuresCancelled.toNat +
        m.abandoned.toNat + m.counterWaits.size + m.ackWaits.size := by
  intro m
  have balanced : m.Balanced _ := balanced_ofTurns node cancelAcks turns hids
  have haccounts := balanced.accounts
  rw [balanced.toNat_abandoned]
  unfold Waitlist.load at haccounts
  omega

/-- A refused request, a cancelled one, an acknowledgement its caller drops, and two requests that
go on waiting; one id goes to another table. -/
def oneOfEach : List Turn :=
  let here : Outlook := ⟨fun _ => true, fun _ => none⟩
  let gone : Outlook := ⟨fun _ => false, fun node => some (.nodeLeft node)⟩
  let tx : TxId := ⟨1, 1, 1⟩
  [.ask gone (.ofNat 2) (.txCounter tx),
    .ask here (.ofNat 3) .queryCounter, .call here (.nodeLeft (.ofNat 3)),
    .ask here (.ofNat 4) (.commit tx), .call here (.dropAck 3), .elsewhere,
    .ask here (.ofNat 4) (.txCounter tx), .ask here (.ofNat 4) (.commit tx)]

theorem futures_accounted_for_one_each :
    oneOfEach.countP Turn.takesId < UInt64.size ∧
      (ofTurns (.ofNat 1) true oneOfEach).manager.metrics.futuresRegistered.toNat =
        1 + 1 + 1 + 1 + 1 :=
  ⟨by decide, futures_accounted_for (.ofNat 1) true oneOfEach (by decide)⟩

end Life
end CounterCoordinator
