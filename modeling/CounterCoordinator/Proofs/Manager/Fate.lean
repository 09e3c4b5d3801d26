import CounterCoordinator.Proofs.Manager.Waits
import CounterCoordinator.Proofs.Message.RoundTrip

/-!
# What becomes of a message

Every message that belongs to a future is answered, rejected, or the answer itself, as long as
answers can be sent. Two of a manager's metrics count the faults of others among them: transactions
that asked for a second counter, and responses nobody waits for.
-/
namespace CounterCoordinator

def Message.future? : Message → Option FutureId
  | .txCounterRequest future _ | .queryCounterRequest future | .counterResponse future _
  | .txAckResponse future => some future
  | .txAckRequest future _ skip => if skip then none else some future
  | .queryAckRequest _ => none

def Message.settled? : Message → Option FutureId
  | .counterResponse future _ | .txAckResponse future => some future
  | _ => none

@[simp] theorem Request.future?_message (what : Request) (f : FutureId) :
    (what.message f).future? = some f := by
  cases what <;> rfl

/-- The future and the transaction that a payload asks for a counter for. -/
def Wire.counterRequest? (payload : Bytes) : Option (FutureId × TxId) :=
  match decode payload with
  | .ok (.txCounterRequest future tx) => some (future, tx)
  | _ => none

def Wire.wanted? (payload : Bytes) : Option TxId :=
  (counterRequest? payload).map Prod.snd

def Wire.WantsCounter (payload : Bytes) : Prop :=
  ∃ future tx, Wire.decode payload = .ok (.txCounterRequest future tx)

namespace Wire

theorem counterRequest?_eq_some_iff {payload : Bytes} {future : FutureId} {tx : TxId} :
    counterRequest? payload = some (future, tx) ↔
      decode payload = .ok (.txCounterRequest future tx) := by
  unfold counterRequest?
  split
  · rename_i heq
    simp [heq]
  · rename_i hother
    exact iff_of_false nofun (hother future tx)

theorem counterRequest?_eq_none {payload : Bytes} (h : ¬ WantsCounter payload) :
    counterRequest? payload = none := by
  by_contra hsome
  obtain ⟨⟨future, tx⟩, hrequest⟩ := Option.ne_none_iff_exists'.mp hsome
  exact h ⟨future, tx, counterRequest?_eq_some_iff.mp hrequest⟩

theorem wanted?_of_decode {payload : Bytes} {future : FutureId} {tx : TxId}
    (h : decode payload = .ok (.txCounterRequest future tx)) : wanted? payload = some tx := by
  rw [wanted?, counterRequest?_eq_some_iff.mpr h]
  rfl

theorem wanted?_eq_none {payload : Bytes} (h : ¬ WantsCounter payload) :
    wanted? payload = none := by
  rw [wanted?, counterRequest?_eq_none h]
  rfl

theorem wantsCounter_encode {message : Message} (h : WantsCounter (encode message)) :
    ∃ future tx, message = .txCounterRequest future tx := by
  obtain ⟨future, tx, h⟩ := h
  rw [decode_encode] at h
  cases h
  exact ⟨future, tx, rfl⟩

end Wire

namespace Manager

section Answers
variable {m : Manager} {view : Outlook} {sender : NodeId} {message answer : Message}

/-- The requests that are answered, and how. -/
theorem answer_cases (h : m.answer? view sender message = some answer) :
    ∃ (what : Request) (f : FutureId), message = what.message f ∧
      if what.isCommit then answer = .txAckResponse f else ∃ c, answer = .counterResponse f c := by
  cases message with
  | txCounterRequest future tx =>
    simp only [answer?] at h
    split at h
    · split at h <;> cases h
      exact ⟨.txCounter tx, future, rfl, _, rfl⟩
    · cases h
  | queryCounterRequest future =>
    simp only [answer?] at h
    split at h <;> cases h
    exact ⟨.queryCounter, future, rfl, _, rfl⟩
  | txAckRequest future tx skip =>
    cases skip <;> cases h
    exact ⟨.commit tx, future, rfl, rfl⟩
  | counterResponse | txAckResponse | queryAckRequest => cases h

theorem future?_answer (h : m.answer? view sender message = some answer) :
    answer.future? = message.future? := by
  obtain ⟨what, f, rfl, hanswer⟩ := answer_cases h
  rw [Request.future?_message]
  split at hanswer
  · rw [hanswer]
    rfl
  · obtain ⟨c, rfl⟩ := hanswer
    rfl

theorem act_sent_cases (m : Manager) (view : Outlook) (sender : NodeId) (message : Message) :
    (m.act view sender message).sent = none ∨
      ∃ answer, m.answer? view sender message = some answer ∧
        (m.act view sender message).sent = some ⟨sender, Wire.encode answer⟩ := by
  rw [act_sent]
  cases hanswer : m.answer? view sender message with
  | none => exact .inl rfl
  | some answer =>
    cases hrefused : view.refusal? sender with
    | some cause => exact .inl (by simp [Outlook.outgoing?, hrefused])
    | none => exact .inr ⟨answer, rfl, by simp [Outlook.outgoing?, hrefused]⟩

end Answers

section Asking
variable {m : Manager} {view : Outlook} {sender : NodeId} {payload : Bytes} {out : Outgoing}

theorem current_receive (h : ¬ Wire.WantsCounter payload) :
    (m.receive view sender payload).manager.counters.current = m.counters.current := by
  cases hdecode : Wire.decode payload with
  | error fault =>
    rw [(receive_of_fault m view sender payload hdecode).1]
    rfl
  | ok message =>
    rw [(receive_of_decode m view sender payload hdecode).1, act_counters]
    cases message with
    | txCounterRequest future tx => exact absurd ⟨future, tx, hdecode⟩ h
    | txAckRequest => exact Counters.ack_current ..
    | queryCounterRequest | counterResponse | txAckResponse | queryAckRequest => rfl

/-- Answers never ask for a counter. -/
theorem receive_sent (h : (m.receive view sender payload).sent = some out) :
    ¬ Wire.WantsCounter out.payload := by
  cases hdecode : Wire.decode payload with
  | error fault =>
    rw [(receive_of_fault m view sender payload hdecode).2] at h
    cases h
  | ok message =>
    rw [(receive_of_decode m view sender payload hdecode).2] at h
    rcases m.act_sent_cases view sender message with hsent | ⟨answer, hanswer, hsent⟩
    · rw [hsent] at h
      cases h
    · rw [hsent] at h
      cases h
      intro hwants
      obtain ⟨_, _, rfl⟩ := Wire.wantsCounter_encode hwants
      obtain ⟨_, _, -, hwhat⟩ := answer_cases hanswer
      split at hwhat
      · cases hwhat
      · obtain ⟨_, hwhat⟩ := hwhat
        cases hwhat

theorem dispatch_sent {e : Envelope} (h : (m.dispatch view e).sent = some out) :
    ¬ Wire.WantsCounter out.payload := by
  unfold dispatch at h
  split at h
  · exact receive_sent h
  · cases h

/-- A call finishes something, and asks for nothing. -/
theorem not_wantsCounter_of_call {c : Call} (h : (m.call view c).sent = some out) :
    ¬ Wire.WantsCounter out.payload := by
  intro hwants
  rcases call_sent m view c h with ⟨tx, hpayload⟩ | ⟨counter, hpayload⟩
  · obtain ⟨_, _, hmessage⟩ := Wire.wantsCounter_encode (hpayload ▸ hwants)
    cases hmessage
  · obtain ⟨_, _, hmessage⟩ := Wire.wantsCounter_encode (hpayload ▸ hwants)
    cases hmessage

end Asking

section Faults
variable (m : Manager) (view : Outlook)

/-- The future of a request that is rejected because its transaction holds a counter already. -/
def rejects? (sender : NodeId) : Message → Option FutureId
  | .txCounterRequest future tx =>
      if view.alive sender then
        match (m.counters.assign tx).1 with
        | .ok _ => none
        | .error _ => some future
      else none
  | _ => none

theorem request_of_rejects? {m : Manager} {view : Outlook} {sender : NodeId} {message : Message}
    {f : FutureId} (h : m.rejects? view sender message = some f) :
    ∃ tx, message = (Request.txCounter tx).message f := by
  cases message with
  | txCounterRequest future tx =>
    simp only [rejects?] at h
    split at h
    · split at h <;> cases h
      exact ⟨tx, rfl⟩
    · cases h
  | queryCounterRequest | counterResponse | txAckRequest | txAckResponse | queryAckRequest =>
    cases h

/-- Is the message a response that nobody waits for? -/
def unexpected : Message → Bool
  | .counterResponse future _ => !m.counterWaits.contains future
  | .txAckResponse future => !m.ackWaits.contains future
  | _ => false

/-! Four metrics count what futures and faults come to: the transactions that asked twice, the
responses nobody waited for, the futures registered, and those completed. -/

/-- A request is registered, and completed at once if the transport refuses it. -/
theorem ask_tally (id : FutureId) (target : NodeId) (what : Request) :
    (m.ask view id target what).manager.metrics.protocolViolations = m.metrics.protocolViolations ∧
      (m.ask view id target what).manager.metrics.unmatchedResponses =
        m.metrics.unmatchedResponses ∧
      (m.ask view id target what).manager.metrics.futuresRegistered =
        m.metrics.futuresRegistered + 1 ∧
      (m.ask view id target what).manager.metrics.futuresCompleted =
        m.metrics.futuresCompleted + if (view.refusal? target).isNone then 0 else 1 := by
  have entered : ∀ {α : Type} (w : Waitlist α), (w.register id target).contains id = true :=
    fun w => Waitlist.contains_iff.mpr ⟨_, Waitlist.mem_entries_register.mpr (.inr rfl), rfl⟩
  rw [ask_manager]
  cases view.refusal? target <;> cases what <;>
    simp [enter, refuse, enterCounterWait, enterAckWait, settleCounterWait_eq, settleAckWait_eq,
      bump, Metrics.bump, Metrics.add, entered]

theorem afterSend_tally (target : NodeId) :
    (m.afterSend view target).metrics.protocolViolations = m.metrics.protocolViolations ∧
      (m.afterSend view target).metrics.unmatchedResponses = m.metrics.unmatchedResponses ∧
      (m.afterSend view target).metrics.futuresRegistered = m.metrics.futuresRegistered ∧
      (m.afterSend view target).metrics.futuresCompleted = m.metrics.futuresCompleted := by
  unfold afterSend
  cases view.refusal? target <;> exact ⟨rfl, rfl, rfl, rfl⟩

theorem call_tally (c : Call) :
    (m.call view c).manager.metrics.protocolViolations = m.metrics.protocolViolations ∧
      (m.call view c).manager.metrics.unmatchedResponses = m.metrics.unmatchedResponses ∧
      (m.call view c).manager.metrics.futuresRegistered = m.metrics.futuresRegistered ∧
      (m.call view c).manager.metrics.futuresCompleted = m.metrics.futuresCompleted := by
  cases c with
  | rollback target | queryDone target => simpa [call] using afterSend_tally m view target
  | nodeLeft | departed | resync | missed | dropCounter | dropAck => exact ⟨rfl, rfl, rfl, rfl⟩

section Receive
variable (sender : NodeId) (message : Message)

/-- A rejected request is a violation, and a response is unmatched or completes its future. -/
theorem act_tally :
    (m.act view sender message).manager.metrics.protocolViolations =
        (if (m.rejects? view sender message).isSome then m.metrics.protocolViolations + 1
          else m.metrics.protocolViolations) ∧
      (m.act view sender message).manager.metrics.unmatchedResponses =
        (if m.unexpected message then m.metrics.unmatchedResponses + 1
          else m.metrics.unmatchedResponses) ∧
      (m.act view sender message).manager.metrics.futuresRegistered =
        m.metrics.futuresRegistered ∧
      (m.act view sender message).manager.metrics.futuresCompleted =
        if message.settled?.isSome ∧ m.unexpected message = false then
          m.metrics.futuresCompleted + 1
        else m.metrics.futuresCompleted := by
  cases message with
  | txCounterRequest future tx =>
    rw [act, serveTx_manager, rejects?]
    split
    · cases (m.counters.assign tx).1 with
      | ok counter => exact afterSend_tally ..
      | error cause => exact ⟨rfl, rfl, rfl, rfl⟩
    · exact ⟨rfl, rfl, rfl, rfl⟩
  | queryCounterRequest future =>
    rw [act, serveQuery_manager]
    split
    · exact afterSend_tally ..
    · exact ⟨rfl, rfl, rfl, rfl⟩
  | txAckRequest future tx skip =>
    rw [act, serveTxAck_manager]
    simp only
    split
    · exact ⟨rfl, rfl, rfl, rfl⟩
    · exact afterSend_tally ..
  | counterResponse future counter =>
    rw [act, acceptCounter_manager, unexpected]
    cases m.counterWaits.contains future <;> exact ⟨rfl, rfl, rfl, rfl⟩
  | txAckResponse future =>
    rw [act, acceptAck_manager, unexpected]
    cases m.ackWaits.contains future <;> exact ⟨rfl, rfl, rfl, rfl⟩
  | queryAckRequest => exact ⟨rfl, rfl, rfl, rfl⟩

/-- A message that belongs to a future is answered, rejected, or settles the future. -/
theorem fate (halive : view.alive sender) (hsent : view.refusal? sender = none) :
    message.future?.toList =
      (if (m.act view sender message).sent.isSome then message.future? else none).toList ++
        (m.rejects? view sender message).toList ++ message.settled?.toList := by
  rw [act_sent]
  cases message with
  | txCounterRequest future tx =>
    simp only [answer?, rejects?, halive, if_true]
    cases (m.counters.assign tx).1 <;>
      simp [Outlook.outgoing?, hsent, Message.future?, Message.settled?]
  | txAckRequest future tx skip =>
    cases skip <;>
      simp [answer?, rejects?, Outlook.outgoing?, hsent, Message.future?, Message.settled?]
  | queryCounterRequest =>
    simp [answer?, rejects?, halive, Outlook.outgoing?, hsent, Message.future?, Message.settled?]
  | counterResponse | txAckResponse | queryAckRequest =>
    simp [answer?, rejects?, Message.future?, Message.settled?]

end Receive

end Faults

def awaited (m : Manager) : List FutureId :=
  m.counterWaits.entries.map Waitlist.Entry.id ++ m.ackWaits.entries.map Waitlist.Entry.id

/-- The future of an issue is in order in the waitlist that it belongs to. -/
def Holds (m : Manager) (f : FutureId) (what : Request) : Prop :=
  if what.isCommit then m.ackWaits.InOrder f else m.counterWaits.InOrder f

section Awaited
variable {m : Manager} {view : Outlook}

theorem awaited_ask {id : FutureId} {target : NodeId} {what : Request}
    (hsent : view.refusal? target = none) :
    (m.ask view id target what).manager.awaited.Perm (id :: m.awaited) := by
  unfold awaited
  rw [ask_counterWaits, ask_ackWaits, hsent]
  cases what with
  | commit tx =>
    simp only [Waitlist.register, List.map_append, List.map_singleton, ← List.append_assoc]
    exact List.perm_append_singleton ..
  | txCounter | queryCounter =>
    simp only [Waitlist.register, List.map_append, List.map_singleton, List.append_assoc,
      List.singleton_append]
    exact List.perm_middle

theorem holds_ask {id f : FutureId} {target : NodeId} {what other : Request}
    (hsent : view.refusal? target = none) (h : m.Holds f other ∨ (f = id ∧ other = what)) :
    (m.ask view id target what).manager.Holds f other := by
  unfold Holds at h ⊢
  rw [ask_counterWaits, ask_ackWaits, hsent]
  rcases h with h | ⟨rfl, rfl⟩
  · split at h
    · rename_i hother
      rw [if_pos hother]
      cases what with
      | commit => exact .register (.inl h) target
      | txCounter | queryCounter => exact h
    · rename_i hother
      rw [if_neg hother]
      cases what with
      | commit => exact h
      | txCounter | queryCounter => exact .register (.inl h) target
  · cases other <;> exact .register (.inr rfl) target

theorem awaited_act {sender : NodeId} {message : Message} (hnodup : m.awaited.Nodup)
    (hexpected : m.unexpected message = false) :
    m.awaited.Perm (message.settled?.toList ++ (m.act view sender message).manager.awaited) := by
  have hcounter := hnodup.of_append_left
  have hack := hnodup.of_append_right
  unfold awaited
  rw [act_counterWaits, act_ackWaits]
  cases message with
  | counterResponse future counter =>
    have hc : m.counterWaits.contains future := by simpa [unexpected] using hexpected
    have hperm := Waitlist.perm_ids_without hcounter hc
    simp only [Waitlist.entries_complete]
    exact hperm.append_right _
  | txAckResponse future =>
    have hc : m.ackWaits.contains future := by simpa [unexpected] using hexpected
    have hperm := Waitlist.perm_ids_without hack hc
    simp only [Waitlist.entries_complete]
    exact (hperm.append_left _).trans List.perm_middle
  | txCounterRequest | queryCounterRequest | txAckRequest | queryAckRequest => exact .refl _

theorem holds_act {sender : NodeId} {message : Message} {f : FutureId} {what : Request}
    (h : m.Holds f what) : (m.act view sender message).manager.Holds f what := by
  unfold Holds at h ⊢
  rw [act_counterWaits, act_ackWaits]
  split at h
  · rename_i hwhat
    rw [if_pos hwhat]
    split
    · exact h.complete _ ()
    · exact h
  · rename_i hwhat
    rw [if_neg hwhat]
    split
    · exact h.complete _ _
    · exact h

end Awaited

end Manager
end CounterCoordinator
