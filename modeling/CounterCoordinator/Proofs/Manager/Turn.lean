import CounterCoordinator.Manager.Departure
import CounterCoordinator.Manager.Dispatch
import CounterCoordinator.Manager.Request
import CounterCoordinator.Proofs.Counters.Assignment
import CounterCoordinator.Proofs.Waitlist.Futures
import Mathlib.Tactic.Common

/-!
# Turns of a manager

All a manager ever does falls into three kinds of turns: it asks for something and gets a future
(`ask`), it is called without one (`call`), or it receives a payload (`receive`). For each kind the
lemmas here say what becomes of the counters and of the two waitlists, and which message leaves.
They hold whatever the manager sees of membership and transport, and later proofs use them instead
of the definitions of the single operations.
-/
namespace CounterCoordinator

inductive Request where
  | txCounter (tx : TxId)
  | queryCounter
  | commit (tx : TxId)
deriving DecidableEq, Repr

/-- The message that carries a request under the id of its future. -/
def Request.message (id : FutureId) : Request → Message
  | txCounter tx => .txCounterRequest id tx
  | queryCounter => .queryCounterRequest id
  | commit tx => .txAckRequest id tx false

/-- What a manager can be told to do without a future for the answer. -/
inductive Call where
  | rollback (target : NodeId) (tx : TxId)
  | queryDone (target : NodeId) (counter : Version)
  | nodeLeft (node : NodeId)
  | departed (event : MembershipEvent)
  | resync
  | missed (count : Nat)
  | dropCounter (future : FutureId)
  | dropAck (future : FutureId)
deriving DecidableEq, Repr

/-- The message as it goes out, if the transport takes it. -/
def Outlook.outgoing? (view : Outlook) (target : NodeId) (message : Message) : Option Outgoing :=
  match view.refusal? target with
  | none => some ⟨target, Wire.encode message⟩
  | some _ => none

namespace Manager

def ask (m : Manager) (view : Outlook) (id : FutureId) (target : NodeId) : Request → Reaction
  | .txCounter tx => m.requestTx view id target tx
  | .queryCounter => m.requestQuery view id target
  | .commit tx => m.ackCommit view id target tx

def call (m : Manager) (view : Outlook) : Call → Reaction
  | .rollback target tx => m.ackRollback view target tx
  | .queryDone target counter => m.ackQuery view target counter
  | .nodeLeft node => ⟨(m.nodeLeft node).2, none, []⟩
  | .departed event => m.departed event
  | .resync => ⟨(m.resync view.alive).2, none, []⟩
  | .missed count => m.eventsMissed view.alive count
  | .dropCounter future => ⟨m.dropCounterFuture future, none, []⟩
  | .dropAck future => ⟨m.dropAckFuture future, none, []⟩

/-- What a coordinator has to say to a message, before it tries to send it. -/
def answer? (m : Manager) (view : Outlook) (sender : NodeId) : Message → Option Message
  | .txCounterRequest future tx =>
      if view.alive sender then
        match (m.counters.assign tx).1 with
        | .ok counter => some (.counterResponse future counter)
        | .error _ => none
      else none
  | .queryCounterRequest future =>
      if view.alive sender then some (.counterResponse future m.counters.query) else none
  | .txAckRequest future _ skip => if skip then none else some (.txAckResponse future)
  | _ => none

def enter (m : Manager) (id : FutureId) (target : NodeId) : Request → Manager
  | .txCounter _ | .queryCounter => m.enterCounterWait id target
  | .commit _ => m.enterAckWait id target

def refuse (m : Manager) (id : FutureId) (cause : Error) : Request → Manager
  | .txCounter _ | .queryCounter => m.settleCounterWait id (.error cause)
  | .commit _ => m.settleAckWait id (if cause.isTopology then .ok () else .error cause)

theorem settleCounterWait_eq (m : Manager) (id : FutureId) (o : Outcome Version) :
    m.settleCounterWait id o = { m with
      counterWaits := (m.counterWaits.complete id o).2
      metrics := if m.counterWaits.contains id then m.metrics.bump .futuresCompleted
        else m.metrics } := by
  unfold settleCounterWait
  by_cases h : m.counterWaits.contains id <;> simp [h, bump]

theorem settleAckWait_eq (m : Manager) (id : FutureId) (o : Outcome Unit) :
    m.settleAckWait id o = { m with
      ackWaits := (m.ackWaits.complete id o).2
      metrics := if m.ackWaits.contains id then m.metrics.bump .futuresCompleted
        else m.metrics } := by
  unfold settleAckWait
  by_cases h : m.ackWaits.contains id <;> simp [h, bump]

section Ask
variable (m : Manager) (view : Outlook) (id : FutureId) (target : NodeId) (what : Request)

/-- A request enters its future, and takes it back at once if the transport refuses. -/
theorem ask_manager :
    (m.ask view id target what).manager =
      match view.refusal? target with
      | none => m.enter id target what
      | some cause => ((m.enter id target what).bump .sendFailures).refuse id cause what := by
  cases what <;> simp only [ask, requestTx, requestQuery, ackCommit, transmit] <;>
    cases view.refusal? target <;> simp only [enter, refuse]
  split <;> rfl

@[simp] theorem ask_self : (m.ask view id target what).manager.self = m.self := by
  rw [ask_manager]
  cases view.refusal? target <;> cases what <;>
    simp only [enter, refuse, settleCounterWait_eq, settleAckWait_eq] <;> rfl

@[simp] theorem ask_counters : (m.ask view id target what).manager.counters = m.counters := by
  rw [ask_manager]
  cases view.refusal? target <;> cases what <;>
    simp only [enter, refuse, settleCounterWait_eq, settleAckWait_eq] <;> rfl

theorem ask_counterWaits :
    (m.ask view id target what).manager.counterWaits =
      match what, view.refusal? target with
      | .commit _, _ => m.counterWaits
      | _, none => m.counterWaits.register id target
      | _, some cause => ((m.counterWaits.register id target).complete id (.error cause)).2 := by
  rw [ask_manager]
  cases view.refusal? target <;> cases what <;>
    simp only [enter, refuse, settleCounterWait_eq, settleAckWait_eq] <;> rfl

theorem ask_ackWaits :
    (m.ask view id target what).manager.ackWaits =
      match what, view.refusal? target with
      | .commit _, none => m.ackWaits.register id target
      | .commit _, some cause => ((m.ackWaits.register id target).complete id
          (if cause.isTopology then .ok () else .error cause)).2
      | _, _ => m.ackWaits := by
  rw [ask_manager]
  cases view.refusal? target <;> cases what <;>
    simp only [enter, refuse, settleCounterWait_eq, settleAckWait_eq] <;> rfl

@[simp] theorem ask_cancelAcks :
    (m.ask view id target what).manager.cancelAcks = m.cancelAcks := by
  rw [ask_manager]
  cases view.refusal? target <;> cases what <;>
    simp only [enter, refuse, settleCounterWait_eq, settleAckWait_eq] <;> rfl

theorem resolved_of_ask {f : FutureId} {counter : Version}
    (h : (m.ask view id target what).manager.counterWaits.future? f =
      some (.resolved (.ok counter))) :
    m.counterWaits.future? f = some (.resolved (.ok counter)) := by
  have registered : (m.counterWaits.register id target).future? f =
      some (.resolved (.ok counter)) → m.counterWaits.future? f =
        some (.resolved (.ok counter)) := by
    intro hf
    rw [Waitlist.future?_register] at hf
    split at hf
    · cases hf
    · exact hf
  rw [ask_counterWaits] at h
  split at h
  · exact h
  · exact registered h
  · rcases (Waitlist.settles_complete _ id _).resolved f _ h with hf | ⟨-, hf⟩
    · exact registered hf
    · cases hf

theorem ask_sent :
    (m.ask view id target what).sent = view.outgoing? target (what.message id) := by
  unfold Outlook.outgoing?
  cases what <;> simp only [ask, requestTx, requestQuery, ackCommit, transmit] <;>
    cases view.refusal? target <;> simp only [Request.message]
  split <;> rfl

end Ask

def afterSend (m : Manager) (view : Outlook) (target : NodeId) : Manager :=
  { m with
    metrics :=
      match view.refusal? target with
      | none => m.metrics
      | some _ => m.metrics.bump .sendFailures }

section Send
variable (m : Manager) (view : Outlook) (target : NodeId)

@[simp] theorem afterSend_self : (m.afterSend view target).self = m.self := rfl

@[simp] theorem afterSend_counters : (m.afterSend view target).counters = m.counters := rfl

@[simp] theorem afterSend_counterWaits :
    (m.afterSend view target).counterWaits = m.counterWaits := rfl

@[simp] theorem afterSend_ackWaits : (m.afterSend view target).ackWaits = m.ackWaits := rfl

@[simp] theorem afterSend_cancelAcks : (m.afterSend view target).cancelAcks = m.cancelAcks := rfl

variable (message : Message)

@[simp] theorem reply_manager (what : Log.Reply) :
    (m.reply view target message what).manager = m.afterSend view target := by
  unfold reply transmit afterSend
  cases view.refusal? target <;> simp only
  split <;> rfl

@[simp] theorem reply_sent (what : Log.Reply) :
    (m.reply view target message what).sent = view.outgoing? target message := by
  unfold reply transmit Outlook.outgoing?
  cases view.refusal? target <;> simp only
  split <;> rfl

@[simp] theorem ackRollback_manager (tx : TxId) :
    (m.ackRollback view target tx).manager = m.afterSend view target := by
  unfold ackRollback transmit afterSend
  cases view.refusal? target <;> simp only
  split <;> rfl

@[simp] theorem ackRollback_sent (tx : TxId) :
    (m.ackRollback view target tx).sent =
      view.outgoing? target (.txAckRequest noFuture tx true) := by
  unfold ackRollback transmit Outlook.outgoing?
  cases view.refusal? target <;> simp only
  split <;> rfl

@[simp] theorem ackQuery_manager (counter : Version) :
    (m.ackQuery view target counter).manager = m.afterSend view target := by
  unfold ackQuery transmit afterSend
  cases view.refusal? target <;> simp only
  split <;> rfl

@[simp] theorem ackQuery_sent (counter : Version) :
    (m.ackQuery view target counter).sent =
      view.outgoing? target (.queryAckRequest counter) := by
  unfold ackQuery transmit Outlook.outgoing?
  cases view.refusal? target <;> simp only
  split <;> rfl

end Send

section Call
variable (m : Manager) (view : Outlook) (c : Call)

@[simp] theorem call_self : (m.call view c).manager.self = m.self := by
  cases c <;> simp [call, departed, eventsMissed, nodeLeft, resync, withCancelled,
    dropCounterFuture, dropAckFuture]

@[simp] theorem call_counters : (m.call view c).manager.counters = m.counters := by
  cases c <;> simp [call, departed, eventsMissed, nodeLeft, resync, withCancelled,
    dropCounterFuture, dropAckFuture]

@[simp] theorem call_cancelAcks : (m.call view c).manager.cancelAcks = m.cancelAcks := by
  cases c <;> simp [call, departed, eventsMissed, nodeLeft, resync, withCancelled,
    dropCounterFuture, dropAckFuture]

/-- A call resolves counter futures only with errors. -/
theorem call_settles :
    Waitlist.Settles (fun _ o => ∃ node, o = .error (.coordinatorLost node)) m.counterWaits
      (m.call view c).manager.counterWaits := by
  cases c with
  | rollback | queryDone => simpa [call] using .refl _
  | dropAck => exact .refl _
  | nodeLeft node =>
    exact (Waitlist.settles_completeAllFor _ node _).mono fun _ _ h => ⟨node, h.1⟩
  | departed event =>
    exact (Waitlist.settles_completeAllFor _ event.node _).mono fun _ _ h => ⟨event.node, h.1⟩
  | resync | missed =>
    refine (Waitlist.settles_completeAllGone _ _ _).mono ?_
    rintro f o ⟨e, -, -, -, ho⟩
    exact ⟨e.target, ho⟩
  | dropCounter future => exact (Waitlist.settles_drop _ future).mono fun _ _ h => h.elim

/-- What a call sends is a finished transaction or a finished query, and wants no answer. -/
theorem call_sent {out : Outgoing} (h : (m.call view c).sent = some out) :
    (∃ tx, out.payload = Wire.encode (.txAckRequest noFuture tx true)) ∨
      ∃ counter, out.payload = Wire.encode (.queryAckRequest counter) := by
  cases c with
  | rollback target tx =>
    simp only [call, ackRollback_sent, Outlook.outgoing?] at h
    split at h <;> cases h
    exact .inl ⟨tx, rfl⟩
  | queryDone target counter =>
    simp only [call, ackQuery_sent, Outlook.outgoing?] at h
    split at h <;> cases h
    exact .inr ⟨counter, rfl⟩
  | nodeLeft | departed | resync | missed | dropCounter | dropAck => cases h

end Call

section Receive
variable (m : Manager) (view : Outlook) (sender : NodeId) (future : FutureId)

theorem serveTx_manager (tx : TxId) :
    (m.serveTx view sender future tx).manager =
      if view.alive sender then
        match (m.counters.assign tx).1 with
        | .ok _ => ({ m with counters := (m.counters.assign tx).2 }.bump
            .txCountersAssigned).afterSend view sender
        | .error _ => m.bump .protocolViolations
      else m := by
  unfold serveTx
  split
  · rcases m.counters.assign tx with ⟨_ | counter, counters⟩ <;> simp
  · rfl

theorem serveQuery_manager :
    (m.serveQuery view sender future).manager =
      if view.alive sender then (m.bump .queryCountersAssigned).afterSend view sender else m := by
  unfold serveQuery
  split
  · simp only [Counters.queryDone]
    split <;> exact reply_manager ..
  · rfl

theorem serveTxAck_manager (tx : TxId) (skip : Bool) :
    (m.serveTxAck view sender future tx skip).manager =
      let acked := { m with counters := (m.counters.ack tx).2 }.bump .txAcksProcessed
      if skip then acked else acked.afterSend view sender := by
  unfold serveTxAck
  split <;> simp

theorem acceptCounter_manager (counter : Version) :
    (m.acceptCounter view sender future counter).manager =
      if m.counterWaits.contains future then
        { m with counterWaits := (m.counterWaits.complete future (.ok counter)).2 }.countResponse
      else m.bump .unmatchedResponses := by
  unfold acceptCounter
  rw [← m.counterWaits.complete_won future (.ok counter)]
  rcases m.counterWaits.complete future (.ok counter) with ⟨_ | _, waits⟩ <;> rfl

theorem acceptAck_manager :
    (m.acceptAck view sender future).manager =
      if m.ackWaits.contains future then
        { m with ackWaits := (m.ackWaits.complete future (.ok ())).2 }.countResponse
      else m.bump .unmatchedResponses := by
  unfold acceptAck
  rw [← m.ackWaits.complete_won future (.ok ())]
  rcases m.ackWaits.complete future (.ok ()) with ⟨_ | _, waits⟩ <;> rfl

variable (message : Message)

/-- A message changes the metrics, the counters if it is about a transaction, and the waitlist of
the future it answers. -/
theorem act_effect :
    ∃ metrics, (m.act view sender message).manager = { m with
      counters :=
        match message with
        | .txCounterRequest _ tx =>
            if view.alive sender then (m.counters.assign tx).2 else m.counters
        | .txAckRequest _ tx _ => (m.counters.ack tx).2
        | _ => m.counters
      counterWaits :=
        match message with
        | .counterResponse future counter => (m.counterWaits.complete future (.ok counter)).2
        | _ => m.counterWaits
      ackWaits :=
        match message with
        | .txAckResponse future => (m.ackWaits.complete future (.ok ())).2
        | _ => m.ackWaits
      metrics } := by
  cases message with
  | txCounterRequest future tx =>
    rw [act, serveTx_manager]
    by_cases halive : view.alive sender
    · cases hassign : (m.counters.assign tx).1 with
      | ok counter =>
        simp only [halive, if_true]
        exact ⟨_, rfl⟩
      | error cause =>
        simp only [halive, if_true, Counters.assign_of_error hassign]
        exact ⟨_, rfl⟩
    · simp only [halive]
      exact ⟨_, rfl⟩
  | queryCounterRequest future =>
    rw [act, serveQuery_manager]
    split <;> exact ⟨_, rfl⟩
  | counterResponse future counter =>
    rw [act, acceptCounter_manager]
    split
    · exact ⟨_, rfl⟩
    · rename_i hmissing
      simp only [Waitlist.complete_eq, hmissing]
      exact ⟨_, rfl⟩
  | txAckRequest future tx skip =>
    rw [act, serveTxAck_manager]
    simp only
    split <;> exact ⟨_, rfl⟩
  | txAckResponse future =>
    rw [act, acceptAck_manager]
    split
    · exact ⟨_, rfl⟩
    · rename_i hmissing
      simp only [Waitlist.complete_eq, hmissing]
      exact ⟨_, rfl⟩
  | queryAckRequest counter => exact ⟨_, rfl⟩

@[simp] theorem act_self : (m.act view sender message).manager.self = m.self := by
  obtain ⟨_, h⟩ := m.act_effect view sender message
  rw [h]

theorem act_counters :
    (m.act view sender message).manager.counters =
      match message with
      | .txCounterRequest _ tx =>
          if view.alive sender then (m.counters.assign tx).2 else m.counters
      | .txAckRequest _ tx _ => (m.counters.ack tx).2
      | _ => m.counters := by
  obtain ⟨_, h⟩ := m.act_effect view sender message
  rw [h]

@[simp] theorem act_committed :
    (m.act view sender message).manager.counters.committed = m.counters.committed := by
  rw [act_counters]
  split
  · split <;> simp
  · simp
  · rfl

theorem act_counterWaits :
    (m.act view sender message).manager.counterWaits =
      match message with
      | .counterResponse future counter => (m.counterWaits.complete future (.ok counter)).2
      | _ => m.counterWaits := by
  obtain ⟨_, h⟩ := m.act_effect view sender message
  rw [h]

theorem act_ackWaits :
    (m.act view sender message).manager.ackWaits =
      match message with
      | .txAckResponse future => (m.ackWaits.complete future (.ok ())).2
      | _ => m.ackWaits := by
  obtain ⟨_, h⟩ := m.act_effect view sender message
  rw [h]

@[simp] theorem act_cancelAcks :
    (m.act view sender message).manager.cancelAcks = m.cancelAcks := by
  obtain ⟨_, h⟩ := m.act_effect view sender message
  rw [h]

/-- What leaves is the answer of the coordinator. -/
theorem act_sent :
    (m.act view sender message).sent =
      (m.answer? view sender message).bind (view.outgoing? sender) := by
  cases message with
  | txCounterRequest future tx =>
    simp only [act, serveTx, answer?]
    split
    · rcases m.counters.assign tx with ⟨_ | counter, counters⟩ <;> simp
    · rfl
  | queryCounterRequest future =>
    simp only [act, serveQuery, answer?]
    split
    · split <;> simp
    · rfl
  | counterResponse future counter =>
    simp only [act, acceptCounter, answer?, unmatched]
    split <;> rfl
  | txAckRequest future tx skip =>
    simp only [act, serveTxAck, answer?]
    cases skip <;> simp
  | txAckResponse future =>
    simp only [act, acceptAck, answer?, unmatched]
    split <;> rfl
  | queryAckRequest counter => rfl

variable (payload : Bytes)

@[simp] theorem receive_self : (m.receive view sender payload).manager.self = m.self := by
  unfold receive
  split
  · exact act_self ..
  · rfl

theorem receive_of_decode {message : Message} (h : Wire.decode payload = .ok message) :
    (m.receive view sender payload).manager = (m.act view sender message).manager ∧
      (m.receive view sender payload).sent = (m.act view sender message).sent := by
  simp [receive, h, handle]

/-- Bytes that are no message leave nothing but a count behind. -/
theorem receive_of_fault {fault : Wire.Fault} (h : Wire.decode payload = .error fault) :
    (m.receive view sender payload).manager = m.bump .droppedMessages ∧
      (m.receive view sender payload).sent = none := by
  simp [receive, h]

@[simp] theorem dispatch_self (e : Envelope) : (m.dispatch view e).manager.self = m.self := by
  unfold dispatch
  split
  · exact receive_self ..
  · rfl

end Receive

/-! Whatever leaves was taken by the transport. -/

section Accepted
variable {m : Manager} {view : Outlook} {out : Outgoing}

theorem accepted_outgoing? {target : NodeId} {message : Message}
    (h : view.outgoing? target message = some out) : view.refusal? out.target = none := by
  unfold Outlook.outgoing? at h
  split at h <;> cases h
  assumption

theorem accepted_ask {id : FutureId} {target : NodeId} {what : Request}
    (h : (m.ask view id target what).sent = some out) : view.refusal? out.target = none := by
  rw [ask_sent] at h
  exact accepted_outgoing? h

theorem accepted_call {c : Call} (h : (m.call view c).sent = some out) :
    view.refusal? out.target = none := by
  cases c with
  | rollback target tx =>
    rw [call, ackRollback_sent] at h
    exact accepted_outgoing? h
  | queryDone target counter =>
    rw [call, ackQuery_sent] at h
    exact accepted_outgoing? h
  | nodeLeft | departed | resync | missed | dropCounter | dropAck => cases h

theorem accepted_receive {sender : NodeId} {payload : Bytes}
    (h : (m.receive view sender payload).sent = some out) : view.refusal? out.target = none := by
  cases hdecode : Wire.decode payload with
  | error fault =>
    rw [(receive_of_fault m view sender payload hdecode).2] at h
    cases h
  | ok message =>
    rw [(receive_of_decode m view sender payload hdecode).2, act_sent] at h
    obtain ⟨answer, -, hout⟩ := Option.bind_eq_some_iff.mp h
    exact accepted_outgoing? hout

theorem accepted_dispatch {e : Envelope} (h : (m.dispatch view e).sent = some out) :
    view.refusal? out.target = none := by
  unfold dispatch at h
  split at h
  · exact accepted_receive h
  · cases h

end Accepted

end Manager
end CounterCoordinator
