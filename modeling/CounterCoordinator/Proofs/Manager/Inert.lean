import CounterCoordinator.Proofs.Counters.Ledger
import CounterCoordinator.Proofs.Manager.Turn

/-!
# Inert envelopes

Much of what can lie in an inbox has no effect when its turn comes: envelopes of other channels,
bytes that are no message, responses that nobody waits for, requests for counters by nodes that are
gone or for transactions that are active already, and finished queries. Each of these raises one
metric at most. `inert_removable` says that a dispatcher might as well leave them all out: it would
go through the same states, but for these metrics, and send the same messages.
-/
namespace CounterCoordinator

/-- Why an envelope has no effect. -/
inductive Inert where
  | otherChannel
  | undecodable
  /-- A response to a future that does not wait in the table of its kind. -/
  | unmatched
  /-- A request for a counter by a node that is not alive. -/
  | senderGone
  /-- A request for a counter of a transaction that is active already. -/
  | alreadyActive
  | queryDone
deriving DecidableEq, Repr

def Inert.metric? : Inert → Option Metrics.Counter
  | undecodable => some .droppedMessages
  | unmatched => some .unmatchedResponses
  | alreadyActive => some .protocolViolations
  | otherChannel | senderGone | queryDone => none

structure Arrival where
  view : Outlook
  envelope : Envelope

/-- Raise the metrics that count inert envelopes. -/
def Metrics.noting (x : Metrics) (reasons : List Inert) : Metrics :=
  { x with
    droppedMessages := x.droppedMessages + UInt64.ofNat (reasons.count .undecodable)
    unmatchedResponses := x.unmatchedResponses + UInt64.ofNat (reasons.count .unmatched)
    protocolViolations := x.protocolViolations + UInt64.ofNat (reasons.count .alreadyActive) }

namespace Metrics
variable (x : Metrics) (reasons : List Inert)

theorem noting_nil : x.noting [] = x := by
  simp [noting]

theorem noting_append (more : List Inert) :
    (x.noting reasons).noting more = x.noting (reasons ++ more) := by
  simp [noting, List.count_append, UInt64.ofNat_add, UInt64.add_assoc]

theorem noting_bump (c : Counter) : (x.noting reasons).bump c = (x.bump c).noting reasons := by
  have swap : ∀ a b c : UInt64, a + b + c = a + c + b := fun a b c => by
    rw [UInt64.add_assoc, UInt64.add_comm b c, ← UInt64.add_assoc]
  cases c <;> simp only [noting, bump, add] <;> rw [swap]

end Metrics

namespace Manager

def idle? (m : Manager) (view : Outlook) (sender : NodeId) : Message → Option Inert
  | .txCounterRequest _ tx =>
      if view.alive sender then
        if (m.counters.activeCounter? tx).isSome then some .alreadyActive else none
      else some .senderGone
  | .queryCounterRequest _ => if view.alive sender then none else some .senderGone
  | .counterResponse future _ =>
      if m.counterWaits.contains future then none else some .unmatched
  | .txAckRequest .. => none
  | .txAckResponse future => if m.ackWaits.contains future then none else some .unmatched
  | .queryAckRequest _ => some .queryDone

def inert? (m : Manager) (a : Arrival) : Option Inert :=
  match a.envelope.channel with
  | .other _ => some .otherChannel
  | .coordinator =>
      match Wire.decode a.envelope.payload with
      | .ok message => m.idle? a.view a.envelope.sender message
      | .error _ => some .undecodable

/-- Handle an envelope that has its turn. -/
def arrive (m : Manager) (a : Arrival) : Reaction := m.dispatch a.view a.envelope

/-- Run the dispatcher on an inbox: the manager after it, and what was sent, oldest first. -/
def drain (m : Manager) : List Arrival → Manager × List Outgoing
  | [] => (m, [])
  | a :: inbox =>
      let (last, sent) := (m.arrive a).manager.drain inbox
      (last, (m.arrive a).sent.toList ++ sent)

/-- The inbox without all envelopes that are inert when their turn comes. -/
def effective (m : Manager) : List Arrival → List Arrival
  | [] => []
  | a :: inbox =>
      let rest := (m.arrive a).manager.effective inbox
      if (m.inert? a).isSome then rest else a :: rest

/-- Why envelopes of an inbox are inert when their turn comes; those that are not have no entry. -/
def reasons (m : Manager) : List Arrival → List Inert
  | [] => []
  | a :: inbox => (m.inert? a).toList ++ (m.arrive a).manager.reasons inbox

def noting (m : Manager) (reasons : List Inert) : Manager :=
  { m with metrics := m.metrics.noting reasons }

theorem noting_nil (m : Manager) : m.noting [] = m := by
  rw [noting, Metrics.noting_nil]

theorem noting_append (m : Manager) (reasons more : List Inert) :
    (m.noting reasons).noting more = m.noting (reasons ++ more) := by
  simp only [noting, Metrics.noting_append]

section Blind
variable (m : Manager) (reasons : List Inert)

/-! Nothing that a manager does depends on these metrics. -/

theorem noting_bump (c : Metrics.Counter) :
    (m.noting reasons).bump c = (m.bump c).noting reasons := by
  simp only [noting, bump, Metrics.noting_bump]

theorem noting_afterSend (view : Outlook) (target : NodeId) :
    (m.noting reasons).afterSend view target = (m.afterSend view target).noting reasons := by
  unfold afterSend noting
  cases view.refusal? target with
  | none => rfl
  | some cause => simp only [Metrics.noting_bump]

theorem noting_countResponse :
    (m.noting reasons).countResponse = m.countResponse.noting reasons := by
  unfold countResponse noting
  simp only
  rw [← Metrics.noting_bump]
  rfl

theorem act_noting (view : Outlook) (sender : NodeId) (message : Message) :
    ((m.noting reasons).act view sender message).manager =
        (m.act view sender message).manager.noting reasons ∧
      ((m.noting reasons).act view sender message).sent = (m.act view sender message).sent := by
  refine ⟨?_, by rw [act_sent, act_sent]; rfl⟩
  have counters : ∀ c : Counters, { m.noting reasons with counters := c } =
      ({ m with counters := c } : Manager).noting reasons := fun _ => rfl
  cases message with
  | txCounterRequest future tx =>
    rw [act, act, serveTx_manager, serveTx_manager]
    split
    · cases hassign : (m.counters.assign tx).1 with
      | ok counter =>
        have hsame : ((m.noting reasons).counters.assign tx).1 = .ok counter := hassign
        simp only [hsame]
        rw [counters, noting_bump, noting_afterSend]
        rfl
      | error cause =>
        have hsame : ((m.noting reasons).counters.assign tx).1 = .error cause := hassign
        simp only [hsame]
        exact m.noting_bump reasons _
    · rfl
  | queryCounterRequest future =>
    rw [act, act, serveQuery_manager, serveQuery_manager, noting_bump, noting_afterSend]
    split <;> rfl
  | counterResponse future counter =>
    rw [act, act, acceptCounter_manager, acceptCounter_manager]
    change (if m.counterWaits.contains future then _ else _) = _
    split
    · exact noting_countResponse { m with counterWaits := _ } reasons
    · exact m.noting_bump reasons _
  | txAckRequest future tx skip =>
    rw [act, act, serveTxAck_manager, serveTxAck_manager]
    simp only
    rw [counters, noting_bump, noting_afterSend]
    split <;> rfl
  | txAckResponse future =>
    rw [act, act, acceptAck_manager, acceptAck_manager]
    change (if m.ackWaits.contains future then _ else _) = _
    split
    · exact noting_countResponse { m with ackWaits := _ } reasons
    · exact m.noting_bump reasons _
  | queryAckRequest counter => rfl

theorem arrive_noting (a : Arrival) :
    ((m.noting reasons).arrive a).manager = (m.arrive a).manager.noting reasons ∧
      ((m.noting reasons).arrive a).sent = (m.arrive a).sent := by
  unfold arrive dispatch
  split
  · cases hdecode : Wire.decode a.envelope.payload with
    | ok message =>
      obtain ⟨hmanager, hsent⟩ := receive_of_decode m a.view a.envelope.sender _ hdecode
      obtain ⟨hmanager', hsent'⟩ :=
        receive_of_decode (m.noting reasons) a.view a.envelope.sender _ hdecode
      rw [hmanager, hsent, hmanager', hsent']
      exact m.act_noting reasons a.view a.envelope.sender message
    | error fault =>
      obtain ⟨hmanager, hsent⟩ := receive_of_fault m a.view a.envelope.sender _ hdecode
      obtain ⟨hmanager', hsent'⟩ :=
        receive_of_fault (m.noting reasons) a.view a.envelope.sender _ hdecode
      rw [hmanager, hsent, hmanager', hsent']
      exact ⟨m.noting_bump reasons _, rfl⟩
  · exact ⟨rfl, rfl⟩

theorem drain_noting (inbox : List Arrival) :
    (m.noting reasons).drain inbox = ((m.drain inbox).1.noting reasons, (m.drain inbox).2) := by
  induction inbox generalizing m with
  | nil => rfl
  | cons a inbox ih =>
    obtain ⟨hmanager, hsent⟩ := m.arrive_noting reasons a
    simp only [drain, hmanager, hsent, ih]

theorem reasons_noting (inbox : List Arrival) :
    (m.noting reasons).reasons inbox = m.reasons inbox := by
  induction inbox generalizing m with
  | nil => rfl
  | cons a inbox ih =>
    have hsame : (m.noting reasons).inert? a = m.inert? a := rfl
    simp only [Manager.reasons, hsame, (m.arrive_noting reasons a).1, ih]

end Blind

section Removal
variable {m : Manager} {a : Arrival}

theorem noting_singleton (m : Manager) (why : Inert) :
    m.noting [why] =
      match why.metric? with
      | some c => m.bump c
      | none => m := by
  cases why <;> simp [Inert.metric?, noting, Metrics.noting, bump, Metrics.bump, Metrics.add]

theorem act_of_idle {view : Outlook} {sender : NodeId} {message : Message} {why : Inert}
    (h : m.idle? view sender message = some why) :
    (m.act view sender message).manager = m.noting [why] ∧
      (m.act view sender message).sent = none := by
  rw [noting_singleton, act_sent]
  cases message with
  | txCounterRequest future tx =>
    rw [act, serveTx_manager]
    simp only [idle?] at h
    split at h
    · split at h <;> cases h
      rename_i halive hactive
      obtain ⟨held, hheld⟩ := Option.isSome_iff_exists.mp hactive
      simp [answer?, halive, Counters.assign_of_active hheld, Inert.metric?]
    · cases h
      rename_i hgone
      simp [answer?, hgone, Inert.metric?]
  | queryCounterRequest future =>
    rw [act, serveQuery_manager]
    simp only [idle?] at h
    split at h <;> cases h
    rename_i hgone
    simp [answer?, hgone, Inert.metric?]
  | counterResponse future counter =>
    rw [act, acceptCounter_manager]
    simp only [idle?] at h
    split at h <;> cases h
    rename_i hmissing
    simp [answer?, hmissing, Inert.metric?]
  | txAckRequest => cases h
  | txAckResponse future =>
    rw [act, acceptAck_manager]
    simp only [idle?] at h
    split at h <;> cases h
    rename_i hmissing
    simp [answer?, hmissing, Inert.metric?]
  | queryAckRequest counter =>
    cases h
    exact ⟨rfl, rfl⟩

/-- An inert envelope raises the metric of its reason, if there is one, and sends nothing. -/
theorem arrive_of_inert {why : Inert} (h : m.inert? a = some why) :
    (m.arrive a).manager = m.noting [why] ∧ (m.arrive a).sent = none := by
  unfold inert? at h
  unfold arrive dispatch
  split at h
  · rename_i hchannel
    cases h
    rw [hchannel, noting_singleton]
    exact ⟨rfl, rfl⟩
  · rename_i hchannel
    rw [hchannel]
    split at h
    · rename_i message hdecode
      obtain ⟨hmanager, hsent⟩ := receive_of_decode m a.view a.envelope.sender _ hdecode
      rw [hmanager, hsent]
      exact act_of_idle h
    · rename_i hdecode
      cases h
      rw [noting_singleton]
      exact receive_of_fault m a.view a.envelope.sender _ hdecode

end Removal

/-- Whatever is inert when its turn comes can be taken out of an inbox: the manager ends up the
same, with the same counters, waitlists and outcomes of futures, and has sent the same messages.
Only three metrics tell the two runs apart, by the number of envelopes taken out for each reason.
Nothing that is left is inert when its turn comes. -/
theorem inert_removable (m : Manager) (inbox : List Arrival) :
    let full := m.drain inbox
    let spared := m.drain (m.effective inbox)
    full.2 = spared.2 ∧ full.1 = spared.1.noting (m.reasons inbox) ∧
      m.reasons (m.effective inbox) = [] := by
  induction inbox generalizing m with
  | nil => exact ⟨rfl, (noting_nil m).symm, rfl⟩
  | cons a inbox ih =>
    obtain ⟨hsent, hmanager, hleft⟩ := ih (m.arrive a).manager
    cases hinert : m.inert? a with
    | some why =>
      obtain ⟨harrive, hnothing⟩ := arrive_of_inert hinert
      simp only [drain, effective, reasons, hinert, Option.isSome_some, if_true, hnothing]
      rw [hsent, hmanager]
      simp only [harrive, drain_noting, reasons_noting, noting_append] at hleft ⊢
      exact ⟨rfl, rfl, hleft⟩
    | none =>
      simp only [drain, effective, reasons, hinert, Option.isSome_none, Bool.false_eq_true,
        if_false]
      exact ⟨congrArg _ hsent, hmanager, hleft⟩

end Manager
end CounterCoordinator
