import CounterCoordinator.Proofs.Counters.Ledger
import CounterCoordinator.Proofs.Manager.Fate
import CounterCoordinator.Proofs.Manager.Life

/-!
# Metrics and state

Six metrics of a manager say what its tables went through: the counters it assigned, the
acknowledgements it processed, the answers it took, the futures that were completed, the messages
that could not be sent and the responses nobody waited for. A `Tally` counts the same events without
ever wrapping around, and `Tallied` relates both to the counters. Every turn raises each count by
one at most, so in short enough lives the metrics say what the tally says.
-/
namespace CounterCoordinator

structure Tally where
  assigned : Nat := 0
  acked : Nat := 0
  /-- Responses that completed a future; their latencies are observed. -/
  answered : Nat := 0
  completed : Nat := 0
  unsent : Nat := 0
  stray : Nat := 0
deriving DecidableEq, Repr

namespace Tally

/-- Count what raises a metric; the other metrics are not on the tally. -/
def bump (t : Tally) : Metrics.Counter → Tally
  | .txCountersAssigned => { t with assigned := t.assigned + 1 }
  | .txAcksProcessed => { t with acked := t.acked + 1 }
  | .futuresCompleted => { t with completed := t.completed + 1 }
  | .sendFailures => { t with unsent := t.unsent + 1 }
  | .unmatchedResponses => { t with stray := t.stray + 1 }
  | .queryCountersAssigned | .protocolViolations | .futuresRegistered | .futuresCancelled
  | .droppedMessages => t

/-- Count a response that completes a future. -/
def answer (t : Tally) : Tally :=
  { t with answered := t.answered + 1, completed := t.completed + 1 }

structure Next (t t' : Tally) (response : Bool) : Prop where
  assigned : t'.assigned ≤ t.assigned + 1
  acked : t'.acked ≤ t.acked + 1
  completed : t'.completed ≤ t.completed + 1
  unsent : t'.unsent ≤ t.unsent + 1
  responses : t'.answered + t'.stray = t.answered + t.stray + response.toNat

namespace Next
variable {t t' : Tally}

theorem refl (t : Tally) : Next t t false := by
  constructor <;> simp

theorem bump (t : Tally) {c : Metrics.Counter} (hc : c ≠ .unmatchedResponses) :
    Next t (t.bump c) false := by
  cases c <;> first | contradiction | (constructor <;> simp [Tally.bump])

theorem stray (t : Tally) : Next t (t.bump .unmatchedResponses) true :=
  ⟨Nat.le_succ _, Nat.le_succ _, Nat.le_succ _, Nat.le_succ _, rfl⟩

theorem answer (t : Tally) : Next t t.answer true :=
  ⟨Nat.le_succ _, Nat.le_succ _, Nat.le_refl _, Nat.le_succ _, Nat.add_right_comm ..⟩

/-- Whatever a turn counted, it may also fail to send one message. -/
theorem failing {response : Bool} (h : Next t t' response) (hunsent : t'.unsent = t.unsent) :
    Next t (t'.bump .sendFailures) response :=
  ⟨h.assigned, h.acked, h.completed, Nat.succ_le_succ hunsent.le, h.responses⟩

theorem refused (t : Tally) : Next t ((t.bump .sendFailures).bump .futuresCompleted) false :=
  ⟨Nat.le_succ _, Nat.le_succ _, Nat.le_refl _, Nat.le_refl _, rfl⟩

end Next

end Tally

/-- The metrics say what the tally says, up to wrapping. -/
structure Metrics.Shows (x : Metrics) (t : Tally) : Prop where
  assigned : x.txCountersAssigned = UInt64.ofNat t.assigned
  acked : x.txAcksProcessed = UInt64.ofNat t.acked
  answered : x.responseLatency.count = UInt64.ofNat t.answered
  completed : x.futuresCompleted = UInt64.ofNat t.completed
  unsent : x.sendFailures = UInt64.ofNat t.unsent
  stray : x.unmatchedResponses = UInt64.ofNat t.stray

namespace Metrics.Shows
variable {x : Metrics} {t : Tally}

theorem bump (h : x.Shows t) (c : Counter) : (x.bump c).Shows (t.bump c) := by
  cases c <;> constructor <;>
    simp [Metrics.bump, Metrics.add, Tally.bump, UInt64.ofNat_add, h.assigned, h.acked, h.answered,
      h.completed, h.unsent, h.stray]

theorem cancelled (h : x.Shows t) (n : UInt64) : (x.add .futuresCancelled n).Shows t :=
  ⟨h.assigned, h.acked, h.answered, h.completed, h.unsent, h.stray⟩

theorem answer (h : x.Shows t) (milliseconds : Float) :
    ((x.observeLatency milliseconds).bump .futuresCompleted).Shows t.answer := by
  constructor <;>
    simp [Metrics.observeLatency, Histogram.observe, Metrics.bump, Metrics.add, Tally.answer,
      UInt64.ofNat_add, h.assigned, h.acked, h.answered, h.completed, h.unsent, h.stray]

end Metrics.Shows

namespace Counters
variable {s : Counters}

/-- No transaction is listed twice among the active ones. -/
def Single (s : Counters) : Prop := (s.active.map Prod.fst).Nodup

theorem Single.assign (hs : s.Single) (tx : TxId) : (s.assign tx).2.Single := by
  cases hassign : (s.assign tx).1 with
  | error cause =>
    rw [assign_of_error hassign]
    exact hs
  | ok counter =>
    have hinactive : s.activeCounter? tx = none := by
      cases hactive : s.activeCounter? tx with
      | none => rfl
      | some held => simp [assign_of_active hactive] at hassign
    rw [(assign_of_ok hassign).2]
    refine List.nodup_cons.mpr ⟨?_, hs⟩
    intro hmem
    obtain ⟨held, hheld, heq⟩ := List.mem_map.mp hmem
    have hne := List.lookup_eq_none_iff.mp hinactive held hheld
    simp [heq] at hne

theorem Single.ack (hs : s.Single) (tx : TxId) : (s.ack tx).2.Single :=
  hs.sublist (List.filter_sublist.map _)

theorem Single.activeCount_ack (hs : s.Single) (tx : TxId) :
    (s.ack tx).2.activeCount ≤ s.activeCount ∧ s.activeCount ≤ (s.ack tx).2.activeCount + 1 := by
  refine ⟨List.length_filter_le .., ?_⟩
  have hkept : (s.ack tx).2.activeCount = ((s.active.map Prod.fst).erase tx).length := by
    rw [List.Nodup.erase_eq_filter hs, List.filter_map, List.length_map]
    exact congrArg List.length (List.filter_congr fun e _ => by simp [bne, BEq.beq])
  have hall : s.activeCount = (s.active.map Prod.fst).length := (List.length_map ..).symm
  rw [hkept, hall, List.length_erase]
  split <;> omega

end Counters

structure Tally.Fits (t : Tally) (s : Counters) : Prop where
  current : s.current = Int64.ofNat t.assigned
  single : s.Single
  active_le : s.activeCount ≤ t.assigned
  le_active : t.assigned ≤ s.activeCount + t.acked
  answered_le : t.answered ≤ t.completed
  le_answered : t.completed ≤ t.answered + t.unsent

namespace Tally.Fits
variable {t : Tally} {s : Counters}

theorem new : Fits {} {} :=
  ⟨rfl, List.nodup_nil, Nat.le_refl _, Nat.le_refl _, Nat.le_refl _, Nat.le_refl _⟩

theorem assign (h : t.Fits s) {tx : TxId} {counter : Version}
    (hassign : (s.assign tx).1 = .ok counter) :
    (t.bump .txCountersAssigned).Fits (s.assign tx).2 := by
  have hactive := h.active_le
  have hacked := h.le_active
  obtain ⟨hcounter, hafter⟩ := Counters.assign_of_ok hassign
  refine ⟨?_, h.single.assign tx, ?_, ?_, h.answered_le, h.le_answered⟩
  · rw [hafter, hcounter, h.current, Tally.bump, Int64.ofNat_add]
    rfl
  · simp only [hafter, Counters.activeCount, List.length_cons, Tally.bump] at hactive ⊢
    omega
  · simp only [hafter, Counters.activeCount, List.length_cons, Tally.bump] at hacked ⊢
    omega

theorem ack (h : t.Fits s) (tx : TxId) : (t.bump .txAcksProcessed).Fits (s.ack tx).2 := by
  have hactive := h.active_le
  have hacked := h.le_active
  obtain ⟨hle, hge⟩ := h.single.activeCount_ack tx
  refine ⟨h.current, h.single.ack tx, ?_, ?_, h.answered_le, h.le_answered⟩
  · exact hle.trans hactive
  · simp only [Tally.bump]
    omega

theorem unsent (h : t.Fits s) : (t.bump .sendFailures).Fits s :=
  ⟨h.current, h.single, h.active_le, h.le_active, h.answered_le, Nat.le_succ_of_le h.le_answered⟩

theorem refused (h : t.Fits s) : ((t.bump .sendFailures).bump .futuresCompleted).Fits s :=
  ⟨h.current, h.single, h.active_le, h.le_active, Nat.le_succ_of_le h.answered_le,
    Nat.succ_le_succ h.le_answered⟩

theorem answer (h : t.Fits s) : t.answer.Fits s := by
  have := h.le_answered
  refine ⟨h.current, h.single, h.active_le, h.le_active, Nat.succ_le_succ h.answered_le, ?_⟩
  simp only [Tally.answer]
  omega

theorem stray (h : t.Fits s) : (t.bump .unmatchedResponses).Fits s :=
  ⟨h.current, h.single, h.active_le, h.le_active, h.answered_le, h.le_answered⟩

end Tally.Fits

def Turn.isResponse : Turn → Bool
  | receive _ _ payload =>
      match Wire.decode payload with
      | .ok message => message.settled?.isSome
      | .error _ => false
  | ask .. | call .. | elsewhere => false

namespace Manager

/-- Both the metrics and the counters of a manager agree with the tally. -/
def Tallied (m : Manager) (t : Tally) : Prop := m.metrics.Shows t ∧ t.Fits m.counters

namespace Tallied
variable {m : Manager} {t : Tally}

theorem afterSend {response : Bool} {t₀ : Tally} (h : m.Tallied t)
    (hnext : Tally.Next t₀ t response) (hunsent : t.unsent = t₀.unsent) (view : Outlook)
    (target : NodeId) :
    ∃ t', (m.afterSend view target).Tallied t' ∧ Tally.Next t₀ t' response := by
  unfold Manager.afterSend
  cases view.refusal? target with
  | none => exact ⟨t, h, hnext⟩
  | some cause => exact ⟨_, ⟨h.1.bump .sendFailures, h.2.unsent⟩, hnext.failing hunsent⟩

/-- A request that is refused is the only one to complete a future without a response. -/
theorem ask (h : m.Tallied t) (view : Outlook) (id : FutureId) (target : NodeId)
    (what : Request) :
    ∃ t', (m.ask view id target what).manager.Tallied t' ∧ Tally.Next t t' false := by
  have entered : (m.enter id target what).Tallied t := by
    cases what <;> exact ⟨h.1.bump .futuresRegistered, h.2⟩
  rw [ask_manager]
  cases view.refusal? target with
  | none => exact ⟨t, entered, .refl t⟩
  | some cause =>
    have failed := entered.1.bump .sendFailures
    have completed := failed.bump .futuresCompleted
    cases what with
    | txCounter | queryCounter =>
      simp only [Manager.refuse, settleCounterWait_eq, Tallied]
      split
      · exact ⟨_, ⟨completed, entered.2.refused⟩, .refused t⟩
      · exact ⟨_, ⟨failed, entered.2.unsent⟩, .bump t (by simp)⟩
    | commit =>
      simp only [Manager.refuse, settleAckWait_eq, Tallied]
      split
      · exact ⟨_, ⟨completed, entered.2.refused⟩, .refused t⟩
      · exact ⟨_, ⟨failed, entered.2.unsent⟩, .bump t (by simp)⟩

theorem call (h : m.Tallied t) (view : Outlook) (c : Call) :
    ∃ t', (m.call view c).manager.Tallied t' ∧ Tally.Next t t' false := by
  cases c with
  | rollback target | queryDone target =>
    simp only [Manager.call, ackRollback_manager, ackQuery_manager]
    exact h.afterSend (.refl t) rfl view target
  | nodeLeft | departed | resync | missed => exact ⟨t, ⟨h.1.cancelled _, h.2⟩, .refl t⟩
  | dropCounter | dropAck => exact ⟨t, h, .refl t⟩

theorem act (h : m.Tallied t) (view : Outlook) (sender : NodeId) (message : Message) :
    ∃ t', (m.act view sender message).manager.Tallied t' ∧
      Tally.Next t t' message.settled?.isSome := by
  cases message with
  | txCounterRequest future tx =>
    rw [Manager.act, serveTx_manager]
    split
    · cases hassign : (m.counters.assign tx).1 with
      | ok counter =>
        have served : Tallied (Manager.bump { m with counters := (m.counters.assign tx).2 }
            .txCountersAssigned) (t.bump .txCountersAssigned) :=
          ⟨h.1.bump .txCountersAssigned, h.2.assign hassign⟩
        exact served.afterSend (.bump t (by simp)) rfl view sender
      | error cause => exact ⟨t, ⟨h.1.bump .protocolViolations, h.2⟩, .refl t⟩
    · exact ⟨t, h, .refl t⟩
  | queryCounterRequest future =>
    rw [Manager.act, serveQuery_manager]
    split
    · have served : (m.bump .queryCountersAssigned).Tallied t :=
        ⟨h.1.bump .queryCountersAssigned, h.2⟩
      exact served.afterSend (.refl t) rfl view sender
    · exact ⟨t, h, .refl t⟩
  | counterResponse future counter =>
    rw [Manager.act, acceptCounter_manager]
    split
    · exact ⟨t.answer, ⟨h.1.answer _, h.2.answer⟩, .answer t⟩
    · exact ⟨_, ⟨h.1.bump .unmatchedResponses, h.2.stray⟩, .stray t⟩
  | txAckRequest future tx skip =>
    have acked : Tallied (Manager.bump { m with counters := (m.counters.ack tx).2 }
        .txAcksProcessed) (t.bump .txAcksProcessed) :=
      ⟨h.1.bump .txAcksProcessed, h.2.ack tx⟩
    rw [Manager.act, serveTxAck_manager]
    simp only
    split
    · exact ⟨_, acked, .bump t (by simp)⟩
    · exact acked.afterSend (.bump t (by simp)) rfl view sender
  | txAckResponse future =>
    rw [Manager.act, acceptAck_manager]
    split
    · exact ⟨t.answer, ⟨h.1.answer _, h.2.answer⟩, .answer t⟩
    · exact ⟨_, ⟨h.1.bump .unmatchedResponses, h.2.stray⟩, .stray t⟩
  | queryAckRequest counter => exact ⟨t, h, .refl t⟩

theorem receive (h : m.Tallied t) (view : Outlook) (sender : NodeId) (payload : Bytes) :
    ∃ t', (m.receive view sender payload).manager.Tallied t' ∧
      Tally.Next t t' (Turn.receive view sender payload).isResponse := by
  simp only [Turn.isResponse]
  cases hdecode : Wire.decode payload with
  | ok message =>
    rw [(receive_of_decode m view sender payload hdecode).1]
    exact h.act view sender message
  | error fault =>
    rw [(receive_of_fault m view sender payload hdecode).1]
    exact ⟨t, ⟨h.1.bump .droppedMessages, h.2⟩, .refl t⟩

end Tallied

end Manager

namespace Life

theorem tallied_step {l : Life} {t : Tally} (h : l.manager.Tallied t) (turn : Turn) :
    ∃ t', (l.step turn).manager.Tallied t' ∧ Tally.Next t t' turn.isResponse := by
  cases turn with
  | ask view target what => exact h.ask view _ target what
  | call view c => exact h.call view c
  | receive view sender payload => exact h.receive view sender payload
  | elsewhere => exact ⟨t, h, .refl t⟩

/-- No count on the tally exceeds the number of turns. -/
theorem tallied_ofTurns (node : NodeId) (cancelAcks : Bool) (turns : List Turn) :
    ∃ t : Tally, (ofTurns node cancelAcks turns).manager.Tallied t ∧
      t.assigned ≤ turns.length ∧ t.acked ≤ turns.length ∧ t.completed ≤ turns.length ∧
      t.unsent ≤ turns.length ∧ t.answered + t.stray = turns.countP Turn.isResponse := by
  induction turns using List.reverseRecOn with
  | nil =>
    refine ⟨{}, ⟨⟨rfl, rfl, rfl, rfl, rfl, rfl⟩, .new⟩, ?_⟩
    simp
  | append_singleton turns turn ih =>
    obtain ⟨t, htallied, hassigned, hacked, hcompleted, hunsent, hresponses⟩ := ih
    obtain ⟨t', htallied', hnext⟩ := tallied_step htallied turn
    refine ⟨t', ?_, ?_⟩
    · rw [ofTurns, List.foldl_append]
      exact htallied'
    · obtain ⟨_, _, _, _, hnext_responses⟩ := hnext
      have hcount : [turn].countP Turn.isResponse = turn.isResponse.toNat := by
        rw [List.countP_singleton]
        cases turn.isResponse <;> rfl
      rw [List.length_append, List.length_singleton, List.countP_append, hcount]
      omega

/-- After any turns, be the payloads forged or not, the metrics agree with the tables: as many
counters were assigned as the current one says; the active transactions are among those and only
acknowledgements made others inactive; a future was completed by a response or because its request
could not be sent; and every response was either matched with a future or counted as unmatched. -/
theorem metrics_match_state (node : NodeId) (cancelAcks : Bool) (turns : List Turn)
    (hbound : turns.length < 2 ^ 63) :
    let m := (ofTurns node cancelAcks turns).manager
    (m.metrics.txCountersAssigned.toNat : Int) = m.counters.current.toInt ∧
    m.counters.activeCount ≤ m.metrics.txCountersAssigned.toNat ∧
    m.metrics.txCountersAssigned.toNat ≤
      m.counters.activeCount + m.metrics.txAcksProcessed.toNat ∧
    m.metrics.responseLatency.count.toNat ≤ m.metrics.futuresCompleted.toNat ∧
    m.metrics.futuresCompleted.toNat ≤
      m.metrics.responseLatency.count.toNat + m.metrics.sendFailures.toNat ∧
    m.metrics.responseLatency.count.toNat + m.metrics.unmatchedResponses.toNat =
      turns.countP Turn.isResponse := by
  intro m
  obtain ⟨t, ⟨shows, fits⟩, hassigned, hacked, hcompleted, hunsent, hresponses⟩ :=
    tallied_ofTurns node cancelAcks turns
  have hcount : turns.countP Turn.isResponse ≤ turns.length := List.countP_le_length
  have toNat : ∀ {n : Nat}, n ≤ turns.length → (UInt64.ofNat n).toNat = n := fun hn =>
    UInt64.toNat_ofNat_of_lt' (by simp only [UInt64.size]; omega)
  have hanswered := fits.answered_le.trans hcompleted
  rw [shows.assigned, shows.acked, shows.answered, shows.completed, shows.unsent, shows.stray,
    toNat hassigned, toNat hacked, toNat hanswered, toNat hcompleted, toNat hunsent,
    toNat (by omega), fits.current, Int64.toInt_ofNat_of_lt (by omega)]
  exact ⟨rfl, fits.active_le, fits.le_active, fits.answered_le, fits.le_answered, hresponses⟩

/-- A transaction is served twice and acknowledged, another one is acknowledged that was never
active, a rollback and a reply cannot be sent, one response is stray and one completes its future,
and some bytes are no message. -/
def forgedTraffic : List Turn :=
  let here : Outlook := ⟨fun _ => true, fun _ => none⟩
  let gone : Outlook := ⟨fun _ => true, fun node => some (.nodeLeft node)⟩
  let tx : TxId := ⟨1, 1, 1⟩
  let bring (view : Outlook) (message : Message) : Turn :=
    .receive view (.ofNat 2) (Wire.encode message)
  [bring here (.txCounterRequest 7 tx), bring gone (.txCounterRequest 8 ⟨1, 2, 1⟩),
    bring here (.txCounterRequest 7 tx), bring here (.txAckRequest 9 tx false),
    bring here (.txAckRequest 9 ⟨9, 9, 9⟩ true), .call gone (.rollback (.ofNat 2) tx),
    .ask here (.ofNat 2) (.txCounter tx), bring here (.counterResponse 1 5),
    bring here (.counterResponse 1 5), .receive here (.ofNat 2) [255]]

theorem metrics_match_state_forgedTraffic :
    let m := (ofTurns (.ofNat 1) true forgedTraffic).manager
    forgedTraffic.length < 2 ^ 63 ∧ m.counters.current.toInt = 2 ∧ m.counters.activeCount = 1 ∧
      (m.metrics.txCountersAssigned.toNat : Int) = 2 ∧
      m.metrics.responseLatency.count.toNat + m.metrics.unmatchedResponses.toNat = 2 := by
  intro m
  have hbound : forgedTraffic.length < 2 ^ 63 := by decide
  obtain ⟨hassigned, -, -, -, -, hresponses⟩ :=
    metrics_match_state (.ofNat 1) true forgedTraffic hbound
  have hcurrent : m.counters.current.toInt = 2 := by decide
  exact ⟨hbound, hcurrent, by decide, hassigned.trans hcurrent,
    hresponses.trans (by decide)⟩

end Life
end CounterCoordinator
