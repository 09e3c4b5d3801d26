import CounterCoordinator.Proofs.Manager.Turn
import CounterCoordinator.Proofs.Message.RoundTrip

/-!
# The two roles of a manager

A manager serves others as a coordinator and asks coordinators itself, and the two roles share one
object, one transport and one set of metrics. Neither can tell whether the other one is at work: the
counters and the replies to transactions depend on nothing but the requests about transactions that
came in, and the waitlists on nothing but the manager's own requests and calls and the responses
that came in. Both follow from one lemma about two runs, `fold_eq_of_filterMap_eq`.
-/
namespace CounterCoordinator

/-- Two runs end alike if they agree on all events in sight: an event out of sight changes nothing
that is observed, and events that look alike change it alike. -/
theorem fold_eq_of_filterMap_eq {σ ε ν ο : Type} (step : σ → ε → σ) (sight : ε → Option ν)
    (observe : σ → ο)
    (hidden : ∀ s e, sight e = none → observe (step s e) = observe s)
    (alike : ∀ s t e e' v, sight e = some v → sight e' = some v → observe s = observe t →
      observe (step s e) = observe (step t e'))
    {es es' : List ε} (hsight : es.filterMap sight = es'.filterMap sight) {s t : σ}
    (hobserve : observe s = observe t) :
    observe (es.foldl step s) = observe (es'.foldl step t) := by
  have unseen : ∀ (l : List ε) (s : σ), (∀ e ∈ l, sight e = none) →
      observe (l.foldl step s) = observe s := by
    intro l
    induction l with
    | nil => exact fun _ _ => rfl
    | cons e l ih =>
      intro s hl
      rw [List.foldl_cons, ih _ fun e he => hl e (List.mem_cons_of_mem _ he)]
      exact hidden s e (hl e List.mem_cons_self)
  induction es generalizing es' s t with
  | nil =>
    have hnone := List.filterMap_eq_nil_iff.mp hsight.symm
    rw [List.foldl_nil, unseen es' t hnone]
    exact hobserve
  | cons e es ih =>
    cases hv : sight e with
    | none =>
      rw [List.filterMap_cons_none hv] at hsight
      exact ih hsight ((hidden s e hv).trans hobserve)
    | some v =>
      rw [List.filterMap_cons_some hv] at hsight
      obtain ⟨skipped, e', rest, rfl, hskipped, he', hrest⟩ :=
        List.filterMap_eq_cons_iff.mp hsight.symm
      rw [List.foldl_append, List.foldl_cons, List.foldl_cons]
      have hreached : observe s = observe (skipped.foldl step t) :=
        hobserve.trans (unseen skipped t hskipped).symm
      exact ih hrest.symm (alike s _ e e' v hv he' hreached)

/-- The same view, but with a transport that takes every message. -/
def Outlook.willing (view : Outlook) : Outlook :=
  { view with refusal? := fun _ => none }

namespace Manager

/-- Something that happens to a manager, with what it sees of the world at that moment. -/
inductive Event where
  | ask (view : Outlook) (id : FutureId) (target : NodeId) (what : Request)
  | call (view : Outlook) (c : Call)
  | receive (view : Outlook) (sender : NodeId) (payload : Bytes)

def react (m : Manager) : Event → Reaction
  | .ask view id target what => m.ask view id target what
  | .call view c => m.call view c
  | .receive view sender payload => m.receive view sender payload

structure TxRequest where
  sender : NodeId
  alive : Bool
  message : Message
deriving DecidableEq, Repr

def Event.txRequest? : Event → Option TxRequest
  | .receive view sender payload =>
      match Wire.decode payload with
      | .ok (.txCounterRequest future tx) =>
          some ⟨sender, view.alive sender, .txCounterRequest future tx⟩
      | .ok (.txAckRequest future tx skip) =>
          some ⟨sender, view.alive sender, .txAckRequest future tx skip⟩
      | _ => none
  | .ask .. | .call .. => none

/-- What a requester does or gets that can end up in its waitlists. -/
inductive Wait where
  | ask (id : FutureId) (target : NodeId) (what : Request) (refusal : Option Error)
  | counter (future : FutureId) (c : Version)
  | acked (future : FutureId)
  | nodeLeft (node : NodeId)
  | resync (alive : NodeId → Bool)
  | dropCounter (future : FutureId)
  | dropAck (future : FutureId)

/-- The side of an event that is the requester's. -/
def Event.wait? : Event → Option Wait
  | .ask view id target what => some (.ask id target what (view.refusal? target))
  | .call _ (.nodeLeft node) => some (.nodeLeft node)
  | .call _ (.departed event) => some (.nodeLeft event.node)
  | .call view .resync | .call view (.missed _) => some (.resync view.alive)
  | .call _ (.dropCounter future) => some (.dropCounter future)
  | .call _ (.dropAck future) => some (.dropAck future)
  | .call _ (.rollback ..) | .call _ (.queryDone ..) => none
  | .receive _ _ payload =>
      match Wire.decode payload with
      | .ok (.counterResponse future counter) => some (.counter future counter)
      | .ok (.txAckResponse future) => some (.acked future)
      | _ => none

/-- The answer to a payload, as it is handed to the transport. -/
def attempt? (m : Manager) (view : Outlook) (sender : NodeId) (payload : Bytes) : Option Outgoing :=
  (m.receive view.willing sender payload).sent

/-- The attempt to reply to a request about a transaction; no entry for any other event. -/
def attempts (m : Manager) (e : Event) : List (Option Outgoing) :=
  match e with
  | .receive view sender payload =>
      if e.txRequest?.isSome then [m.attempt? view sender payload] else []
  | .ask .. | .call .. => []

structure Record where
  manager : Manager
  replies : List (Option Outgoing) := []

def Record.step (r : Record) (e : Event) : Record :=
  ⟨(r.manager.react e).manager, r.replies ++ r.manager.attempts e⟩

def record (m : Manager) (es : List Event) : Record :=
  es.foldl Record.step { manager := m }

section Attempts
variable (m : Manager) (view : Outlook) (sender : NodeId) {payload : Bytes}

theorem attempt?_of_decode {message : Message} (h : Wire.decode payload = .ok message) :
    m.attempt? view sender payload =
      (m.answer? view sender message).map fun answer => ⟨sender, Wire.encode answer⟩ := by
  have hanswer : m.answer? view.willing sender message = m.answer? view sender message := by
    cases message <;> rfl
  rw [attempt?, (receive_of_decode m view.willing sender payload h).2, act_sent, hanswer]
  cases m.answer? view sender message <;> rfl

/-- What leaves is what was attempted, if the transport takes it. -/
theorem sent_of_attempt? (payload : Bytes) :
    (m.receive view sender payload).sent =
      (m.attempt? view sender payload).filter fun out => (view.refusal? out.target).isNone := by
  cases hdecode : Wire.decode payload with
  | error fault =>
    rw [attempt?, (receive_of_fault m view sender payload hdecode).2,
      (receive_of_fault m view.willing sender payload hdecode).2]
    rfl
  | ok message =>
    rw [attempt?_of_decode m view sender hdecode,
      (receive_of_decode m view sender payload hdecode).2, act_sent]
    cases m.answer? view sender message with
    | none => rfl
    | some answer =>
      cases hrefusal : view.refusal? sender <;>
        simp [Outlook.outgoing?, Option.filter_some, hrefusal]

end Attempts

section Coordinator

/-- A request about a transaction, coming in again. -/
def TxRequest.event (r : TxRequest) : Event :=
  .receive ⟨fun _ => r.alive, fun _ => none⟩ r.sender (Wire.encode r.message)

theorem txRequest?_event {e : Event} {r : TxRequest} (h : e.txRequest? = some r) :
    ∃ view payload, e = .receive view r.sender payload ∧ view.alive r.sender = r.alive ∧
      Wire.decode payload = .ok r.message := by
  cases e with
  | ask | call => cases h
  | receive view sender payload =>
    simp only [Event.txRequest?] at h
    split at h
    all_goals
      cases h
    all_goals
      rename_i hdecode
      exact ⟨view, payload, rfl, rfl, hdecode⟩

/-- Events without a request about a transaction leave the counters alone. -/
theorem counters_react_hidden (m : Manager) {e : Event} (h : e.txRequest? = none) :
    (m.react e).manager.counters = m.counters := by
  cases e with
  | ask => exact ask_counters ..
  | call => exact call_counters ..
  | receive view sender payload =>
    cases hdecode : Wire.decode payload with
    | error fault => rw [react, (receive_of_fault m view sender payload hdecode).1]; rfl
    | ok message =>
      rw [react, (receive_of_decode m view sender payload hdecode).1, act_counters]
      cases message with
      | txCounterRequest | txAckRequest => simp [Event.txRequest?, hdecode] at h
      | queryCounterRequest | counterResponse | txAckResponse | queryAckRequest => rfl

theorem attempts_hidden (m : Manager) {e : Event} (h : e.txRequest? = none) :
    m.attempts e = [] := by
  cases e <;> simp [attempts, h]

/-- The same request has the same effect and gets the same reply, whatever else differs. -/
theorem react_txRequest {m m' : Manager} {e : Event} {r : TxRequest}
    (h : e.txRequest? = some r) (hcounters : m.counters = m'.counters) :
    (m.react e).manager.counters = (m'.react r.event).manager.counters ∧
      m.attempts e = m'.attempts r.event := by
  obtain ⟨view, payload, rfl, halive, hdecode⟩ := txRequest?_event h
  have hagain : r.event.txRequest? = some r := by
    simp only [Event.txRequest?, hdecode, halive] at h
    simpa only [TxRequest.event, Event.txRequest?, Wire.decode_encode] using h
  have hanswer : m.answer? view r.sender r.message =
      m'.answer? ⟨fun _ => r.alive, fun _ => none⟩ r.sender r.message := by
    unfold answer?
    rw [halive, hcounters]
  constructor
  · simp only [react, TxRequest.event]
    rw [(receive_of_decode m view r.sender payload hdecode).1,
      (receive_of_decode m' _ r.sender _ (Wire.decode_encode r.message)).1, act_counters,
      act_counters, halive, hcounters]
  · have hfirst : m.attempts (.receive view r.sender payload) =
        [m.attempt? view r.sender payload] := if_pos (Option.isSome_iff_exists.mpr ⟨r, h⟩)
    have hsecond : m'.attempts r.event =
        [m'.attempt? ⟨fun _ => r.alive, fun _ => none⟩ r.sender (Wire.encode r.message)] :=
      if_pos (Option.isSome_iff_exists.mpr ⟨r, hagain⟩)
    rw [hfirst, hsecond, attempt?_of_decode m view r.sender hdecode,
      attempt?_of_decode m' _ r.sender (Wire.decode_encode r.message), hanswer]

end Coordinator

section Requester
variable {m m' : Manager}

/-- What a requester's turn can show: the two waitlists, and a setting that no turn changes. -/
def waits (m : Manager) : Waitlist Version × Waitlist Unit × Bool :=
  (m.counterWaits, m.ackWaits, m.cancelAcks)

/-- The side of the requester alone, as an event. -/
def Wait.event : Wait → Event
  | .ask id target what refusal => .ask ⟨fun _ => true, fun _ => refusal⟩ id target what
  | .counter future c =>
      .receive ⟨fun _ => true, fun _ => none⟩ default (Wire.encode (.counterResponse future c))
  | .acked future =>
      .receive ⟨fun _ => true, fun _ => none⟩ default (Wire.encode (.txAckResponse future))
  | .nodeLeft node => .call ⟨fun _ => true, fun _ => none⟩ (.nodeLeft node)
  | .resync alive => .call ⟨alive, fun _ => none⟩ .resync
  | .dropCounter future => .call ⟨fun _ => true, fun _ => none⟩ (.dropCounter future)
  | .dropAck future => .call ⟨fun _ => true, fun _ => none⟩ (.dropAck future)

theorem waits_act (m : Manager) (view : Outlook) (sender : NodeId) (message : Message) :
    (m.act view sender message).manager.waits =
      match message with
      | .counterResponse future counter =>
          ((m.counterWaits.complete future (.ok counter)).2, m.ackWaits, m.cancelAcks)
      | .txAckResponse future =>
          (m.counterWaits, (m.ackWaits.complete future (.ok ())).2, m.cancelAcks)
      | _ => m.waits := by
  rw [waits, act_counterWaits, act_ackWaits, act_cancelAcks]
  cases message <;> rfl

theorem waits_receive (m : Manager) (view : Outlook) (sender : NodeId) {payload : Bytes}
    {message : Message} (h : Wire.decode payload = .ok message) :
    (m.receive view sender payload).manager.waits = (m.act view sender message).manager.waits := by
  rw [(receive_of_decode m view sender payload h).1]

theorem waits_react_hidden (m : Manager) {e : Event} (h : e.wait? = none) :
    (m.react e).manager.waits = m.waits := by
  cases e with
  | ask => cases h
  | call view c =>
    cases c with
    | rollback | queryDone => simp [react, Manager.call, waits]
    | nodeLeft | departed | resync | missed | dropCounter | dropAck => cases h
  | receive view sender payload =>
    cases hdecode : Wire.decode payload with
    | error fault => rw [react, (receive_of_fault m view sender payload hdecode).1]; rfl
    | ok message =>
      rw [react, waits_receive m view sender hdecode, waits_act]
      cases message with
      | counterResponse | txAckResponse => simp [Event.wait?, hdecode] at h
      | txCounterRequest | queryCounterRequest | txAckRequest | queryAckRequest => rfl

theorem waits_react {e : Event} {w : Wait} (h : e.wait? = some w) (hwaits : m.waits = m'.waits) :
    (m.react e).manager.waits = (m'.react w.event).manager.waits := by
  obtain ⟨hcounter, hack, hcancel⟩ : m.counterWaits = m'.counterWaits ∧
      m.ackWaits = m'.ackWaits ∧ m.cancelAcks = m'.cancelAcks := by simpa [waits] using hwaits
  cases e with
  | ask view id target what =>
    cases h
    simp only [react, Wait.event, waits, ask_counterWaits, ask_ackWaits, ask_cancelAcks, hcounter,
      hack, hcancel]
  | call view c =>
    cases c with
    | rollback | queryDone => cases h
    | nodeLeft | departed | resync | missed | dropCounter | dropAck =>
      cases h
      simp only [react, Wait.event, waits, Manager.call, departed, eventsMissed, nodeLeft, resync,
        withCancelled, dropCounterFuture, dropAckFuture, hcounter, hack, hcancel]
  | receive view sender payload =>
    simp only [Event.wait?] at h
    split at h
    · rename_i future counter hdecode
      cases h
      simp only [react, Wait.event]
      rw [waits_receive m view sender hdecode, waits_receive m' _ _ (Wire.decode_encode _),
        waits_act, waits_act, hcounter, hack, hcancel]
    · rename_i future hdecode
      cases h
      simp only [react, Wait.event]
      rw [waits_receive m view sender hdecode, waits_receive m' _ _ (Wire.decode_encode _),
        waits_act, waits_act, hcounter, hack, hcancel]
    · cases h

end Requester

/-- The coordinator in a manager and the requester in it do not disturb each other. If two rows of
events agree on the requests about transactions, then they leave the same counters and attempt the
same replies to these requests; and if they agree on what the requester itself asks, is called to do
and gets for an answer, then they leave the same waitlists, with the outcome of every future. A
reply that was attempted leaves if the transport takes it, and nothing else does. -/
theorem roles_independent (m : Manager) (es es' : List Event) :
    (es.filterMap Event.txRequest? = es'.filterMap Event.txRequest? →
      (m.record es).manager.counters = (m.record es').manager.counters ∧
        (m.record es).replies = (m.record es').replies) ∧
    (es.filterMap Event.wait? = es'.filterMap Event.wait? →
      (m.record es).manager.counterWaits = (m.record es').manager.counterWaits ∧
        (m.record es).manager.ackWaits = (m.record es').manager.ackWaits) ∧
    ∀ view sender payload, ((m.record es).manager.receive view sender payload).sent =
      ((m.record es).manager.attempt? view sender payload).filter fun out =>
        (view.refusal? out.target).isNone := by
  refine ⟨?_, ?_, (m.record es).manager.sent_of_attempt?⟩
  · intro hrequests
    have hsame : ((m.record es).manager.counters, (m.record es).replies) =
        ((m.record es').manager.counters, (m.record es').replies) := by
      refine fold_eq_of_filterMap_eq Record.step Event.txRequest?
        (fun r => (r.manager.counters, r.replies)) ?_ ?_ hrequests rfl
      · intro r e he
        simp only [Record.step, counters_react_hidden r.manager he, attempts_hidden r.manager he,
          List.append_nil]
      · intro r r' e e' v he he' hobserved
        obtain ⟨hcounters, hreplies⟩ := Prod.mk.inj hobserved
        obtain ⟨hafter, hattempts⟩ := react_txRequest he hcounters
        obtain ⟨hafter', hattempts'⟩ := react_txRequest (m := r'.manager) he' rfl
        simp only [Record.step, hafter, hafter', hattempts, hattempts', hreplies]
    exact Prod.mk.inj hsame
  · intro hturns
    have hsame : (m.record es).manager.waits = (m.record es').manager.waits := by
      refine fold_eq_of_filterMap_eq Record.step Event.wait? (fun r => r.manager.waits)
        ?_ ?_ hturns rfl
      · exact fun r e he => waits_react_hidden r.manager he
      · intro r r' e e' w he he' hobserved
        exact (waits_react he hobserved).trans (waits_react (m := r'.manager) he' rfl).symm
    obtain ⟨hcounters, hrest⟩ := Prod.mk.inj hsame
    exact ⟨hcounters, (Prod.mk.inj hrest).1⟩

/-- Everybody is there, and every message is taken. -/
def fair : Outlook := ⟨fun _ => true, fun _ => none⟩

/-- Node 3 is gone, and no message to anybody is taken. -/
def foul : Outlook := ⟨fun node => node != .ofNat 3, fun node => some (.sendFailed node "reset")⟩

/-- A manager serves a transaction of node 2, while it asks node 3, which departs. -/
def bothRoles : List Event :=
  [.ask fair 1 (.ofNat 3) (.txCounter ⟨1, 1, 1⟩),
    .receive fair (.ofNat 2) (Wire.encode (.txCounterRequest 7 ⟨1, 1, 2⟩)),
    .receive foul (.ofNat 9) [255],
    .receive foul (.ofNat 2) (Wire.encode (.queryCounterRequest 8)),
    .receive foul (.ofNat 2) (Wire.encode (.txAckRequest 9 ⟨1, 1, 2⟩ false)),
    .call foul .resync,
    .ask foul 2 (.ofNat 3) (.commit ⟨1, 1, 1⟩),
    .receive fair (.ofNat 3) (Wire.encode (.counterResponse 1 5)),
    .receive fair (.ofNat 2) (Wire.encode (.txCounterRequest 10 ⟨1, 2, 2⟩))]

/-- The coordinator's part of it, where the transport is never in its way. -/
def servingOnly : List Event :=
  [.receive fair (.ofNat 2) (Wire.encode (.txCounterRequest 7 ⟨1, 1, 2⟩)),
    .receive fair (.ofNat 2) (Wire.encode (.txAckRequest 9 ⟨1, 1, 2⟩ false)),
    .receive fair (.ofNat 2) (Wire.encode (.txCounterRequest 10 ⟨1, 2, 2⟩))]

/-- The requester's part of it. -/
def askingOnly : List Event :=
  [.ask fair 1 (.ofNat 3) (.txCounter ⟨1, 1, 1⟩), .call foul .resync,
    .ask foul 2 (.ofNat 3) (.commit ⟨1, 1, 1⟩),
    .receive foul (.ofNat 3) (Wire.encode (.counterResponse 1 5))]

theorem roles_independent_bothRoles :
    let m : Manager := { self := .ofNat 1 }
    bothRoles.filterMap Event.txRequest? = servingOnly.filterMap Event.txRequest? ∧
      (m.record bothRoles).manager.counters = (m.record servingOnly).manager.counters ∧
      (m.record bothRoles).replies = (m.record servingOnly).replies ∧
      (m.record servingOnly).replies =
        [.counterResponse 7 1, .txAckResponse 9, .counterResponse 10 2].map (fun answer =>
          some ⟨.ofNat 2, Wire.encode answer⟩) ∧
      bothRoles.filterMap Event.wait? = askingOnly.filterMap Event.wait? ∧
      (m.record bothRoles).manager.counterWaits = (m.record askingOnly).manager.counterWaits ∧
      (m.record bothRoles).manager.ackWaits = (m.record askingOnly).manager.ackWaits := by
  intro m
  have hrequests : bothRoles.filterMap Event.txRequest? =
      servingOnly.filterMap Event.txRequest? := rfl
  have hturns : bothRoles.filterMap Event.wait? = askingOnly.filterMap Event.wait? := rfl
  obtain ⟨hcounters, hreplies⟩ := (roles_independent m bothRoles servingOnly).1 hrequests
  obtain ⟨hcounterWaits, hackWaits⟩ := (roles_independent m bothRoles askingOnly).2.1 hturns
  exact ⟨hrequests, hcounters, hreplies, rfl, hturns, hcounterWaits, hackWaits⟩

end Manager
end CounterCoordinator
