import CounterCoordinator.Proofs.Counters.Ledger
import CounterCoordinator.Proofs.Deployment.Promises
import CounterCoordinator.Proofs.Manager.Fate

/-!
# Requests underway

As long as nobody departs, a request gets where it is sent and so does its answer: the request lies
in the inbox of its target, or the answer in the inbox of the requester, or the future is settled
with what the answer said. Every turn of a manager moves requests on along this way, or leaves them
where they are.
-/
namespace CounterCoordinator

def Request.envelope (what : Request) (requester : NodeId) (f : FutureId) : Envelope :=
  ⟨requester, .coordinator, Wire.encode (what.message f)⟩

def Request.AnsweredBy (what : Request) (f : FutureId) (answer : Message) : Prop :=
  if what.isCommit then answer = .txAckResponse f
  else ∃ counter, answer = .counterResponse f counter

namespace Cluster
variable {c : Cluster} {node here : NodeId} {e e' : Envelope}

def Lies (c : Cluster) (node : NodeId) (e : Envelope) : Prop :=
  ∃ b, c.inbox? node = some b ∧ e ∈ b.queue

theorem Lies.post (h : c.Lies node e) (target : NodeId) (e' : Envelope) :
    (c.post target e').Lies node e := by
  obtain ⟨b, hb, he⟩ := h
  have hinbox := c.inbox?_updateInbox target _ (fun b => b.put_owner e') node
  by_cases hnode : node = target
  · rw [if_pos hnode, hb] at hinbox
    refine ⟨b.put e', hinbox, ?_⟩
    unfold Inbox.put
    split
    · exact he
    · exact List.mem_append_left _ he
  · rw [if_neg hnode, hb] at hinbox
    exact ⟨b, hinbox, he⟩

theorem lies_post (h : c.refusal? node = none) (e : Envelope) : (c.post node e).Lies node e := by
  obtain ⟨-, b, hb, hopen⟩ := inbox?_of_refusal? h
  have hinbox := c.inbox?_updateInbox node _ (fun b => b.put_owner e) node
  rw [if_pos rfl, hb] at hinbox
  refine ⟨b.put e, hinbox, ?_⟩
  simp [Inbox.put, hopen]

theorem Lies.take (h : c.Lies node e) (htake : (c.take here).1 = .envelope e') :
    (node = here ∧ e = e') ∨ (c.take here).2.Lies node e := by
  obtain ⟨b, hb, he⟩ := h
  obtain ⟨b', rest, hb', -, hqueue, hafter⟩ := take_spec htake
  have hinbox := c.inbox?_updateInbox here (fun b => { b with queue := rest }) (fun _ => rfl) node
  rw [← hafter] at hinbox
  by_cases hnode : node = here
  · subst hnode
    rw [if_pos rfl, hb] at hinbox
    rw [hb] at hb'
    cases hb'
    rw [hqueue] at he
    rcases List.mem_cons.mp he with rfl | he
    · exact .inl ⟨rfl, rfl⟩
    · exact .inr ⟨_, hinbox, he⟩
  · rw [if_neg hnode, hb] at hinbox
    exact .inr ⟨b, hinbox, he⟩

end Cluster

theorem Waitlist.InOrder.ne_error {α : Type} {w : Waitlist α} {f : FutureId} (h : w.InOrder f)
    (cause : Error) : w.future? f ≠ some (.resolved (.error cause)) := by
  intro hfuture
  rcases h with ⟨-, hwaiting⟩ | ⟨old, hold⟩
  · cases hwaiting.symm.trans hfuture
  · cases hold.symm.trans hfuture

theorem Waitlist.InOrder.settled {α : Type} {w : Waitlist α} {f : FutureId} (h : w.InOrder f)
    (value : α) : ∃ o, (w.complete f (.ok value)).2.future? f = some (.resolved o) := by
  rcases h with ⟨hc, hwaiting⟩ | ⟨old, hold⟩
  · refine ⟨.ok value, ?_⟩
    rw [future?_complete, if_pos ⟨rfl, hc⟩, hwaiting]
    rfl
  · exact ⟨.ok old, (keeps_complete w f f _).resolved _ hold⟩

namespace Manager
variable {m m' : Manager} {view : Outlook} {f : FutureId} {what : Request}

def Settled (m : Manager) (f : FutureId) (what : Request) : Prop :=
  if what.isCommit then ∃ o, m.ackWaits.future? f = some (.resolved o)
  else ∃ o, m.counterWaits.future? f = some (.resolved o)

theorem Keeps.settled (hk : m.Keeps m' f) (h : m.Settled f what) : m'.Settled f what := by
  unfold Settled at h ⊢
  split at h
  · rename_i hwhat
    rw [if_pos hwhat]
    exact h.imp hk.ack.resolved
  · rename_i hwhat
    rw [if_neg hwhat]
    exact h.imp hk.counter.resolved

theorem holds_dispatch (h : m.Holds f what) (view : Outlook) (e : Envelope) :
    (m.dispatch view e).manager.Holds f what := by
  unfold dispatch
  split
  · cases hdecode : Wire.decode e.payload with
    | error fault =>
      rw [(receive_of_fault m view e.sender e.payload hdecode).1]
      exact h
    | ok message =>
      rw [(receive_of_decode m view e.sender e.payload hdecode).1]
      exact holds_act h
  · exact h

theorem dispatch_encoded (m : Manager) (view : Outlook) (sender : NodeId) (message : Message) :
    (m.dispatch view ⟨sender, .coordinator, Wire.encode message⟩).manager =
        (m.act view sender message).manager ∧
      (m.dispatch view ⟨sender, .coordinator, Wire.encode message⟩).sent =
        (m.act view sender message).sent :=
  m.receive_of_decode view sender _ (Wire.decode_encode message)

/-- An answer settles the future it is for. -/
theorem settled_dispatch (h : m.Holds f what) {answer : Message} (ha : what.AnsweredBy f answer)
    (view : Outlook) (sender : NodeId) :
    (m.dispatch view ⟨sender, .coordinator, Wire.encode answer⟩).manager.Settled f what := by
  rw [(m.dispatch_encoded view sender answer).1, Settled, act_counterWaits, act_ackWaits]
  unfold Holds at h
  unfold Request.AnsweredBy at ha
  split at ha
  · rename_i hwhat
    rw [if_pos hwhat] at h ⊢
    subst ha
    exact h.settled ()
  · rename_i hwhat
    rw [if_neg hwhat] at h ⊢
    obtain ⟨counter, rfl⟩ := ha
    exact h.settled counter

/-- A manager answers every request of a node it can reach, unless the transaction holds a counter
already. -/
theorem dispatch_answers (m : Manager) {requester : NodeId} (halive : view.alive requester)
    (hopen : view.refusal? requester = none)
    (hinactive : ∀ tx, what = .txCounter tx → m.counters.activeCounter? tx = none) :
    ∃ answer, what.AnsweredBy f answer ∧
      (m.dispatch view (what.envelope requester f)).sent =
        some ⟨requester, Wire.encode answer⟩ := by
  have hsent := (m.dispatch_encoded view requester (what.message f)).2
  rw [act_sent] at hsent
  rw [Request.envelope, hsent]
  cases what with
  | txCounter tx =>
    have hassign := Counters.assign_of_inactive (hinactive tx rfl)
    refine ⟨.counterResponse f (m.counters.current + 1), ⟨_, rfl⟩, ?_⟩
    simp [Request.message, answer?, halive, hassign, Outlook.outgoing?, hopen]
  | queryCounter =>
    refine ⟨.counterResponse f m.counters.query, ⟨_, rfl⟩, ?_⟩
    simp [Request.message, answer?, halive, Outlook.outgoing?, hopen]
  | commit tx =>
    refine ⟨.txAckResponse f, rfl, ?_⟩
    simp [Request.message, answer?, Outlook.outgoing?, hopen]

end Manager

namespace Deployment
variable {d : Deployment} {requester target here node : NodeId} {f : FutureId} {what : Request}
  {m : Manager} {r : Reaction} {e : Envelope}

theorem lies_absorb (h : d.cluster.Lies node e) (r : Reaction) :
    (d.absorb r).cluster.Lies node e := by
  unfold absorb
  split
  · exact h.post _ _
  · exact h

theorem lies_sent {out : Outgoing} (hsent : r.sent = some out)
    (hopen : d.cluster.refusal? out.target = none) :
    (d.absorb r).cluster.Lies out.target ⟨r.manager.self, .coordinator, out.payload⟩ := by
  unfold absorb
  rw [hsent]
  exact Cluster.lies_post hopen _

/-- The request lies in the inbox of its target, or an answer in the inbox of the requester. -/
def Carries (d : Deployment) (requester target : NodeId) (f : FutureId) (what : Request) : Prop :=
  d.cluster.Lies target (what.envelope requester f) ∨
    ∃ sender answer, what.AnsweredBy f answer ∧
      d.cluster.Lies requester ⟨sender, .coordinator, Wire.encode answer⟩

/-- The requester still waits for the answer, which is on its way, or it has it. -/
def Underway (d : Deployment) (requester target : NodeId) (f : FutureId) (what : Request) : Prop :=
  ∃ m, d.manager? requester = some m ∧ m.Holds f what ∧
    (m.Settled f what ∨ d.Carries requester target f what)

theorem Carries.absorb (h : d.Carries requester target f what) (r : Reaction) :
    (d.absorb r).Carries requester target f what :=
  h.imp (fun hlies => lies_absorb hlies r)
    fun ⟨sender, answer, ha, hlies⟩ => ⟨sender, answer, ha, lies_absorb hlies r⟩

/-- Whoever acts, a future that is in order stays so, and its outcome is never taken back. -/
theorem manager?_held {q : Manager} (hq : d.manager? requester = some q) (hheld : q.Holds f what)
    (hm : d.manager? here = some m) (hself : r.manager.self = m.self)
    (hholds : m.Holds f what → r.manager.Holds f what) (hkeeps : m.Keeps r.manager f) :
    ∃ q', (d.absorb r).manager? requester = some q' ∧ q'.Holds f what ∧
      (q.Settled f what → q'.Settled f what) ∧ (requester = here → q' = r.manager) := by
  have hmanager := manager?_absorb_eq hm hself requester
  by_cases hnode : requester = here
  · rw [hnode, hm] at hq
    cases hq
    rw [if_pos hnode] at hmanager
    exact ⟨r.manager, hmanager, hholds hheld, hkeeps.settled, fun _ => rfl⟩
  · rw [if_neg hnode] at hmanager
    exact ⟨q, hmanager.trans hq, hheld, id, fun hsame => absurd hsame hnode⟩

theorem underway_ask (hm : d.manager? requester = some m)
    (hopen : d.cluster.refusal? target = none) (what : Request) :
    (d.perform (.ask requester target what)).Underway requester target d.ids.next.1 what := by
  have hview : d.cluster.outlook.refusal? target = none := hopen
  have hsent : (m.ask d.cluster.outlook d.ids.next.1 target what).sent =
      some ⟨target, Wire.encode (what.message d.ids.next.1)⟩ := by
    rw [Manager.ask_sent, Outlook.outgoing?, hview]
  have hself : (m.ask d.cluster.outlook d.ids.next.1 target what).manager.self = requester :=
    (m.ask_self ..).trans (mem_of_manager? hm).2
  have hlies := lies_sent (d := { d with ids := d.ids.next.2 }) hsent hopen
  rw [hself] at hlies
  rw [perform_ask_of_some hm]
  refine ⟨(m.ask d.cluster.outlook d.ids.next.1 target what).manager, ?_,
    Manager.holds_ask hview (.inr ⟨rfl, rfl⟩), .inr (.inl hlies)⟩
  rw [manager?_absorb_eq (d := { d with ids := d.ids.next.2 }) hm (m.ask_self ..), if_pos rfl]

namespace Underway

theorem managed (h : d.Underway requester target f what) : (d.manager? requester).isSome := by
  obtain ⟨m, hm, -⟩ := h
  exact Option.isSome_of_eq_some hm

/-! No request underway is refused. -/

theorem counter_ne_error {tx : TxId} (h : d.Underway requester target f (.txCounter tx))
    (cause : Error) : d.counterFuture? requester f ≠ some (.resolved (.error cause)) := by
  obtain ⟨m, hm, hheld, -⟩ := h
  rw [counterFuture?, hm]
  exact Waitlist.InOrder.ne_error hheld cause

theorem ack_ne_error {tx : TxId} (h : d.Underway requester target f (.commit tx))
    (cause : Error) : d.ackFuture? requester f ≠ some (.resolved (.error cause)) := by
  obtain ⟨m, hm, hheld, -⟩ := h
  rw [ackFuture?, hm]
  exact Waitlist.InOrder.ne_error hheld cause

theorem absorb (h : d.Underway requester target f what) (hm : d.manager? here = some m)
    (hself : r.manager.self = m.self) (hholds : m.Holds f what → r.manager.Holds f what)
    (hkeeps : m.Keeps r.manager f) : (d.absorb r).Underway requester target f what := by
  obtain ⟨q, hq, hheld, hcarried⟩ := h
  obtain ⟨q', hq', hheld', hsettled, -⟩ := manager?_held hq hheld hm hself hholds hkeeps
  exact ⟨q', hq', hheld', hcarried.imp hsettled fun hcarries => hcarries.absorb r⟩

theorem ask (h : d.Underway requester target f what) (hne : f ≠ d.ids.next.1) {other : NodeId}
    (hopen : d.cluster.refusal? other = none) (here : NodeId) (request : Request) :
    (d.perform (.ask here other request)).Underway requester target f what := by
  have counted : Underway { d with ids := d.ids.next.2 } requester target f what := h
  cases hm : d.manager? here with
  | none =>
    rw [perform_ask_of_none hm]
    exact counted
  | some m =>
    rw [perform_ask_of_some hm]
    exact counted.absorb hm (m.ask_self ..) (fun hheld => Manager.holds_ask hopen (.inl hheld))
      (Manager.keeps_ask hne ..)

theorem rollback (h : d.Underway requester target f what) (here other : NodeId) (tx : TxId) :
    (d.perform (.call here (.rollback other tx))).Underway requester target f what := by
  cases hm : d.manager? here with
  | none =>
    rw [perform, react_of_none hm]
    exact h
  | some m =>
    rw [perform, react_of_some hm]
    refine h.absorb hm (m.call_self ..) (fun hheld => ?_)
      (Manager.keeps_call (by simp [Call.dropped?]))
    unfold Manager.Holds at hheld ⊢
    simpa [Manager.call] using hheld

/-- A dispatcher takes an envelope. If it is the request, the answer goes out; if it is the answer,
the future gets its outcome. -/
theorem dispatch (h : d.Underway requester target f what)
    (hopen : d.cluster.refusal? requester = none) (hmanaged : (d.manager? here).isSome)
    (hinactive : ∀ tx m, what = .txCounter tx → d.manager? target = some m →
      (d.cluster.take target).1 = .envelope (what.envelope requester f) →
        m.counters.activeCounter? tx = none) :
    (d.perform (.dispatch here)).Underway requester target f what := by
  have heffect := d.effect (.dispatch here)
  generalize d.taken? (.dispatch here) = t, d.reaction? (.dispatch here) = r,
    d.perform (.dispatch here) = d' at heffect ⊢
  cases heffect with
  | untaken => exact h
  | unread htake hm =>
    rw [hm] at hmanaged
    cases hmanaged
  | @read _ e mm htake hm =>
    obtain ⟨q, hq, hheld, hcarried⟩ := h
    have hview : d.cluster.outlook.refusal? requester = none := hopen
    obtain ⟨q', hq', hheld', hsettled, hown⟩ := manager?_held
      (d := { d with cluster := (d.cluster.take here).2 }) hq hheld hm
      (mm.dispatch_self d.cluster.outlook e) (fun h => Manager.holds_dispatch h ..)
      (mm.keeps_dispatch ..)
    refine ⟨q', hq', hheld', ?_⟩
    rcases hcarried with hdone | hlies | ⟨sender, answer, hanswer, hlies⟩
    · exact .inl (hsettled hdone)
    · rcases hlies.take htake with ⟨rfl, rfl⟩ | hlies
      · obtain ⟨halive, -⟩ := Cluster.inbox?_of_refusal? hopen
        obtain ⟨answer, hanswer, hsent⟩ := mm.dispatch_answers (f := f) halive hview
          fun tx htx => hinactive tx mm htx hm htake
        refine .inr (.inr ⟨_, answer, hanswer, lies_sent hsent ?_⟩)
        exact (d.cluster.refusal?_take target requester).trans hopen
      · exact .inr (Carries.absorb (.inl hlies) _)
    · rcases hlies.take htake with ⟨rfl, rfl⟩ | hlies
      · rw [hq] at hm
        cases hm
        rw [hown rfl]
        exact .inl (Manager.settled_dispatch hheld hanswer ..)
      · exact .inr (Carries.absorb (.inr ⟨sender, answer, hanswer, hlies⟩) _)

end Underway

end Deployment
end CounterCoordinator
