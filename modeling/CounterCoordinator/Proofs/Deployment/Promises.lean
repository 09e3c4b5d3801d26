import CounterCoordinator.Proofs.Deployment.Effects
import CounterCoordinator.Proofs.Manager.Waits

/-!
# Futures stand

A future only changes from waiting to resolved, unless its caller drops it: no answer, no
cancellation and nobody else's request takes an outcome back or leaves a future without one it could
still get. This holds of one waitlist, of a manager with its two, and of all nodes of a deployment.
-/
namespace CounterCoordinator

/-- Does a future wait, or has it got its outcome? -/
def Future.stands {α : Type} : Option (Future α) → Bool
  | some .waiting | some (.resolved _) => true
  | some .dropped | none => false

theorem Future.stands_iff {α : Type} {future : Option (Future α)} :
    stands future ↔ future = some .waiting ∨ ∃ outcome, future = some (.resolved outcome) := by
  unfold stands
  split <;> simp

namespace Waitlist
variable {α : Type} {w w' w'' : Waitlist α} {f id : FutureId}

/-- From `w` to `w'` the future keeps its outcome, or still waits for one if it had none. -/
structure Keeps (w w' : Waitlist α) (f : FutureId) : Prop where
  stands : Future.stands (w.future? f) → Future.stands (w'.future? f)
  resolved : ∀ o, w.future? f = some (.resolved o) → w'.future? f = some (.resolved o)

namespace Keeps

theorem refl (w : Waitlist α) (f : FutureId) : Keeps w w f :=
  ⟨id, fun _ h => h⟩

theorem trans (h : Keeps w w' f) (h' : Keeps w' w'' f) : Keeps w w'' f :=
  ⟨fun hf => h'.stands (h.stands hf), fun o ho => h'.resolved o (h.resolved o ho)⟩

theorem of_eq (h : w'.future? f = w.future? f) : Keeps w w' f := by
  refine ⟨?_, ?_⟩ <;> rw [h] <;> simp

end Keeps

theorem stands_complete {w : Waitlist α} (hf : Future.stands (w.future? f)) (id : FutureId)
    (outcome : Outcome α) : Future.stands ((w.complete id outcome).2.future? f) := by
  rw [future?_complete]
  split
  · rcases Future.stands_iff.mp hf with h | ⟨o, h⟩ <;> rw [h] <;> rfl
  · exact hf

theorem keeps_register (hne : f ≠ id) (target : NodeId) : Keeps w (w.register id target) f :=
  .of_eq (by rw [future?_register, if_neg hne])

theorem keeps_complete (w : Waitlist α) (id f : FutureId) (outcome : Outcome α) :
    Keeps w (w.complete id outcome).2 f := by
  refine ⟨fun hf => stands_complete hf id outcome, fun o ho => ?_⟩
  rw [future?_complete, ho]
  simp [Future.resolve]

theorem keeps_completeEach (w : Waitlist α) (f : FutureId) (l : List (FutureId × Outcome α)) :
    Keeps w (w.completeEach l).2 f := by
  induction l generalizing w with
  | nil => exact .refl w f
  | cons x rest ih => exact (keeps_complete w x.1 f x.2).trans (ih _)

theorem keeps_drop (hne : f ≠ id) (w : Waitlist α) : Keeps w (w.drop id) f :=
  .of_eq (by rw [future?_drop, if_neg hne])

end Waitlist

def Call.dropped? : Call → Option FutureId
  | dropCounter future | dropAck future => some future
  | _ => none

namespace Manager
variable {m m' : Manager} {view : Outlook} {f : FutureId}

structure Keeps (m m' : Manager) (f : FutureId) : Prop where
  counter : m.counterWaits.Keeps m'.counterWaits f
  ack : m.ackWaits.Keeps m'.ackWaits f

theorem Keeps.refl (m : Manager) (f : FutureId) : Keeps m m f :=
  ⟨.refl _ f, .refl _ f⟩

theorem keeps_ask {id : FutureId} (hne : f ≠ id) (target : NodeId) (what : Request) :
    Keeps m (m.ask view id target what).manager f := by
  constructor
  · rw [ask_counterWaits]
    split
    · exact .refl _ f
    · exact Waitlist.keeps_register hne target
    · exact (Waitlist.keeps_register hne target).trans (Waitlist.keeps_complete _ id f _)
  · rw [ask_ackWaits]
    split
    · exact Waitlist.keeps_register hne target
    · exact (Waitlist.keeps_register hne target).trans (Waitlist.keeps_complete _ id f _)
    · exact .refl _ f

/-- The future of a request stands, even if the request could not be sent. -/
theorem stands_ask (m : Manager) (view : Outlook) (id : FutureId) (target : NodeId)
    (what : Request) :
    if what.isCommit then
      Future.stands ((m.ask view id target what).manager.ackWaits.future? id)
    else Future.stands ((m.ask view id target what).manager.counterWaits.future? id) := by
  have registered : ∀ {α : Type} (w : Waitlist α),
      Future.stands ((w.register id target).future? id) := by
    intro α w
    rw [Waitlist.future?_register, if_pos rfl]
    rfl
  rw [ask_counterWaits, ask_ackWaits]
  cases what <;> cases view.refusal? target
  all_goals
    first
      | exact registered _
      | exact Waitlist.stands_complete (registered _) ..

theorem keeps_call {c : Call} (hne : c.dropped? ≠ some f) :
    Keeps m (m.call view c).manager f := by
  cases c with
  | rollback | queryDone =>
    constructor
    · simpa [call] using .refl _ f
    · simpa [call] using .refl _ f
  | nodeLeft | departed | resync | missed =>
    constructor
    · exact Waitlist.keeps_completeEach _ f _
    · simp only [call, departed, eventsMissed, nodeLeft, resync, withCancelled]
      split
      · exact Waitlist.keeps_completeEach _ f _
      · exact .refl _ f
  | dropCounter future =>
    have hother : f ≠ future := fun h => hne (congrArg some h.symm)
    exact ⟨Waitlist.keeps_drop hother _, .refl _ f⟩
  | dropAck future =>
    have hother : f ≠ future := fun h => hne (congrArg some h.symm)
    exact ⟨.refl _ f, Waitlist.keeps_drop hother _⟩

theorem keeps_act (m : Manager) (view : Outlook) (sender : NodeId) (message : Message)
    (f : FutureId) : Keeps m (m.act view sender message).manager f := by
  constructor
  · rw [act_counterWaits]
    split
    · exact Waitlist.keeps_complete ..
    · exact .refl _ f
  · rw [act_ackWaits]
    split
    · exact Waitlist.keeps_complete ..
    · exact .refl _ f

theorem keeps_dispatch (m : Manager) (view : Outlook) (e : Envelope) (f : FutureId) :
    Keeps m (m.dispatch view e).manager f := by
  unfold dispatch
  split
  · cases hdecode : Wire.decode e.payload with
    | error fault =>
      rw [(receive_of_fault m view e.sender e.payload hdecode).1]
      exact ⟨.refl _ f, .refl _ f⟩
    | ok message =>
      rw [(receive_of_decode m view e.sender e.payload hdecode).1]
      exact m.keeps_act view e.sender message f
  · exact .refl m f

end Manager

namespace Deployment
variable {d : Deployment} {move : Move}

def Move.dropped? : Move → Option FutureId
  | call _ c => c.dropped?
  | _ => none

def Keeps (d d' : Deployment) (node : NodeId) (f : FutureId) : Prop :=
  ∀ m, d.manager? node = some m → ∃ m', d'.manager? node = some m' ∧ m.Keeps m' f

theorem Keeps.refl (d : Deployment) (node : NodeId) (f : FutureId) : d.Keeps d node f :=
  fun m hm => ⟨m, hm, .refl m f⟩

theorem perform_ask_of_none {node : NodeId} (h : d.manager? node = none) (target : NodeId)
    (what : Request) :
    d.perform (.ask node target what) = { d with ids := d.ids.next.2 } :=
  react_of_none (d := { d with ids := d.ids.next.2 }) h _

theorem perform_ask_of_some {node : NodeId} {m : Manager} (h : d.manager? node = some m)
    (target : NodeId) (what : Request) :
    d.perform (.ask node target what) = absorb { d with ids := d.ids.next.2 }
      (m.ask d.cluster.outlook d.ids.next.1 target what) :=
  react_of_some (d := { d with ids := d.ids.next.2 }) h _

def counterFuture? (d : Deployment) (node : NodeId) (f : FutureId) : Option (Future Version) :=
  (d.manager? node).bind fun m => m.counterWaits.future? f

def ackFuture? (d : Deployment) (node : NodeId) (f : FutureId) : Option (Future Unit) :=
  (d.manager? node).bind fun m => m.ackWaits.future? f

namespace Keeps
variable {d' : Deployment} {node : NodeId} {f : FutureId}

theorem counter (hk : d.Keeps d' node f) (h : Future.stands (d.counterFuture? node f)) :
    Future.stands (d'.counterFuture? node f) := by
  unfold counterFuture? at h ⊢
  cases hm : d.manager? node with
  | none =>
    rw [hm] at h
    cases h
  | some m =>
    obtain ⟨m', hm', hkeeps⟩ := hk m hm
    rw [hm] at h
    rw [hm']
    exact hkeeps.counter.stands h

theorem ack (hk : d.Keeps d' node f) (h : Future.stands (d.ackFuture? node f)) :
    Future.stands (d'.ackFuture? node f) := by
  unfold ackFuture? at h ⊢
  cases hm : d.manager? node with
  | none =>
    rw [hm] at h
    cases h
  | some m =>
    obtain ⟨m', hm', hkeeps⟩ := hk m hm
    rw [hm] at h
    rw [hm']
    exact hkeeps.ack.stands h

end Keeps

theorem keeps_absorb {d : Deployment} {here : NodeId} {m : Manager} {r : Reaction}
    (hm : d.manager? here = some m) (hself : r.manager.self = m.self) {f : FutureId}
    (hkeeps : m.Keeps r.manager f) (node : NodeId) : d.Keeps (d.absorb r) node f := by
  intro old hold
  rw [manager?_absorb_eq hm hself]
  split
  · rename_i hnode
    rw [hnode, hm] at hold
    cases hold
    exact ⟨r.manager, rfl, hkeeps⟩
  · exact ⟨old, hold, .refl old f⟩

theorem perform_listen_tells (d : Deployment) (node : NodeId) (position : Nat) :
    d.perform (.listen node position) = d ∨
      ∃ c, ((∃ event, c = .departed event) ∨ ∃ count, c = .missed count) ∧
        d.perform (.listen node position) =
          (d.react node fun m => m.call d.cluster.outlook c).2 := by
  simp only [perform, listenOne, hear]
  split
  · exact .inr ⟨.departed _, .inl ⟨_, rfl⟩, rfl⟩
  · exact .inr ⟨.missed _, .inr ⟨_, rfl⟩, rfl⟩
  · exact .inl rfl

theorem keeps_call (d : Deployment) (here : NodeId) {c : Call} {f : FutureId}
    (hkept : c.dropped? ≠ some f) (node : NodeId) : d.Keeps (d.perform (.call here c)) node f := by
  cases hm : d.manager? here with
  | none =>
    rw [perform, react_of_none hm]
    exact .refl d node f
  | some m =>
    rw [perform, react_of_some hm]
    exact keeps_absorb hm (Manager.call_self ..) (Manager.keeps_call hkept) node

/-- Whatever happens, a future stands unless it is dropped or its id is given out anew. -/
theorem keeps_perform (d : Deployment) {move : Move} {f : FutureId}
    (hold : move.asks → f ≠ d.ids.next.1) (hkept : move.dropped? ≠ some f) (node : NodeId) :
    d.Keeps (d.perform move) node f := by
  cases move with
  | look | depart | closeInbox => exact .refl d node f
  | call here c => exact d.keeps_call here hkept node
  | listen here position =>
    rcases d.perform_listen_tells here position with heq | ⟨c, hc, heq⟩
    · rw [heq]
      exact .refl d node f
    · rw [heq]
      refine d.keeps_call here (c := c) ?_ node
      rcases hc with ⟨event, rfl⟩ | ⟨count, rfl⟩ <;> exact nofun
  | join id client cancelAcks =>
    intro m hm
    refine ⟨m, ?_, .refl m f⟩
    change (d.managers ++ _).find? _ = some m
    rw [List.find?_append]
    exact Option.or_eq_some_iff.mpr (.inl hm)
  | ask here target what =>
    cases hm : d.manager? here with
    | none =>
      rw [perform_ask_of_none hm]
      exact .refl d node f
    | some m =>
      rw [perform_ask_of_some hm]
      exact keeps_absorb (d := { d with ids := d.ids.next.2 }) hm (Manager.ask_self ..)
        (Manager.keeps_ask (hold rfl) ..) node
  | dispatch here =>
    have heffect := d.effect (.dispatch here)
    generalize d.taken? (.dispatch here) = t, d.reaction? (.dispatch here) = r,
      d.perform (.dispatch here) = d' at heffect ⊢
    cases heffect with
    | untaken | unread => exact .refl d node f
    | @read _ e m htake hm =>
      exact keeps_absorb (d := { d with cluster := (d.cluster.take here).2 }) hm
        (Manager.dispatch_self ..) (m.keeps_dispatch _ e f) node

theorem stands_ask {node : NodeId} (hnode : (d.manager? node).isSome) (target : NodeId)
    (what : Request) :
    if what.isCommit then
      Future.stands ((d.perform (.ask node target what)).ackFuture? node d.ids.next.1)
    else Future.stands ((d.perform (.ask node target what)).counterFuture? node d.ids.next.1) := by
  obtain ⟨m, hm⟩ := Option.isSome_iff_exists.mp hnode
  have hmanager : (d.perform (.ask node target what)).manager? node =
      some (m.ask d.cluster.outlook d.ids.next.1 target what).manager := by
    rw [perform_ask_of_some hm,
      manager?_absorb_eq (d := { d with ids := d.ids.next.2 }) hm (m.ask_self ..), if_pos rfl]
  rw [counterFuture?, ackFuture?, hmanager]
  exact m.stands_ask d.cluster.outlook d.ids.next.1 target what

end Deployment
end CounterCoordinator
