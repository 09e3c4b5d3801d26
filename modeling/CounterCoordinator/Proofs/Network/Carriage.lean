import CounterCoordinator.Proofs.Manager.Fate
import CounterCoordinator.Proofs.Manager.Waits
import CounterCoordinator.Proofs.Network.Provenance
import Mathlib.Data.List.Perm.Basic

/-!
# What is in flight, and who waits for it

A step of a run is one of a few changes to the flight and to one manager, and later invariants are
proved change by change. Two of them hold here. Whatever is in flight is a request, the answer to
one, or a message that wants no answer; and whoever waits, waits for a request it issued. Without
duplicates no two messages in flight belong to the same future, so that a request that was served
is gone for good.
-/
namespace CounterCoordinator

def Parcel.future? (p : Parcel) : Option FutureId :=
  match Wire.decode p.payload with
  | .ok message => message.future?
  | .error _ => none

theorem Parcel.future?_of_payload {p : Parcel} {message : Message}
    (h : p.payload = Wire.encode message) : p.future? = message.future? := by
  simp [Parcel.future?, h]

namespace Network

def carried (n : Network) : List FutureId :=
  n.flight.filterMap Parcel.future?

theorem carried_takeParcel {n : Network} {k : Nat} {p : Parcel} (h : n.flight[k]? = some p) :
    n.carried.Perm (p.future?.toList ++ (n.takeParcel k).2.carried) := by
  obtain ⟨hlt, rfl⟩ := List.getElem?_eq_some_iff.mp h
  have hperm := (List.getElem_cons_eraseIdx_perm hlt).symm.filterMap Parcel.future?
  unfold carried takeParcel
  cases hfuture : n.flight[k].future? with
  | none => simpa [hfuture] using hperm
  | some f => simpa [hfuture] using hperm

def dispatched (r : Reaction) : Option Parcel :=
  r.sent.map fun out => ⟨r.manager.self, out.target, out.payload⟩

theorem flight_absorb (n : Network) (r : Reaction) :
    (n.absorb r).flight = n.flight ++ (dispatched r).toList := by
  cases h : r.sent <;> simp [absorb, dispatched, setManager, h]

theorem carried_absorb (n : Network) (r : Reaction) :
    (n.absorb r).carried = n.carried ++ ((dispatched r).bind Parcel.future?).toList := by
  unfold carried
  rw [flight_absorb, List.filterMap_append]
  cases dispatched r with
  | none => rfl
  | some p => cases h : p.future? <;> simp [h]

section Dispatched
variable (m : Manager) (view : Outlook)

theorem future?_dispatched_ask (id : FutureId) (target : NodeId) (what : Request) :
    (dispatched (m.ask view id target what)).bind Parcel.future? =
      if (view.refusal? target).isNone then some id else none := by
  cases hrefused : view.refusal? target with
  | none =>
    simp [dispatched, Manager.ask_sent, Outlook.outgoing?, hrefused, Parcel.future?]
  | some cause => simp [dispatched, Manager.ask_sent, Outlook.outgoing?, hrefused]

theorem future?_dispatched_call (c : Call) :
    (dispatched (m.call view c)).bind Parcel.future? = none := by
  cases hsent : (m.call view c).sent with
  | none => simp [dispatched, hsent]
  | some out =>
    rcases m.call_sent view c hsent with ⟨tx, hpayload⟩ | ⟨counter, hpayload⟩ <;>
      simp [dispatched, hsent, Parcel.future?, hpayload, Message.future?]

theorem future?_dispatched_act (sender : NodeId) (message : Message) :
    (dispatched (m.act view sender message)).bind Parcel.future? =
      if (m.act view sender message).sent.isSome then message.future? else none := by
  rcases m.act_sent_cases view sender message with hsent | ⟨answer, hanswer, hsent⟩
  · simp [dispatched, hsent]
  · simp [dispatched, hsent, Parcel.future?, Manager.future?_answer hanswer]

end Dispatched

end Network

/-- The message carries the request of an issue, or an answer to it. -/
def Parcel.Serves (p : Parcel) (i : Issue) : Prop :=
  p = ⟨i.requester, i.target, Wire.encode (i.what.message i.future)⟩ ∨
    (p.source = i.target ∧ p.target = i.requester ∧
      if i.what.isCommit then p.payload = Wire.encode (.txAckResponse i.future)
      else ∃ c, p.payload = Wire.encode (.counterResponse i.future c))

namespace Chronicle
variable {h : Chronicle}

inductive Change (h : Chronicle) : Network.Move → Chronicle → Prop
  | quiet {move : Network.Move} {n : Network} :
      (∀ k, move = .deliver k → h.network.flight[k]? = none) →
      n.managers = h.network.managers → n.flight = h.network.flight →
        Change h move { h with network := n }
  | joined {node : NodeId} {order : Option UInt64} {client cancelAcks : Bool} {n : Network} :
      h.network.manager? node = none →
      n.managers = h.network.managers ++ [{ self := node, cancelAcks }] →
      n.flight = h.network.flight →
        Change h (.add node order client cancelAcks) { h with network := n }
  | lost {k : Nat} : Change h (.lose k) { h with network := (h.network.takeParcel k).2 }
  | doubled {k : Nat} {p : Parcel} : h.network.flight[k]? = some p →
      Change h (.duplicate k)
        { h with network := { h.network with flight := h.network.flight ++ [p] } }
  | asked {node target : NodeId} {what : Request} {m : Manager} :
      h.network.manager? node = some m →
        Change h (.ask node target what)
          ⟨Network.absorb { h.network with ids := h.network.ids.next.2 }
              (m.ask h.network.outlook h.network.ids.next.1 target what),
            h.issues ++ [⟨h.network.ids.next.1, node, target, what⟩], h.assignments⟩
  | called {node : NodeId} {c : Call} {m : Manager} : h.network.manager? node = some m →
      Change h (.call node c)
        { h with network := h.network.absorb (m.call h.network.outlook c) }
  | unclaimed {k : Nat} {p : Parcel} : h.network.flight[k]? = some p →
      h.network.manager? p.target = none →
        Change h (.deliver k) { h with network := (h.network.takeParcel k).2 }
  | delivered {k : Nat} {p : Parcel} {m : Manager} {message : Message} :
      h.network.flight[k]? = some p → h.network.manager? p.target = some m →
      p.payload = Wire.encode message →
        Change h (.deliver k)
          ⟨(h.network.takeParcel k).2.absorb (m.act h.network.outlook p.source message), h.issues,
            h.assignments ++ (h.network.assignedBy? m p.source p.payload).toList⟩

theorem Sound.change (hs : h.Sound) (move : Network.Move) : Change h move (h.step move) := by
  cases move with
  | ask node target what =>
    cases hm : h.network.manager? node with
    | none =>
      rw [step_of_plain (by simp [Network.issued?, hm]) rfl, Network.perform_ask_of_none hm]
      exact .quiet (by simp) rfl rfl
    | some m =>
      have hissued : h.network.issued? (.ask node target what) =
          some ⟨h.network.ids.next.1, node, target, what⟩ := by simp [Network.issued?, hm]
      have hassigned : h.network.assigned? (.ask node target what) = none := rfl
      rw [Chronicle.step, Network.perform_ask_of_some hm, hissued, hassigned]
      simpa using Change.asked hm
  | call node c =>
    rw [step_of_plain rfl rfl]
    cases hm : h.network.manager? node with
    | none =>
      rw [Network.perform_call_of_none hm]
      exact .quiet (by simp) rfl rfl
    | some m =>
      rw [Network.perform_call_of_some hm]
      exact .called hm
  | deliver k =>
    cases hp : h.network.flight[k]? with
    | none =>
      have herased : h.network.flight.eraseIdx k = h.network.flight :=
        List.eraseIdx_of_length_le (List.getElem?_eq_none_iff.mp hp)
      rw [step_of_plain rfl (by simp [Network.assigned?, hp]),
        Network.perform_deliver_of_none hp]
      refine .quiet ?_ rfl herased
      rintro _ ⟨⟩
      exact hp
    | some p =>
      cases hm : h.network.manager? p.target with
      | none =>
        rw [step_of_plain rfl (by simp [Network.assigned?, hp, hm]),
          Network.perform_deliver_unclaimed hp hm]
        exact .unclaimed hp hm
      | some m =>
        obtain ⟨message, hpayload, -⟩ := hs.genuine p (List.mem_of_getElem? hp)
        have hassigned : h.network.assigned? (.deliver k) =
            h.network.assignedBy? m p.source p.payload := by
          simp [Network.assigned?, hp, hm]
        have hissued : h.network.issued? (.deliver k) = none := rfl
        obtain ⟨hmanager, hsent⟩ := m.receive_of_decode h.network.outlook p.source p.payload
          (hpayload ▸ Wire.decode_encode message)
        rw [Chronicle.step, Network.perform_deliver_of_some hp hm, hassigned, hissued,
          Network.absorb_congr _ hmanager hsent]
        simpa using Change.delivered hp hm hpayload
  | add node order client cancelAcks =>
    rw [step_of_plain rfl rfl]
    by_cases hknown : (h.network.manager? node).isSome
    · refine .quiet (by simp) ?_ rfl
      simp [Network.perform, Network.add, hknown]
    · refine .joined (by simpa using hknown) ?_ rfl
      simp [Network.perform, Network.add, hknown]
  | lose k =>
    rw [step_of_plain rfl rfl]
    exact .lost
  | duplicate k =>
    rw [step_of_plain rfl rfl, Network.perform, Network.duplicate]
    split
    · rename_i p hp
      exact .doubled hp
    · exact .quiet (by simp) rfl rfl
  | remove node =>
    rw [step_of_plain rfl rfl]
    exact .quiet (by simp) rfl rfl
  | breakLink | heal =>
    rw [step_of_plain rfl rfl]
    simp only [Network.perform, Network.breakLink, Network.heal]
    split <;> exact .quiet (by simp) rfl rfl

inductive Origin (issues : List Issue) : Parcel → Prop
  | request {i : Issue} : i ∈ issues →
      Origin issues ⟨i.requester, i.target, Wire.encode (i.what.message i.future)⟩
  | counter {i : Issue} (c : Version) : i ∈ issues → i.what.isCommit = false →
      Origin issues ⟨i.target, i.requester, Wire.encode (.counterResponse i.future c)⟩
  | ack {i : Issue} : i ∈ issues → i.what.isCommit = true →
      Origin issues ⟨i.target, i.requester, Wire.encode (.txAckResponse i.future)⟩
  | rollback (source target : NodeId) (tx : TxId) :
      Origin issues ⟨source, target, Wire.encode (.txAckRequest noFuture tx true)⟩
  | queryDone (source target : NodeId) (counter : Version) :
      Origin issues ⟨source, target, Wire.encode (.queryAckRequest counter)⟩

namespace Origin
variable {issues issues' : List Issue} {p : Parcel}

theorem mono (ho : Origin issues p) (hsub : ∀ i ∈ issues, i ∈ issues') : Origin issues' p := by
  cases ho with
  | request hi => exact .request (hsub _ hi)
  | counter c hi hwhat => exact .counter c (hsub _ hi) hwhat
  | ack hi hwhat => exact .ack (hsub _ hi) hwhat
  | rollback => exact .rollback ..
  | queryDone => exact .queryDone ..

theorem issue (ho : Origin issues p) {f : FutureId} (hf : p.future? = some f) :
    ∃ i ∈ issues, i.future = f ∧ p.Serves i := by
  cases ho with
  | @request i hi =>
    rw [Parcel.future?_of_payload rfl, Request.future?_message] at hf
    exact ⟨i, hi, Option.some.inj hf, .inl rfl⟩
  | @counter i c hi hwhat =>
    rw [Parcel.future?_of_payload rfl] at hf
    refine ⟨i, hi, Option.some.inj hf, .inr ⟨rfl, rfl, ?_⟩⟩
    rw [hwhat]
    exact ⟨c, rfl⟩
  | @ack i hi hwhat =>
    rw [Parcel.future?_of_payload rfl] at hf
    refine ⟨i, hi, Option.some.inj hf, .inr ⟨rfl, rfl, ?_⟩⟩
    rw [hwhat]
    rfl
  | rollback | queryDone =>
    rw [Parcel.future?_of_payload rfl] at hf
    cases hf

theorem issue_of_request (ho : Origin issues p) {what : Request} {f : FutureId}
    (hpayload : p.payload = Wire.encode (what.message f)) :
    ⟨f, p.source, p.target, what⟩ ∈ issues := by
  cases ho with
  | @request i hi =>
    obtain ⟨future, requester, target, asked⟩ := i
    have hmessage := Wire.encode_injective hpayload
    cases asked <;> cases what <;> cases hmessage <;> exact hi
  | counter | ack | rollback | queryDone =>
    have hmessage := Wire.encode_injective hpayload
    cases what <;> cases hmessage

theorem answer (ho : Origin issues p) {m : Manager} {view : Outlook} {message answer : Message}
    (hpayload : p.payload = Wire.encode message) (hself : m.self = p.target)
    (hanswer : m.answer? view p.source message = some answer) :
    Origin issues ⟨m.self, p.source, Wire.encode answer⟩ := by
  obtain ⟨what, f, rfl, hwhat⟩ := Manager.answer_cases hanswer
  have hissue := ho.issue_of_request hpayload
  rw [hself]
  split at hwhat
  · rename_i hcommit
    rw [hwhat]
    exact .ack hissue hcommit
  · rename_i hcommit
    obtain ⟨c, rfl⟩ := hwhat
    exact .counter c hissue (Bool.not_eq_true _ ▸ hcommit)

end Origin

/-- Somebody issued the request that an entry stands for, and waits for it in this list. -/
def Placed (issues : List Issue) (self : NodeId) (commit : Bool) (e : Waitlist.Entry) : Prop :=
  ∃ i ∈ issues, i.what.isCommit = commit ∧ i.requester = self ∧ e = ⟨i.future, i.target⟩

structure Tracked (h : Chronicle) : Prop where
  flight : ∀ p ∈ h.network.flight, Origin h.issues p
  counterWaits : ∀ m ∈ h.network.managers, ∀ e ∈ m.counterWaits.entries,
    Placed h.issues m.self false e
  ackWaits : ∀ m ∈ h.network.managers, ∀ e ∈ m.ackWaits.entries, Placed h.issues m.self true e

namespace Tracked

/-- A manager acts. What it puts in flight comes from somewhere, and its waits were there before or
stand for issues. -/
theorem absorb (ht : h.Tracked) {n : Network} {m : Manager} {r : Reaction} {issues : List Issue}
    {assignments : List Assignment} (hmanagers : n.managers = h.network.managers)
    (hflight : ∀ p ∈ n.flight, p ∈ h.network.flight) (hissues : ∀ i ∈ h.issues, i ∈ issues)
    (hm : m ∈ h.network.managers) (hself : r.manager.self = m.self)
    (hsent : ∀ p, Network.dispatched r = some p → Origin issues p)
    (hcounter : ∀ e ∈ r.manager.counterWaits.entries,
      e ∈ m.counterWaits.entries ∨ Placed issues m.self false e)
    (hack : ∀ e ∈ r.manager.ackWaits.entries,
      e ∈ m.ackWaits.entries ∨ Placed issues m.self true e) :
    Tracked ⟨n.absorb r, issues, assignments⟩ := by
  have kept : ∀ {self commit e}, Placed h.issues self commit e → Placed issues self commit e := by
    rintro self commit e ⟨i, hi, hplaced⟩
    exact ⟨i, hissues i hi, hplaced⟩
  have managed : ∀ m' ∈ (n.absorb r).managers, m' = r.manager ∨ m' ∈ h.network.managers := by
    intro m' hm'
    rcases Network.mem_setManager hm' with rfl | ⟨hm', -⟩
    · exact .inl rfl
    · exact .inr (hmanagers ▸ hm')
  constructor
  · intro p hp
    rw [Network.flight_absorb] at hp
    rcases List.mem_append.mp hp with hp | hp
    · exact (ht.flight p (hflight p hp)).mono hissues
    · exact hsent p (Option.mem_toList.mp hp)
  · intro m' hm' e he
    rcases managed m' hm' with rfl | hm'
    · rw [hself]
      exact (hcounter e he).elim (fun he => kept (ht.counterWaits m hm e he)) id
    · exact kept (ht.counterWaits m' hm' e he)
  · intro m' hm' e he
    rcases managed m' hm' with rfl | hm'
    · rw [hself]
      exact (hack e he).elim (fun he => kept (ht.ackWaits m hm e he)) id
    · exact kept (ht.ackWaits m' hm' e he)

theorem change (ht : h.Tracked) {move : Network.Move} {h' : Chronicle}
    (hchange : Change h move h') : h'.Tracked := by
  cases hchange with
  | quiet _ hmanagers hflight =>
    refine ⟨?_, ?_, ?_⟩
    · exact hflight ▸ ht.flight
    · exact hmanagers ▸ ht.counterWaits
    · exact hmanagers ▸ ht.ackWaits
  | joined _ hmanagers hflight =>
    refine ⟨hflight ▸ ht.flight, ?_, ?_⟩
    · intro m hm e he
      rw [hmanagers] at hm
      rcases List.mem_append.mp hm with hm | hm
      · exact ht.counterWaits m hm e he
      · rw [List.mem_singleton.mp hm] at he
        cases he
    · intro m hm e he
      rw [hmanagers] at hm
      rcases List.mem_append.mp hm with hm | hm
      · exact ht.ackWaits m hm e he
      · rw [List.mem_singleton.mp hm] at he
        cases he
  | lost | unclaimed =>
    exact ⟨fun p hp => ht.flight p (List.mem_of_mem_eraseIdx hp), ht.counterWaits, ht.ackWaits⟩
  | doubled hp =>
    refine ⟨?_, ht.counterWaits, ht.ackWaits⟩
    intro q hq
    rcases List.mem_append.mp hq with hq | hq
    · exact ht.flight q hq
    · rw [List.mem_singleton.mp hq]
      exact ht.flight _ (List.mem_of_getElem? hp)
  | @asked node target what m hm =>
    obtain ⟨hmem, rfl⟩ := Network.mem_of_manager? hm
    have hissue : (⟨h.network.ids.next.1, m.self, target, what⟩ : Issue) ∈
        h.issues ++ [⟨h.network.ids.next.1, m.self, target, what⟩] :=
      List.mem_append_right _ (List.mem_singleton_self _)
    refine ht.absorb rfl (fun _ hp => hp) (fun _ => List.mem_append_left _) hmem
      (Manager.ask_self ..) ?_ ?_ ?_
    · intro p hp
      simp only [Network.dispatched, Manager.ask_sent, Manager.ask_self, Outlook.outgoing?] at hp
      split at hp <;> cases hp
      exact .request hissue
    · intro e he
      refine (Manager.mem_counterWaits_ask he).imp_right ?_
      rintro ⟨rfl, hwhat, -⟩
      exact ⟨_, hissue, hwhat, rfl, rfl⟩
    · intro e he
      refine (Manager.mem_ackWaits_ask he).imp_right ?_
      rintro ⟨rfl, hwhat, -⟩
      exact ⟨_, hissue, hwhat, rfl, rfl⟩
  | @called node c m hm =>
    obtain ⟨hmem, -⟩ := Network.mem_of_manager? hm
    refine ht.absorb rfl (fun _ hp => hp) (fun _ hi => hi) hmem (Manager.call_self ..) ?_ ?_ ?_
    · intro p hp
      obtain ⟨out, hout, rfl⟩ := Option.map_eq_some_iff.mp hp
      obtain ⟨target, payload⟩ := out
      rcases Manager.call_sent m _ c hout with ⟨tx, rfl⟩ | ⟨counter, rfl⟩
      · exact .rollback ..
      · exact .queryDone ..
    · exact fun e he => .inl (Manager.mem_counterWaits_call he)
    · exact fun e he => .inl (Manager.mem_ackWaits_call he)
  | @delivered k p m message hp hm hpayload =>
    obtain ⟨hmem, hself⟩ := Network.mem_of_manager? hm
    refine ht.absorb rfl (fun _ hp => List.mem_of_mem_eraseIdx hp) (fun _ hi => hi) hmem
      (Manager.act_self ..) ?_ ?_ ?_
    · intro q hq
      rcases m.act_sent_cases h.network.outlook p.source message with
        hsent | ⟨answer, hanswer, hsent⟩
      · simp [Network.dispatched, hsent] at hq
      · simp only [Network.dispatched, hsent, Manager.act_self, Option.map_some,
          Option.some.injEq] at hq
        subst hq
        exact (ht.flight p (List.mem_of_getElem? hp)).answer hpayload hself hanswer
    · exact fun e he => .inl (Manager.mem_counterWaits_act he)
    · exact fun e he => .inl (Manager.mem_ackWaits_act he)

end Tracked

theorem tracked_new : Tracked {} := by
  constructor <;> simp

theorem tracked_ofMoves (moves : List Network.Move)
    (hids : moves.countP Network.Move.asks < UInt64.size) : (ofMoves moves).Tracked := by
  have both : (ofMoves moves).Sound ∧ (ofMoves moves).Tracked :=
    ofMoves_induction (P := fun h => h.Sound ∧ h.Tracked) ⟨sound_new, tracked_new⟩
      (fun _ move ⟨hs, ht⟩ hroom => ⟨hs.step move hroom, ht.change (hs.change move)⟩) moves hids
  exact both.2

theorem next_not_carried (hs : h.Sound) (ht : h.Tracked)
    (hids : h.network.ids.last.toNat + 1 < UInt64.size) :
    h.network.ids.next.1 ∉ h.network.carried := by
  intro hmem
  obtain ⟨p, hp, hfuture⟩ := List.mem_filterMap.mp hmem
  obtain ⟨i, hi, hsame, -⟩ := (ht.flight p hp).issue hfuture
  exact hs.future_ne_next hids hi hsame

/-- No two messages in flight belong to the same future, and requests that were served are gone. -/
structure Once (h : Chronicle) : Prop where
  single : h.network.carried.Nodup
  spent : ∀ a ∈ h.assignments, ∀ p ∈ h.network.flight, ∀ tx,
    p.payload ≠ Wire.encode (.txCounterRequest a.future tx)

namespace Once

theorem take (ho : h.Once) (k : Nat) : Once { h with network := (h.network.takeParcel k).2 } := by
  constructor
  · exact ho.single.sublist ((List.eraseIdx_sublist ..).filterMap _)
  · exact fun a ha p hp => ho.spent a ha p (List.mem_of_mem_eraseIdx hp)

theorem change (ho : h.Once) (hs : h.Sound) (ht : h.Tracked) {move : Network.Move} {h' : Chronicle}
    (hchange : Change h move h') (honce : ∀ k, move ≠ .duplicate k)
    (hids : move.asks → h.network.ids.last.toNat + 1 < UInt64.size) : h'.Once := by
  cases hchange with
  | quiet _ _ hflight | joined _ _ hflight =>
    constructor
    · rw [Network.carried, hflight]
      exact ho.single
    · rw [hflight]
      exact ho.spent
  | lost | unclaimed => exact ho.take _
  | doubled => exact absurd rfl (honce _)
  | @asked node target what m hm =>
    have hnew := next_not_carried hs ht (hids rfl)
    constructor
    · rw [Network.carried_absorb, Network.future?_dispatched_ask]
      split
      · exact (List.perm_append_singleton ..).nodup_iff.mpr (ho.single.cons hnew)
      · rw [Option.toList_none, List.append_nil]
        exact ho.single
    · intro a ha p hp tx hpayload
      rcases Network.mem_flight_absorb hp with hp | ⟨out, hout, rfl⟩
      · exact ho.spent a ha p hp tx hpayload
      · rw [Manager.ask_sent, Outlook.outgoing?] at hout
        split at hout <;> cases hout
        have hfuture := congrArg Message.future? (Wire.encode_injective hpayload)
        rw [Request.future?_message] at hfuture
        obtain ⟨i, hi, hsame⟩ := hs.requested a ha
        exact hs.future_ne_next (hids rfl) hi (hsame.trans (Option.some.inj hfuture).symm)
  | @called node c m hm =>
    constructor
    · rw [Network.carried_absorb, Network.future?_dispatched_call]
      simpa using ho.single
    · intro a ha p hp tx hpayload
      rcases Network.mem_flight_absorb hp with hp | ⟨out, hout, rfl⟩
      · exact ho.spent a ha p hp tx hpayload
      · rcases m.call_sent h.network.outlook c hout with ⟨u, hother⟩ | ⟨counter, hother⟩ <;>
          cases Wire.encode_injective (hpayload.symm.trans hother)
  | @delivered k p m message hp hm hpayload =>
    have hsplit : (message.future?.toList ++ (h.network.takeParcel k).2.carried).Nodup := by
      rw [← Parcel.future?_of_payload hpayload]
      exact (Network.carried_takeParcel hp).nodup_iff.mp ho.single
    constructor
    · rw [Network.carried_absorb, Network.future?_dispatched_act]
      split
      · exact (List.perm_append_comm.nodup_iff).mp hsplit
      · simpa using hsplit.of_append_right
    · intro a ha q hin tx hrequest
      rcases Network.mem_flight_absorb hin with hq | ⟨out, hout, rfl⟩
      · rcases List.mem_append.mp ha with ha | ha
        · exact ho.spent a ha q (List.mem_of_mem_eraseIdx hq) tx hrequest
        · -- the request being served was the only message of its future
          rw [hpayload] at ha
          obtain ⟨rfl, -⟩ := Network.of_assignedBy? (Option.mem_toList.mp ha)
          have hcarried : a.future ∈ (h.network.takeParcel k).2.carried :=
            List.mem_filterMap.mpr ⟨q, hq, Parcel.future?_of_payload hrequest⟩
          exact (List.nodup_cons.mp hsplit).1 hcarried
      · rcases m.act_sent_cases h.network.outlook p.source message with
          hsent | ⟨answer, hanswer, hsent⟩
        · rw [hsent] at hout
          cases hout
        · rw [hsent] at hout
          cases hout
          have hrequested := Wire.encode_injective hrequest
          obtain ⟨what, f, -, hwhat⟩ := Manager.answer_cases hanswer
          split at hwhat
          · cases hwhat.symm.trans hrequested
          · obtain ⟨c, hwhat⟩ := hwhat
            cases hwhat.symm.trans hrequested

end Once

theorem once_ofMoves (moves : List Network.Move)
    (hids : moves.countP Network.Move.asks < UInt64.size)
    (honce : ∀ k, Network.Move.duplicate k ∉ moves) : (ofMoves moves).Once := by
  induction moves using List.reverseRecOn with
  | nil => exact ⟨List.nodup_nil, by simp [ofMoves]⟩
  | append_singleton moves move ih =>
    obtain ⟨hbefore, hroom⟩ := room_ofMoves hids
    have hs := sound_ofMoves moves hbefore
    have ho := ih hbefore fun k hk => honce k (List.mem_append_left _ hk)
    rw [ofMoves_concat]
    refine ho.change hs (tracked_ofMoves moves hbefore) (hs.change move) ?_ hroom
    intro k hk
    exact honce k (by simp [hk])

end Chronicle
end CounterCoordinator
