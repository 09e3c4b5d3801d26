import CounterCoordinator.Proofs.Message.RoundTrip
import CounterCoordinator.Proofs.Network.Chronicle

/-!
# Where counters come from

Dispatch never checks who sent a response, so a counter is trusted only because its future's id is.
`Sound` is the invariant behind that trust: every message in flight and every resolved counter
future can be traced back to the issue of its id, and from there to the one assignment made under
that id. It is kept by every move as long as ids do not run out.
-/
namespace CounterCoordinator

theorem Network.of_assignedBy? {n : Network} {m : Manager} {source : NodeId} {message : Message}
    {a : Assignment} (h : n.assignedBy? m source (Wire.encode message) = some a) :
    message = .txCounterRequest a.future a.tx ∧ a.coordinator = m.self ∧
      (m.counters.assign a.tx).1 = .ok a.counter := by
  unfold assignedBy? at h
  rw [Wire.decode_encode] at h
  split at h
  · rename_i future tx heq
    cases heq
    split at h
    · split at h
      · rename_i counter hassign
        cases h
        exact ⟨rfl, rfl, hassign⟩
      · cases h
    · cases h
  · cases h

namespace Chronicle
variable {h h' : Chronicle}

/-- The counter is one that the target of the issue had to give. -/
def Justified (h : Chronicle) (i : Issue) (counter : Version) : Prop :=
  match i.what with
  | .txCounter tx => ⟨i.target, i.future, tx, counter⟩ ∈ h.assignments
  | .queryCounter => counter = 0 ∧ (h.network.manager? i.target).isSome
  | .commit _ => False

/-- The message goes back to an issue, if it is about a counter at all. -/
def Vouched (h : Chronicle) (source target : NodeId) : Message → Prop
  | .txCounterRequest future tx => ⟨future, source, target, .txCounter tx⟩ ∈ h.issues
  | .queryCounterRequest future => ⟨future, source, target, .queryCounter⟩ ∈ h.issues
  | .counterResponse future counter =>
      ∃ i ∈ h.issues, i.future = future ∧ i.requester = target ∧ h.Justified i counter
  | _ => True

def Genuine (h : Chronicle) (p : Parcel) : Prop :=
  ∃ message, p.payload = Wire.encode message ∧ h.Vouched p.source p.target message

/-- Every counter that resolved a future of the manager is justified. -/
def Credible (h : Chronicle) (m : Manager) : Prop :=
  ∀ f counter, m.counterWaits.future? f = some (.resolved (.ok counter)) →
    ∃ i ∈ h.issues, i.future = f ∧ i.requester = m.self ∧ h.Justified i counter

structure Sound (h : Chronicle) : Prop where
  issued : ∀ i ∈ h.issues, i.future.toNat ≤ h.network.ids.last.toNat
  unique : (h.issues.map Issue.future).Nodup
  genuine : ∀ p ∈ h.network.flight, h.Genuine p
  credible : ∀ m ∈ h.network.managers, h.Credible m
  requested : ∀ a ∈ h.assignments, ∃ i ∈ h.issues, i.future = a.future
  served : ∀ a ∈ h.assignments, (h.network.manager? a.coordinator).isSome
  current : ∀ m ∈ h.network.managers,
    m.counters.current = Int64.ofNat (h.assignedBy m.self).length
  committed : ∀ m ∈ h.network.managers, m.counters.committed = 0
  numbered : ∀ node, (h.assignedBy node).map Assignment.counter =
    (List.range (h.assignedBy node).length).map fun k => Int64.ofNat (k + 1)

namespace Extends

theorem justified (e : Extends h h') {i : Issue} {counter : Version}
    (hi : h.Justified i counter) : h'.Justified i counter := by
  unfold Justified at hi ⊢
  split at hi
  · exact e.assignments.mem hi
  · exact ⟨hi.1, e.managers _ hi.2⟩
  · exact hi

theorem vouched (e : Extends h h') {source target : NodeId} {message : Message}
    (hm : h.Vouched source target message) : h'.Vouched source target message := by
  cases message with
  | txCounterRequest | queryCounterRequest => exact e.issues.mem hm
  | counterResponse future counter =>
    obtain ⟨i, hi, hfuture, hrequester, hcounter⟩ := hm
    exact ⟨i, e.issues.mem hi, hfuture, hrequester, e.justified hcounter⟩
  | txAckRequest | txAckResponse | queryAckRequest => trivial

theorem genuine (e : Extends h h') {p : Parcel} (hp : h.Genuine p) : h'.Genuine p := by
  obtain ⟨message, hpayload, hmessage⟩ := hp
  exact ⟨message, hpayload, e.vouched hmessage⟩

theorem credible (e : Extends h h') {m : Manager} (hm : h.Credible m) : h'.Credible m := by
  intro f counter hf
  obtain ⟨i, hi, hfuture, hrequester, hcounter⟩ := hm f counter hf
  exact ⟨i, e.issues.mem hi, hfuture, hrequester, e.justified hcounter⟩

end Extends

def assign (h : Chronicle) (made : Option Assignment) : Chronicle :=
  { h with assignments := h.assignments ++ made.toList }

theorem assignedBy_assign_some (h : Chronicle) (a : Assignment) (node : NodeId) :
    (h.assign (some a)).assignedBy node =
      if a.coordinator = node then h.assignedBy node ++ [a] else h.assignedBy node := by
  by_cases hnode : a.coordinator = node <;> simp [assignedBy, assign, hnode]

@[simp] theorem assign_none (h : Chronicle) : h.assign none = h := by
  simp [assign]

theorem extends_assign (h : Chronicle) (made : Option Assignment) : Extends h (h.assign made) :=
  ⟨List.prefix_refl _, List.prefix_append _ _, fun _ hm => hm⟩

namespace Sound

/-- Whatever leaves issues, assignments and managers alone is harmless: messages may get lost. -/
theorem with_network (hs : h.Sound) {n : Network}
    (hids : h.network.ids.last.toNat ≤ n.ids.last.toNat)
    (hmanagers : n.managers = h.network.managers)
    (hflight : ∀ p ∈ n.flight, p ∈ h.network.flight) : Sound { h with network := n } := by
  have hmanager := Network.manager?_congr hmanagers
  have e : Extends h { h with network := n } :=
    ⟨List.prefix_refl _, List.prefix_refl _, fun node hm => (hmanager node).symm ▸ hm⟩
  constructor
  · exact fun i hi => Nat.le_trans (hs.issued i hi) hids
  · exact hs.unique
  · exact fun p hp => e.genuine (hs.genuine p (hflight p hp))
  · exact fun m hm => e.credible (hs.credible m (hmanagers ▸ hm))
  · exact hs.requested
  · exact fun a ha => (hmanager _).symm ▸ hs.served a ha
  · exact fun m hm => hs.current m (hmanagers ▸ hm)
  · exact fun m hm => hs.committed m (hmanagers ▸ hm)
  · exact hs.numbered

theorem assignedBy_of_none (hs : h.Sound) {node : NodeId}
    (hnode : h.network.manager? node = none) : h.assignedBy node = [] := by
  apply List.filter_eq_nil_iff.mpr
  intro a ha heq
  have hserved := hs.served a ha
  rw [beq_iff_eq.mp heq, hnode] at hserved
  cases hserved

theorem add (hs : h.Sound) (node : NodeId) (order : Option UInt64) (client cancelAcks : Bool) :
    Sound { h with network := (h.network.add node order client cancelAcks).2 } := by
  have e : Extends h { h with network := (h.network.add node order client cancelAcks).2 } :=
    ⟨List.prefix_refl _, List.prefix_refl _, fun _ hm =>
      Network.isSome_manager?_perform hm (.add node order client cancelAcks)⟩
  constructor
  · exact hs.issued
  · exact hs.unique
  · exact fun p hp => e.genuine (hs.genuine p hp)
  · intro m hm
    rcases Network.mem_managers_add hm with hm | ⟨-, rfl⟩
    · exact e.credible (hs.credible m hm)
    · intro f counter hf
      cases hf
  · exact hs.requested
  · exact fun a ha => e.managers _ (hs.served a ha)
  · intro m hm
    rcases Network.mem_managers_add hm with hm | ⟨hnone, rfl⟩
    · exact hs.current m hm
    · change (0 : Int64) = Int64.ofNat (h.assignedBy node).length
      rw [hs.assignedBy_of_none hnone]
      rfl
  · intro m hm
    rcases Network.mem_managers_add hm with hm | ⟨-, rfl⟩
    · exact hs.committed m hm
    · rfl
  · exact hs.numbered

theorem future_ne_next (hs : h.Sound) (hids : h.network.ids.last.toNat + 1 < UInt64.size)
    {i : Issue} (hi : i ∈ h.issues) : i.future ≠ h.network.ids.next.1 := by
  intro heq
  have hle := hs.issued i hi
  rw [heq, IdSource.toNat_next hids] at hle
  omega

theorem issue (hs : h.Sound) (hids : h.network.ids.last.toNat + 1 < UInt64.size)
    (node target : NodeId) (what : Request) :
    Sound { h with
      network := { h.network with ids := h.network.ids.next.2 }
      issues := h.issues ++ [⟨h.network.ids.next.1, node, target, what⟩] } := by
  have hnext := IdSource.toNat_next hids
  have hlast : h.network.ids.next.2.last.toNat = h.network.ids.last.toNat + 1 := hnext
  have e : Extends h { h with
      network := { h.network with ids := h.network.ids.next.2 }
      issues := h.issues ++ [⟨h.network.ids.next.1, node, target, what⟩] } :=
    ⟨List.prefix_append _ _, List.prefix_refl _, fun _ hm => hm⟩
  constructor
  · intro i hi
    rcases List.mem_append.mp hi with hi | hi
    · have hle := hs.issued i hi
      simp only [hlast]
      omega
    · rw [List.mem_singleton.mp hi]
      exact Nat.le_refl _
  · exact nodup_map_concat hs.unique fun i hi => hs.future_ne_next hids hi
  · exact fun p hp => e.genuine (hs.genuine p hp)
  · exact fun m hm => e.credible (hs.credible m hm)
  · intro a ha
    obtain ⟨i, hi, hfuture⟩ := hs.requested a ha
    exact ⟨i, List.mem_append_left _ hi, hfuture⟩
  · exact hs.served
  · exact hs.current
  · exact hs.committed
  · exact hs.numbered

structure Next (h : Chronicle) (m : Manager) (a : Assignment) : Prop where
  coordinator : a.coordinator = m.self
  counter : a.counter = m.counters.current + 1
  requested : ∃ i ∈ h.issues, i.future = a.future

section Next
variable {m : Manager} {made : Option Assignment}

theorem assignedBy_assign_of_ne (hmade : ∀ a, made = some a → Next h m a) {node : NodeId}
    (hnode : node ≠ m.self) : (h.assign made).assignedBy node = h.assignedBy node := by
  cases made with
  | none => rw [assign_none]
  | some a =>
    rw [assignedBy_assign_some, if_neg]
    rw [(hmade a rfl).coordinator]
    exact hnode.symm

theorem current_assign (hs : h.Sound) (hm : m ∈ h.network.managers)
    (hmade : ∀ a, made = some a → Next h m a) :
    (made.map Assignment.counter).getD m.counters.current =
      Int64.ofNat ((h.assign made).assignedBy m.self).length := by
  have hown := hs.current m hm
  cases made with
  | none =>
    rw [assign_none]
    exact hown
  | some a =>
    have next := hmade a rfl
    rw [assignedBy_assign_some, if_pos next.coordinator, List.length_append,
      List.length_singleton, Int64.ofNat_add, ← hown]
    exact next.counter

theorem numbered_assign (hs : h.Sound) (hm : m ∈ h.network.managers)
    (hmade : ∀ a, made = some a → Next h m a) (node : NodeId) :
    ((h.assign made).assignedBy node).map Assignment.counter =
      (List.range ((h.assign made).assignedBy node).length).map fun k => Int64.ofNat (k + 1) := by
  by_cases hnode : node = m.self
  · cases made with
    | none =>
      rw [assign_none]
      exact hs.numbered node
    | some a =>
      have next := hmade a rfl
      have hown := hs.current m hm
      rw [assignedBy_assign_some, if_pos (next.coordinator.trans hnode.symm), List.map_append,
        List.length_append, List.length_singleton, List.range_succ, List.map_append,
        hs.numbered node, hnode]
      simp [next.counter, hown]
  · rw [assignedBy_assign_of_ne hmade hnode]
    exact hs.numbered node

end Next

/-- A manager acts: what it sends has to be genuine, what it learns credible, and its counter moves
on exactly if it makes an assignment. -/
theorem absorb (hs : h.Sound) {m : Manager} {node : NodeId}
    (hm : h.network.manager? node = some m) {r : Reaction} (made : Option Assignment)
    (hself : r.manager.self = m.self)
    (hsent : ∀ out, r.sent = some out →
      (h.assign made).Genuine ⟨m.self, out.target, out.payload⟩)
    (hcredible : (h.assign made).Credible r.manager)
    (hmade : ∀ a, made = some a → Next h m a)
    (hcurrent : r.manager.counters.current =
      (made.map Assignment.counter).getD m.counters.current)
    (hcommitted : r.manager.counters.committed = m.counters.committed) :
    Sound { h.assign made with network := h.network.absorb r } := by
  obtain ⟨hmem, hnode⟩ := Network.mem_of_manager? hm
  have hmanager : ∀ other, ((h.network.absorb r).manager? other).isSome =
      (h.network.manager? other).isSome :=
    Network.isSome_manager?_setManager h.network r.manager
  have e' : Extends (h.assign made) { h.assign made with network := h.network.absorb r } :=
    ⟨List.prefix_refl _, List.prefix_refl _, fun other hm => (hmanager other).symm ▸ hm⟩
  have e : Extends h { h.assign made with network := h.network.absorb r } :=
    ⟨List.prefix_refl _, List.prefix_append _ _,
      fun other hm => (hmanager other).symm ▸ hm⟩
  constructor
  · exact hs.issued
  · exact hs.unique
  · intro p hp
    rcases Network.mem_flight_absorb hp with hp | ⟨out, hout, rfl⟩
    · exact e.genuine (hs.genuine p hp)
    · rw [hself]
      exact e'.genuine (hsent out hout)
  · intro m' hm'
    rcases Network.mem_setManager hm' with rfl | ⟨hm', -⟩
    · exact e'.credible hcredible
    · exact e.credible (hs.credible m' hm')
  · intro a ha
    rcases List.mem_append.mp ha with ha | ha
    · exact hs.requested a ha
    · exact (hmade a (Option.mem_toList.mp ha)).requested
  · intro a ha
    rw [hmanager]
    rcases List.mem_append.mp ha with ha | ha
    · exact hs.served a ha
    · rw [(hmade a (Option.mem_toList.mp ha)).coordinator, hnode, hm]
      rfl
  · intro m' hm'
    rcases Network.mem_setManager hm' with rfl | ⟨hm', hne⟩
    · rw [hcurrent, hself]
      exact hs.current_assign hmem hmade
    · change _ = Int64.ofNat ((h.assign made).assignedBy _).length
      rw [assignedBy_assign_of_ne hmade (hself ▸ hne)]
      exact hs.current m' hm'
  · intro m' hm'
    rcases Network.mem_setManager hm' with rfl | ⟨hm', -⟩
    · rw [hcommitted]
      exact hs.committed m hmem
    · exact hs.committed m' hm'
  · exact hs.numbered_assign hmem hmade

theorem absorb_quiet (hs : h.Sound) {m : Manager} {node : NodeId}
    (hm : h.network.manager? node = some m) {r : Reaction}
    (hself : r.manager.self = m.self)
    (hsent : ∀ out, r.sent = some out → h.Genuine ⟨m.self, out.target, out.payload⟩)
    (hcredible : h.Credible r.manager) (hcounters : r.manager.counters = m.counters) :
    Sound { h with network := h.network.absorb r } := by
  have acted := hs.absorb hm none hself
  rw [assign_none] at acted
  apply acted hsent hcredible
  · intro a ha
    cases ha
  · rw [hcounters]
    rfl
  · rw [hcounters]

theorem ask (hs : h.Sound) {m : Manager} {node target : NodeId} {what : Request} {id : FutureId}
    (hm : h.network.manager? node = some m) (hissue : ⟨id, node, target, what⟩ ∈ h.issues)
    (view : Outlook) :
    Sound { h with network := h.network.absorb (m.ask view id target what) } := by
  obtain ⟨hmem, hnode⟩ := Network.mem_of_manager? hm
  apply hs.absorb_quiet hm
  · exact Manager.ask_self ..
  · intro out hout
    rw [Manager.ask_sent, Outlook.outgoing?] at hout
    split at hout <;> cases hout
    refine ⟨what.message id, rfl, ?_⟩
    rw [← hnode] at hissue
    cases what with
    | txCounter | queryCounter => exact hissue
    | commit => trivial
  · intro f counter hf
    rw [Manager.ask_self]
    exact hs.credible m hmem f counter (Manager.resolved_of_ask m view id target what hf)
  · exact Manager.ask_counters ..

theorem call (hs : h.Sound) {m : Manager} {node : NodeId}
    (hm : h.network.manager? node = some m) (view : Outlook) (c : Call) :
    Sound { h with network := h.network.absorb (m.call view c) } := by
  obtain ⟨hmem, -⟩ := Network.mem_of_manager? hm
  apply hs.absorb_quiet hm
  · exact Manager.call_self ..
  · intro out hout
    rcases Manager.call_sent m view c hout with ⟨tx, hpayload⟩ | ⟨counter, hpayload⟩
    · exact ⟨.txAckRequest noFuture tx true, hpayload, trivial⟩
    · exact ⟨.queryAckRequest counter, hpayload, trivial⟩
  · intro f counter hf
    rw [Manager.call_self]
    rcases (Manager.call_settles m view c).resolved f _ hf with hf | ⟨node, hf⟩
    · exact hs.credible m hmem f counter hf
    · cases hf
  · exact Manager.call_counters ..

section Receive
variable {m : Manager} {node source : NodeId} {message : Message}

theorem next_of_made (hmessage : h.Vouched source node message) {a : Assignment}
    (ha : h.network.assignedBy? m source (Wire.encode message) = some a) : Next h m a := by
  obtain ⟨rfl, hcoordinator, hassign⟩ := Network.of_assignedBy? ha
  exact ⟨hcoordinator, (Counters.assign_of_ok hassign).1, ⟨_, hmessage, rfl⟩⟩

theorem current_act {view : Outlook} (hview : view.alive = h.network.alive) :
    (m.act view source message).manager.counters.current =
      ((h.network.assignedBy? m source (Wire.encode message)).map Assignment.counter).getD
        m.counters.current := by
  rw [Manager.act_counters, Network.assignedBy?, Wire.decode_encode, hview]
  cases message with
  | txCounterRequest future tx =>
    by_cases halive : h.network.alive source
    · cases hassign : (m.counters.assign tx).1 with
      | ok counter => simp [halive, hassign, (Counters.assign_of_ok hassign).2]
      | error cause => simp [halive, hassign, Counters.assign_of_error hassign]
    · simp [halive]
  | txAckRequest => exact Counters.ack_current ..
  | queryCounterRequest | counterResponse | txAckResponse | queryAckRequest => rfl

theorem vouched_answer (hs : h.Sound) (hm : h.network.manager? node = some m)
    (hmessage : h.Vouched source node message) {view : Outlook}
    (hview : view.alive = h.network.alive) {answer : Message}
    (hanswer : m.answer? view source message = some answer) :
    (h.assign (h.network.assignedBy? m source (Wire.encode message))).Vouched m.self source
      answer := by
  obtain ⟨hmem, hnode⟩ := Network.mem_of_manager? hm
  cases message with
  | txCounterRequest future tx =>
    rw [Manager.answer?] at hanswer
    split at hanswer
    · rename_i halive
      rw [hview] at halive
      split at hanswer
      · rename_i counter hassign
        cases hanswer
        refine ⟨_, hmessage, rfl, rfl, ?_⟩
        apply List.mem_append_right
        simp [Network.assignedBy?, halive, hassign, hnode]
      · cases hanswer
    · cases hanswer
  | queryCounterRequest future =>
    simp only [Manager.answer?] at hanswer
    split at hanswer
    · cases hanswer
      refine ⟨_, hmessage, rfl, rfl, hs.committed m hmem, ?_⟩
      exact Option.isSome_of_eq_some hm
    · cases hanswer
  | txAckRequest future tx skip =>
    simp only [Manager.answer?] at hanswer
    split at hanswer <;> cases hanswer
    trivial
  | counterResponse | txAckResponse | queryAckRequest => cases hanswer

theorem credible_act (hs : h.Sound) (hm : h.network.manager? node = some m)
    (hmessage : h.Vouched source node message) (view : Outlook) :
    h.Credible (m.act view source message).manager := by
  obtain ⟨hmem, hnode⟩ := Network.mem_of_manager? hm
  intro f counter hf
  rw [Manager.act_self]
  rw [Manager.act_counterWaits] at hf
  cases message with
  | counterResponse future given =>
    rcases (Waitlist.settles_complete _ future _).resolved f _ hf with hf | ⟨rfl, heq⟩
    · exact hs.credible m hmem f counter hf
    · cases heq
      rw [hnode]
      exact hmessage
  | txCounterRequest | queryCounterRequest | txAckRequest | txAckResponse | queryAckRequest =>
    exact hs.credible m hmem f counter hf

/-- A manager acts on a message that goes back to an issue, whatever the transport would refuse. -/
theorem act (hs : h.Sound) (hm : h.network.manager? node = some m)
    (hmessage : h.Vouched source node message) {view : Outlook}
    (hview : view.alive = h.network.alive) :
    Sound { h.assign (h.network.assignedBy? m source (Wire.encode message)) with
      network := h.network.absorb (m.act view source message) } := by
  apply hs.absorb hm
  · exact Manager.act_self ..
  · intro out hout
    rw [Manager.act_sent] at hout
    obtain ⟨answer, hanswer, hout⟩ := Option.bind_eq_some_iff.mp hout
    rw [Outlook.outgoing?] at hout
    split at hout <;> cases hout
    exact ⟨answer, rfl, hs.vouched_answer hm hmessage hview hanswer⟩
  · exact (extends_assign h _).credible (hs.credible_act hm hmessage _)
  · exact fun a ha => next_of_made hmessage ha
  · exact current_act hview
  · exact Manager.act_committed ..

end Receive

theorem step_ask (hs : h.Sound) (hids : h.network.ids.last.toNat + 1 < UInt64.size)
    (node target : NodeId) (what : Request) : (h.step (.ask node target what)).Sound := by
  cases hm : h.network.manager? node with
  | none =>
    rw [step_of_plain (by simp [Network.issued?, hm]) rfl, Network.perform_ask_of_none hm]
    refine hs.with_network ?_ rfl fun _ hp => hp
    exact Nat.le_trans (Nat.le_succ _) (Nat.le_of_eq (IdSource.toNat_next hids).symm)
  | some m =>
    have hstep : h.step (.ask node target what) = ⟨_, _, h.assignments⟩ :=
      congrArg (Chronicle.mk _ _) (List.append_nil _)
    rw [hstep, Network.perform_ask_of_some hm, Network.issued?, hm]
    have issued := hs.issue hids node target what
    exact issued.ask hm (List.mem_append_right _ (List.mem_singleton_self _)) h.network.outlook

theorem step_call (hs : h.Sound) (node : NodeId) (c : Call) : (h.step (.call node c)).Sound := by
  rw [step_of_plain rfl rfl]
  cases hm : h.network.manager? node with
  | none =>
    rw [Network.perform_call_of_none hm]
    exact hs
  | some m =>
    rw [Network.perform_call_of_some hm]
    exact hs.call hm h.network.outlook c

theorem take (hs : h.Sound) (i : Nat) : Sound { h with network := (h.network.takeParcel i).2 } :=
  hs.with_network (Nat.le_refl _) rfl fun _ hp => List.mem_of_mem_eraseIdx hp

theorem step_deliver (hs : h.Sound) (i : Nat) : (h.step (.deliver i)).Sound := by
  have taken := hs.take i
  cases hp : h.network.flight[i]? with
  | none =>
    rw [step_of_plain rfl (by simp [Network.assigned?, hp]), Network.perform_deliver_of_none hp]
    exact taken
  | some p =>
    cases hm : h.network.manager? p.target with
    | none =>
      rw [step_of_plain rfl (by simp [Network.assigned?, hp, hm]),
        Network.perform_deliver_unclaimed hp hm]
      exact taken
    | some m =>
      obtain ⟨message, hpayload, hmessage⟩ := hs.genuine p (List.mem_of_getElem? hp)
      have hassigned : h.network.assigned? (.deliver i) =
          h.network.assignedBy? m p.source (Wire.encode message) := by
        simp [Network.assigned?, hp, hm, hpayload]
      have hstep : h.step (.deliver i) = ⟨_, h.issues, _⟩ :=
        congrArg (Chronicle.mk _ · _) (List.append_nil _)
      obtain ⟨hmanager, hsent⟩ := m.receive_of_decode h.network.outlook p.source
        (Wire.encode message) (Wire.decode_encode message)
      rw [hstep, Network.perform_deliver_of_some hp hm, hassigned, hpayload,
        Network.absorb_congr _ hmanager hsent]
      exact taken.act hm hmessage rfl

theorem step (hs : h.Sound) (move : Network.Move)
    (hids : move.asks → h.network.ids.last.toNat + 1 < UInt64.size) : (h.step move).Sound := by
  cases move with
  | ask node target what => exact hs.step_ask (hids rfl) node target what
  | call node c => exact hs.step_call node c
  | deliver i => exact hs.step_deliver i
  | add node order client cancelAcks =>
    rw [step_of_plain rfl rfl]
    exact hs.add node order client cancelAcks
  | lose i =>
    rw [step_of_plain rfl rfl]
    exact hs.take i
  | remove node =>
    rw [step_of_plain rfl rfl]
    exact hs.with_network (Nat.le_refl _) rfl fun _ hp => hp
  | breakLink node =>
    rw [step_of_plain rfl rfl, Network.perform, Network.breakLink]
    split
    · exact hs
    · exact hs.with_network (Nat.le_refl _) rfl fun _ hp => hp
  | heal node =>
    rw [step_of_plain rfl rfl, Network.perform, Network.heal]
    split
    · exact hs.with_network (Nat.le_refl _) rfl fun _ hp => hp
    · exact hs
  | duplicate i =>
    rw [step_of_plain rfl rfl, Network.perform, Network.duplicate]
    split
    · rename_i p hp
      refine hs.with_network (Nat.le_refl _) rfl fun q hq => ?_
      rcases List.mem_append.mp hq with hq | hq
      · exact hq
      · rw [List.mem_singleton.mp hq]
        exact List.mem_of_getElem? hp
    · exact hs

end Sound

theorem sound_new : Sound {} := by
  constructor <;> simp [assignedBy]

theorem sound_ofMoves (moves : List Network.Move)
    (hids : moves.countP Network.Move.asks < UInt64.size) : (ofMoves moves).Sound :=
  ofMoves_induction sound_new (fun _ move hs hroom => hs.step move hroom) moves hids

end Chronicle
end CounterCoordinator
