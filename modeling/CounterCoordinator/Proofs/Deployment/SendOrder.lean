import CounterCoordinator.Proofs.Deployment.Journal
import CounterCoordinator.Proofs.Network.Answers

/-!
# Counters follow the order of sending

A dispatcher handles the requests to its node in the order in which they were sent, and assigns
ascending counters. So of two requests for counters that were sent to one node, the later one gets
the greater counter if it gets one at all. That every counter was assigned to the very request it
answers holds as on any network that forges nothing: the messages sent so far, delivered or not,
serve as those in flight.
-/
namespace CounterCoordinator

/-- Without repetitions, a sublist is what is left of a list when all others are taken out. -/
theorem filter_mem_eq_of_sublist {α : Type} [DecidableEq α] {l w : List α} (h : l.Sublist w)
    (hnodup : w.Nodup) : w.filter (fun x => x ∈ l) = l := by
  induction h with
  | slnil => rfl
  | cons x h ih =>
    obtain ⟨hx, hnodup⟩ := List.nodup_cons.mp hnodup
    rw [List.filter_cons_of_neg, ih hnodup]
    simpa using fun hmem => hx (h.subset hmem)
  | cons_cons x h ih =>
    obtain ⟨hx, hnodup⟩ := List.nodup_cons.mp hnodup
    rw [List.filter_cons_of_pos (by simp)]
    refine congrArg (x :: ·) ((List.filter_congr ?_).trans (ih hnodup))
    intro y hy
    have hne : y ≠ x := fun heq => hx (heq ▸ hy)
    simp [hne]

def Wire.asking? (payload : Bytes) : Option FutureId :=
  (counterRequest? payload).map Prod.fst

theorem Wire.asking?_eq_some_iff {payload : Bytes} {future : FutureId} :
    asking? payload = some future ↔ ∃ tx, decode payload = .ok (.txCounterRequest future tx) := by
  simp [asking?, counterRequest?_eq_some_iff]

theorem Wire.asking?_eq_none {payload : Bytes} (h : ¬ WantsCounter payload) :
    asking? payload = none := by
  rw [asking?, counterRequest?_eq_none h]
  rfl

namespace Deployment

/-- Who assigns a counter was asked for it under the future the assignment names. -/
theorem of_assignedBy? {d : Deployment} {node : NodeId} {e : Envelope} {a : Assignment}
    (h : d.assignedBy? node e = some a) :
    a.coordinator = node ∧ Wire.asking? e.payload = some a.future := by
  unfold assignedBy? at h
  split at h
  · obtain ⟨m, hm, h⟩ := Option.bind_eq_some_iff.mp h
    unfold Network.assignedBy? at h
    split at h
    · rename_i future tx hdecode
      split at h
      · split at h
        · cases h
          exact ⟨(mem_of_manager? hm).2, Wire.asking?_eq_some_iff.mpr ⟨tx, hdecode⟩⟩
        · cases h
      · cases h
    · cases h
  · cases h

def Move.seeks : Move → Bool
  | ask _ _ (.txCounter _) => true
  | _ => false

theorem Move.asks_of_seeks {move : Move} (h : move.seeks) : move.asks := by
  cases move with
  | ask => rfl
  | look | join | depart | call | dispatch | listen | closeInbox => cases h

/-- Counters are only asked for by requests, under their new ids. -/
theorem Effect.asking {d d' : Deployment} {move : Move} {taken? : Option Envelope} {r : Reaction}
    (he : Effect d move taken? (some r) d') {p : Parcel} (hp : Network.dispatched r = some p)
    {f : FutureId} (hf : Wire.asking? p.payload = some f) : move.seeks ∧ f = d.ids.next.1 := by
  obtain ⟨out, hout, rfl⟩ := Option.map_eq_some_iff.mp hp
  have quiet : ¬ Wire.WantsCounter out.payload → False := by
    intro hquiet
    rw [Wire.asking?_eq_none hquiet] at hf
    cases hf
  cases he with
  | @asked _ _ what _ hm =>
    rw [Manager.ask_sent, Outlook.outgoing?] at hout
    split at hout <;> cases hout
    obtain ⟨tx, hdecode⟩ := Wire.asking?_eq_some_iff.mp hf
    rw [Wire.decode_encode, Except.ok.injEq] at hdecode
    cases what with
    | txCounter => exact ⟨rfl, (Message.txCounterRequest.inj hdecode).1.symm⟩
    | queryCounter | commit => cases hdecode
  | called | heard => exact (quiet (Manager.not_wantsCounter_of_call hout)).elim
  | read => exact (quiet (Manager.dispatch_sent hout)).elim

theorem network_absorb (d : Deployment) (r : Reaction) (sent : List Parcel) :
    { (d.absorb r).network with flight := sent ++ (Network.dispatched r).toList } =
      Network.absorb { d.network with flight := sent } r := by
  unfold absorb Network.absorb Network.dispatched
  cases r.sent <;> rfl

theorem network_joinAs (d : Deployment) {id : NodeId} (hnew : d.manager? id = none)
    (client cancelAcks : Bool) (sent : List Parcel) :
    { (d.joinAs id client cancelAcks).2.2.network with flight := sent } =
      (Network.add { d.network with flight := sent } id (some (d.cluster.lastOrder + 1)) client
        cancelAcks).2 := by
  have hnone : Network.manager? { d.network with flight := sent } id = none := hnew
  simp only [Network.add, hnone]
  rfl

end Deployment

namespace Journal
variable {j : Journal} {move : Deployment.Move} {moves : List Deployment.Move}

/-- The run as one of a network on which everything that was sent is still in flight. -/
def chronicle (j : Journal) : Chronicle where
  network := { j.deployment.network with flight := j.sent }
  issues := j.issues
  assignments := j.assignments

/-- The future of a node was resolved with a counter, at the end of the run or before. -/
def Answered (moves : List Deployment.Move) (node : NodeId) (future : FutureId)
    (counter : Version) : Prop :=
  ∃ earlier, earlier <+: moves ∧
    (ofMoves earlier).deployment.network.counter? node future = some counter

/-- A dispatcher only takes what was sent to its node. -/
theorem Queued.posted (hq : j.Queued) {node : NodeId} {e : Envelope}
    (htake : (j.deployment.cluster.take node).1 = .envelope e) :
    ∃ p ∈ j.sent, p.target = node ∧ p.envelope = e := by
  have hprefix := ((hq.flow node).take htake).begins
  rw [if_pos rfl] at hprefix
  have hmem := hprefix.subset (List.mem_append_right _ (List.mem_singleton_self e))
  obtain ⟨p, hp, hsame⟩ := List.mem_map.mp hmem
  obtain ⟨hp, htarget⟩ := List.mem_filter.mp hp
  exact ⟨p, hp, of_decide_eq_true htarget, hsame⟩

theorem sound_read (hs : j.chronicle.Sound) (hq : j.Queued) {here : NodeId} {e : Envelope}
    {m : Manager} (htake : (j.deployment.cluster.take here).1 = .envelope e)
    (hm : j.deployment.manager? here = some m) :
    Chronicle.Sound
      { network := Network.absorb
          { Deployment.network
              { j.deployment with cluster := (j.deployment.cluster.take here).2 } with
            flight := j.sent }
          (m.dispatch j.deployment.cluster.outlook e)
        issues := j.issues
        assignments := j.assignments ++ (j.deployment.assignedBy? here e).toList } := by
  obtain ⟨p, hp, rfl, rfl⟩ := hq.posted htake
  obtain ⟨message, hpayload, hmessage⟩ := hs.genuine p hp
  obtain ⟨_, _, _, _, _, hafter⟩ := Cluster.take_spec htake
  obtain ⟨hmanager, hsent⟩ := m.receive_of_decode j.deployment.cluster.outlook p.source
    (Wire.encode message) (Wire.decode_encode message)
  have hassigned : j.deployment.assignedBy? p.target p.envelope =
      j.chronicle.network.assignedBy? m p.source (Wire.encode message) := by
    simp only [Deployment.assignedBy?, Parcel.envelope, hm, hpayload]
    rfl
  rw [hassigned, hafter, Manager.dispatch, Parcel.envelope]
  simp only [hpayload]
  rw [Network.absorb_congr _ hmanager hsent]
  exact hs.act hm hmessage rfl

theorem sound_step (hs : j.chronicle.Sound) (hq : j.Queued) (hfits : j.Fits move) :
    (j.step move).chronicle.Sound := by
  have heffect := j.deployment.effect move
  simp only [step, chronicle, Deployment.sent?, Deployment.assigned?, Deployment.handed?]
  generalize j.deployment.taken? move = t, j.deployment.reaction? move = r,
    j.deployment.perform move = d at heffect ⊢
  cases heffect
  all_goals simp only [Option.bind_none, Option.bind_some, Option.toList_none, List.append_nil,
    Deployment.issued?, Deployment.network_absorb, Deployment.Move.actor?, Option.map_some]
  case look | unheard | uncalled | untaken => exact hs
  case joined id client cancelAcks =>
    rw [j.deployment.network_joinAs (hfits.manager id rfl)]
    exact hs.add id _ client cancelAcks
  case departed | closed => exact hs.with_network (Nat.le_refl _) rfl fun _ hp => hp
  case unasked here target what hm =>
    have hissued : j.deployment.network.issued? (.ask here target what) = none :=
      congrArg (Option.map _) hm
    rw [hissued, Option.toList_none, List.append_nil]
    refine hs.with_network ?_ rfl fun _ hp => hp
    exact Nat.le_trans (Nat.le_succ _) (Nat.le_of_eq (IdSource.toNat_next (hfits.room rfl)).symm)
  case asked here target what m hm =>
    have hissued : j.deployment.network.issued? (.ask here target what) =
        some ⟨j.deployment.ids.next.1, here, target, what⟩ := congrArg (Option.map _) hm
    rw [hissued]
    have issued := hs.issue (hfits.room rfl) here target what
    exact issued.ask hm (List.mem_append_right _ (List.mem_singleton_self _)) _
  case called c m hm | heard c m hm => exact hs.call hm _ c
  case unread here e htake hm =>
    have hnone : j.deployment.assignedBy? here e = none := by
      unfold Deployment.assignedBy?
      rw [hm]
      cases e.channel <;> rfl
    obtain ⟨_, _, _, _, _, hafter⟩ := Cluster.take_spec htake
    rw [hnone, hafter, Option.toList_none, List.append_nil]
    exact hs.with_network (Nat.le_refl _) rfl fun _ hp => hp
  case read htake hm => exact sound_read hs hq htake hm

/-- The futures of the requests for counters that were sent. -/
def asked (j : Journal) : List FutureId :=
  j.sent.filterMap fun p => Wire.asking? p.payload

theorem issued_of_asked (hs : j.chronicle.Sound) {f : FutureId} (hf : f ∈ j.asked) :
    ∃ i ∈ j.issues, i.future = f := by
  obtain ⟨p, hp, hasking⟩ := List.mem_filterMap.mp hf
  obtain ⟨message, hpayload, hmessage⟩ := hs.genuine p hp
  obtain ⟨tx, hdecode⟩ := Wire.asking?_eq_some_iff.mp hasking
  rw [hpayload, Wire.decode_encode] at hdecode
  cases hdecode
  exact ⟨_, hmessage, rfl⟩

theorem asked_step (j : Journal) (move : Deployment.Move) :
    (j.step move).asked =
      j.asked ++ ((j.deployment.sent? move).bind fun p => Wire.asking? p.payload).toList := by
  rw [asked, step, List.filterMap_append]
  cases j.deployment.sent? move with
  | none => rfl
  | some p => cases h : Wire.asking? p.payload <;> simp [h, asked]

/-- No request for a counter is sent twice. -/
theorem nodup_asked_step (hs : j.chronicle.Sound) (hfits : j.Fits move) (hnodup : j.asked.Nodup) :
    (j.step move).asked.Nodup := by
  rw [asked_step]
  cases hnew : (j.deployment.sent? move).bind fun p => Wire.asking? p.payload with
  | none => simpa using hnodup
  | some f =>
    obtain ⟨p, hp, hf⟩ := Option.bind_eq_some_iff.mp hnew
    obtain ⟨r, hr, hp⟩ := Option.bind_eq_some_iff.mp hp
    have heffect := j.deployment.effect move
    rw [hr] at heffect
    obtain ⟨hseeks, rfl⟩ := heffect.asking hp hf
    have hfresh : j.deployment.ids.next.1 ∉ j.asked := by
      intro hold
      obtain ⟨i, hi, hfuture⟩ := issued_of_asked hs hold
      exact hs.future_ne_next (hfits.room (Deployment.Move.asks_of_seeks hseeks)) hi hfuture
    rw [Option.toList_some, ← List.concat_eq_append, List.nodup_concat]
    exact ⟨hfresh, hnodup⟩

/-- A node assigns counters in the order in which it took the requests. -/
def InTurn (j : Journal) (node : NodeId) : Prop :=
  ((j.chronicle.assignedBy node).map Assignment.future).Sublist
    ((takenBy j.taken node).filterMap fun e => Wire.asking? e.payload)

theorem inTurn_step {node : NodeId} (h : j.InTurn node) (move : Deployment.Move) :
    (j.step move).InTurn node := by
  simp only [InTurn, step, chronicle, Chronicle.assignedBy, Deployment.assigned?] at h ⊢
  cases hhanded : j.deployment.handed? move with
  | none =>
    simp only [Option.bind_none, Option.toList_none, List.append_nil]
    exact h
  | some t =>
    obtain ⟨here, e⟩ := t
    rw [Option.bind_some, Option.toList_some, takenBy_concat, List.filterMap_append,
      List.filter_append, List.map_append]
    refine h.append ?_
    cases hmade : j.deployment.assignedBy? here e with
    | none => exact List.nil_sublist _
    | some a =>
      obtain ⟨rfl, hasking⟩ := Deployment.of_assignedBy? hmade
      by_cases hnode : a.coordinator = node
      · simp [hnode, hasking]
      · simp [hnode]

structure Kept (j : Journal) : Prop where
  sound : j.chronicle.Sound
  queued : j.Queued
  single : j.asked.Nodup
  turns : ∀ node, j.InTurn node

theorem Kept.step (hk : j.Kept) (hfits : j.Fits move) : (j.step move).Kept :=
  ⟨sound_step hk.sound hk.queued hfits, hk.queued.step hfits,
    nodup_asked_step hk.sound hfits hk.single, fun node => inTurn_step (hk.turns node) move⟩

theorem kept_of_regular (hr : Regular moves) : (ofMoves moves).Kept :=
  ofMoves_induction ⟨Chronicle.sound_new, .new, .nil, fun _ => List.nil_sublist _⟩
    (fun _ _ => Kept.step) hr

namespace Kept

/-- The requests that a node took are some of those sent to it, in the order of sending. -/
theorem assigned_sublist (hk : j.Kept) (node : NodeId) :
    ((j.chronicle.assignedBy node).map Assignment.future).Sublist
      ((postedTo j.sent node).filterMap fun e => Wire.asking? e.payload) :=
  (hk.turns node).trans ((hk.queued.flow node).begins.sublist.filterMap _)

theorem posted_sublist (j : Journal) (node : NodeId) :
    ((postedTo j.sent node).filterMap fun e => Wire.asking? e.payload).Sublist j.asked := by
  rw [postedTo, List.filterMap_map]
  exact List.filter_sublist.filterMap _

/-- Of two requests sent to one node, the one sent first is assigned the smaller counter. -/
theorem counter_lt (hk : j.Kept) {p q : Parcel} (hpair : [p, q].Sublist j.sent)
    (htarget : p.target = q.target) {a b : Assignment}
    (hp : Wire.asking? p.payload = some a.future) (hq : Wire.asking? q.payload = some b.future)
    (ha : a ∈ j.chronicle.assignedBy q.target) (hb : b ∈ j.chronicle.assignedBy q.target)
    (hbound : (j.chronicle.assignedBy q.target).length < 2 ^ 63) : a.counter < b.counter := by
  have hassigned := hk.assigned_sublist q.target
  have hnodup := hk.single.sublist (posted_sublist j q.target)
  have hsent : [a.future, b.future].Sublist
      ((postedTo j.sent q.target).filterMap fun e => Wire.asking? e.payload) := by
    have hposted := ((hpair.filter fun r => r.target = q.target).map Parcel.envelope).filterMap
      fun e => Wire.asking? e.payload
    simpa [htarget, Parcel.envelope, hp, hq, postedTo] using hposted
  -- The futures of the assignments are those of the messages, with some left out.
  have hordered : [a.future, b.future].Sublist
      ((j.chronicle.assignedBy q.target).map Assignment.future) := by
    have hboth : ∀ f ∈ [a.future, b.future],
        decide (f ∈ (j.chronicle.assignedBy q.target).map Assignment.future) = true := by
      intro f hf
      rcases List.mem_pair.mp hf with rfl | rfl
      · exact decide_eq_true (List.mem_map_of_mem ha)
      · exact decide_eq_true (List.mem_map_of_mem hb)
    have hfilter := hsent.filter fun f =>
      f ∈ (j.chronicle.assignedBy q.target).map Assignment.future
    rwa [filter_mem_eq_of_sublist hassigned hnodup, List.filter_eq_self.mpr hboth] at hfilter
  obtain ⟨both, hboth, hfutures⟩ := List.sublist_map_iff.mp hordered
  obtain ⟨a', b', rfl⟩ : ∃ a' b', both = [a', b'] :=
    List.length_eq_two.mp (by simpa using (congrArg List.length hfutures).symm)
  simp only [List.map_cons, List.map_nil, List.cons.injEq, and_true] at hfutures
  have injective := List.inj_on_of_nodup_map (hnodup.sublist hassigned)
  have hsame_a : a = a' := injective ha (hboth.subset (by simp)) hfutures.1
  have hsame_b : b = b' := injective hb (hboth.subset (by simp)) hfutures.2
  subst hsame_a hsame_b
  have ascending := (hk.sound.counters_ascending hbound).sublist (hboth.map Assignment.counter)
  simpa using ascending

end Kept

/-- A counter that ever resolved the future of a request was assigned to it by the node asked. -/
theorem assigned_of_answered (hr : Regular moves) {p : Parcel} (hp : p ∈ (ofMoves moves).sent)
    {f : FutureId} {t : TxId} (hdecode : Wire.decode p.payload = .ok (.txCounterRequest f t))
    {c : Version} (hanswered : Answered moves p.source f c) :
    ⟨p.target, f, t, c⟩ ∈ (ofMoves moves).chronicle.assignedBy p.target := by
  obtain ⟨earlier, hearlier, hcounter⟩ := hanswered
  have hs := (kept_of_regular hr).sound
  have before := (kept_of_regular (hr.of_prefix hearlier)).sound
  obtain ⟨hissues, hassignments⟩ := records_grow hearlier
  obtain ⟨message, hpayload, hmessage⟩ := hs.genuine p hp
  rw [hpayload, Wire.decode_encode] at hdecode
  cases hdecode
  obtain ⟨m, hm, hresolved⟩ := Network.resolved_of_counter? hcounter
  obtain ⟨i, hi, hfuture, -, hcounter⟩ := before.credible m hm f c hresolved
  have hsame : i = ⟨f, p.source, p.target, .txCounter t⟩ :=
    List.inj_on_of_nodup_map hs.unique (hissues.subset hi) hmessage hfuture
  subst hsame
  exact Chronicle.mem_assignedBy (h := (ofMoves moves).chronicle) (hassignments.subset hcounter)

/-- Of two requests for counters that were sent to one node, the one sent later gets the greater
counter, if both get one. For what a dispatcher took is the beginning of what was sent to its node,
in order, each message once and with its sender, and what could not be sent reaches nobody. -/
theorem counters_follow_send_order (hr : Regular moves)
    (hcounters : ∀ node, ((ofMoves moves).chronicle.assignedBy node).length < 2 ^ 63) :
    (∀ p q f g t u c d, [p, q].Sublist (ofMoves moves).sent → p.target = q.target →
      Wire.decode p.payload = .ok (.txCounterRequest f t) →
      Wire.decode q.payload = .ok (.txCounterRequest g u) →
      Answered moves p.source f c → Answered moves q.source g d → c < d) ∧
    (∀ node, takenBy (ofMoves moves).taken node <+: postedTo (ofMoves moves).sent node) ∧
    (∀ move node, move.actor? = some node →
      (∀ p, (ofMoves moves).deployment.sent? move = some p → p.source = node ∧
        ((ofMoves moves).deployment.afterTaking move).send p.source p.target .coordinator
          p.payload = (.ok (), ((ofMoves moves).deployment.perform move).cluster)) ∧
      ((ofMoves moves).deployment.sent? move = none →
        ((ofMoves moves).deployment.perform move).cluster =
          (ofMoves moves).deployment.afterTaking move)) ∧
    ∀ target e, (ofMoves moves).deployment.cluster.Sends target e := by
  have hk := kept_of_regular hr
  refine ⟨?_, fun node => (hk.queued.flow node).begins,
    fun move node => Deployment.sent?_spec, hk.queued.sends⟩
  intro p q f g t u c d hpair htarget hp hq hc hd
  have ha := assigned_of_answered hr (hpair.subset (by simp)) hp hc
  have hb := assigned_of_answered hr (hpair.subset (by simp)) hq hd
  rw [htarget] at ha
  have hlt := hk.counter_lt hpair htarget (Wire.asking?_eq_some_iff.mpr ⟨t, hp⟩)
    (Wire.asking?_eq_some_iff.mpr ⟨u, hq⟩) ha hb (hcounters _)
  exact hlt

/-- Two nodes ask a third one for counters, and it has answered both when the answer to the request
sent first is read last. -/
def crossing : List Deployment.Move :=
  [.join (.ofNat 1) false true, .join (.ofNat 2) false true, .join (.ofNat 3) true true,
    .ask (.ofNat 3) (.ofNat 1) (.txCounter ⟨1, 1, 3⟩),
    .ask (.ofNat 2) (.ofNat 1) (.txCounter ⟨1, 1, 2⟩),
    .dispatch (.ofNat 1), .dispatch (.ofNat 1), .dispatch (.ofNat 2), .dispatch (.ofNat 3)]

theorem counters_follow_send_order_crossing :
    Answered crossing (.ofNat 3) 1 1 ∧ Answered crossing (.ofNat 2) 2 2 ∧ (1 : Version) < 2 := by
  have first : Answered crossing (.ofNat 3) 1 1 := ⟨crossing, List.prefix_refl _, by decide⟩
  have second : Answered crossing (.ofNat 2) 2 2 := ⟨crossing, List.prefix_refl _, by decide⟩
  have regular : Regular crossing := ⟨by decide, by decide⟩
  have few : ∀ node, ((ofMoves crossing).chronicle.assignedBy node).length < 2 ^ 63 :=
    fun node => Nat.lt_of_le_of_lt (List.length_filter_le _ _) (by decide)
  refine ⟨first, second, ?_⟩
  exact (counters_follow_send_order regular few).1
    ⟨.ofNat 3, .ofNat 1, Wire.encode (.txCounterRequest 1 ⟨1, 1, 3⟩)⟩
    ⟨.ofNat 2, .ofNat 1, Wire.encode (.txCounterRequest 2 ⟨1, 1, 2⟩)⟩
    1 2 ⟨1, 1, 3⟩ ⟨1, 1, 2⟩ 1 2 (by decide) rfl (Wire.decode_encode _) (Wire.decode_encode _)
    first second

end Journal
end CounterCoordinator
