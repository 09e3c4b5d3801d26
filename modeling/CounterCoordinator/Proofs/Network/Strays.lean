import CounterCoordinator.Proofs.Manager.Release
import CounterCoordinator.Proofs.Network.Carriage
import Mathlib.Data.Finset.Card
import Mathlib.Data.Finset.Dedup

/-!
# Stray responses

Without duplicates a future has at most one message in flight. So a response that nobody waits for
answers a request that its own manager let go of while the answer was under way, and each request
let go of is good for one such response.
-/
namespace CounterCoordinator

namespace Network

/-- What is in flight after a message was handled was in flight before, and no answer to it. -/
theorem carried_delivered {n : Network} {k : Nat} {p : Parcel} {m : Manager} {message : Message}
    {f : FutureId} (hp : n.flight[k]? = some p) (hpayload : p.payload = Wire.encode message)
    (hsingle : n.carried.Nodup)
    (hf : f ∈ ((n.takeParcel k).2.absorb (m.act n.outlook p.source message)).carried) :
    f ∈ n.carried ∧ message.settled? ≠ some f := by
  have hperm := carried_takeParcel hp
  have hsplit := hperm.nodup_iff.mp hsingle
  rw [Parcel.future?_of_payload hpayload] at hperm hsplit
  rw [carried_absorb, future?_dispatched_act] at hf
  rcases List.mem_append.mp hf with hf | hf
  · refine ⟨hperm.mem_iff.mpr (List.mem_append_right _ hf), ?_⟩
    intro hsettled
    rw [Message.future?_of_settled? hsettled] at hsplit
    exact (List.nodup_cons.mp hsplit).1 hf
  · split at hf
    · rename_i hsent
      refine ⟨hperm.mem_iff.mpr (List.mem_append_left _ hf), ?_⟩
      intro hsettled
      rw [Manager.act_sent] at hsent
      cases message <;> first | cases hsent | cases hsettled
    · cases hf

end Network

namespace Chronicle
variable {h h' : Chronicle} {move : Network.Move} {m : Manager} {i : Issue}

theorem Change.balanced (hchange : Change h move h')
    (hb : ∀ m ∈ h.network.managers, m.Balanced h.network.ids.last)
    (hroom : move.asks → h.network.ids.last.toNat + 1 < UInt64.size)
    (hlast : h.network.ids.last.toNat ≤ h'.network.ids.last.toNat) :
    ∀ m ∈ h'.network.managers, m.Balanced h'.network.ids.last := by
  have old : ∀ m ∈ h.network.managers, m.Balanced h'.network.ids.last :=
    fun m hm => (hb m hm).mono hlast
  cases hchange with
  | quiet _ hmanagers =>
    rw [hmanagers]
    exact old
  | joined _ hmanagers =>
    rw [hmanagers]
    intro m hm
    rcases List.mem_append.mp hm with hm | hm
    · exact old m hm
    · rw [List.mem_singleton.mp hm]
      exact (Manager.balanced_new _ _).mono (Nat.zero_le _)
  | lost | unclaimed | doubled => exact old
  | asked hm =>
    obtain ⟨hmem, -⟩ := Network.mem_of_manager? hm
    intro m' hm'
    rcases Network.mem_setManager hm' with rfl | ⟨hm', -⟩
    · exact (hb _ hmem).ask (IdSource.toNat_next (hroom rfl)) _ _ _
    · exact old m' hm'
  | called hm =>
    obtain ⟨hmem, -⟩ := Network.mem_of_manager? hm
    intro m' hm'
    rcases Network.mem_setManager hm' with rfl | ⟨hm', -⟩
    · exact (hb _ hmem).call _ _
    · exact old m' hm'
  | delivered _ hm =>
    obtain ⟨hmem, -⟩ := Network.mem_of_manager? hm
    intro m' hm'
    rcases Network.mem_setManager hm' with rfl | ⟨hm', -⟩
    · exact (hb _ hmem).act _ _ _
    · exact old m' hm'

theorem balanced_ofMoves (moves : List Network.Move)
    (hids : moves.countP Network.Move.asks < UInt64.size) :
    ∀ m ∈ (ofMoves moves).network.managers, m.Balanced (ofMoves moves).network.ids.last := by
  have both : (ofMoves moves).Sound ∧
      ∀ m ∈ (ofMoves moves).network.managers, m.Balanced (ofMoves moves).network.ids.last := by
    refine ofMoves_induction (P := fun h => h.Sound ∧
      ∀ m ∈ h.network.managers, m.Balanced h.network.ids.last) ⟨sound_new, by simp⟩ ?_ moves hids
    rintro h move ⟨hs, hb⟩ hroom
    refine ⟨hs.step move hroom, (hs.change move).balanced hb hroom ?_⟩
    exact Nat.le_trans (Nat.le_add_right ..) (Nat.le_of_eq (Network.toNat_last_perform hroom).symm)
  exact both.2

def Awaits (h : Chronicle) (i : Issue) : Prop :=
  ∃ m, h.network.manager? i.requester = some m ∧ m.Waits i.what ⟨i.future, i.target⟩

/-- In this state the move makes the requester of an issue let go of it. -/
def Releases (h : Chronicle) (move : Network.Move) (i : Issue) : Prop :=
  ∃ m c, h.network.manager? i.requester = some m ∧ m.Waits i.what ⟨i.future, i.target⟩ ∧
    move = .call i.requester c ∧
    c.LetsGo m h.network.outlook i.what ⟨i.future, i.target⟩

/-- Some move of the run made the requester of an issue let go of it. -/
def LetGo (moves : List Network.Move) (i : Issue) : Prop :=
  ∃ before move, before ++ [move] <+: moves ∧ (ofMoves before).Releases move i

theorem LetGo.mono {moves later : List Network.Move} (hi : LetGo moves i)
    (hpart : moves <+: later) : LetGo later i := by
  obtain ⟨before, move, hbefore, hreleases⟩ := hi
  exact ⟨before, move, hbefore.trans hpart, hreleases⟩

/-- The requester waits on, or lets go, or nothing of the issue is in flight any more. -/
theorem Change.awaits (hchange : Change h move h') (ho : h.Once) (hs : h.Sound)
    (hb : ∀ m ∈ h.network.managers, m.Balanced h.network.ids.last)
    (hroom : move.asks → h.network.ids.last.toNat + 1 < UInt64.size)
    (hi : i ∈ h.issues) (hawaits : h.Awaits i) (hcarried : i.future ∈ h'.network.carried) :
    h'.Awaits i ∨ h.Releases move i := by
  obtain ⟨m, hm, hwaits⟩ := hawaits
  have acted : ∀ {n : Network} {here : NodeId} {acting : Manager} {r : Reaction}
      {issues assignments}, n.manager? here = some acting → n.manager? i.requester = some m →
      r.manager.self = acting.self → (i.requester = here → acting = m →
        r.manager.Waits i.what ⟨i.future, i.target⟩) →
      Awaits ⟨n.absorb r, issues, assignments⟩ i := by
    intro n here acting r issues assignments hacting hm hself hkept
    by_cases hhere : i.requester = here
    · have hsame : acting = m := by
        rw [hhere, hacting] at hm
        exact Option.some.inj hm
      refine ⟨r.manager, ?_, hkept hhere hsame⟩
      exact (Network.manager?_absorb_eq hacting hself _).trans (if_pos hhere)
    · have hother := (Network.manager?_absorb_eq hacting hself _).trans (if_neg hhere)
      exact ⟨m, hother.trans hm, hwaits⟩
  cases hchange with
  | quiet _ hmanagers => exact .inl ⟨m, (Network.manager?_congr hmanagers _).trans hm, hwaits⟩
  | joined _ hmanagers =>
    refine .inl ⟨m, ?_, hwaits⟩
    change List.find? _ _ = _ at hm
    rw [Network.manager?, hmanagers, List.find?_append, hm, Option.some_or]
  | lost | unclaimed | doubled => exact .inl ⟨m, hm, hwaits⟩
  | asked hacting =>
    refine .inl (acted hacting hm (Manager.ask_self ..) ?_)
    rintro - rfl
    exact hwaits.ask (hs.future_ne_next (hroom rfl) hi) _
  | @called here c acting hacting =>
    by_cases hhere : i.requester = here
    · subst hhere
      cases hm.symm.trans hacting
      have keyed := (hb m (Network.mem_of_manager? hm).1).keyed
      refine (hwaits.call keyed h.network.outlook c).imp ?_ ?_
      · exact fun hwaits => acted hacting hm (Manager.call_self ..) fun _ _ => hwaits
      · exact fun hletsGo => ⟨m, c, hm, hwaits, rfl, hletsGo⟩
    · exact .inl (acted hacting hm (Manager.call_self ..) fun hsame => absurd hsame hhere)
  | delivered hp hacting hpayload =>
    obtain ⟨-, hsettled⟩ := Network.carried_delivered hp hpayload ho.single hcarried
    refine .inl (acted (n := (h.network.takeParcel _).2) hacting hm (Manager.act_self ..) ?_)
    rintro - rfl
    exact hwaits.act hsettled

/-- What is in flight after a change was in flight before, or it is a new request, which is waited
for. -/
theorem Change.carried (hchange : Change h move h') (ho : h.Once) (hs : h.Sound) (ht : h.Tracked)
    (honce : ∀ k, move ≠ .duplicate k)
    (hroom : move.asks → h.network.ids.last.toNat + 1 < UInt64.size)
    (hi : i ∈ h'.issues) (hcarried : i.future ∈ h'.network.carried) :
    (i ∈ h.issues ∧ i.future ∈ h.network.carried) ∨ h'.Awaits i := by
  cases hchange with
  | quiet _ _ hflight | joined _ _ hflight =>
    rw [Network.carried, hflight] at hcarried
    exact .inl ⟨hi, hcarried⟩
  | lost | unclaimed =>
    exact .inl ⟨hi, ((List.eraseIdx_sublist ..).filterMap _).subset hcarried⟩
  | doubled => exact absurd rfl (honce _)
  | @asked node target what m hm =>
    rw [Network.carried_absorb, Network.future?_dispatched_ask] at hcarried
    have hnew := next_not_carried hs ht (hroom rfl)
    rcases List.mem_append.mp hi with hi | hi
    · rcases List.mem_append.mp hcarried with hcarried | hcarried
      · exact .inl ⟨hi, hcarried⟩
      · split at hcarried
        · exact absurd (List.mem_singleton.mp hcarried) (hs.future_ne_next (hroom rfl) hi)
        · cases hcarried
    · cases List.mem_singleton.mp hi
      rcases List.mem_append.mp hcarried with hcarried | hcarried
      · exact absurd hcarried hnew
      · split at hcarried
        · rename_i hsent
          refine .inr ⟨(m.ask h.network.outlook h.network.ids.next.1 target what).manager, ?_,
            Manager.waits_asked _ (Option.isNone_iff_eq_none.mp hsent)⟩
          exact (Network.manager?_absorb_eq hm (Manager.ask_self ..) _).trans (if_pos rfl)
        · cases hcarried
  | called =>
    rw [Network.carried_absorb, Network.future?_dispatched_call] at hcarried
    exact .inl ⟨hi, by simpa using hcarried⟩
  | delivered hp _ hpayload =>
    exact .inl ⟨hi, (Network.carried_delivered hp hpayload ho.single hcarried).1⟩

/-- As long as a message of an issue is in flight, its requester waits for it or let go of it. -/
theorem awaited_or_letGo (moves : List Network.Move)
    (hids : moves.countP Network.Move.asks < UInt64.size)
    (honce : ∀ k, Network.Move.duplicate k ∉ moves) :
    ∀ i ∈ (ofMoves moves).issues, i.future ∈ (ofMoves moves).network.carried →
      (ofMoves moves).Awaits i ∨ LetGo moves i := by
  induction moves using List.reverseRecOn with
  | nil =>
    intro i hi
    cases hi
  | append_singleton moves move ih =>
    obtain ⟨hbefore, hroom⟩ := room_ofMoves hids
    have hsingle : ∀ k, Network.Move.duplicate k ∉ moves :=
      fun k hk => honce k (List.mem_append_left _ hk)
    have hs := sound_ofMoves moves hbefore
    have ho := once_ofMoves moves hbefore hsingle
    have hchange := hs.change move
    intro i hi hcarried
    rw [ofMoves_concat] at hi hcarried ⊢
    rcases hchange.carried ho hs (tracked_ofMoves moves hbefore)
      (fun k hk => honce k (by simp [hk])) hroom hi hcarried with ⟨hold, hflying⟩ | hawaits
    · rcases ih hbefore hsingle i hold hflying with hawaits | hletGo
      · refine (hchange.awaits ho hs (balanced_ofMoves moves hbefore) hroom hold hawaits
          hcarried).imp_right ?_
        exact fun hreleases => ⟨moves, move, List.prefix_refl _, hreleases⟩
      · exact .inr (hletGo.mono (List.prefix_append ..))
    · exact .inl hawaits

/-- A response belongs to an issue of the node it goes to. -/
theorem Origin.response {issues : List Issue} {p : Parcel} {message : Message} {f : FutureId}
    (ho : Origin issues p) (hpayload : p.payload = Wire.encode message)
    (hsettled : message.settled? = some f) :
    ∃ i ∈ issues, i.future = f ∧ i.requester = p.target ∧ ∃ c, message = i.what.response f c := by
  cases ho with
  | @request i hi =>
    cases Wire.encode_injective hpayload
    cases hwhat : i.what <;> rw [hwhat] at hsettled <;> cases hsettled
  | @counter i c hi hwhat =>
    cases Wire.encode_injective hpayload
    cases hsettled
    exact ⟨i, hi, rfl, rfl, c, by rw [Request.response, hwhat]; rfl⟩
  | @ack i hi hwhat =>
    cases Wire.encode_injective hpayload
    cases hsettled
    exact ⟨i, hi, rfl, rfl, 0, by rw [Request.response, hwhat]; rfl⟩
  | rollback | queryDone =>
    cases Wire.encode_injective hpayload
    cases hsettled

namespace Tracked
variable {m' : Manager} {f : FutureId}

/-- A future that a manager waits for is its own, and waits in the list of its kind. The manager may
have ended other waits meanwhile. -/
theorem waits_of_awaited (ht : h.Tracked) (hm : m ∈ h.network.managers)
    (hcounter : ∀ e ∈ m'.counterWaits.entries, e ∈ m.counterWaits.entries)
    (hack : ∀ e ∈ m'.ackWaits.entries, e ∈ m.ackWaits.entries) (hf : f ∈ m'.awaited) :
    ∃ i ∈ h.issues, i.future = f ∧ m'.Waits i.what ⟨i.future, i.target⟩ := by
  unfold Manager.Waits
  rcases Manager.mem_awaited.mp hf with ⟨e, he, rfl⟩ | ⟨e, he, rfl⟩
  · obtain ⟨i, hi, hwhat, -, rfl⟩ := ht.counterWaits m hm e (hcounter e he)
    exact ⟨i, hi, rfl, by rwa [hwhat]⟩
  · obtain ⟨i, hi, hwhat, -, rfl⟩ := ht.ackWaits m hm e (hack e he)
    exact ⟨i, hi, rfl, by rwa [hwhat]⟩

theorem awaited_nodup (ht : h.Tracked) (hs : h.Sound) (hm : m ∈ h.network.managers)
    (hk : m.Keyed) : m.awaited.Nodup := by
  refine hk.counterWaits.append hk.ackWaits ?_
  intro f hcounter hack
  obtain ⟨e, he, rfl⟩ := List.mem_map.mp hcounter
  obtain ⟨e', he', hid⟩ := List.mem_map.mp hack
  obtain ⟨i, hi, hwhat, -, rfl⟩ := ht.counterWaits m hm e he
  obtain ⟨k, hk, hcommit, -, rfl⟩ := ht.ackWaits m hm e' he'
  have hsame : k = i := List.inj_on_of_nodup_map hs.unique hk hi hid
  rw [hsame, hwhat] at hcommit
  cases hcommit

end Tracked

section Response
variable {p : Parcel} {message : Message} {f : FutureId}

theorem mem_carried (hp : p ∈ h.network.flight) (hpayload : p.payload = Wire.encode message)
    (hsettled : message.settled? = some f) : f ∈ h.network.carried := by
  refine List.mem_filterMap.mpr ⟨p, hp, ?_⟩
  rw [Parcel.future?_of_payload hpayload]
  exact Message.future?_of_settled? hsettled

/-- After a response was handled its future is not waited for. -/
theorem not_awaited_of_response (hs : h.Sound) (ht : h.Tracked) (hp : p ∈ h.network.flight)
    (hpayload : p.payload = Wire.encode message) (hsettled : message.settled? = some f)
    (hm : m ∈ h.network.managers) (view : Outlook) :
    f ∉ (m.act view p.source message).manager.awaited := by
  intro hawaited
  obtain ⟨i, hi, rfl, -, c, rfl⟩ := (ht.flight p hp).response hpayload hsettled
  obtain ⟨k, hk, hfuture, hwaits⟩ := ht.waits_of_awaited hm
    (fun _ => Manager.mem_counterWaits_act) (fun _ => Manager.mem_ackWaits_act) hawaited
  have hsame : k = i := List.inj_on_of_nodup_map hs.unique hk hi hfuture
  rw [hsame] at hwaits
  exact Manager.not_waits_response (e := ⟨i.future, i.target⟩) _ c hwaits

end Response

/-- A set of futures that covers those a manager waits for and those of its own in flight. The
manager registered as many futures as it completed, got unmatched responses for, or has in the
set. -/
structure Covers (h : Chronicle) (m : Manager) (due : Finset FutureId) : Prop where
  awaited : ∀ f ∈ m.awaited, f ∈ due
  carried : ∀ i ∈ h.issues, i.requester = m.self → i.future ∈ h.network.carried → i.future ∈ due
  accounts : m.metrics.futuresCompleted.toNat + m.metrics.unmatchedResponses.toNat + due.card ≤
    m.metrics.futuresRegistered.toNat

namespace Covers
variable {due : Finset FutureId} {issues : List Issue} {assignments : List Assignment}

/-- Whatever happens elsewhere, at most some of what was in flight is gone. -/
theorem elsewhere (hc : h.Covers m due)
    (hcarried : ∀ i ∈ h'.issues, i.requester = m.self → i.future ∈ h'.network.carried →
      i ∈ h.issues ∧ i.future ∈ h.network.carried) : h'.Covers m due := by
  refine ⟨hc.awaited, ?_, hc.accounts⟩
  intro i hi hrequester hflying
  obtain ⟨hi, hflying⟩ := hcarried i hi hrequester hflying
  exact hc.carried i hi hrequester hflying

/-- A refused request is completed at once, and one that was sent is due. -/
theorem ask (hc : h.Covers m due) (hs : h.Sound) (ht : h.Tracked)
    (hb : m.Balanced h.network.ids.last) (hroom : h.network.ids.last.toNat + 1 < UInt64.size)
    (target : NodeId) (what : Request) :
    ∃ due, Covers
      ⟨Network.absorb { h.network with ids := h.network.ids.next.2 }
          (m.ask h.network.outlook h.network.ids.next.1 target what),
        h.issues ++ [⟨h.network.ids.next.1, m.self, target, what⟩], assignments⟩
      (m.ask h.network.outlook h.network.ids.next.1 target what).manager due := by
  obtain ⟨-, hunmatched, hregistered, hcompleted⟩ :=
    m.ask_tally h.network.outlook h.network.ids.next.1 target what
  have haccounts := hc.accounts
  have hissued := hb.issued
  have hone : (m.metrics.futuresRegistered + 1).toNat = m.metrics.futuresRegistered.toNat + 1 :=
    toNat_add_of_lt (by rw [UInt64.toNat_one]; omega)
  cases hsent : h.network.outlook.refusal? target with
  | none =>
    refine ⟨insert h.network.ids.next.1 due, ?_, ?_, ?_⟩
    · intro f hf
      rcases Manager.mem_awaited_ask hf with hf | ⟨rfl, -⟩
      · exact Finset.mem_insert_of_mem (hc.awaited f hf)
      · exact Finset.mem_insert_self ..
    · intro i hi hrequester hcarried
      rw [Network.carried_absorb, Network.future?_dispatched_ask, hsent] at hcarried
      rw [Manager.ask_self] at hrequester
      rcases List.mem_append.mp hi with hi | hi
      · rcases List.mem_append.mp hcarried with hcarried | hcarried
        · exact Finset.mem_insert_of_mem (hc.carried i hi hrequester hcarried)
        · rw [List.mem_singleton.mp hcarried]
          exact Finset.mem_insert_self ..
      · rw [List.mem_singleton.mp hi]
        exact Finset.mem_insert_self ..
    · have hcard := Finset.card_insert_le h.network.ids.next.1 due
      rw [hregistered, hcompleted, hunmatched, hsent, hone]
      simp only [Option.isNone_none, if_true, UInt64.add_zero]
      omega
  | some cause =>
    refine ⟨due, ?_, ?_, ?_⟩
    · intro f hf
      rcases Manager.mem_awaited_ask hf with hf | ⟨-, hnone⟩
      · exact hc.awaited f hf
      · cases hsent.symm.trans hnone
    · intro i hi hrequester hcarried
      rw [Network.carried_absorb, Network.future?_dispatched_ask, hsent] at hcarried
      rw [Manager.ask_self] at hrequester
      have hold : i.future ∈ h.network.carried := (List.mem_append.mp hcarried).elim id nofun
      rcases List.mem_append.mp hi with hi | hi
      · exact hc.carried i hi hrequester hold
      · rw [List.mem_singleton.mp hi] at hold
        exact absurd hold (next_not_carried hs ht hroom)
    · have hdone : (m.metrics.futuresCompleted + 1).toNat = m.metrics.futuresCompleted.toNat + 1 :=
        toNat_add_of_lt (by rw [UInt64.toNat_one]; omega)
      rw [hregistered, hcompleted, hunmatched, hsent, hone]
      simp only [Option.isNone_some, Bool.false_eq_true, if_false, hdone]
      omega

theorem call (hc : h.Covers m due) (c : Call) :
    Covers { h with network := h.network.absorb (m.call h.network.outlook c) }
      (m.call h.network.outlook c).manager due := by
  obtain ⟨-, hunmatched, hregistered, hcompleted⟩ := m.call_tally h.network.outlook c
  constructor
  · exact fun f hf => hc.awaited f (Manager.mem_awaited_call hf)
  · intro i hi hrequester hcarried
    rw [Network.carried_absorb, Network.future?_dispatched_call] at hcarried
    rw [Manager.call_self] at hrequester
    exact hc.carried i hi hrequester (by simpa using hcarried)
  · rw [hregistered, hcompleted, hunmatched]
    exact hc.accounts

/-- A response completes its future or is unmatched, and then nothing of it is due any more. -/
theorem act (hc : h.Covers m due) (ho : h.Once) (hs : h.Sound) (ht : h.Tracked) {k : Nat}
    {p : Parcel} {message : Message} (hp : h.network.flight[k]? = some p)
    (hm : h.network.manager? p.target = some m) (hpayload : p.payload = Wire.encode message) :
    ∃ due, Covers
      ⟨(h.network.takeParcel k).2.absorb (m.act h.network.outlook p.source message), h.issues,
        assignments⟩
      (m.act h.network.outlook p.source message).manager due := by
  obtain ⟨hmem, hself⟩ := Network.mem_of_manager? hm
  obtain ⟨-, hunmatched, hregistered, hcompleted⟩ :=
    m.act_tally h.network.outlook p.source message
  have haccounts := hc.accounts
  have hbound := UInt64.toNat_lt_size m.metrics.futuresRegistered
  have hflying := List.mem_of_getElem? hp
  cases hsettled : message.settled? with
  | none =>
    refine ⟨due, fun f hf => hc.awaited f (Manager.mem_awaited_act hf), ?_, ?_⟩
    · intro i hi hrequester hcarried
      rw [Manager.act_self] at hrequester
      exact hc.carried i hi hrequester
        (Network.carried_delivered hp hpayload ho.single hcarried).1
    · rw [hregistered, hcompleted, hunmatched, hsettled,
        Manager.unexpected_of_settled?_eq_none hsettled]
      simpa using haccounts
  | some f =>
    have hdue : f ∈ due := by
      obtain ⟨i, hi, rfl, hrequester, -⟩ := (ht.flight p hflying).response hpayload hsettled
      exact hc.carried i hi (hrequester.trans hself.symm) (mem_carried hflying hpayload hsettled)
    refine ⟨due.erase f, ?_, ?_, ?_⟩
    · intro g hg
      refine Finset.mem_erase.mpr ⟨?_, hc.awaited g (Manager.mem_awaited_act hg)⟩
      rintro rfl
      exact not_awaited_of_response hs ht hflying hpayload hsettled hmem _ hg
    · intro i hi hrequester hcarried
      rw [Manager.act_self] at hrequester
      obtain ⟨hcarried, hne⟩ := Network.carried_delivered hp hpayload ho.single hcarried
      refine Finset.mem_erase.mpr ⟨?_, hc.carried i hi hrequester hcarried⟩
      rintro rfl
      exact hne hsettled
    · have hcard := Finset.card_erase_add_one hdue
      have hone : (1 : UInt64).toNat = 1 := UInt64.toNat_one
      rw [hregistered, hcompleted, hunmatched, hsettled]
      cases m.unexpected message with
      | true =>
        have hadd : (m.metrics.unmatchedResponses + 1).toNat =
            m.metrics.unmatchedResponses.toNat + 1 := toNat_add_of_lt (by omega)
        simp only [Option.isSome_some, Bool.true_eq_false, and_false, if_false, if_true, hadd]
        omega
      | false =>
        have hadd : (m.metrics.futuresCompleted + 1).toNat =
            m.metrics.futuresCompleted.toNat + 1 := toNat_add_of_lt (by omega)
        simp only [Option.isSome_some, and_self, Bool.false_eq_true, if_true, if_false, hadd]
        omega

/-- Unmatched responses answer requests that were cancelled or given up. -/
theorem unmatched_le (hc : h.Covers m due) {last : FutureId} (hb : m.Balanced last)
    (hnodup : m.awaited.Nodup) :
    m.metrics.unmatchedResponses.toNat ≤ m.metrics.futuresCancelled.toNat + m.abandoned.toNat := by
  have hwaiting : m.counterWaits.size + m.ackWaits.size ≤ due.card := by
    have hlength : m.awaited.length = m.counterWaits.size + m.ackWaits.size := by
      simp [Manager.awaited, Waitlist.size]
    rw [← hlength, ← List.toFinset_card_of_nodup hnodup]
    exact Finset.card_le_card fun f hf => hc.awaited f (List.mem_toFinset.mp hf)
  have haccounts := hb.accounts
  have hcovered := hc.accounts
  rw [hb.toNat_abandoned]
  unfold Waitlist.load at haccounts
  omega

end Covers

theorem requester_managed (moves : List Network.Move) :
    ∀ i ∈ (ofMoves moves).issues, ((ofMoves moves).network.manager? i.requester).isSome := by
  induction moves using List.reverseRecOn with
  | nil =>
    intro i hi
    cases hi
  | append_singleton moves move ih =>
    rw [ofMoves_concat]
    intro i hi
    apply Network.isSome_manager?_perform
    rcases List.mem_append.mp hi with hi | hi
    · exact ih i hi
    · have hissued := Option.mem_toList.mp hi
      cases move with
      | ask node target what =>
        obtain ⟨m, hm, rfl⟩ := Option.map_eq_some_iff.mp hissued
        exact Option.isSome_of_eq_some hm
      | add | remove | breakLink | heal | call | deliver | lose | duplicate => cases hissued

theorem Change.covers (hchange : Change h move h') (ho : h.Once) (hs : h.Sound) (ht : h.Tracked)
    (hb : ∀ m ∈ h.network.managers, m.Balanced h.network.ids.last)
    (hmanaged : ∀ i ∈ h.issues, (h.network.manager? i.requester).isSome)
    (honce : ∀ k, move ≠ .duplicate k)
    (hroom : move.asks → h.network.ids.last.toNat + 1 < UInt64.size)
    (hc : ∀ m ∈ h.network.managers, ∃ due, h.Covers m due) :
    ∀ m ∈ h'.network.managers, ∃ due, h'.Covers m due := by
  cases hchange with
  | quiet _ hmanagers hflight =>
    rw [hmanagers]
    intro m hm
    obtain ⟨due, hdue⟩ := hc m hm
    refine ⟨due, hdue.elsewhere ?_⟩
    rw [Network.carried, hflight]
    exact fun i hi _ hcarried => ⟨hi, hcarried⟩
  | @joined node _ _ _ _ hnone hmanagers hflight =>
    rw [hmanagers]
    intro m hm
    rcases List.mem_append.mp hm with hm | hm
    · obtain ⟨due, hdue⟩ := hc m hm
      refine ⟨due, hdue.elsewhere ?_⟩
      rw [Network.carried, hflight]
      exact fun i hi _ hcarried => ⟨hi, hcarried⟩
    · cases List.mem_singleton.mp hm
      refine ⟨∅, by simp [Manager.awaited], ?_, by simp⟩
      intro i hi hrequester
      have hsome := hmanaged i hi
      rw [hrequester, hnone] at hsome
      cases hsome
  | lost | unclaimed =>
    intro m hm
    obtain ⟨due, hdue⟩ := hc m hm
    refine ⟨due, hdue.elsewhere ?_⟩
    exact fun i hi _ hcarried =>
      ⟨hi, ((List.eraseIdx_sublist ..).filterMap _).subset hcarried⟩
  | doubled => exact absurd rfl (honce _)
  | @asked node target what m hm =>
    obtain ⟨hmem, rfl⟩ := Network.mem_of_manager? hm
    intro m' hm'
    rcases Network.mem_setManager hm' with rfl | ⟨hm', hne⟩
    · obtain ⟨due, hdue⟩ := hc m hmem
      exact hdue.ask hs ht (hb m hmem) (hroom rfl) target what
    · obtain ⟨due, hdue⟩ := hc m' hm'
      refine ⟨due, hdue.elsewhere ?_⟩
      intro i hi hrequester hcarried
      rw [Manager.ask_self] at hne
      rcases List.mem_append.mp hi with hi | hi
      · refine ⟨hi, ?_⟩
        rw [Network.carried_absorb, Network.future?_dispatched_ask] at hcarried
        rcases List.mem_append.mp hcarried with hcarried | hcarried
        · exact hcarried
        · split at hcarried
          · exact absurd (List.mem_singleton.mp hcarried) (hs.future_ne_next (hroom rfl) hi)
          · cases hcarried
      · rw [List.mem_singleton.mp hi] at hrequester
        exact absurd hrequester.symm hne
  | @called node c m hm =>
    obtain ⟨hmem, -⟩ := Network.mem_of_manager? hm
    intro m' hm'
    rcases Network.mem_setManager hm' with rfl | ⟨hm', -⟩
    · obtain ⟨due, hdue⟩ := hc m hmem
      exact ⟨due, hdue.call c⟩
    · obtain ⟨due, hdue⟩ := hc m' hm'
      refine ⟨due, hdue.elsewhere ?_⟩
      rw [Network.carried_absorb, Network.future?_dispatched_call]
      exact fun i hi _ hcarried => ⟨hi, by simpa using hcarried⟩
  | @delivered k p m message hp hm hpayload =>
    obtain ⟨hmem, -⟩ := Network.mem_of_manager? hm
    intro m' hm'
    rcases Network.mem_setManager hm' with rfl | ⟨hm', -⟩
    · obtain ⟨due, hdue⟩ := hc m hmem
      exact hdue.act ho hs ht hp hm hpayload
    · obtain ⟨due, hdue⟩ := hc m' hm'
      refine ⟨due, hdue.elsewhere ?_⟩
      exact fun i hi _ hcarried =>
        ⟨hi, (Network.carried_delivered hp hpayload ho.single hcarried).1⟩

theorem covers_ofMoves (moves : List Network.Move)
    (hids : moves.countP Network.Move.asks < UInt64.size)
    (honce : ∀ k, Network.Move.duplicate k ∉ moves) :
    ∀ m ∈ (ofMoves moves).network.managers, ∃ due, (ofMoves moves).Covers m due := by
  induction moves using List.reverseRecOn with
  | nil =>
    intro m hm
    cases hm
  | append_singleton moves move ih =>
    obtain ⟨hbefore, hroom⟩ := room_ofMoves hids
    have hsingle : ∀ k, Network.Move.duplicate k ∉ moves :=
      fun k hk => honce k (List.mem_append_left _ hk)
    have hs := sound_ofMoves moves hbefore
    rw [ofMoves_concat]
    exact (hs.change move).covers (once_ofMoves moves hbefore hsingle) hs
      (tracked_ofMoves moves hbefore) (balanced_ofMoves moves hbefore) (requester_managed moves)
      (fun k hk => honce k (by simp [hk])) hroom (ih hbefore hsingle)

/-- On a network without duplicates, a response that nobody waits for names a future that the very
manager issued, and let go of before: it learned that the coordinator was gone, or the caller
dropped the future, while the answer was still awaited. So no manager ever counts more unmatched
responses than cancelled and abandoned futures. `hids` keeps the ids, which wrap around, apart. -/
theorem stray_responses_explained (moves : List Network.Move)
    (hids : moves.countP Network.Move.asks < UInt64.size)
    (honce : ∀ k, Network.Move.duplicate k ∉ moves) :
    (∀ earlier k p m message, earlier ++ [.deliver k] <+: moves →
      (ofMoves earlier).network.flight[k]? = some p →
      (ofMoves earlier).network.manager? p.target = some m →
      Wire.decode p.payload = .ok message → m.unexpected message →
        ∃ i ∈ (ofMoves earlier).issues, message.settled? = some i.future ∧
          i.requester = p.target ∧ LetGo earlier i) ∧
    ∀ m ∈ (ofMoves moves).network.managers,
      m.metrics.unmatchedResponses.toNat ≤
        m.metrics.futuresCancelled.toNat + m.abandoned.toNat := by
  constructor
  · intro earlier k p m message hpart hp hm hdecode hunexpected
    have hearlier : earlier <+: moves := (List.prefix_append ..).trans hpart
    have hroom := Nat.lt_of_le_of_lt hearlier.countP_le hids
    have hs := sound_ofMoves earlier hroom
    have ht := tracked_ofMoves earlier hroom
    have hflying := List.mem_of_getElem? hp
    obtain ⟨_, hpayload, -⟩ := hs.genuine p hflying
    rw [hpayload, Wire.decode_encode] at hdecode
    cases hdecode
    cases hsettled : message.settled? with
    | none =>
      rw [Manager.unexpected_of_settled?_eq_none hsettled] at hunexpected
      cases hunexpected
    | some f =>
      obtain ⟨i, hi, rfl, hrequester, c, rfl⟩ := (ht.flight p hflying).response hpayload hsettled
      refine ⟨i, hi, rfl, hrequester, ?_⟩
      refine (awaited_or_letGo earlier hroom (fun k hk => honce k (hearlier.mem hk)) i hi
        (mem_carried hflying hpayload hsettled)).resolve_left ?_
      rintro ⟨m', hm', hwaits⟩
      rw [hrequester, hm] at hm'
      cases hm'
      rw [hwaits.expected c] at hunexpected
      cases hunexpected
  · intro m hm
    obtain ⟨due, hdue⟩ := covers_ofMoves moves hids honce m hm
    have balanced := balanced_ofMoves moves hids m hm
    exact hdue.unmatched_le balanced
      ((tracked_ofMoves moves hids).awaited_nodup (sound_ofMoves moves hids) hm balanced.keyed)

/-- Node 1 asks node 2 for a counter and for a snapshot. Node 2 answers both, but meanwhile the
caller drops the second future, and node 2 fails. -/
def late : List Network.Move :=
  [.add (.ofNat 1) none false true, .add (.ofNat 2) none false true,
    .ask (.ofNat 1) (.ofNat 2) (.txCounter ⟨1, 1, 1⟩), .ask (.ofNat 1) (.ofNat 2) .queryCounter,
    .deliver 0, .deliver 0, .call (.ofNat 1) (.dropCounter 2), .remove (.ofNat 2),
    .call (.ofNat 1) (.nodeLeft (.ofNat 2))]

theorem stray_responses_explained_late :
    (∃ i ∈ (ofMoves late).issues, i.future = 1 ∧ i.requester = .ofNat 1 ∧ LetGo late i) ∧
      ((ofMoves (late ++ [.deliver 0, .deliver 0])).network.managers.map fun m =>
        (m.metrics.unmatchedResponses, m.metrics.futuresCancelled, m.abandoned)) =
          [(2, 1, 1), (0, 0, 0)] ∧
      ∀ m ∈ (ofMoves (late ++ [.deliver 0, .deliver 0])).network.managers,
        m.metrics.unmatchedResponses.toNat ≤
          m.metrics.futuresCancelled.toNat + m.abandoned.toNat := by
  have once : ∀ k, Network.Move.duplicate k ∉ late ++ [.deliver 0, .deliver 0] := by
    intro k
    simp [late]
  obtain ⟨explained, bounded⟩ :=
    stray_responses_explained (late ++ [.deliver 0, .deliver 0]) (by decide) once
  refine ⟨?_, by decide, bounded⟩
  obtain ⟨i, hi, hfuture, hrequester, hletGo⟩ :=
    explained late 0 _ _ _ (by decide) rfl rfl rfl (by decide)
  exact ⟨i, hi, (Option.some.inj hfuture).symm, hrequester, hletGo⟩

end Chronicle
end CounterCoordinator
