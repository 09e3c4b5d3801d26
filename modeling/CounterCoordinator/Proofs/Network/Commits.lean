import CounterCoordinator.Proofs.Counters.Ledger
import CounterCoordinator.Proofs.Network.Answers
import CounterCoordinator.Proofs.Network.Carriage

/-!
# Acknowledged commits

A coordinator answers a commit acknowledgement after it forgot the transaction. It could learn of
the transaction again only from another request for its counter; so where each message arrives at
most once and the transaction asked for one counter only, and got it, there is no such request left,
and the transaction stays forgotten. All other ways to resolve an acknowledgement well need the
coordinator to be gone.
-/
namespace CounterCoordinator

namespace Network

def Delivers (n : Network) (move : Move) (node : NodeId) (message : Message) : Prop :=
  ∃ k p, move = .deliver k ∧ n.flight[k]? = some p ∧ p.target = node ∧
    Wire.decode p.payload = .ok message

def Unasked (n : Network) (tx : TxId) : Prop :=
  ∀ p ∈ n.flight, ∀ f, p.payload ≠ Wire.encode (.txCounterRequest f tx)

def Forgot (n : Network) (node : NodeId) (tx : TxId) : Prop :=
  ∀ m ∈ n.managers, m.self = node → m.counters.activeCounter? tx = none

namespace Forgot
variable {n : Network} {node : NodeId} {tx : TxId}

theorem absorb (hn : n.Forgot node tx) {m : Manager} {r : Reaction} (hm : m ∈ n.managers)
    (hself : r.manager.self = m.self)
    (hkept : m.counters.activeCounter? tx = none → r.manager.counters.activeCounter? tx = none) :
    (n.absorb r).Forgot node tx := by
  intro m' hm' hnode
  rcases mem_setManager hm' with rfl | ⟨hm', -⟩
  · exact hkept (hn m hm (hself.symm.trans hnode))
  · exact hn m' hm' hnode

end Forgot

end Network

namespace Chronicle
variable {h h' : Chronicle} {move : Network.Move} {node : NodeId} {tx : TxId}

/-- Without a request for its counter a coordinator does not learn of a transaction. -/
theorem Change.forgot (hchange : Change h move h')
    (hunasked : h.network.Unasked tx) (hforgot : h.network.Forgot node tx) :
    h'.network.Forgot node tx := by
  cases hchange with
  | quiet _ hmanagers =>
    intro m hm
    exact hforgot m (hmanagers ▸ hm)
  | joined _ hmanagers =>
    intro m hm hself
    rw [hmanagers] at hm
    rcases List.mem_append.mp hm with hm | hm
    · exact hforgot m hm hself
    · rw [List.mem_singleton.mp hm]
      rfl
  | lost | unclaimed | doubled => exact hforgot
  | asked hm =>
    refine Network.Forgot.absorb hforgot (Network.mem_of_manager? hm).1 (Manager.ask_self ..) ?_
    rw [Manager.ask_counters]
    exact id
  | called hm =>
    refine hforgot.absorb (Network.mem_of_manager? hm).1 (Manager.call_self ..) ?_
    rw [Manager.call_counters]
    exact id
  | @delivered k p m message hp hm hpayload =>
    refine Network.Forgot.absorb hforgot (Network.mem_of_manager? hm).1 (Manager.act_self ..) ?_
    intro hnone
    rw [Manager.act_counters]
    cases message with
    | txCounterRequest f other =>
      have hother : tx ≠ other := by
        rintro rfl
        exact hunasked p (List.mem_of_getElem? hp) f hpayload
      simp only
      split
      · rw [Counters.activeCounter?_assign, if_neg hother]
        exact hnone
      · exact hnone
    | txAckRequest f other skip =>
      simp only [Counters.activeCounter?_ack]
      split
      · rfl
      · exact hnone
    | queryCounterRequest | counterResponse | txAckResponse | queryAckRequest => exact hnone

/-- A coordinator answers a commit acknowledgement when it forgets the transaction. -/
theorem Change.forgot_of_response (ht : h.Tracked) (hchange : Change h move h') {f : FutureId}
    {q : Parcel} (hq : q ∈ h'.network.flight)
    (hresponse : q.payload = Wire.encode (.txAckResponse f)) :
    q ∈ h.network.flight ∨ ∃ i ∈ h.issues, ∃ tx, i.future = f ∧ i.what = .commit tx ∧
      h'.network.Forgot i.target tx := by
  cases hchange with
  | quiet _ _ hflight | joined _ _ hflight => exact .inl (hflight ▸ hq)
  | lost | unclaimed => exact .inl (List.mem_of_mem_eraseIdx hq)
  | doubled hp =>
    rcases List.mem_append.mp hq with hq | hq
    · exact .inl hq
    · rw [List.mem_singleton.mp hq]
      exact .inl (List.mem_of_getElem? hp)
  | @asked node target what m hm =>
    rcases Network.mem_flight_absorb hq with hq | ⟨out, hout, rfl⟩
    · exact .inl hq
    · rw [Manager.ask_sent, Outlook.outgoing?] at hout
      split at hout <;> cases hout
      have hmessage := Wire.encode_injective hresponse
      cases what <;> cases hmessage
  | @called node c m hm =>
    rcases Network.mem_flight_absorb hq with hq | ⟨out, hout, rfl⟩
    · exact .inl hq
    · rcases m.call_sent h.network.outlook c hout with ⟨u, hother⟩ | ⟨counter, hother⟩ <;>
        cases Wire.encode_injective (hresponse.symm.trans hother)
  | @delivered k p m message hp hm hpayload =>
    rcases Network.mem_flight_absorb hq with hq | ⟨out, hout, rfl⟩
    · exact .inl (List.mem_of_mem_eraseIdx hq)
    rcases m.act_sent_cases h.network.outlook p.source message with
      hsent | ⟨answer, hanswer, hsent⟩
    · rw [hsent] at hout
      cases hout
    rw [hsent] at hout
    cases hout
    cases Wire.encode_injective hresponse
    obtain ⟨what, f', rfl, hwhat⟩ := Manager.answer_cases hanswer
    cases what with
    | txCounter | queryCounter =>
      obtain ⟨c, hwhat⟩ := hwhat
      cases hwhat
    | commit tx =>
      cases hwhat
      have hissue := (ht.flight p (List.mem_of_getElem? hp)).issue_of_request hpayload
      refine .inr ⟨_, hissue, tx, rfl, rfl, ?_⟩
      obtain ⟨-, hself⟩ := Network.mem_of_manager? hm
      intro m' hm' htarget
      rcases Network.mem_setManager hm' with rfl | ⟨-, hne⟩
      · rw [Manager.act_counters]
        exact (Counters.activeCounter?_ack ..).trans (if_pos rfl)
      · rw [Manager.act_self] at hne
        exact absurd (htarget.trans hself.symm) hne

theorem Change.acknowledged (hchange : Change h move h') {f : FutureId}
    (hbefore : h.network.acknowledged node f = false) (hafter : h'.network.acknowledged node f) :
    h.network.Delivers move node (.txAckResponse f) ∨
      (∃ i cause, h.network.issued? move = some i ∧ i.future = f ∧
        h.network.refusal? i.target = some cause ∧ cause.isTopology) ∨
      ∃ m c, h.network.manager? node = some m ∧ m.cancelAcks ∧ move = .call node c ∧
        ∃ e ∈ m.ackWaits.entries, e.id = f ∧ c.GivesUpOn h.network.outlook e.target := by
  obtain ⟨m', hm', hfuture⟩ := Network.acknowledged_iff.mp hafter
  have hnot : ∀ m, h.network.manager? node = some m →
      m.ackWaits.future? f ≠ some (.resolved (.ok ())) := by
    intro m hm hf
    rw [Network.acknowledged_iff.mpr ⟨m, hm, hf⟩] at hbefore
    cases hbefore
  have unchanged : h.network.manager? node ≠ some m' := fun hm => hnot m' hm hfuture
  cases hchange with
  | quiet _ hmanagers => exact absurd (Network.manager?_congr hmanagers node ▸ hm') unchanged
  | lost | unclaimed | doubled => exact absurd hm' unchanged
  | @joined other order client cancelAcks n hnone hmanagers =>
    rw [Network.manager?, hmanagers, List.find?_append] at hm'
    rcases Option.or_eq_some_iff.mp hm' with hm' | ⟨-, hm'⟩
    · exact absurd hm' unchanged
    · rw [List.mem_singleton.mp (List.mem_of_find?_eq_some hm')] at hfuture
      cases hfuture
  | @asked here target what m hm =>
    rcases Network.manager?_absorb hm (Manager.ask_self ..) hm' with ⟨rfl, rfl⟩ | hm'
    · have hissued : h.network.issued? (.ask node target what) =
          some ⟨h.network.ids.next.1, node, target, what⟩ := by simp [Network.issued?, hm]
      rcases Manager.acknowledged_of_ask hfuture with hf | ⟨rfl, cause, hrefused, htopology⟩
      · exact absurd hf (hnot m hm)
      · exact .inr (.inl ⟨_, cause, hissued, rfl, hrefused, htopology⟩)
    · exact absurd hm' unchanged
  | @called here c m hm =>
    rcases Network.manager?_absorb hm (Manager.call_self ..) hm' with ⟨rfl, rfl⟩ | hm'
    · rcases (m.call_settles_acks h.network.outlook c).resolved f _ hfuture with
        hf | ⟨-, hcancel, hgiven⟩
      · exact absurd hf (hnot m hm)
      · exact .inr (.inr ⟨m, c, hm, hcancel, rfl, hgiven⟩)
    · exact absurd hm' unchanged
  | @delivered k p m message hp hm hpayload =>
    rcases Network.manager?_absorb (n := (h.network.takeParcel k).2) hm (Manager.act_self ..) hm'
      with ⟨rfl, rfl⟩ | hm'
    · have hbefore := hnot m hm
      rw [Manager.act_ackWaits] at hfuture
      split at hfuture
      · rcases (Waitlist.settles_complete ..).resolved f _ hfuture with hf | ⟨rfl, -⟩
        · exact absurd hf hbefore
        · exact .inl ⟨k, p, rfl, hp, rfl, by rw [hpayload, Wire.decode_encode]⟩
      · exact absurd hfuture hbefore
    · exact absurd hm' unchanged

/-- Induction along a run, from one of its states on. -/
theorem prefix_induction {P : List Network.Move → Prop} {before moves : List Network.Move}
    (hbase : P before)
    (hstep : ∀ earlier move, before <+: earlier → earlier ++ [move] <+: moves →
      P earlier → P (earlier ++ [move]))
    {later : List Network.Move} (hlater : before <+: later) (hmoves : later <+: moves) :
    P later := by
  obtain ⟨rest, rfl⟩ := hlater
  induction rest using List.reverseRecOn with
  | nil => rwa [List.append_nil]
  | append_singleton rest move ih =>
    rw [← List.append_assoc] at hmoves ⊢
    have hpart : before ++ rest <+: moves := (List.prefix_append ..).trans hmoves
    exact hstep _ move (List.prefix_append ..) hmoves (ih hpart)

section Run
variable {moves before later : List Network.Move} {target : NodeId} {i j : Issue} {c : Version}

theorem asks_lt_of_earlier (hids : moves.countP Network.Move.asks < UInt64.size)
    (hpart : later <+: moves) : later.countP Network.Move.asks < UInt64.size :=
  Nat.lt_of_le_of_lt hpart.countP_le hids

theorem issue_of_earlier (hj : (ofMoves before).network.issued? move = some j)
    (hpart : before ++ [move] <+: moves) : j ∈ (ofMoves moves).issues := by
  apply (extends_ofMoves hpart).issues.mem
  rw [ofMoves_concat]
  exact List.mem_append_right _ (Option.mem_toList.mpr hj)

/-- After the only request for a transaction's counter was answered there is none left. -/
theorem unasked_of_answered (hids : moves.countP Network.Move.asks < UInt64.size)
    (honce : ∀ k, Network.Move.duplicate k ∉ moves) (hi : i ∈ (ofMoves before).issues)
    (hwhat : i.what = .txCounter tx) (hanswered : Answered before i c)
    (honly : ∀ k ∈ (ofMoves moves).issues, k.what = .txCounter tx → k = i)
    (hlater : before <+: later) (hmoves : later <+: moves) :
    (ofMoves later).network.Unasked tx := by
  intro p hp f hpayload
  have hroom := asks_lt_of_earlier hids hmoves
  have hassigned := assigned_of_answered (asks_lt_of_earlier hroom hlater) hi hwhat hanswered
  have tracked := tracked_ofMoves later hroom
  have once := once_ofMoves later hroom fun k hk => honce k (hmoves.mem hk)
  have hrequest : p.payload = Wire.encode ((Request.txCounter tx).message f) := hpayload
  have hissue := (tracked.flight p hp).issue_of_request hrequest
  have hsame := honly _ ((extends_ofMoves hmoves).issues.mem hissue) rfl
  have hfuture : i.future = f := congrArg Issue.future hsame.symm
  have hspent := once.spent _ ((extends_ofMoves hlater).assignments.mem hassigned) p hp tx
  rw [hfuture] at hspent
  exact hspent hpayload

theorem forgot_along (hids : moves.countP Network.Move.asks < UInt64.size)
    (hunasked : ∀ later, before <+: later → later <+: moves → (ofMoves later).network.Unasked tx)
    (hforgot : (ofMoves before).network.Forgot node tx)
    (hlater : before <+: later) (hmoves : later <+: moves) :
    (ofMoves later).network.Forgot node tx := by
  refine prefix_induction (P := fun l => (ofMoves l).network.Forgot node tx) hforgot ?_ hlater
    hmoves
  intro earlier move hbefore hpart hforgot
  have hearlier : earlier <+: moves := (List.prefix_append ..).trans hpart
  have sound := sound_ofMoves earlier (asks_lt_of_earlier hids hearlier)
  rw [ofMoves_concat]
  exact (sound.change move).forgot (hunasked earlier hbefore hearlier) hforgot

/-- While the answer to a commit acknowledgement is in flight its transaction is forgotten. -/
theorem forgot_of_response (hids : moves.countP Network.Move.asks < UInt64.size)
    (hunasked : ∀ later, before <+: later → later <+: moves → (ofMoves later).network.Unasked tx)
    (hj : (ofMoves before).network.issued? (.ask node target (.commit tx)) = some j)
    (hask : before ++ [.ask node target (.commit tx)] <+: moves)
    (hlater : before <+: later) (hmoves : later <+: moves) :
    ∀ q ∈ (ofMoves later).network.flight, q.payload = Wire.encode (.txAckResponse j.future) →
      (ofMoves later).network.Forgot target tx := by
  refine prefix_induction (P := fun l => ∀ q ∈ (ofMoves l).network.flight,
    q.payload = Wire.encode (.txAckResponse j.future) → (ofMoves l).network.Forgot target tx)
    ?_ ?_ hlater hmoves
  · intro q hq hresponse
    obtain ⟨hroom, hnext⟩ := room_ofMoves (asks_lt_of_earlier hids hask)
    have hcarried : j.future ∈ (ofMoves before).network.carried :=
      List.mem_filterMap.mpr ⟨q, hq, Parcel.future?_of_payload hresponse⟩
    rw [Network.eq_of_issued? hj] at hcarried
    exact absurd hcarried
      (next_not_carried (sound_ofMoves before hroom) (tracked_ofMoves before hroom) (hnext rfl))
  · intro earlier move hbefore hpart ih q hq hresponse
    have hearlier : earlier <+: moves := (List.prefix_append ..).trans hpart
    have hroom := asks_lt_of_earlier hids hearlier
    have hchange := (sound_ofMoves earlier hroom).change move
    rw [ofMoves_concat] at hq ⊢
    rcases hchange.forgot_of_response (tracked_ofMoves earlier hroom) hq hresponse with
      hq | ⟨k, hk, u, hfuture, hwhat, hforgot⟩
    · exact hchange.forgot (hunasked earlier hbefore hearlier) (ih q hq hresponse)
    · have hsame : k = j := List.inj_on_of_nodup_map (sound_ofMoves moves hids).unique
        ((extends_ofMoves hearlier).issues.mem hk) (issue_of_earlier hj hask) hfuture
      rw [hsame, Network.eq_of_issued? hj] at hwhat hforgot
      cases hwhat
      exact hforgot

/-- Once the answer to a commit acknowledgement arrived, sent after the transaction got its only
counter, the coordinator does not know the transaction any more and never will. And the future of an
acknowledgement is resolved without an error only by its answer, by a topology error when it was
sent, or because its manager was told that the coordinator is gone. `hids` keeps the ids, which wrap
around, apart. -/
theorem commit_acks_final (moves : List Network.Move)
    (hids : moves.countP Network.Move.asks < UInt64.size)
    (honce : ∀ k, Network.Move.duplicate k ∉ moves) :
    (∀ before node target tx i j c, i ∈ (ofMoves before).issues → i.target = target →
      i.what = .txCounter tx → Answered before i c →
      (∀ k ∈ (ofMoves moves).issues, k.what = .txCounter tx → k = i) →
      (ofMoves before).network.issued? (.ask node target (.commit tx)) = some j →
        ∀ earlier move later, before ++ [.ask node target (.commit tx)] <+: earlier →
          earlier ++ [move] <+: later → later <+: moves →
          (ofMoves earlier).network.Delivers move node (.txAckResponse j.future) →
            ∃ m, (ofMoves later).network.manager? target = some m ∧
              m.counters.activeCounter? tx = none) ∧
    ∀ earlier move j tx, earlier ++ [move] <+: moves → j ∈ (ofMoves moves).issues →
      j.what = .commit tx →
      (ofMoves earlier).network.acknowledged j.requester j.future = false →
      (ofMoves (earlier ++ [move])).network.acknowledged j.requester j.future →
        (ofMoves earlier).network.Delivers move j.requester (.txAckResponse j.future) ∨
        ((ofMoves earlier).network.issued? move = some j ∧
          ∃ cause, (ofMoves earlier).network.refusal? j.target = some cause ∧ cause.isTopology) ∨
        ∃ m call, (ofMoves earlier).network.manager? j.requester = some m ∧ m.cancelAcks ∧
          move = .call j.requester call ∧
          call.GivesUpOn (ofMoves earlier).network.outlook j.target := by
  constructor
  · intro before node target tx i j c hi htarget hwhat hanswered honly hj earlier move later
      hearlier hlater hmoves hdelivers
    obtain ⟨k, p, -, hp, -, hdecode⟩ := hdelivers
    have hafter : earlier <+: later := (List.prefix_append ..).trans hlater
    have hbefore : before <+: earlier := (List.prefix_append ..).trans hearlier
    have hunasked : ∀ l, before <+: l → l <+: moves → (ofMoves l).network.Unasked tx :=
      fun l => unasked_of_answered hids honce hi hwhat hanswered honly
    -- the answer is in flight before the move, so its transaction is forgotten there
    have hforgot : (ofMoves earlier).network.Forgot target tx := by
      have hroom := asks_lt_of_earlier hids (hafter.trans hmoves)
      obtain ⟨message, hpayload, -⟩ :=
        (sound_ofMoves earlier hroom).genuine p (List.mem_of_getElem? hp)
      rw [hpayload, Wire.decode_encode] at hdecode
      cases hdecode
      exact forgot_of_response hids hunasked hj (hearlier.trans (hafter.trans hmoves)) hbefore
        (hafter.trans hmoves) p (List.mem_of_getElem? hp) hpayload
    have hlast := forgot_along hids (fun l hl => hunasked l (hbefore.trans hl)) hforgot hafter
      hmoves
    have hassigned := assigned_of_answered (asks_lt_of_earlier hids
      (hbefore.trans (hafter.trans hmoves))) hi hwhat hanswered
    have hserved := (sound_ofMoves later (asks_lt_of_earlier hids hmoves)).served _
      ((extends_ofMoves (hbefore.trans hafter)).assignments.mem hassigned)
    obtain ⟨m, hm⟩ := Option.isSome_iff_exists.mp hserved
    rw [htarget] at hm
    obtain ⟨hmem, hself⟩ := Network.mem_of_manager? hm
    exact ⟨m, hm, hlast m hmem hself⟩
  · intro earlier move j tx hpart hj hwhat hbefore hafter
    have hearlier : earlier <+: moves := (List.prefix_append ..).trans hpart
    have hroom := asks_lt_of_earlier hids hearlier
    have hunique := (sound_ofMoves moves hids).unique
    rw [ofMoves_concat] at hafter
    rcases ((sound_ofMoves earlier hroom).change move).acknowledged hbefore hafter with
      hdelivers | ⟨k, cause, hissued, hfuture, hrefused, htopology⟩ |
        ⟨m, call, hm, hcancel, rfl, e, he, hid, hgone⟩
    · exact .inl hdelivers
    · have hsame : k = j :=
        List.inj_on_of_nodup_map hunique (issue_of_earlier hissued hpart) hj hfuture
      rw [hsame] at hissued hrefused
      exact .inr (.inl ⟨hissued, cause, hrefused, htopology⟩)
    · obtain ⟨k, hk, -, -, rfl⟩ := (tracked_ofMoves earlier hroom).ackWaits m
        (Network.mem_of_manager? hm).1 e he
      have hsame : k = j := List.inj_on_of_nodup_map hunique
        ((extends_ofMoves hearlier).issues.mem hk) hj hid
      rw [hsame] at hgone
      exact .inr (.inr ⟨m, call, hm, hcancel, rfl, hgone⟩)

end Run

/-- Node 1 asks node 2 for a counter. -/
def counterAsked : List Network.Move :=
  [.add (.ofNat 1) none false true, .add (.ofNat 2) none false true,
    .ask (.ofNat 1) (.ofNat 2) (.txCounter ⟨1, 1, 1⟩), .deliver 0, .deliver 0]

/-- It commits the transaction, and another one that node 2 does not get to know of. -/
def committing : List Network.Move :=
  counterAsked ++ [.ask (.ofNat 1) (.ofNat 2) (.commit ⟨1, 1, 1⟩),
    .ask (.ofNat 1) (.ofNat 2) (.commit ⟨1, 2, 1⟩), .deliver 0, .lose 0]

/-- The answer to the first commit arrives, and node 2 fails. -/
def committed : List Network.Move :=
  committing ++ [.deliver 0, .remove (.ofNat 2)]

theorem commit_acks_final_committed :
    (∃ m, (ofMoves committed).network.manager? (.ofNat 2) = some m ∧
      m.counters.activeCounter? ⟨1, 1, 1⟩ = none) ∧
    ((ofMoves committed).network.acknowledged (.ofNat 1) 3 = false ∧
      ∃ m call, (ofMoves committed).network.manager? (.ofNat 1) = some m ∧ m.cancelAcks ∧
        Network.Move.call (.ofNat 1) (.nodeLeft (.ofNat 2)) = .call (.ofNat 1) call ∧
        call.GivesUpOn (ofMoves committed).network.outlook (.ofNat 2)) := by
  have once : ∀ k, Network.Move.duplicate k ∉
      committed ++ [.call (.ofNat 1) (.nodeLeft (.ofNat 2))] := by
    intro k
    simp [committed, committing, counterAsked]
  obtain ⟨final, cause⟩ := commit_acks_final
    (committed ++ [.call (.ofNat 1) (.nodeLeft (.ofNat 2))]) (by decide) once
  constructor
  · refine final counterAsked (.ofNat 1) (.ofNat 2) ⟨1, 1, 1⟩
      ⟨1, .ofNat 1, .ofNat 2, .txCounter ⟨1, 1, 1⟩⟩ ⟨2, .ofNat 1, .ofNat 2, .commit ⟨1, 1, 1⟩⟩ 1
      (by decide) rfl rfl ⟨counterAsked, List.prefix_refl _, by decide⟩ ?_ (by decide)
      committing (.deliver 0) committed (by decide) (by decide) (List.prefix_append _ _) ?_
    · decide
    · exact ⟨0, _, rfl, rfl, rfl, rfl⟩
  · have hbefore : (ofMoves committed).network.acknowledged (.ofNat 1) 3 = false := by decide
    refine ⟨hbefore, ?_⟩
    rcases cause committed (.call (.ofNat 1) (.nodeLeft (.ofNat 2)))
      ⟨3, .ofNat 1, .ofNat 2, .commit ⟨1, 2, 1⟩⟩ ⟨1, 2, 1⟩ (List.prefix_refl _) (by decide) rfl
      hbefore (by decide) with ⟨k, p, hmove, -⟩ | ⟨hissued, -⟩ | given
    · cases hmove
    · cases hissued
    · exact given

end Chronicle
end CounterCoordinator
