import CounterCoordinator.Proofs.Network.Carriage
import Mathlib.Algebra.Order.BigOperators.Group.List
import Mathlib.Data.List.Count
import Mathlib.Data.List.Perm.Subperm

/-!
# Quiescence

On a network where nothing goes wrong every future that waits has its request or its answer in
flight, one of the two, unless the request was rejected because its transaction held a counter
already. Both sides are lists of future ids, and each move changes them alike. So when nothing is
in flight, the futures still waiting are those of rejected requests, and the coordinators counted
these.
-/
namespace CounterCoordinator

namespace Network

def waiting (n : Network) : List FutureId :=
  n.managers.flatMap Manager.awaited

/-- How many requests were rejected, by the metrics of the managers. -/
def violations (n : Network) : Nat :=
  (n.managers.map fun m => m.metrics.protocolViolations.toNat).sum

def carriers (n : Network) (f : FutureId) : List Parcel :=
  n.flight.filter fun p => p.future? == some f

theorem length_carriers (n : Network) (f : FutureId) :
    (n.carriers f).length = n.carried.count f := by
  rw [carriers, carried, List.count_filterMap, List.countP_eq_length_filter]

theorem carriers_of_carried {n : Network} (hnodup : n.carried.Nodup) {f : FutureId}
    (hf : f ∈ n.carried) : ∃ p ∈ n.flight, p.future? = some f ∧ n.carriers f = [p] := by
  have hone : (n.carriers f).length = 1 := by
    rw [length_carriers]
    exact List.count_eq_one_of_mem hnodup hf
  obtain ⟨p, hp⟩ := List.length_eq_one_iff.mp hone
  have hmem : p ∈ n.carriers f := by simp [hp]
  obtain ⟨hflight, hfuture⟩ := List.mem_filter.mp hmem
  exact ⟨p, hflight, by simpa using hfuture, hp⟩

theorem carriers_of_not_carried {n : Network} {f : FutureId} (hf : f ∉ n.carried) :
    n.carriers f = [] := by
  rw [← List.length_eq_zero_iff, length_carriers, List.count_eq_zero]
  exact hf

/-- Was the future of an issue resolved without an error? -/
def fulfilled (n : Network) (i : Issue) : Bool :=
  if i.what.isCommit then n.acknowledged i.requester i.future
  else (n.counter? i.requester i.future).isSome

theorem fulfilled_of_holds {n : Network} {i : Issue} {m : Manager}
    (hm : n.manager? i.requester = some m) (h : m.Holds i.future i.what) :
    (if i.what.isCommit then m.ackWaits.contains i.future else m.counterWaits.contains i.future) ∨
      n.fulfilled i := by
  unfold Manager.Holds at h
  unfold fulfilled
  split at h
  · rename_i hwhat
    rw [if_pos hwhat, if_pos hwhat]
    rcases h with ⟨hc, -⟩ | ⟨value, hvalue⟩
    · exact .inl hc
    · exact .inr (acknowledged_iff.mpr ⟨m, hm, hvalue⟩)
  · rename_i hwhat
    rw [if_neg hwhat, if_neg hwhat]
    rcases h with ⟨hc, -⟩ | ⟨value, hvalue⟩
    · exact .inl hc
    · right
      simp [counter?, hm, hvalue]

/-- Moves of a network where nothing goes wrong: nodes come to stay, and their managers talk. -/
def calm (n : Network) : Move → Bool
  | .add .. | .deliver _ | .call _ (.rollback ..) | .call _ (.queryDone ..) => true
  | .ask _ target _ => n.alive target
  | _ => false

def rejected? (n : Network) : Move → Option FutureId
  | .deliver k =>
      n.flight[k]?.bind fun p => (n.manager? p.target).bind fun m =>
        match Wire.decode p.payload with
        | .ok message => m.rejects? n.outlook p.source message
        | .error _ => none
  | _ => none

/-- No link is broken, exactly the live nodes have a manager, each one, and messages fly between
them. -/
structure Intact (n : Network) : Prop where
  links : n.broken = []
  managed : ∀ node, n.alive node = (n.manager? node).isSome
  distinct : (n.managers.map Manager.self).Nodup
  endpoints : ∀ p ∈ n.flight, n.alive p.source ∧ n.alive p.target

theorem managers_split {n : Network} (hdistinct : (n.managers.map Manager.self).Nodup)
    {m : Manager} (hm : m ∈ n.managers) :
    ∃ before after, n.managers = before ++ m :: after ∧
      ∀ m', m'.self = m.self → (n.setManager m').managers = before ++ m' :: after := by
  obtain ⟨before, after, hsplit⟩ := List.append_of_mem hm
  refine ⟨before, after, hsplit, ?_⟩
  intro m' hself
  rw [hsplit, List.map_append, List.map_cons, List.nodup_middle] at hdistinct
  rw [← List.map_append] at hdistinct
  have fixed : ∀ l : List Manager, (∀ old ∈ l, old ∈ before ++ after) →
      l.map (fun old => if old.self = m'.self then m' else old) = l := by
    intro l hl
    refine (List.map_congr_left ?_).trans (List.map_id l)
    intro old hold
    rw [if_neg]
    · rfl
    intro hsame
    exact (List.nodup_cons.mp hdistinct).1
      (List.mem_map.mpr ⟨old, hl old hold, hsame.trans hself⟩)
  simp only [setManager, hsplit, List.map_append, List.map_cons, if_pos hself.symm]
  rw [fixed before fun _ h => List.mem_append_left _ h,
    fixed after fun _ h => List.mem_append_right _ h]

theorem alive_of_accepted {n : Network} {node : NodeId} (h : n.refusal? node = none) :
    n.alive node := by
  by_contra hgone
  rw [refusal?, if_pos (by simpa using hgone)] at h
  cases h

namespace Intact
variable {n : Network}

theorem refusal?_of_alive (hi : n.Intact) {node : NodeId} (h : n.alive node) :
    n.refusal? node = none := by
  simp [refusal?, h, hi.links]

theorem alive_of_mem (hi : n.Intact) {m : Manager} (hm : m ∈ n.managers) : n.alive m.self := by
  rw [hi.managed]
  exact List.find?_isSome.mpr ⟨m, hm, by simp⟩

theorem absorb (hi : n.Intact) {m : Manager} {r : Reaction} (hm : m ∈ n.managers)
    (hself : r.manager.self = m.self) (hsent : ∀ out, r.sent = some out → n.alive out.target) :
    (n.absorb r).Intact := by
  obtain ⟨before, after, hsplit, hset⟩ := managers_split hi.distinct hm
  constructor
  · exact hi.links
  · intro node
    exact (hi.managed node).trans (isSome_manager?_setManager n r.manager node).symm
  · change ((n.setManager r.manager).managers.map Manager.self).Nodup
    have hdistinct := hi.distinct
    rw [hset _ hself, List.map_append, List.map_cons, hself]
    rwa [hsplit, List.map_append, List.map_cons] at hdistinct
  · intro p hp
    rcases mem_flight_absorb hp with hp | ⟨out, hout, rfl⟩
    · exact hi.endpoints p hp
    · rw [hself]
      exact ⟨hi.alive_of_mem hm, hsent out hout⟩

theorem take (hi : n.Intact) (k : Nat) : (n.takeParcel k).2.Intact :=
  ⟨hi.links, hi.managed, hi.distinct,
    fun p hp => hi.endpoints p (List.mem_of_mem_eraseIdx hp)⟩

theorem add (hi : n.Intact) (node : NodeId) (order : Option UInt64) (client cancelAcks : Bool) :
    (n.add node order client cancelAcks).2.Intact := by
  have halive : ∀ other, (n.add node order client cancelAcks).2.alive other =
      (n.alive other || node == other) := by
    intro other
    simp [alive, Network.add]
  constructor
  · exact hi.links
  · intro other
    rw [halive, hi.managed]
    by_cases hknown : (n.manager? node).isSome
    · have hmanagers : (n.add node order client cancelAcks).2.managers = n.managers := by
        simp [Network.add, hknown]
      rw [manager?_congr hmanagers]
      by_cases hsame : node = other
      · simp [← hsame, hknown]
      · simp [hsame]
    · have hmanagers : (n.add node order client cancelAcks).2.managers =
          n.managers ++ [{ self := node, cancelAcks }] := by simp [Network.add, hknown]
      rw [manager?, manager?, hmanagers, List.find?_append, Option.isSome_or]
      by_cases hsame : node = other <;> simp [hsame]
  · by_cases hknown : (n.manager? node).isSome
    · simpa [Network.add, hknown] using hi.distinct
    · have hmanagers : (n.add node order client cancelAcks).2.managers =
          n.managers ++ [{ self := node, cancelAcks }] := by simp [Network.add, hknown]
      rw [hmanagers]
      refine nodup_map_concat hi.distinct ?_
      intro m hm hself
      exact hknown (List.find?_isSome.mpr ⟨m, hm, by simp [hself]⟩)
  · intro p hp
    simp only [halive, Bool.or_eq_true]
    exact (hi.endpoints p hp).imp .inl .inl

theorem perform (hi : n.Intact) {move : Move} (hcalm : n.calm move) : (n.perform move).Intact := by
  cases move with
  | add node order client cancelAcks => exact hi.add node order client cancelAcks
  | ask node target what =>
    have hrequested : Intact { n with ids := n.ids.next.2 } :=
      ⟨hi.links, hi.managed, hi.distinct, hi.endpoints⟩
    cases hm : n.manager? node with
    | none =>
      rw [perform_ask_of_none hm]
      exact hrequested
    | some m =>
      rw [perform_ask_of_some hm]
      refine hrequested.absorb (mem_of_manager? hm).1 (Manager.ask_self ..) ?_
      exact fun out hout => alive_of_accepted (Manager.accepted_ask hout)
  | call node c =>
    cases hm : n.manager? node with
    | none =>
      rw [perform_call_of_none hm]
      exact hi
    | some m =>
      rw [perform_call_of_some hm]
      refine hi.absorb (mem_of_manager? hm).1 (Manager.call_self ..) ?_
      exact fun out hout => alive_of_accepted (Manager.accepted_call hout)
  | deliver k =>
    cases hp : n.flight[k]? with
    | none =>
      rw [perform_deliver_of_none hp]
      exact hi.take k
    | some p =>
      cases hm : n.manager? p.target with
      | none =>
        rw [perform_deliver_unclaimed hp hm]
        exact hi.take k
      | some m =>
        rw [perform_deliver_of_some hp hm]
        refine (hi.take k).absorb (mem_of_manager? hm).1 (Manager.receive_self ..) ?_
        exact fun out hout => alive_of_accepted (n := n) (Manager.accepted_receive hout)
  | remove | breakLink | heal | lose | duplicate => cases hcalm

end Intact

end Network

namespace Chronicle
variable {h h' : Chronicle} {rejected : List FutureId} {move : Network.Move}

def calm (h : Chronicle) : List Network.Move → Bool
  | [] => true
  | move :: rest => h.network.calm move && (h.step move).calm rest

def rejections (h : Chronicle) : List Network.Move → List FutureId
  | [] => []
  | move :: rest => (h.network.rejected? move).toList ++ (h.step move).rejections rest

theorem calm_concat (h : Chronicle) (moves : List Network.Move) (move : Network.Move) :
    h.calm (moves ++ [move]) = (h.calm moves && (moves.foldl step h).network.calm move) := by
  induction moves generalizing h with
  | nil => simp [calm]
  | cons first rest ih => simp [calm, ih, Bool.and_assoc]

theorem rejections_concat (h : Chronicle) (moves : List Network.Move) (move : Network.Move) :
    h.rejections (moves ++ [move]) =
      h.rejections moves ++ ((moves.foldl step h).network.rejected? move).toList := by
  induction moves generalizing h with
  | nil => simp [rejections]
  | cons first rest ih => simp [rejections, ih]

/-- Whoever waits, waits for a message in flight or for a rejected request, and nobody gets a
message that nobody waits for. -/
structure Conserved (h : Chronicle) (rejected : List FutureId) : Prop where
  waits : h.network.waiting.Perm (h.network.carried ++ rejected)
  nodup : (h.network.carried ++ rejected).Nodup
  duplicates : ∀ f ∈ rejected, ∃ i ∈ h.issues, i.future = f ∧ ∃ tx, i.what = .txCounter tx
  violations : h.network.violations = rejected.length
  expected : ∀ m ∈ h.network.managers, m.metrics.unmatchedResponses = 0
  managed : ∀ i ∈ h.issues, (h.network.manager? i.requester).isSome
  held : ∀ m ∈ h.network.managers, ∀ i ∈ h.issues, i.requester = m.self →
    m.Holds i.future i.what

namespace Conserved

/-- A manager acts. It enters the futures `new` and settles the futures `done`, and requests for the
futures `more` are rejected. -/
theorem absorb (hc : h.Conserved rejected) {n : Network} {m : Manager} {r : Reaction}
    {issues : List Issue} {assignments : List Assignment} (new done more : List FutureId)
    (hmanagers : n.managers = h.network.managers) (hm : m ∈ h.network.managers)
    (hdistinct : (h.network.managers.map Manager.self).Nodup) (hself : r.manager.self = m.self)
    (hissues : ∀ i ∈ h.issues, i ∈ issues)
    (hothers : ∀ i ∈ issues, i ∈ h.issues ∨ i.requester = m.self)
    (hnew : (new ++ (h.network.carried ++ rejected)).Nodup)
    (hawaited : (r.manager.awaited ++ done).Perm (new ++ m.awaited))
    (hcarried : ((n.absorb r).carried ++ (rejected ++ more) ++ done).Perm
      (new ++ (h.network.carried ++ rejected)))
    (hmore : ∀ f ∈ more, ∃ i ∈ issues, i.future = f ∧ ∃ tx, i.what = .txCounter tx)
    (hviolations : r.manager.metrics.protocolViolations.toNat =
      m.metrics.protocolViolations.toNat + more.length)
    (hexpected : r.manager.metrics.unmatchedResponses = m.metrics.unmatchedResponses)
    (hheld : ∀ i ∈ issues, i.requester = m.self → r.manager.Holds i.future i.what) :
    Conserved ⟨n.absorb r, issues, assignments⟩ (rejected ++ more) := by
  obtain ⟨before, after, hsplit, hset⟩ :=
    Network.managers_split (n := n) (hmanagers ▸ hdistinct) (hmanagers ▸ hm)
  have hacted : (n.absorb r).managers = before ++ r.manager :: after := hset _ hself
  rw [hmanagers] at hsplit
  constructor
  · have hbefore := hc.waits
    simp only [Network.waiting, hacted, hsplit, List.flatMap_append, List.flatMap_cons,
      List.perm_iff_count, List.count_append] at hbefore hawaited hcarried ⊢
    intro f
    have hf := hbefore f
    have hown := hawaited f
    have hflown := hcarried f
    omega
  · exact (hcarried.nodup_iff.mpr hnew).of_append_left
  · intro f hf
    rcases List.mem_append.mp hf with hf | hf
    · obtain ⟨i, hi, hwhat⟩ := hc.duplicates f hf
      exact ⟨i, hissues i hi, hwhat⟩
    · exact hmore f hf
  · have hbefore := hc.violations
    simp only [Network.violations, hacted, hsplit, List.map_append, List.map_cons, List.sum_append,
      List.sum_cons, List.length_append] at hbefore ⊢
    omega
  · intro m' hm'
    rcases Network.mem_setManager hm' with rfl | ⟨hm', -⟩
    · exact hexpected.trans (hc.expected m hm)
    · exact hc.expected m' (hmanagers ▸ hm')
  · intro i hi
    have hkept : ∀ node, ((n.absorb r).manager? node).isSome =
        (h.network.manager? node).isSome := by
      intro node
      rw [← Network.manager?_congr hmanagers]
      exact Network.isSome_manager?_setManager n r.manager node
    rw [hkept]
    rcases hothers i hi with hi | hown
    · exact hc.managed i hi
    · exact List.find?_isSome.mpr ⟨m, hm, by simp [hown]⟩
  · intro m' hm' i hi hrequester
    rcases Network.mem_setManager hm' with rfl | ⟨hm', hne⟩
    · exact hheld i hi (hrequester.trans hself)
    · rcases hothers i hi with hi | hown
      · exact hc.held m' (hmanagers ▸ hm') i hi hrequester
      · exact absurd (hrequester.symm.trans (hown.trans hself.symm)) hne

/-- Whoever is waited for is waited for by its requester, in the waitlist of its kind. -/
theorem contains_of_waiting (hs : h.Sound) (ht : h.Tracked)
    (hdistinct : (h.network.managers.map Manager.self).Nodup) {i : Issue} (hi : i ∈ h.issues)
    (hwaiting : i.future ∈ h.network.waiting) {m : Manager} (hm : m ∈ h.network.managers)
    (hself : m.self = i.requester) :
    if i.what.isCommit then m.ackWaits.contains i.future
    else m.counterWaits.contains i.future := by
  obtain ⟨m', hm', hf⟩ := List.mem_flatMap.mp hwaiting
  have same : ∀ k ∈ h.issues, k.requester = m'.self → k.future = i.future → k = i ∧ m' = m := by
    intro k hk hrequester hfuture
    have hki : k = i := List.inj_on_of_nodup_map hs.unique hk hi hfuture
    refine ⟨hki, List.inj_on_of_nodup_map hdistinct hm' hm ?_⟩
    rw [← hrequester, hki, hself]
  rcases List.mem_append.mp hf with hf | hf
  · obtain ⟨e, he, hid⟩ := List.mem_map.mp hf
    obtain ⟨k, hk, hwhat, hrequester, rfl⟩ := ht.counterWaits m' hm' e he
    obtain ⟨rfl, rfl⟩ := same k hk hrequester hid
    rw [hwhat]
    exact Waitlist.contains_iff.mpr ⟨_, he, rfl⟩
  · obtain ⟨e, he, hid⟩ := List.mem_map.mp hf
    obtain ⟨k, hk, hwhat, hrequester, rfl⟩ := ht.ackWaits m' hm' e he
    obtain ⟨rfl, rfl⟩ := same k hk hrequester hid
    rw [hwhat]
    exact Waitlist.contains_iff.mpr ⟨_, he, rfl⟩

/-- A response in flight finds its future waiting. -/
theorem expected_of_carried (hc : h.Conserved rejected) (hs : h.Sound) (ht : h.Tracked)
    (hdistinct : (h.network.managers.map Manager.self).Nodup) {p : Parcel} {message : Message}
    (hp : p ∈ h.network.flight) (hpayload : p.payload = Wire.encode message) {m : Manager}
    (hm : h.network.manager? p.target = some m) : m.unexpected message = false := by
  obtain ⟨hmem, hself⟩ := Network.mem_of_manager? hm
  have waiting : ∀ f, p.future? = some f → f ∈ h.network.waiting := by
    intro f hf
    exact hc.waits.mem_iff.mpr (List.mem_append_left _ (List.mem_filterMap.mpr ⟨p, hp, hf⟩))
  cases ht.flight p hp with
  | @request i hi =>
    cases Wire.encode_injective hpayload
    cases i.what <;> rfl
  | @counter i c hi hwhat =>
    cases Wire.encode_injective hpayload
    have hcontains := contains_of_waiting hs ht hdistinct hi
      (waiting _ (Parcel.future?_of_payload hpayload)) hmem hself
    simpa [hwhat, Manager.unexpected] using hcontains
  | @ack i hi hwhat =>
    cases Wire.encode_injective hpayload
    have hcontains := contains_of_waiting hs ht hdistinct hi
      (waiting _ (Parcel.future?_of_payload hpayload)) hmem hself
    simpa [hwhat, Manager.unexpected] using hcontains
  | rollback | queryDone =>
    cases Wire.encode_injective hpayload
    rfl

theorem length_le_issues {l : List FutureId} (hnodup : l.Nodup)
    (hissued : ∀ f ∈ l, ∃ i ∈ h.issues, i.future = f ∧ ∃ tx, i.what = .txCounter tx) :
    l.length ≤ h.issues.length := by
  have hsub : l ⊆ h.issues.map Issue.future := by
    intro f hf
    obtain ⟨i, hi, hfuture, -⟩ := hissued f hf
    exact List.mem_map.mpr ⟨i, hi, hfuture⟩
  simpa using (hnodup.subperm hsub).length_le

theorem with_network (hc : h.Conserved rejected) {n : Network}
    (hmanagers : n.managers = h.network.managers) (hflight : n.flight = h.network.flight) :
    Conserved { h with network := n } rejected := by
  have hcarried : n.carried = h.network.carried := by rw [Network.carried, hflight, Network.carried]
  constructor
  · simp only [Network.waiting, hmanagers, hcarried]
    exact hc.waits
  · rw [hcarried]
    exact hc.nodup
  · exact hc.duplicates
  · rw [Network.violations, hmanagers]
    exact hc.violations
  · rw [hmanagers]
    exact hc.expected
  · intro i hi
    rw [Network.manager?_congr hmanagers]
    exact hc.managed i hi
  · rw [hmanagers]
    exact hc.held

theorem join (hc : h.Conserved rejected) {n : Network} {node : NodeId} {cancelAcks : Bool}
    (hnone : h.network.manager? node = none)
    (hmanagers : n.managers = h.network.managers ++ [{ self := node, cancelAcks }])
    (hflight : n.flight = h.network.flight) : Conserved { h with network := n } rejected := by
  have hcarried : n.carried = h.network.carried := by rw [Network.carried, hflight, Network.carried]
  have hcases : ∀ m ∈ n.managers,
      m ∈ h.network.managers ∨ m = { self := node, cancelAcks } := by
    intro m hm
    rw [hmanagers] at hm
    exact (List.mem_append.mp hm).imp_right List.mem_singleton.mp
  constructor
  · have hwaits := hc.waits
    rw [Network.waiting] at hwaits ⊢
    rw [hcarried, hmanagers, List.flatMap_append]
    simpa [Manager.awaited] using hwaits
  · rw [hcarried]
    exact hc.nodup
  · exact hc.duplicates
  · rw [Network.violations, hmanagers, List.map_append, List.sum_append]
    exact hc.violations
  · intro m hm
    rcases hcases m hm with hm | rfl
    · exact hc.expected m hm
    · rfl
  · intro i hi
    rw [Network.manager?, hmanagers, List.find?_append, Option.isSome_or]
    exact Bool.or_eq_true_iff.mpr (.inl (hc.managed i hi))
  · intro m hm i hi hrequester
    rcases hcases m hm with hm | rfl
    · exact hc.held m hm i hi hrequester
    · have hmanaged := hc.managed i hi
      rw [hrequester, hnone] at hmanaged
      cases hmanaged

theorem ask (hc : h.Conserved rejected) (hs : h.Sound) (ht : h.Tracked) (hi : h.network.Intact)
    (hids : h.network.ids.last.toNat + 1 < UInt64.size) {node target : NodeId} {what : Request}
    {m : Manager} (hm : h.network.manager? node = some m) (halive : h.network.alive target) :
    Conserved
      ⟨Network.absorb { h.network with ids := h.network.ids.next.2 }
          (m.ask h.network.outlook h.network.ids.next.1 target what),
        h.issues ++ [⟨h.network.ids.next.1, node, target, what⟩], h.assignments⟩ rejected := by
  obtain ⟨hmem, hnode⟩ := Network.mem_of_manager? hm
  have hsent : h.network.outlook.refusal? target = none := hi.refusal?_of_alive halive
  obtain ⟨hviolations, hexpected, -⟩ :=
    m.ask_tally h.network.outlook h.network.ids.next.1 target what
  have hnew : h.network.ids.next.1 ∉ h.network.carried ++ rejected := by
    intro hold
    rcases List.mem_append.mp hold with hold | hold
    · exact next_not_carried hs ht hids hold
    · obtain ⟨i, hissue, hfuture, -⟩ := hc.duplicates _ hold
      exact hs.future_ne_next hids hissue hfuture
  have acted : Conserved
      ⟨Network.absorb { h.network with ids := h.network.ids.next.2 }
          (m.ask h.network.outlook h.network.ids.next.1 target what),
        h.issues ++ [⟨h.network.ids.next.1, node, target, what⟩], h.assignments⟩
      (rejected ++ []) := by
    refine hc.absorb [h.network.ids.next.1] [] [] rfl hmem hi.distinct (Manager.ask_self ..)
      (fun _ => List.mem_append_left _) ?_ (List.nodup_cons.mpr ⟨hnew, hc.nodup⟩) ?_ ?_ ?_ ?_
      hexpected ?_
    · intro i hissue
      refine (List.mem_append.mp hissue).imp_right ?_
      intro hissue
      rw [List.mem_singleton.mp hissue, hnode]
    · simpa using Manager.awaited_ask hsent
    · rw [Network.carried_absorb, Network.future?_dispatched_ask, hsent]
      simp only [Option.isNone_none, if_true, Option.toList_some, List.append_nil,
        List.append_assoc, List.singleton_append]
      exact List.perm_middle
    · intro f hf
      cases hf
    · rw [hviolations]
      rfl
    · intro i hissue hrequester
      rcases List.mem_append.mp hissue with hissue | hissue
      · exact Manager.holds_ask hsent (.inl (hc.held m hmem i hissue hrequester))
      · rw [List.mem_singleton.mp hissue]
        exact Manager.holds_ask hsent (.inr ⟨rfl, rfl⟩)
  rwa [List.append_nil] at acted

theorem call (hc : h.Conserved rejected) (hi : h.network.Intact) {node : NodeId} {c : Call}
    {m : Manager} (hm : h.network.manager? node = some m)
    (hcalm : h.network.calm (.call node c)) :
    Conserved { h with network := h.network.absorb (m.call h.network.outlook c) } rejected := by
  obtain ⟨hmem, -⟩ := Network.mem_of_manager? hm
  obtain ⟨hviolations, hexpected, -⟩ := m.call_tally h.network.outlook c
  have hwaits : (m.call h.network.outlook c).manager.counterWaits = m.counterWaits ∧
      (m.call h.network.outlook c).manager.ackWaits = m.ackWaits := by
    cases c with
    | rollback | queryDone => simp [Manager.call]
    | nodeLeft | departed | resync | missed | dropCounter | dropAck => cases hcalm
  have acted : Conserved { h with network := h.network.absorb (m.call h.network.outlook c) }
      (rejected ++ []) := by
    refine hc.absorb [] [] [] rfl hmem hi.distinct (Manager.call_self ..) (fun _ hissue => hissue)
      (fun _ hissue => .inl hissue) hc.nodup ?_ ?_ ?_ ?_ hexpected ?_
    · simp [Manager.awaited, hwaits]
    · rw [Network.carried_absorb, Network.future?_dispatched_call]
      simp
    · intro f hf
      cases hf
    · rw [hviolations]
      rfl
    · intro i hissue hrequester
      unfold Manager.Holds
      rw [hwaits.1, hwaits.2]
      exact hc.held m hmem i hissue hrequester
  rwa [List.append_nil] at acted

theorem deliver (hc : h.Conserved rejected) (hs : h.Sound) (ht : h.Tracked) (hi : h.network.Intact)
    (hissues : h.issues.length < UInt64.size) {k : Nat} {p : Parcel} {m : Manager}
    {message : Message} (hp : h.network.flight[k]? = some p)
    (hm : h.network.manager? p.target = some m) (hpayload : p.payload = Wire.encode message) :
    Conserved
      ⟨(h.network.takeParcel k).2.absorb (m.act h.network.outlook p.source message), h.issues,
        h.assignments ++ (h.network.assignedBy? m p.source p.payload).toList⟩
      (rejected ++ (m.rejects? h.network.outlook p.source message).toList) := by
  obtain ⟨hmem, -⟩ := Network.mem_of_manager? hm
  have hflying := List.mem_of_getElem? hp
  have halive : h.network.outlook.alive p.source := (hi.endpoints p hflying).1
  have hsent : h.network.outlook.refusal? p.source = none := hi.refusal?_of_alive halive
  have hexpected := hc.expected_of_carried hs ht hi.distinct hflying hpayload hm
  obtain ⟨hviolations, hunmatched, -⟩ := m.act_tally h.network.outlook p.source message
  have hcarried := Network.carried_takeParcel hp
  rw [Parcel.future?_of_payload hpayload, m.fate _ _ _ halive hsent] at hcarried
  have hduplicate : ∀ f ∈ (m.rejects? h.network.outlook p.source message).toList,
      ∃ i ∈ h.issues, i.future = f ∧ ∃ tx, i.what = .txCounter tx := by
    intro f hf
    obtain ⟨tx, hrequest⟩ := Manager.request_of_rejects? (Option.mem_toList.mp hf)
    have hissue := (ht.flight p hflying).issue_of_request (hrequest ▸ hpayload)
    exact ⟨_, hissue, rfl, tx, rfl⟩
  refine hc.absorb [] message.settled?.toList _ rfl hmem hi.distinct (Manager.act_self ..)
    (fun _ hissue => hissue) (fun _ hissue => .inl hissue) hc.nodup ?_ ?_ hduplicate ?_ ?_ ?_
  · have hwaiting : h.network.waiting.Nodup := hc.waits.nodup_iff.mpr hc.nodup
    have hown := (List.nodup_flatMap.mp hwaiting).1 m hmem
    exact List.perm_append_comm.trans (Manager.awaited_act hown hexpected).symm
  · rw [Network.carried_absorb, Network.future?_dispatched_act]
    simp only [List.perm_iff_count, List.count_append, List.nil_append] at hcarried ⊢
    intro f
    have hf := hcarried f
    omega
  · rw [hviolations]
    cases hrejected : m.rejects? h.network.outlook p.source message with
    | none => rfl
    | some f =>
      -- the rejected futures are issued ones, so the metric has room for another one
      have hfuture : f ∈ h.network.carried := by
        obtain ⟨tx, hrequest⟩ := Manager.request_of_rejects? hrejected
        rw [hrequest] at hpayload
        refine List.mem_filterMap.mpr ⟨p, hflying, ?_⟩
        rw [Parcel.future?_of_payload hpayload, Request.future?_message]
      have hnew : f ∉ rejected := fun hold => List.disjoint_of_nodup_append hc.nodup hfuture hold
      have hall : (f :: rejected).length ≤ h.issues.length := by
        refine length_le_issues (hc.nodup.of_append_right.cons hnew) ?_
        intro g hg
        rcases List.mem_cons.mp hg with rfl | hg
        · exact hduplicate _ (by simp [hrejected])
        · exact hc.duplicates g hg
      have hown : m.metrics.protocolViolations.toNat ≤ h.network.violations :=
        List.le_sum_of_mem (List.mem_map.mpr ⟨m, hmem, rfl⟩)
      rw [hc.violations] at hown
      rw [List.length_cons] at hall
      refine toNat_add_of_lt ?_
      change m.metrics.protocolViolations.toNat + 1 < UInt64.size
      omega
  · rw [hunmatched, hexpected]
    rfl
  · intro i hissue hrequester
    exact Manager.holds_act (hc.held m hmem i hissue hrequester)

theorem change (hc : h.Conserved rejected) (hs : h.Sound) (ht : h.Tracked) (hi : h.network.Intact)
    (hchange : Change h move h') (hcalm : h.network.calm move)
    (hids : move.asks → h.network.ids.last.toNat + 1 < UInt64.size)
    (hissues : h.issues.length < UInt64.size) :
    h'.Conserved (rejected ++ (h.network.rejected? move).toList) := by
  cases hchange with
  | quiet hundelivered hmanagers hflight =>
    have hnone : h.network.rejected? move = none := by
      cases move with
      | deliver k => simp [Network.rejected?, hundelivered k rfl]
      | add | remove | breakLink | heal | ask | call | lose | duplicate => rfl
    rw [hnone, Option.toList_none, List.append_nil]
    exact hc.with_network hmanagers hflight
  | joined hnone hmanagers hflight =>
    change Conserved _ (rejected ++ [])
    rw [List.append_nil]
    exact hc.join hnone hmanagers hflight
  | asked hm =>
    change Conserved _ (rejected ++ [])
    rw [List.append_nil]
    exact hc.ask hs ht hi (hids rfl) hm hcalm
  | called hm =>
    change Conserved _ (rejected ++ [])
    rw [List.append_nil]
    exact hc.call hi hm hcalm
  | unclaimed hp hm =>
    have halive := (hi.endpoints _ (List.mem_of_getElem? hp)).2
    rw [hi.managed, hm] at halive
    cases halive
  | @delivered k p m message hp hm hpayload =>
    have hrejected : h.network.rejected? (.deliver k) =
        m.rejects? h.network.outlook p.source message := by
      simp [Network.rejected?, hp, hm, hpayload]
    rw [hrejected]
    exact hc.deliver hs ht hi hissues hp hm hpayload
  | lost | doubled => cases hcalm

section Pending
variable {m : Manager} {e : Waitlist.Entry}

/-- An entry of a waitlist stands for one message in flight or for a rejected request. -/
theorem pending (hc : h.Conserved rejected) (hs : h.Sound) (ht : h.Tracked)
    (hm : m ∈ h.network.managers) (he : e ∈ m.counterWaits.entries ∨ e ∈ m.ackWaits.entries) :
    ∃ i ∈ h.issues, i.future = e.id ∧ i.requester = m.self ∧
      ((e.id ∉ rejected ∧ ∃ p, h.network.carriers e.id = [p] ∧ p.Serves i) ∨
        (e.id ∈ rejected ∧ (∃ tx, i.what = .txCounter tx) ∧ h.network.carriers e.id = [])) := by
  have hawaited : e.id ∈ m.awaited := by
    rcases he with he | he
    · exact List.mem_append_left _ (List.mem_map.mpr ⟨e, he, rfl⟩)
    · exact List.mem_append_right _ (List.mem_map.mpr ⟨e, he, rfl⟩)
  have hissued : ∃ i ∈ h.issues, i.future = e.id ∧ i.requester = m.self := by
    rcases he with he | he
    · obtain ⟨i, hi, -, hrequester, rfl⟩ := ht.counterWaits m hm e he
      exact ⟨i, hi, rfl, hrequester⟩
    · obtain ⟨i, hi, -, hrequester, rfl⟩ := ht.ackWaits m hm e he
      exact ⟨i, hi, rfl, hrequester⟩
  obtain ⟨i, hi, hfuture, hrequester⟩ := hissued
  refine ⟨i, hi, hfuture, hrequester, ?_⟩
  have hmem := hc.waits.mem_iff.mp (List.mem_flatMap.mpr ⟨m, hm, hawaited⟩)
  have hdisjoint := List.disjoint_of_nodup_append hc.nodup
  rcases List.mem_append.mp hmem with hcarried | hrejected
  · obtain ⟨p, hp, hbelongs, hone⟩ := Network.carriers_of_carried hc.nodup.of_append_left hcarried
    obtain ⟨k, hk, hsame, hserves⟩ := (ht.flight p hp).issue hbelongs
    have hki : k = i := List.inj_on_of_nodup_map hs.unique hk hi (hsame.trans hfuture.symm)
    exact .inl ⟨fun hold => hdisjoint hcarried hold, p, hone, hki ▸ hserves⟩
  · obtain ⟨k, hk, hsame, hwhat⟩ := hc.duplicates _ hrejected
    have hki : k = i := List.inj_on_of_nodup_map hs.unique hk hi (hsame.trans hfuture.symm)
    exact .inr ⟨hrejected, hki ▸ hwhat,
      Network.carriers_of_not_carried fun hold => hdisjoint hold hrejected⟩

/-- Requests to acknowledge commits are never rejected. -/
theorem ackWaits_of_quiet (hc : h.Conserved rejected) (hs : h.Sound) (ht : h.Tracked)
    (hquiet : h.network.flight = []) (hm : m ∈ h.network.managers) : m.ackWaits.entries = [] := by
  apply List.eq_nil_iff_forall_not_mem.mpr
  intro e he
  obtain ⟨i, hi, hwhat, -, rfl⟩ := ht.ackWaits m hm e he
  obtain ⟨k, hk, hfuture, -, ⟨-, p, hone, -⟩ | ⟨-, ⟨tx, hcounter⟩, -⟩⟩ :=
    hc.pending hs ht hm (.inr he)
  · simp [Network.carriers, hquiet] at hone
  · have hki : k = i := List.inj_on_of_nodup_map hs.unique hk hi hfuture
    rw [← hki, hcounter] at hwhat
    cases hwhat

/-- Nothing but rejected requests waits when nothing is in flight. -/
theorem sum_counterWaits_of_quiet (hc : h.Conserved rejected) (hs : h.Sound) (ht : h.Tracked)
    (hquiet : h.network.flight = []) :
    (h.network.managers.map fun m => m.counterWaits.size).sum = h.network.violations := by
  have hsize : ∀ m ∈ h.network.managers, m.awaited.length = m.counterWaits.size := by
    intro m hm
    simp [Manager.awaited, Waitlist.size, hc.ackWaits_of_quiet hs ht hquiet hm]
  have hlength := hc.waits.length_eq
  rw [Network.waiting, List.length_flatMap, Network.carried, hquiet] at hlength
  rw [hc.violations, ← List.map_congr_left hsize]
  simpa using hlength

end Pending

end Conserved

theorem length_issues_le (moves : List Network.Move) :
    (ofMoves moves).issues.length ≤ moves.countP Network.Move.asks := by
  induction moves using List.reverseRecOn with
  | nil => exact Nat.le_refl 0
  | append_singleton moves move ih =>
    have hissued : ((ofMoves moves).network.issued? move).toList.length ≤
        if move.asks then 1 else 0 := by
      cases move with
      | ask => exact Option.length_toList_le
      | add | remove | breakLink | heal | call | deliver | lose | duplicate => exact Nat.le_refl 0
    rw [ofMoves_concat, List.countP_append, List.countP_singleton]
    simp only [step, List.length_append]
    omega

theorem conserved_ofMoves (moves : List Network.Move)
    (hids : moves.countP Network.Move.asks < UInt64.size) (hcalm : calm {} moves) :
    (ofMoves moves).network.Intact ∧ (ofMoves moves).Conserved (rejections {} moves) := by
  induction moves using List.reverseRecOn with
  | nil =>
    constructor
    · constructor <;> simp [ofMoves, Network.alive, Network.manager?]
    · constructor <;>
        simp [ofMoves, rejections, Network.waiting, Network.carried, Network.violations]
  | append_singleton moves move ih =>
    obtain ⟨hbefore, hroom⟩ := room_ofMoves hids
    rw [calm_concat, Bool.and_eq_true] at hcalm
    obtain ⟨hi, hc⟩ := ih hbefore hcalm.1
    have hs := sound_ofMoves moves hbefore
    have hissues := Nat.lt_of_le_of_lt (length_issues_le moves) hbefore
    rw [ofMoves_concat, rejections_concat]
    exact ⟨hi.perform hcalm.2, hc.change hs (tracked_ofMoves moves hbefore) hi (hs.change move)
      hcalm.2 hroom hissues⟩

/-- Where nothing goes wrong, a future that waits has exactly one message in flight, its request or
its answer, unless its request was rejected because the transaction held a counter. So when nothing
is in flight, no commit acknowledgement waits, as many counter requests wait as coordinators
rejected, all other futures are fulfilled, and no manager got a response nobody waited for. `hids`
keeps the ids, which wrap around, apart. -/
theorem quiescent_completeness (moves : List Network.Move)
    (hids : moves.countP Network.Move.asks < UInt64.size) (hcalm : calm {} moves) :
    (∀ m ∈ (ofMoves moves).network.managers,
      ∀ e, e ∈ m.counterWaits.entries ∨ e ∈ m.ackWaits.entries →
        ∃ i ∈ (ofMoves moves).issues, i.future = e.id ∧ i.requester = m.self ∧
          ((e.id ∉ rejections {} moves ∧
            ∃ p, (ofMoves moves).network.carriers e.id = [p] ∧ p.Serves i) ∨
          (e.id ∈ rejections {} moves ∧ (∃ tx, i.what = .txCounter tx) ∧
            (ofMoves moves).network.carriers e.id = []))) ∧
    ((ofMoves moves).network.flight = [] →
      (∀ m ∈ (ofMoves moves).network.managers,
        m.ackWaits.size = 0 ∧ m.metrics.unmatchedResponses = 0) ∧
      ((ofMoves moves).network.managers.map fun m => m.counterWaits.size).sum =
        ((ofMoves moves).network.managers.map fun m =>
          m.metrics.protocolViolations.toNat).sum ∧
      ∀ i ∈ (ofMoves moves).issues,
        (∃ m, (ofMoves moves).network.manager? i.requester = some m ∧
          m.counterWaits.contains i.future) ∨
        (ofMoves moves).network.fulfilled i) := by
  obtain ⟨hi, hc⟩ := conserved_ofMoves moves hids hcalm
  have hs := sound_ofMoves moves hids
  have ht := tracked_ofMoves moves hids
  refine ⟨fun m hm e he => hc.pending hs ht hm he, ?_⟩
  intro hquiet
  refine ⟨?_, hc.sum_counterWaits_of_quiet hs ht hquiet, ?_⟩
  · intro m hm
    have hacks := hc.ackWaits_of_quiet hs ht hquiet hm
    exact ⟨by rw [Waitlist.size, hacks, List.length_nil], hc.expected m hm⟩
  · intro i hissue
    obtain ⟨m, hm⟩ := Option.isSome_iff_exists.mp (hc.managed i hissue)
    obtain ⟨hmem, hself⟩ := Network.mem_of_manager? hm
    refine (Network.fulfilled_of_holds hm (hc.held m hmem i hissue hself.symm)).imp_left ?_
    intro hwaits
    refine ⟨m, hm, ?_⟩
    split at hwaits
    · obtain ⟨e, he, -⟩ := Waitlist.contains_iff.mp hwaits
      rw [hc.ackWaits_of_quiet hs ht hquiet hmem] at he
      cases he
    · exact hwaits

/-- Node 1 asks node 2 twice for a counter of the same transaction, and commits it. -/
def twice : List Network.Move :=
  [.add (.ofNat 1) none false true, .add (.ofNat 2) none false true,
    .ask (.ofNat 1) (.ofNat 2) (.txCounter ⟨1, 1, 1⟩),
    .ask (.ofNat 1) (.ofNat 2) (.txCounter ⟨1, 1, 1⟩),
    .ask (.ofNat 2) (.ofNat 2) .queryCounter, .deliver 0, .deliver 0,
    .ask (.ofNat 1) (.ofNat 2) (.commit ⟨1, 1, 1⟩),
    .call (.ofNat 1) (.rollback (.ofNat 2) ⟨1, 2, 1⟩),
    .deliver 1, .deliver 0, .deliver 1, .deliver 0, .deliver 0, .deliver 0]

theorem quiescent_completeness_twice :
    (∀ m ∈ (ofMoves twice).network.managers, m.ackWaits.size = 0) ∧
      ((ofMoves twice).network.managers.map fun m => m.counterWaits.size) = [1, 0] ∧
      ((ofMoves twice).network.managers.map fun m => m.counterWaits.size).sum =
        ((ofMoves twice).network.managers.map fun m =>
          m.metrics.protocolViolations.toNat).sum ∧
      (ofMoves twice).network.fulfilled ⟨4, .ofNat 1, .ofNat 2, .commit ⟨1, 1, 1⟩⟩ := by
  have hquiet : (ofMoves twice).network.flight = [] := by decide
  obtain ⟨-, quiet⟩ := quiescent_completeness twice (by decide) (by decide)
  obtain ⟨hmanagers, hsum, hfutures⟩ := quiet hquiet
  refine ⟨fun m hm => (hmanagers m hm).1, by decide, hsum, ?_⟩
  refine (hfutures ⟨4, .ofNat 1, .ofNat 2, .commit ⟨1, 1, 1⟩⟩ (by decide)).resolve_left ?_
  rintro ⟨m, hm, hwaits⟩
  cases hm
  cases hwaits

end Chronicle
end CounterCoordinator
