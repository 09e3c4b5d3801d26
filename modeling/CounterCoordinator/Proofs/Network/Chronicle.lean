import CounterCoordinator.Network
import CounterCoordinator.Proofs.Fresh
import CounterCoordinator.Proofs.Manager.Turn
import Mathlib.Data.List.Induction

/-!
# Runs of a network

A run is a list of moves. Nodes come and go and links break; managers ask, are called, and receive
what lies in flight; and the network loses and duplicates messages, but no move forges one. Beside
the network a chronicle keeps what the network itself forgets: which futures were issued, and which
counter a coordinator assigned to which transaction while it handled which future's request.
-/
namespace CounterCoordinator

namespace Network

inductive Move where
  | add (node : NodeId) (order : Option UInt64) (client cancelAcks : Bool)
  | remove (node : NodeId)
  | breakLink (node : NodeId)
  | heal (node : NodeId)
  | ask (node target : NodeId) (what : Request)
  | call (node : NodeId) (c : Call)
  | deliver (i : Nat)
  | lose (i : Nat)
  | duplicate (i : Nat)
deriving DecidableEq, Repr

def Move.asks : Move → Bool
  | ask .. => true
  | _ => false

def perform (n : Network) : Move → Network
  | .add node order client cancelAcks => (n.add node order client cancelAcks).2
  | .remove node => n.remove node
  | .breakLink node => (n.breakLink node).2
  | .heal node => (n.heal node).2
  | .ask node target what =>
      (n.request node fun m id => m.ask n.outlook id target what).2.2
  | .call node c => (n.act node fun m => m.call n.outlook c).2
  | .deliver i => (n.deliver i).2.2
  | .lose i => (n.takeParcel i).2
  | .duplicate i => (n.duplicate i).2

/-! The single operations are moves. -/

theorem perform_requestTx (n : Network) (node target : NodeId) (tx : TxId) :
    n.perform (.ask node target (.txCounter tx)) = (n.requestTx node target tx).2.2 := rfl

theorem perform_requestQuery (n : Network) (node target : NodeId) :
    n.perform (.ask node target .queryCounter) = (n.requestQuery node target).2.2 := rfl

theorem perform_ackCommit (n : Network) (node target : NodeId) (tx : TxId) :
    n.perform (.ask node target (.commit tx)) = (n.ackCommit node target tx).2.2 := rfl

theorem perform_ackRollback (n : Network) (node target : NodeId) (tx : TxId) :
    n.perform (.call node (.rollback target tx)) = (n.ackRollback node target tx).2 := rfl

theorem perform_ackQuery (n : Network) (node target : NodeId) (counter : Version) :
    n.perform (.call node (.queryDone target counter)) = (n.ackQuery node target counter).2 := rfl

theorem perform_departed (n : Network) (node : NodeId) (event : MembershipEvent) :
    n.perform (.call node (.departed event)) = (n.departed node event).2 := rfl

theorem absorb_silent (n : Network) (m : Manager) (log : List Log.Notice) :
    n.absorb ⟨m, none, log⟩ = n.setManager m := by
  simp [absorb, setManager]

theorem perform_nodeLeft (n : Network) (here node : NodeId) :
    n.perform (.call here (.nodeLeft node)) = (n.nodeLeft here node).2 := by
  simp only [perform, act, nodeLeft]
  split
  · exact absorb_silent ..
  · rfl

theorem perform_resync (n : Network) (here : NodeId) :
    n.perform (.call here .resync) = (n.resync here).2 := by
  simp only [perform, act, resync]
  split
  · exact absorb_silent ..
  · rfl

theorem mem_of_manager? {n : Network} {node : NodeId} {m : Manager}
    (h : n.manager? node = some m) : m ∈ n.managers ∧ m.self = node :=
  ⟨List.mem_of_find?_eq_some h, by simpa using List.find?_some h⟩

theorem manager?_congr {n n' : Network} (h : n'.managers = n.managers) (node : NodeId) :
    n'.manager? node = n.manager? node := by
  unfold manager?
  rw [h]

theorem mem_setManager {n : Network} {m m' : Manager} (h : m' ∈ (n.setManager m).managers) :
    m' = m ∨ (m' ∈ n.managers ∧ m'.self ≠ m.self) := by
  obtain ⟨old, hold, rfl⟩ := List.mem_map.mp h
  by_cases hself : old.self = m.self
  · exact .inl (if_pos hself)
  · rw [if_neg hself]
    exact .inr ⟨hold, hself⟩

theorem mem_managers_add {n : Network} {node : NodeId} {order : Option UInt64}
    {client cancelAcks : Bool} {m : Manager}
    (h : m ∈ (n.add node order client cancelAcks).2.managers) :
    m ∈ n.managers ∨ (n.manager? node = none ∧ m = { self := node, cancelAcks }) := by
  unfold add at h
  cases hknown : n.manager? node with
  | some old =>
    rw [hknown] at h
    exact .inl h
  | none =>
    rw [hknown] at h
    rcases List.mem_append.mp h with h | h
    · exact .inl h
    · exact .inr ⟨rfl, List.mem_singleton.mp h⟩

theorem manager?_setManager (n : Network) (m : Manager) (node : NodeId) :
    (n.setManager m).manager? node =
      (n.manager? node).map fun old => if old.self = m.self then m else old := by
  have hsame : ∀ old : Manager,
      ((if old.self = m.self then m else old).self == node) = (old.self == node) := by
    intro old
    split
    · rename_i h
      rw [h]
    · rfl
  simp only [manager?, setManager, List.find?_map, Function.comp_def, hsame]

theorem isSome_manager?_setManager (n : Network) (m : Manager) (node : NodeId) :
    ((n.setManager m).manager? node).isSome = (n.manager? node).isSome := by
  rw [manager?_setManager, Option.isSome_map]

theorem act_of_none {n : Network} {node : NodeId} (h : n.manager? node = none)
    (f : Manager → Reaction) : (n.act node f).2 = n := by
  simp [act, h]

theorem act_of_some {n : Network} {node : NodeId} {m : Manager} (h : n.manager? node = some m)
    (f : Manager → Reaction) : (n.act node f).2 = n.absorb (f m) := by
  simp [act, h]

theorem act_ids (n : Network) (node : NodeId) (f : Manager → Reaction) :
    (n.act node f).2.ids = n.ids := by
  cases h : n.manager? node with
  | none => rw [act_of_none h]
  | some m =>
    rw [act_of_some h]
    rfl

theorem perform_deliver {n : Network} {i : Nat} {p : Parcel} (h : n.flight[i]? = some p) :
    n.perform (.deliver i) =
      ((n.takeParcel i).2.act p.target fun m => m.receive n.outlook p.source p.payload).2 := by
  simp only [perform, deliver, takeParcel, h]
  rfl

section Perform
variable {n : Network} {node target : NodeId} {m : Manager} {k : Nat} {p : Parcel}

theorem perform_ask_of_none (hm : n.manager? node = none) (what : Request) :
    n.perform (.ask node target what) = { n with ids := n.ids.next.2 } :=
  act_of_none (n := { n with ids := n.ids.next.2 }) hm _

theorem perform_ask_of_some (hm : n.manager? node = some m) (what : Request) :
    n.perform (.ask node target what) =
      absorb { n with ids := n.ids.next.2 } (m.ask n.outlook n.ids.next.1 target what) :=
  act_of_some (n := { n with ids := n.ids.next.2 }) hm _

theorem perform_call_of_none (hm : n.manager? node = none) (c : Call) :
    n.perform (.call node c) = n :=
  act_of_none hm _

theorem perform_call_of_some (hm : n.manager? node = some m) (c : Call) :
    n.perform (.call node c) = n.absorb (m.call n.outlook c) :=
  act_of_some hm _

theorem perform_deliver_of_none (hp : n.flight[k]? = none) :
    n.perform (.deliver k) = (n.takeParcel k).2 := by
  simp [perform, deliver, takeParcel, hp]

theorem perform_deliver_unclaimed (hp : n.flight[k]? = some p) (hm : n.manager? p.target = none) :
    n.perform (.deliver k) = (n.takeParcel k).2 :=
  (perform_deliver hp).trans (act_of_none (n := (n.takeParcel k).2) hm _)

theorem perform_deliver_of_some (hp : n.flight[k]? = some p)
    (hm : n.manager? p.target = some m) :
    n.perform (.deliver k) =
      (n.takeParcel k).2.absorb (m.receive n.outlook p.source p.payload) :=
  (perform_deliver hp).trans (act_of_some (n := (n.takeParcel k).2) hm _)

end Perform

theorem toNat_last_perform {n : Network} {move : Move}
    (hids : move.asks → n.ids.last.toNat + 1 < UInt64.size) :
    (n.perform move).ids.last.toNat = n.ids.last.toNat + if move.asks then 1 else 0 := by
  cases move with
  | ask node target what =>
    have hnext : (n.perform (.ask node target what)).ids = n.ids.next.2 := act_ids ..
    rw [hnext]
    exact IdSource.toNat_next (hids rfl)
  | call node c =>
    have hsame : (n.perform (.call node c)).ids = n.ids := act_ids ..
    rw [hsame]
    rfl
  | deliver i =>
    have hsame : (n.perform (.deliver i)).ids = n.ids := by
      cases h : n.flight[i]? with
      | none => simp [perform, deliver, takeParcel, h]
      | some p =>
        rw [perform_deliver h, act_ids]
        rfl
    rw [hsame]
    rfl
  | breakLink | heal | duplicate =>
    simp only [perform, breakLink, heal, duplicate]
    split <;> rfl
  | add | remove | lose => rfl

/-- The report of a reaction is not part of the network. -/
theorem absorb_congr (n : Network) {r r' : Reaction} (hmanager : r.manager = r'.manager)
    (hsent : r.sent = r'.sent) : n.absorb r = n.absorb r' := by
  simp only [absorb, hmanager, hsent]

/-- No manager ever goes away. -/
theorem isSome_manager?_perform {n : Network} {node : NodeId} (h : (n.manager? node).isSome)
    (move : Move) : ((n.perform move).manager? node).isSome := by
  have acted : ∀ (n : Network) (here : NodeId) (f : Manager → Reaction),
      (n.manager? node).isSome → ((n.act here f).2.manager? node).isSome := by
    intro n here f hn
    cases hm : n.manager? here with
    | none =>
      rw [act_of_none hm]
      exact hn
    | some m =>
      rw [act_of_some hm]
      exact (isSome_manager?_setManager n (f m).manager node).trans hn
  cases move with
  | ask here target what => exact acted { n with ids := n.ids.next.2 } here _ h
  | call here c => exact acted n here _ h
  | deliver i =>
    cases hp : n.flight[i]? with
    | none =>
      have hmanagers : (n.perform (.deliver i)).managers = n.managers := by
        simp [perform, deliver, takeParcel, hp]
      rw [manager?_congr hmanagers]
      exact h
    | some p =>
      rw [perform_deliver hp]
      exact acted (n.takeParcel i).2 p.target _ h
  | add other order client cancelAcks =>
    by_cases hknown : (n.manager? other).isSome
    · have hmanagers : (n.perform (.add other order client cancelAcks)).managers =
          n.managers := by
        simp [perform, add, hknown]
      rw [manager?_congr hmanagers]
      exact h
    · have hmanagers : (n.perform (.add other order client cancelAcks)).managers =
          n.managers ++ [{ self := other, cancelAcks }] := by
        simp [perform, add, hknown]
      unfold manager? at h ⊢
      rw [hmanagers, List.find?_append]
      simp [h]
  | breakLink | heal | duplicate =>
    simp only [perform, breakLink, heal, duplicate]
    split <;> exact h
  | remove | lose => exact h

theorem mem_flight_absorb {n : Network} {r : Reaction} {p : Parcel}
    (h : p ∈ (n.absorb r).flight) :
    p ∈ n.flight ∨ ∃ out, r.sent = some out ∧ p = ⟨r.manager.self, out.target, out.payload⟩ := by
  rcases List.mem_append.mp h with h | h
  · exact .inl h
  · obtain ⟨out, hout, rfl⟩ := List.mem_map.mp h
    exact .inr ⟨out, Option.mem_toList.mp hout, rfl⟩

theorem manager?_absorb_eq {n : Network} {here : NodeId} {m : Manager} {r : Reaction}
    (hm : n.manager? here = some m) (hself : r.manager.self = m.self) (node : NodeId) :
    (n.absorb r).manager? node = if node = here then some r.manager else n.manager? node := by
  obtain ⟨-, rfl⟩ := mem_of_manager? hm
  refine (manager?_setManager n r.manager node).trans ?_
  split
  · rename_i hnode
    subst hnode
    rw [hm, Option.map_some, if_pos hself.symm]
  · rename_i hnode
    cases hother : n.manager? node with
    | none => rfl
    | some old =>
      obtain ⟨-, hold⟩ := mem_of_manager? hother
      rw [Option.map_some, if_neg]
      rw [hold, hself]
      exact hnode

theorem manager?_absorb {n : Network} {here node : NodeId} {m m' : Manager} {r : Reaction}
    (hm : n.manager? here = some m) (hself : r.manager.self = m.self)
    (h : (n.absorb r).manager? node = some m') :
    (node = here ∧ m' = r.manager) ∨ n.manager? node = some m' := by
  rw [manager?_absorb_eq hm hself] at h
  split at h
  · rename_i hnode
    exact .inl ⟨hnode, (Option.some.inj h).symm⟩
  · exact .inr h

def counter? (n : Network) (node : NodeId) (future : FutureId) : Option Version :=
  match (n.manager? node).bind fun m => m.counterWaits.future? future with
  | some (.resolved (.ok counter)) => some counter
  | _ => none

theorem resolved_of_counter? {n : Network} {node : NodeId} {future : FutureId}
    {counter : Version} (h : n.counter? node future = some counter) :
    ∃ m ∈ n.managers, m.counterWaits.future? future = some (.resolved (.ok counter)) := by
  unfold counter? at h
  split at h
  · rename_i hfuture
    cases h
    obtain ⟨m, hm, hfuture⟩ := Option.bind_eq_some_iff.mp hfuture
    exact ⟨m, (mem_of_manager? hm).1, hfuture⟩
  · cases h

/-- Was the future of a commit acknowledgement resolved without an error? -/
def acknowledged (n : Network) (node : NodeId) (future : FutureId) : Bool :=
  match (n.manager? node).bind fun m => m.ackWaits.future? future with
  | some (.resolved (.ok ())) => true
  | _ => false

theorem acknowledged_iff {n : Network} {node : NodeId} {future : FutureId} :
    n.acknowledged node future ↔
      ∃ m, n.manager? node = some m ∧ m.ackWaits.future? future = some (.resolved (.ok ())) := by
  rw [← Option.bind_eq_some_iff, acknowledged]
  split
  · rename_i heq
    simp [heq]
  · rename_i hne
    simpa using hne

end Network

structure Issue where
  future : FutureId
  requester : NodeId
  target : NodeId
  what : Request
deriving DecidableEq, Repr

/-- A counter that was assigned, and the future named in the request that was being handled. -/
structure Assignment where
  coordinator : NodeId
  future : FutureId
  tx : TxId
  counter : Version
deriving DecidableEq, Repr

namespace Network

def issued? (n : Network) : Move → Option Issue
  | .ask node target what =>
      (n.manager? node).map fun _ => ⟨n.ids.next.1, node, target, what⟩
  | _ => none

theorem eq_of_issued? {n : Network} {node target : NodeId} {what : Request} {i : Issue}
    (h : n.issued? (.ask node target what) = some i) : i = ⟨n.ids.next.1, node, target, what⟩ := by
  obtain ⟨_, _, rfl⟩ := Option.map_eq_some_iff.mp h
  rfl

def assignedBy? (n : Network) (m : Manager) (source : NodeId) (payload : Bytes) :
    Option Assignment :=
  match Wire.decode payload with
  | .ok (.txCounterRequest future tx) =>
      if n.alive source then
        match (m.counters.assign tx).1 with
        | .ok counter => some ⟨m.self, future, tx, counter⟩
        | .error _ => none
      else none
  | _ => none

def assigned? (n : Network) : Move → Option Assignment
  | .deliver i =>
      n.flight[i]?.bind fun p =>
        (n.manager? p.target).bind fun m => n.assignedBy? m p.source p.payload
  | _ => none

end Network

structure Chronicle where
  network : Network := {}
  issues : List Issue := []
  assignments : List Assignment := []

namespace Chronicle

def step (h : Chronicle) (move : Network.Move) : Chronicle :=
  ⟨h.network.perform move, h.issues ++ (h.network.issued? move).toList,
    h.assignments ++ (h.network.assigned? move).toList⟩

theorem step_of_plain {h : Chronicle} {move : Network.Move}
    (hissued : h.network.issued? move = none) (hassigned : h.network.assigned? move = none) :
    h.step move = { h with network := h.network.perform move } := by
  simp [step, hissued, hassigned]

/-- The history of a run that starts without any node. -/
def ofMoves (moves : List Network.Move) : Chronicle :=
  moves.foldl step {}

theorem ofMoves_append (before after : List Network.Move) :
    ofMoves (before ++ after) = after.foldl step (ofMoves before) :=
  List.foldl_append

theorem ofMoves_concat (moves : List Network.Move) (move : Network.Move) :
    ofMoves (moves ++ [move]) = (ofMoves moves).step move :=
  ofMoves_append moves [move]

/-- The newest id is the number of asks so far. -/
theorem toNat_last_ofMoves {moves : List Network.Move}
    (hids : moves.countP Network.Move.asks < UInt64.size) :
    (ofMoves moves).network.ids.last.toNat = moves.countP Network.Move.asks := by
  induction moves using List.reverseRecOn with
  | nil => rfl
  | append_singleton moves move ih =>
    rw [List.countP_append, List.countP_singleton] at hids ⊢
    have hlast := ih (by omega)
    have hroom : move.asks → (ofMoves moves).network.ids.last.toNat + 1 < UInt64.size := by
      intro hasks
      rw [if_pos hasks] at hids
      omega
    rw [ofMoves_concat]
    exact (Network.toNat_last_perform hroom).trans (by rw [hlast])

theorem room_ofMoves {moves : List Network.Move} {move : Network.Move}
    (hids : (moves ++ [move]).countP Network.Move.asks < UInt64.size) :
    moves.countP Network.Move.asks < UInt64.size ∧
      (move.asks → (ofMoves moves).network.ids.last.toNat + 1 < UInt64.size) := by
  rw [List.countP_append, List.countP_singleton] at hids
  have hbefore : moves.countP Network.Move.asks < UInt64.size := by omega
  refine ⟨hbefore, ?_⟩
  intro hasks
  rw [if_pos hasks] at hids
  rw [toNat_last_ofMoves hbefore]
  exact hids

theorem ofMoves_induction {P : Chronicle → Prop} (hnew : P {})
    (hstep : ∀ h move, P h →
      (move.asks → h.network.ids.last.toNat + 1 < UInt64.size) → P (h.step move))
    (moves : List Network.Move) (hids : moves.countP Network.Move.asks < UInt64.size) :
    P (ofMoves moves) := by
  induction moves using List.reverseRecOn with
  | nil => exact hnew
  | append_singleton moves move ih =>
    obtain ⟨hbefore, hroom⟩ := room_ofMoves hids
    rw [ofMoves_concat]
    exact hstep _ _ (ih hbefore) hroom

/-- What a coordinator assigned so far, in this order. -/
def assignedBy (h : Chronicle) (coordinator : NodeId) : List Assignment :=
  h.assignments.filter fun a => a.coordinator == coordinator

theorem mem_assignedBy {h : Chronicle} {a : Assignment} (ha : a ∈ h.assignments) :
    a ∈ h.assignedBy a.coordinator :=
  List.mem_filter.mpr ⟨ha, by simp⟩

/-- A later chronicle of the same run: histories only grow, and managers stay. -/
structure Extends (h h' : Chronicle) : Prop where
  issues : h.issues <+: h'.issues
  assignments : h.assignments <+: h'.assignments
  managers : ∀ node, (h.network.manager? node).isSome → (h'.network.manager? node).isSome

namespace Extends
variable {h h' h'' : Chronicle}

theorem refl (h : Chronicle) : Extends h h :=
  ⟨List.prefix_refl _, List.prefix_refl _, fun _ hm => hm⟩

theorem trans (e : Extends h h') (e' : Extends h' h'') : Extends h h'' :=
  ⟨e.issues.trans e'.issues, e.assignments.trans e'.assignments,
    fun node hm => e'.managers node (e.managers node hm)⟩

end Extends

theorem extends_step (h : Chronicle) (move : Network.Move) : Extends h (h.step move) :=
  ⟨List.prefix_append _ _, List.prefix_append _ _,
    fun _ hm => Network.isSome_manager?_perform hm move⟩

theorem extends_ofMoves {before moves : List Network.Move} (hearlier : before <+: moves) :
    Extends (ofMoves before) (ofMoves moves) := by
  obtain ⟨after, rfl⟩ := hearlier
  rw [ofMoves_append]
  generalize ofMoves before = h
  induction after generalizing h with
  | nil => exact .refl h
  | cons move after ih => exact (extends_step h move).trans (ih (h.step move))

/-- The future of an issue was resolved with a counter, at the end of the run or before. -/
def Answered (moves : List Network.Move) (i : Issue) (counter : Version) : Prop :=
  ∃ earlier, earlier <+: moves ∧
    (ofMoves earlier).network.counter? i.requester i.future = some counter

end Chronicle
end CounterCoordinator
