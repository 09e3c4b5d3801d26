import CounterCoordinator.Proofs.Deployment.Effects
import CounterCoordinator.Proofs.Network.Carriage

/-!
# What was sent and what was taken

The inboxes of a cluster are queues that lose nothing. Beside a deployment the journal keeps the
messages that were sent and the envelopes that dispatchers took out of the inboxes, each in order.
What a dispatcher took so far is always the beginning of what was sent to its node, and the rest
lies in the inbox as long as nobody closes it.
-/
namespace CounterCoordinator

def Parcel.envelope (p : Parcel) : Envelope := ⟨p.source, .coordinator, p.payload⟩

namespace Cluster
variable {c c' : Cluster} {node here : NodeId} {posted taken : List Envelope} {e : Envelope}

/-- What was posted to a node was taken, or lies in its inbox; a closed inbox dropped the rest. -/
def Flow (c : Cluster) (node : NodeId) (posted taken : List Envelope) : Prop :=
  match c.inbox? node with
  | none => posted = [] ∧ taken = []
  | some b => if b.closed then taken <+: posted else posted = taken ++ b.queue

/-- Sending fails if the target is no member, or has closed its inbox, and then nothing changes.
Otherwise the envelope goes to the end of the inbox of the target, and into no other inbox. -/
structure Sends (c : Cluster) (target : NodeId) (e : Envelope) : Prop where
  housed : c.alive target → (c.inbox? target).isSome
  left : ¬ c.alive target →
    c.send e.sender target e.channel e.payload = (.error (.nodeLeft target), c)
  shut : ∀ b, c.alive target → c.inbox? target = some b → b.closed →
    c.send e.sender target e.channel e.payload =
      (.error (.sendFailed target "inbox closed"), c)
  posted : ∀ b, c.alive target → c.inbox? target = some b → ¬ b.closed →
    (c.send e.sender target e.channel e.payload).1 = .ok () ∧
      ∀ node, (c.send e.sender target e.channel e.payload).2.inbox? node =
        if node = target then some { b with queue := b.queue ++ [e] } else c.inbox? node

namespace Flow

theorem begins (hf : c.Flow node posted taken) : taken <+: posted := by
  unfold Flow at hf
  split at hf
  · rw [hf.2]
    exact List.nil_prefix
  · split at hf
    · exact hf
    · exact hf ▸ List.prefix_append ..

theorem congr (hf : c.Flow node posted taken) (h : c'.inbox? node = c.inbox? node) :
    c'.Flow node posted taken := by
  unfold Flow
  rw [h]
  exact hf

theorem join (hf : c.Flow node posted taken) {id : NodeId} (hnew : c.inbox? id = none)
    (client : Bool) : (c.join id client).2.2.Flow node posted taken := by
  by_cases hnode : node = id
  · subst hnode
    have hinbox : (c.join node client).2.2.inbox? node = some { owner := node } := by
      simp [Cluster.join, inbox?]
    unfold Flow at hf ⊢
    rw [hnew] at hf
    rw [hinbox, hf.1, hf.2]
    rfl
  · refine hf.congr ?_
    have hne : (id == node) = false := beq_false_of_ne (Ne.symm hnode)
    simp [Cluster.join, inbox?, hne]

theorem post (hf : c.Flow node posted taken) (hopen : c.refusal? here = none) :
    (c.post here e).Flow node (posted ++ if here = node then [e] else []) taken := by
  obtain ⟨-, b, hb, hb_open⟩ := inbox?_of_refusal? hopen
  have hinbox := c.inbox?_updateInbox here _ (fun b => b.put_owner e) node
  by_cases hnode : here = node
  · subst hnode
    rw [if_pos rfl, hb] at hinbox
    unfold Flow at hf ⊢
    simp only [hb, hb_open, Bool.false_eq_true, if_false] at hf
    rw [Cluster.post, hinbox]
    simp [Inbox.put, hb_open, hf]
  · rw [if_neg hnode, List.append_nil]
    exact hf.congr (hinbox.trans (if_neg (Ne.symm hnode)))

theorem take (hf : c.Flow node posted taken) (htake : (c.take here).1 = .envelope e) :
    (c.take here).2.Flow node posted (taken ++ if here = node then [e] else []) := by
  obtain ⟨b, rest, hb, hb_open, hqueue, hafter⟩ := take_spec htake
  have hinbox := c.inbox?_updateInbox here (fun b => { b with queue := rest }) (fun _ => rfl) node
  rw [hafter]
  by_cases hnode : here = node
  · subst hnode
    rw [if_pos rfl, hb] at hinbox
    unfold Flow at hf ⊢
    simp only [hb, hb_open, Bool.false_eq_true, if_false] at hf
    rw [hinbox]
    simp [hb_open, hf, hqueue]
  · rw [if_neg hnode, List.append_nil]
    exact hf.congr (hinbox.trans (if_neg (Ne.symm hnode)))

theorem closeInbox (hf : c.Flow node posted taken) (here : NodeId) :
    (c.closeInbox here).2.Flow node posted taken := by
  rcases c.closeInbox_eq_update here with hsame | hclose
  · rw [hsame]
    exact hf
  · have hinbox := c.inbox?_updateInbox here Inbox.close (fun _ => rfl) node
    rw [hclose]
    by_cases hnode : node = here
    · subst hnode
      have hprefix := hf.begins
      rw [if_pos rfl] at hinbox
      unfold Flow at hf ⊢
      rw [hinbox]
      cases hb : c.inbox? node with
      | none =>
        rw [hb] at hf
        exact hf
      | some b => exact hprefix
    · exact hf.congr (hinbox.trans (if_neg hnode))

end Flow

end Cluster

namespace Deployment

def Move.actor? : Move → Option NodeId
  | ask node _ _ | call node _ | dispatch node | listen node _ => some node
  | _ => none

/-- The message of a move that the transport takes. -/
def sent? (d : Deployment) (move : Move) : Option Parcel :=
  (d.reaction? move).bind Network.dispatched

/-- The envelope a dispatcher takes in a move, and its node. -/
def handed? (d : Deployment) (move : Move) : Option (NodeId × Envelope) :=
  (d.taken? move).bind fun e => move.actor?.map fun node => (node, e)

variable {d : Deployment} {move : Move} {r : Reaction}

/-- The cluster after the dispatcher of a move, if any, took its envelope. -/
def afterTaking (d : Deployment) (move : Move) : Cluster :=
  match d.handed? move with
  | some t => (d.cluster.take t.1).2
  | none => d.cluster

theorem sent_absorb {node : NodeId} (hself : r.manager.self = node)
    (haccepted : ∀ out, r.sent = some out → d.cluster.refusal? out.target = none) :
    (∀ p, Network.dispatched r = some p → p.source = node ∧
      d.cluster.send p.source p.target .coordinator p.payload =
        (.ok (), (d.absorb r).cluster)) ∧
    (Network.dispatched r = none → (d.absorb r).cluster = d.cluster) := by
  unfold absorb Network.dispatched
  cases hsent : r.sent with
  | none => exact ⟨nofun, fun _ => rfl⟩
  | some out =>
    refine ⟨?_, nofun⟩
    rintro p ⟨⟩
    refine ⟨hself, ?_⟩
    rw [Cluster.send, haccepted out hsent]
    rfl

/-- The message of a move goes out from the acting node if the transport takes it. A move that sends
nothing leaves alone whatever its dispatcher did not take. -/
theorem sent?_spec {node : NodeId} (hactor : move.actor? = some node) :
    (∀ p, d.sent? move = some p → p.source = node ∧
      (d.afterTaking move).send p.source p.target .coordinator p.payload =
        (.ok (), (d.perform move).cluster)) ∧
    (d.sent? move = none → (d.perform move).cluster = d.afterTaking move) := by
  have heffect := d.effect move
  unfold sent? afterTaking handed?
  generalize d.taken? move = t, d.reaction? move = r, d.perform move = d' at heffect ⊢
  cases heffect
  case look | joined | departed | closed => cases hactor
  case unasked | uncalled | unheard | untaken => exact ⟨nofun, fun _ => rfl⟩
  case unread => exact ⟨nofun, fun _ => rfl⟩
  case asked hm =>
    cases hactor
    refine sent_absorb (d := { d with ids := d.ids.next.2 }) ?_ fun out => Manager.accepted_ask
    rw [Manager.ask_self, (mem_of_manager? hm).2]
  case called hm | heard hm =>
    cases hactor
    refine sent_absorb ?_ fun out => Manager.accepted_call
    rw [Manager.call_self, (mem_of_manager? hm).2]
  case read htake hm =>
    cases hactor
    refine sent_absorb (d := { d with cluster := (d.cluster.take node).2 }) ?_ fun out hout => ?_
    · rw [Manager.dispatch_self, (mem_of_manager? hm).2]
    · rw [d.cluster.refusal?_take]
      exact Manager.accepted_dispatch hout

def issued? (d : Deployment) : Move → Option Issue
  | .ask node target what => d.network.issued? (.ask node target what)
  | _ => none

def assignedBy? (d : Deployment) (node : NodeId) (e : Envelope) : Option Assignment :=
  match e.channel with
  | .coordinator =>
      (d.manager? node).bind fun m => d.network.assignedBy? m e.sender e.payload
  | _ => none

def assigned? (d : Deployment) (move : Move) : Option Assignment :=
  (d.handed? move).bind fun t => d.assignedBy? t.1 t.2

end Deployment

/-- What was sent to a node, oldest first. -/
def postedTo (sent : List Parcel) (node : NodeId) : List Envelope :=
  (sent.filter fun p => p.target = node).map Parcel.envelope

/-- What the dispatcher of a node took, oldest first. -/
def takenBy (taken : List (NodeId × Envelope)) (node : NodeId) : List Envelope :=
  (taken.filter fun t => t.1 = node).map Prod.snd

theorem postedTo_concat (sent : List Parcel) (p : Parcel) (node : NodeId) :
    postedTo (sent ++ [p]) node =
      postedTo sent node ++ if p.target = node then [p.envelope] else [] := by
  by_cases h : p.target = node <;> simp [postedTo, h]

theorem takenBy_concat (taken : List (NodeId × Envelope)) (here : NodeId) (e : Envelope)
    (node : NodeId) :
    takenBy (taken ++ [(here, e)]) node =
      takenBy taken node ++ if here = node then [e] else [] := by
  by_cases h : here = node <;> simp [takenBy, h]

structure Journal where
  deployment : Deployment := {}
  issues : List Issue := []
  assignments : List Assignment := []
  /-- The messages that the transport took. -/
  sent : List Parcel := []
  /-- The envelopes that dispatchers took, each with the node of the dispatcher. -/
  taken : List (NodeId × Envelope) := []

namespace Journal

def step (j : Journal) (move : Deployment.Move) : Journal where
  deployment := j.deployment.perform move
  issues := j.issues ++ (j.deployment.issued? move).toList
  assignments := j.assignments ++ (j.deployment.assigned? move).toList
  sent := j.sent ++ (j.deployment.sent? move).toList
  taken := j.taken ++ (j.deployment.handed? move).toList

/-- The journal of a run that starts without any node. -/
def ofMoves (moves : List Deployment.Move) : Journal :=
  moves.foldl step {}

theorem ofMoves_concat (moves : List Deployment.Move) (move : Deployment.Move) :
    ofMoves (moves ++ [move]) = (ofMoves moves).step move :=
  List.foldl_append

theorem records_grow {earlier moves : List Deployment.Move} (hearlier : earlier <+: moves) :
    (ofMoves earlier).issues <+: (ofMoves moves).issues ∧
      (ofMoves earlier).assignments <+: (ofMoves moves).assignments := by
  obtain ⟨after, rfl⟩ := hearlier
  induction after using List.reverseRecOn with
  | nil => simp
  | append_singleton after move ih =>
    rw [← List.append_assoc, ofMoves_concat]
    exact ⟨ih.1.trans (List.prefix_append ..), ih.2.trans (List.prefix_append ..)⟩

/-- A run in which nodes join under new identities, as long as ids for futures last. -/
structure Regular (moves : List Deployment.Move) : Prop where
  joins : (moves.filterMap Deployment.Move.joins?).Nodup
  asks : moves.countP Deployment.Move.asks < UInt64.size

structure Fits (j : Journal) (move : Deployment.Move) : Prop where
  inbox : ∀ id, move.joins? = some id → j.deployment.cluster.inbox? id = none
  manager : ∀ id, move.joins? = some id → j.deployment.manager? id = none
  room : move.asks → j.deployment.ids.last.toNat + 1 < UInt64.size

theorem Regular.of_prefix {moves earlier : List Deployment.Move} (hr : Regular moves)
    (hearlier : earlier <+: moves) : Regular earlier :=
  ⟨hr.joins.sublist (hearlier.sublist.filterMap _),
    Nat.lt_of_le_of_lt hearlier.countP_le hr.asks⟩

theorem identities_ofMoves (moves : List Deployment.Move) :
    (ofMoves moves).deployment.cluster.inboxes.map Inbox.owner =
        (moves.filterMap Deployment.Move.joins?).reverse ∧
      (ofMoves moves).deployment.managers.map Manager.self =
        moves.filterMap Deployment.Move.joins? := by
  induction moves using List.reverseRecOn with
  | nil => exact ⟨rfl, rfl⟩
  | append_singleton moves move ih =>
    have hgrown := (ofMoves moves).deployment.grown move
    rw [ofMoves_concat, List.filterMap_append]
    constructor
    · refine hgrown.owners.trans ?_
      rw [ih.1]
      cases h : move.joins? <;> simp [h]
    · refine hgrown.selfs.trans ?_
      rw [ih.2]
      cases h : move.joins? <;> simp [h]

theorem toNat_last_ofMoves {moves : List Deployment.Move}
    (hids : moves.countP Deployment.Move.asks < UInt64.size) :
    (ofMoves moves).deployment.ids.last.toNat = moves.countP Deployment.Move.asks := by
  induction moves using List.reverseRecOn with
  | nil => rfl
  | append_singleton moves move ih =>
    rw [List.countP_append, List.countP_singleton] at hids ⊢
    have hlast := ih (by omega)
    have hroom : move.asks → (ofMoves moves).deployment.ids.last.toNat + 1 < UInt64.size := by
      intro hasks
      rw [if_pos hasks] at hids
      omega
    rw [ofMoves_concat]
    refine (Deployment.last_perform hroom).trans ?_
    rw [hlast]
    cases move.asks <;> rfl

theorem Regular.fits {moves : List Deployment.Move} {move : Deployment.Move}
    (hr : Regular (moves ++ [move])) : (ofMoves moves).Fits move := by
  obtain ⟨howners, hselfs⟩ := identities_ofMoves moves
  have hnew : ∀ id, move.joins? = some id → id ∉ moves.filterMap Deployment.Move.joins? := by
    intro id hid hmem
    have hjoins := hr.joins
    rw [List.filterMap_append] at hjoins
    exact List.disjoint_of_nodup_append hjoins hmem (by simp [hid])
  constructor
  · intro id hid
    rw [Cluster.inbox?_eq_none_iff, howners, List.mem_reverse]
    exact hnew id hid
  · intro id hid
    rw [← Option.not_isSome_iff_eq_none, Deployment.isSome_manager?_iff, hselfs]
    exact hnew id hid
  · intro hasks
    have hcount := hr.asks
    rw [List.countP_append, List.countP_singleton, if_pos hasks] at hcount
    rw [toNat_last_ofMoves (by omega)]
    exact hcount

theorem ofMoves_induction {P : Journal → Prop} (hnew : P {})
    (hstep : ∀ j move, P j → j.Fits move → P (j.step move)) {moves : List Deployment.Move}
    (hr : Regular moves) : P (ofMoves moves) := by
  induction moves using List.reverseRecOn with
  | nil => exact hnew
  | append_singleton moves move ih =>
    rw [ofMoves_concat]
    exact hstep _ _ (ih (hr.of_prefix (List.prefix_append ..))) hr.fits

structure Queued (j : Journal) : Prop where
  housed : ∀ n ∈ j.deployment.cluster.members,
    n.id ∈ j.deployment.cluster.inboxes.map Inbox.owner
  flow : ∀ node, j.deployment.cluster.Flow node (postedTo j.sent node) (takenBy j.taken node)

namespace Queued
variable {j : Journal} {move : Deployment.Move} {node : NodeId}

theorem housed_step (hq : j.Queued) (move : Deployment.Move) :
    ∀ n ∈ (j.step move).deployment.cluster.members,
      n.id ∈ (j.step move).deployment.cluster.inboxes.map Inbox.owner := by
  have hgrown := j.deployment.grown move
  intro n hn
  rw [step, hgrown.owners]
  rcases hgrown.members n hn with hn | hjoined
  · exact List.mem_append_right _ (hq.housed n hn)
  · exact List.mem_append_left _ (Option.mem_toList.mpr hjoined)

/-- What a reaction sends goes to the end of an open inbox. -/
theorem flow_absorb {d : Deployment} {sent : List Parcel} {taken : List Envelope} {r : Reaction}
    (hf : d.cluster.Flow node (postedTo sent node) taken)
    (haccepted : ∀ out, r.sent = some out → d.cluster.refusal? out.target = none) :
    (d.absorb r).cluster.Flow node
      (postedTo (sent ++ (Network.dispatched r).toList) node) taken := by
  unfold Deployment.absorb Network.dispatched
  cases hsent : r.sent with
  | none =>
    rw [Option.map_none, Option.toList_none, List.append_nil]
    exact hf
  | some out =>
    have hposted := hf.post (e := ⟨r.manager.self, .coordinator, out.payload⟩) (haccepted out hsent)
    simp only [Option.map_some, Option.toList_some, postedTo_concat]
    exact hposted

theorem flow_step (hq : j.Queued) (hfits : j.Fits move) :
    (j.step move).deployment.cluster.Flow node
      (postedTo (j.step move).sent node) (takenBy (j.step move).taken node) := by
  have hf := hq.flow node
  have heffect := j.deployment.effect move
  simp only [step, Deployment.sent?, Deployment.handed?]
  generalize j.deployment.taken? move = t, j.deployment.reaction? move = r,
    j.deployment.perform move = d at heffect ⊢
  have handled : ∀ {here e}, (j.deployment.cluster.take here).1 = .envelope e →
      (j.deployment.cluster.take here).2.Flow node (postedTo j.sent node)
        (takenBy (j.taken ++ [(here, e)]) node) := by
    intro here e htake
    rw [takenBy_concat]
    exact hf.take htake
  cases heffect
  all_goals simp only [Option.bind_none, Option.bind_some, Option.toList_none, List.append_nil]
  case look | unheard | uncalled | untaken | unasked => exact hf
  case joined id client cancelAcks => exact hf.join (hfits.inbox id rfl) client
  case departed kind here =>
    exact hf.congr (congrArg _ (j.deployment.cluster.depart_inboxes kind here))
  case closed here => exact hf.closeInbox here
  case asked => exact flow_absorb hf fun out => Manager.accepted_ask
  case called | heard => exact flow_absorb hf fun out => Manager.accepted_call
  case unread htake _ => exact handled htake
  case read here e m htake _ =>
    refine flow_absorb (handled htake) fun out hout => ?_
    rw [j.deployment.cluster.refusal?_take]
    exact Manager.accepted_dispatch hout

theorem step (hq : j.Queued) (hfits : j.Fits move) : (j.step move).Queued :=
  ⟨hq.housed_step move, fun _ => hq.flow_step hfits⟩

theorem new : Queued {} :=
  ⟨fun _ h => absurd h List.not_mem_nil, fun _ => ⟨rfl, rfl⟩⟩

theorem sends (hq : j.Queued) (target : NodeId) (e : Envelope) :
    j.deployment.cluster.Sends target e := by
  constructor
  · intro halive
    obtain ⟨n, hn, hself⟩ := List.any_eq_true.mp halive
    have hhoused := hq.housed n hn
    rw [beq_iff_eq.mp hself] at hhoused
    exact Option.ne_none_iff_isSome.mp fun hnone => Cluster.inbox?_eq_none_iff.mp hnone hhoused
  · intro hgone
    simp [Cluster.send, Cluster.refusal?, hgone]
  · intro b halive hb hclosed
    simp [Cluster.send, Cluster.refusal?, halive, hb, hclosed]
  · intro b halive hb hopen
    have haccepted : j.deployment.cluster.refusal? target = none := by
      simp [Cluster.refusal?, halive, hb, hopen]
    rw [Cluster.send, haccepted]
    refine ⟨rfl, fun node => ?_⟩
    refine (Cluster.inbox?_updateInbox _ target _ (fun b => b.put_owner e) node).trans ?_
    split
    · rename_i hnode
      rw [hnode, hb, Option.map_some, Inbox.put, if_neg (by simpa using hopen)]
    · rfl

end Queued

end Journal

end CounterCoordinator
