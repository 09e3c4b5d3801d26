import CounterCoordinator.Proofs.Counters.Ledger
import CounterCoordinator.Proofs.Deployment.Effects
import CounterCoordinator.Proofs.Manager.Fate
import CounterCoordinator.Proofs.Runs
import CounterCoordinator.Proofs.Topology.Enrolment
import Mathlib.Data.List.Perm.Subperm
import Mathlib.Logic.Function.Basic

/-!
# Fresh transactions are never rejected

Every node has one generator of transaction identifiers, made with its join order, and draws the
identifier of each request for a counter from it. Join orders tell the generators apart and sequence
numbers tell the identifiers of one generator apart. So no transaction is asked about twice, and as
long as inboxes neither copy nor invent envelopes, no coordinator ever finds a transaction active
that it is asked to assign a counter to.
-/
namespace CounterCoordinator

namespace Inbox

def wanted (b : Inbox) : List TxId :=
  b.queue.filterMap fun e => Wire.wanted? e.payload

theorem wanted_put (b : Inbox) (e : Envelope) :
    (b.put e).wanted.Subperm ((Wire.wanted? e.payload).toList ++ b.wanted) := by
  unfold put
  split
  · exact (List.sublist_append_right ..).subperm
  · rw [wanted, List.filterMap_append]
    refine List.perm_append_comm.subperm.trans (List.Perm.subperm (.of_eq ?_))
    cases h : Wire.wanted? e.payload <;> simp [h, wanted]

theorem wanted_subperm {b : Inbox} {queue : List Envelope} (h : queue.Subperm b.queue) :
    wanted { b with queue } |>.Subperm b.wanted := by
  obtain ⟨l, hperm, hsub⟩ := h
  exact ⟨_, hperm.filterMap _, hsub.filterMap _⟩

end Inbox

namespace Cluster
variable {c : Cluster} {node : NodeId} {change : Inbox → Inbox}

def wanted (c : Cluster) : List TxId := c.inboxes.flatMap Inbox.wanted

/-- Every node has one inbox, so changing the inbox of a node changes no other. -/
theorem inboxes_split (hnodup : (c.inboxes.map Inbox.owner).Nodup) {b : Inbox}
    (hb : c.inbox? node = some b) :
    ∃ before after, c.inboxes = before ++ b :: after ∧
      ∀ change, (c.updateInbox node change).inboxes = before ++ change b :: after := by
  obtain ⟨hmem, rfl⟩ := inbox?_spec hb
  obtain ⟨before, after, hsplit⟩ := List.append_of_mem hmem
  refine ⟨before, after, hsplit, ?_⟩
  intro change
  rw [hsplit, List.map_append, List.map_cons, List.nodup_middle, ← List.map_append] at hnodup
  have fixed : ∀ l : List Inbox, (∀ other ∈ l, other ∈ before ++ after) →
      l.map (fun other => if other.owner = b.owner then change other else other) = l := by
    intro l hl
    refine (List.map_congr_left ?_).trans (List.map_id l)
    intro other hother
    rw [if_neg]
    · rfl
    intro hsame
    exact (List.nodup_cons.mp hnodup).1 (List.mem_map.mpr ⟨other, hl other hother, hsame⟩)
  simp only [updateInbox, hsplit, List.map_append, List.map_cons, if_true]
  rw [fixed before fun _ h => List.mem_append_left _ h,
    fixed after fun _ h => List.mem_append_right _ h]

/-- What is asked for in one inbox and in the others, whatever becomes of that inbox. -/
theorem wanted_split (hnodup : (c.inboxes.map Inbox.owner).Nodup) {b : Inbox}
    (hb : c.inbox? node = some b) :
    ∃ others, c.wanted.Perm (b.wanted ++ others) ∧
      ∀ change, (c.updateInbox node change).wanted.Perm ((change b).wanted ++ others) := by
  obtain ⟨before, after, hsplit, hchange⟩ := inboxes_split hnodup hb
  refine ⟨(before ++ after).flatMap Inbox.wanted, ?_, ?_⟩
  · rw [wanted, hsplit, List.flatMap_append, List.flatMap_append, List.flatMap_cons]
    exact List.perm_append_comm_assoc ..
  · intro change
    rw [wanted, hchange, List.flatMap_append, List.flatMap_append, List.flatMap_cons]
    exact List.perm_append_comm_assoc ..

theorem wanted_updateInbox (hnodup : (c.inboxes.map Inbox.owner).Nodup) (more : List TxId)
    (hqueue : ∀ b, c.inbox? node = some b → (change b).wanted.Subperm (more ++ b.wanted)) :
    (c.updateInbox node change).wanted.Subperm (more ++ c.wanted) := by
  cases hb : c.inbox? node with
  | none =>
    rw [updateInbox_of_none hb]
    exact (List.sublist_append_right ..).subperm
  | some b =>
    obtain ⟨others, hbefore, hafter⟩ := wanted_split hnodup hb
    have hpart := (List.subperm_append_right others).mpr (hqueue b hb)
    rw [List.append_assoc] at hpart
    exact (hafter change).subperm.trans (hpart.trans (hbefore.symm.append_left more).subperm)

theorem wanted_post (hnodup : (c.inboxes.map Inbox.owner).Nodup) (target : NodeId) (e : Envelope) :
    (c.post target e).wanted.Subperm ((Wire.wanted? e.payload).toList ++ c.wanted) :=
  wanted_updateInbox hnodup _ fun b _ => b.wanted_put e

theorem wanted_take (hnodup : (c.inboxes.map Inbox.owner).Nodup) {e : Envelope}
    (h : (c.take node).1 = .envelope e) :
    c.wanted.Perm ((Wire.wanted? e.payload).toList ++ (c.take node).2.wanted) := by
  obtain ⟨b, rest, hb, -, hqueue, htake⟩ := take_spec h
  obtain ⟨others, hbefore, hafter⟩ := wanted_split hnodup hb
  rw [htake]
  refine hbefore.trans (List.Perm.trans (.of_eq ?_) ((hafter _).symm.append_left _))
  rw [← List.append_assoc, Inbox.wanted, hqueue, List.filterMap_cons]
  cases Wire.wanted? e.payload <;> rfl

end Cluster

def Request.wanted? : Request → Option TxId
  | txCounter tx => some tx
  | _ => none

def Reaction.wanted? (r : Reaction) : Option TxId :=
  r.sent.bind fun out => Wire.wanted? out.payload

namespace Manager
variable {m : Manager} {view : Outlook}

theorem wanted?_ask (id : FutureId) (target : NodeId) (what : Request) :
    (m.ask view id target what).wanted? =
      match view.refusal? target with
      | none => what.wanted?
      | some _ => none := by
  rw [Reaction.wanted?, ask_sent, Outlook.outgoing?]
  cases view.refusal? target with
  | none =>
    cases what <;> simp [Wire.wanted?, Wire.counterRequest?, Request.message, Request.wanted?]
  | some cause => rfl

theorem wanted?_call (c : Call) : (m.call view c).wanted? = none :=
  Option.bind_eq_none_iff.mpr fun _ hout => Wire.wanted?_eq_none (not_wantsCounter_of_call hout)

theorem wanted?_dispatch (e : Envelope) : (m.dispatch view e).wanted? = none :=
  Option.bind_eq_none_iff.mpr fun _ hout => Wire.wanted?_eq_none (dispatch_sent hout)

/-- A transaction becomes active only when its counter is asked for. If it was not active before,
this is no violation. -/
theorem dispatch_fresh (m : Manager) (view : Outlook) {e : Envelope}
    (hfresh : ∀ tx, Wire.wanted? e.payload = some tx → m.counters.activeCounter? tx = none) :
    (m.dispatch view e).manager.metrics.protocolViolations = m.metrics.protocolViolations ∧
      ∀ tx, (m.dispatch view e).manager.counters.activeCounter? tx ≠ none →
        m.counters.activeCounter? tx ≠ none ∨ Wire.wanted? e.payload = some tx := by
  unfold dispatch
  split
  · cases hdecode : Wire.decode e.payload with
    | error fault =>
      rw [(receive_of_fault m view e.sender e.payload hdecode).1]
      exact ⟨rfl, fun _ h => .inl h⟩
    | ok message =>
      rw [(receive_of_decode m view e.sender e.payload hdecode).1,
        (m.act_tally view e.sender message).1, act_counters]
      cases message with
      | txCounterRequest future tx =>
        have hwanted := Wire.wanted?_of_decode hdecode
        have hassign := Counters.assign_of_inactive (hfresh tx hwanted)
        constructor
        · simp [rejects?, hassign]
        · intro t ht
          dsimp only at ht
          split at ht
          · rw [Counters.activeCounter?_assign] at ht
            split at ht
            · rename_i heq
              exact .inr (heq ▸ hwanted)
            · exact .inl ht
          · exact .inl ht
      | txAckRequest future tx skip =>
        refine ⟨rfl, fun t ht => .inl ?_⟩
        dsimp only at ht
        rw [Counters.activeCounter?_ack] at ht
        split at ht
        · exact absurd rfl ht
        · exact ht
      | queryCounterRequest | counterResponse | txAckResponse | queryAckRequest =>
        exact ⟨rfl, fun _ h => .inl h⟩
  · exact ⟨rfl, fun _ h => .inl h⟩

/-- A live node that asks for the counter of an inactive transaction is assigned the next one. -/
theorem dispatch_assigns (m : Manager) (view : Outlook) {e : Envelope} {future : FutureId}
    {tx : TxId} (hchannel : e.channel = .coordinator)
    (hdecode : Wire.decode e.payload = .ok (.txCounterRequest future tx))
    (halive : view.alive e.sender) (hinactive : m.counters.activeCounter? tx = none) :
    (m.dispatch view e).manager.counters.current = m.counters.current + 1 ∧
      (m.dispatch view e).manager.counters.activeCounter? tx = some (m.counters.current + 1) ∧
      (m.dispatch view e).sent =
        view.outgoing? e.sender (.counterResponse future (m.counters.current + 1)) := by
  obtain ⟨hmanager, hsent⟩ := receive_of_decode m view e.sender e.payload hdecode
  have hassign := Counters.assign_of_inactive hinactive
  simp only [dispatch, hchannel]
  rw [hmanager, hsent, act_counters, act_sent]
  simp only [answer?, if_pos halive, hassign]
  refine ⟨?_, ?_, rfl⟩
  · rw [(Counters.assign_of_ok hassign).2]
  · rw [Counters.activeCounter?_assign, if_pos rfl, hinactive]
    rfl

end Manager

namespace Deployment

theorem wanted_absorb {d : Deployment} (hnodup : (d.cluster.inboxes.map Inbox.owner).Nodup)
    (r : Reaction) :
    (d.absorb r).cluster.wanted.Subperm (r.wanted?.toList ++ d.cluster.wanted) := by
  unfold absorb Reaction.wanted?
  split
  · rename_i out hout
    rw [hout]
    exact Cluster.wanted_post hnodup out.target _
  · exact (List.sublist_append_right ..).subperm

end Deployment

/-- A deployment, who joined it so far, the generators of its nodes, and the identifiers that were
drawn from them and not used yet. -/
structure Supply where
  deployment : Deployment := {}
  joined : List ClusterNode := []
  generators : NodeId → Option TxId.Generator := fun _ => none
  unspent : List (NodeId × TxId) := []

namespace Supply

inductive Move where
  | turn (move : Deployment.Move)
  /-- A node draws an identifier under a topology version. -/
  | draw (node : NodeId) (version : UInt64)
  /-- The inbox of a node loses envelopes or puts them into another order. -/
  | disturb (node : NodeId) (queue : List Envelope)
deriving DecidableEq, Repr

/-- The generator of a node hands out an identifier. -/
def draw (s : Supply) (node : NodeId) (g : TxId.Generator) (version : UInt64) : Supply :=
  { s with
    generators := Function.update s.generators node (some (g.next version).2)
    unspent := (node, (g.next version).1) :: s.unspent }

def step (s : Supply) : Move → Supply
  | .turn move =>
      let s' := { s with deployment := s.deployment.perform move }
      match move with
      | .join id client cancelAcks =>
          let node := (s.deployment.joinAs id client cancelAcks).1
          { s' with
            joined := s.joined ++ [node]
            generators := Function.update s.generators id (some { nodeOrder := node.order }) }
      | .ask node _ (.txCounter tx) => { s' with unspent := s.unspent.erase (node, tx) }
      | _ => s'
  | .draw node version =>
      match s.generators node with
      | some g => s.draw node g version
      | none => s
  | .disturb node queue =>
      { s with
        deployment.cluster := s.deployment.cluster.updateInbox node fun b => { b with queue } }

/-- Nodes join under new identities and while join orders last, and draw while sequence numbers
last. Each request for a counter uses up an identifier its node drew. Inboxes may lose and reorder
envelopes. -/
def Allowed (s : Supply) : Move → Prop
  | .turn (.join id _ _) => (∀ n ∈ s.joined, n.id ≠ id) ∧ s.joined.length + 1 < UInt64.size
  | .turn (.ask node _ (.txCounter tx)) => (node, tx) ∈ s.unspent
  | .turn _ => True
  | .draw node _ => ∀ g, s.generators node = some g → g.last.toNat + 1 < UInt64.size
  | .disturb node queue =>
      ∃ b, s.deployment.cluster.inbox? node = some b ∧ queue.Subperm b.queue

def Next (s s' : Supply) : Prop :=
  ∃ move, s.Allowed move ∧ s' = s.step move

/-- The transactions nobody was asked about yet: drawn and unused, or asked about in an inbox. -/
def pool (s : Supply) : List TxId :=
  s.unspent.map Prod.snd ++ s.deployment.cluster.wanted

/-- The identifier came from one of the generators. -/
def Drawn (s : Supply) (tx : TxId) : Prop :=
  ∃ node g, s.generators node = some g ∧ tx.nodeOrder = g.nodeOrder ∧
    tx.order.toNat ≤ g.last.toNat

/-- Every node has one inbox and a generator of its join order. All identifiers around come from the
generators, and none is around twice. -/
structure Fresh (s : Supply) : Prop where
  enrolled : s.deployment.cluster.Enrolled s.joined
  inboxes : (s.deployment.cluster.inboxes.map Inbox.owner).Nodup
  owners : ∀ id ∈ s.deployment.cluster.inboxes.map Inbox.owner, ∃ n ∈ s.joined, n.id = id
  generators : ∀ node g, s.generators node = some g →
    ∃ n ∈ s.joined, n.id = node ∧ n.order = g.nodeOrder
  drawn : ∀ tx ∈ s.pool, s.Drawn tx
  single : s.pool.Nodup
  active : ∀ m ∈ s.deployment.managers, ∀ tx, m.counters.activeCounter? tx ≠ none →
    s.Drawn tx ∧ tx ∉ s.pool
  clean : ∀ m ∈ s.deployment.managers, m.metrics.protocolViolations = 0

variable {s s' : Supply}

theorem Drawn.mono {tx : TxId} (htx : s.Drawn tx)
    (h : ∀ node g, s.generators node = some g → ∃ g', s'.generators node = some g' ∧
      g'.nodeOrder = g.nodeOrder ∧ g.last.toNat ≤ g'.last.toNat) : s'.Drawn tx := by
  obtain ⟨node, g, hg, horder, hlast⟩ := htx
  obtain ⟨g', hg', hsame, hle⟩ := h node g hg
  exact ⟨node, g', hg', horder.trans hsame.symm, hlast.trans hle⟩

namespace Fresh

/-- The transactions that become active leave the pool, and nothing enters it. -/
theorem turn (hf : s.Fresh) {d : Deployment} {unspent : List (NodeId × TxId)} (spent : List TxId)
    (horder : d.cluster.lastOrder = s.deployment.cluster.lastOrder)
    (hmembers : d.cluster.members.Sublist s.deployment.cluster.members)
    (howners : d.cluster.inboxes.map Inbox.owner = s.deployment.cluster.inboxes.map Inbox.owner)
    (hpool : (spent ++ (unspent.map Prod.snd ++ d.cluster.wanted)).Subperm s.pool)
    (hmanagers : ∀ m ∈ d.managers, ∃ old ∈ s.deployment.managers,
      m.metrics.protocolViolations = old.metrics.protocolViolations ∧
      ∀ tx, m.counters.activeCounter? tx ≠ none →
        old.counters.activeCounter? tx ≠ none ∨ tx ∈ spent) :
    Fresh { s with deployment := d, unspent } := by
  have hsub : ∀ tx ∈ spent ++ pool { s with deployment := d, unspent }, tx ∈ s.pool :=
    fun _ htx => hpool.subset htx
  have hnodup : (spent ++ pool { s with deployment := d, unspent }).Nodup := by
    obtain ⟨l, hperm, hsublist⟩ := hpool
    exact hperm.nodup_iff.mp (hf.single.sublist hsublist)
  constructor
  · exact hf.enrolled.of_sublist horder hmembers
  · exact howners ▸ hf.inboxes
  · exact howners ▸ hf.owners
  · exact hf.generators
  · exact fun tx htx => hf.drawn tx (hsub tx (List.mem_append_right _ htx))
  · exact hnodup.of_append_right
  · intro m hm tx hactive
    obtain ⟨old, hold, -, hcounters⟩ := hmanagers m hm
    rcases hcounters tx hactive with hactive | hspent
    · obtain ⟨hdrawn, haway⟩ := hf.active old hold tx hactive
      exact ⟨hdrawn, fun htx => haway (hsub tx (List.mem_append_right _ htx))⟩
    · exact ⟨hf.drawn tx (hsub tx (List.mem_append_left _ hspent)),
        fun htx => List.disjoint_of_nodup_append hnodup hspent htx⟩
  · intro m hm
    obtain ⟨old, hold, hviolations, -⟩ := hmanagers m hm
    exact hviolations.trans (hf.clean old hold)

/-- A manager acts, after its inbox may have lost an envelope. -/
theorem absorb (hf : s.Fresh) {d : Deployment} {m : Manager} {r : Reaction}
    {unspent : List (NodeId × TxId)} (spent : List TxId)
    (hcluster : ∃ inboxes, d.cluster = { s.deployment.cluster with inboxes })
    (howners : d.cluster.inboxes.map Inbox.owner = s.deployment.cluster.inboxes.map Inbox.owner)
    (hmanagers : d.managers = s.deployment.managers) (hm : m ∈ s.deployment.managers)
    (hpool : (spent ++ (unspent.map Prod.snd ++ (r.wanted?.toList ++ d.cluster.wanted))).Subperm
      s.pool)
    (hviolations : r.manager.metrics.protocolViolations = m.metrics.protocolViolations)
    (hactive : ∀ tx, r.manager.counters.activeCounter? tx ≠ none →
      m.counters.activeCounter? tx ≠ none ∨ tx ∈ spent) :
    Fresh { s with deployment := d.absorb r, unspent } := by
  obtain ⟨hmembers, horder⟩ := d.absorb_roster r
  obtain ⟨inboxes, hcluster⟩ := hcluster
  refine hf.turn spent ?_ ?_ ((d.owners_absorb r).trans howners) ?_ ?_
  · rw [horder, hcluster]
  · rw [hmembers, hcluster]
  · refine List.Subperm.trans ?_ hpool
    refine (List.subperm_append_left _).mpr ((List.subperm_append_left _).mpr ?_)
    exact Deployment.wanted_absorb (howners ▸ hf.inboxes) r
  · intro m' hm'
    rcases Deployment.mem_managers_absorb hm' with rfl | ⟨hm', -⟩
    · exact ⟨m, hm, hviolations, hactive⟩
    · exact ⟨m', hmanagers ▸ hm', rfl, fun _ h => .inl h⟩

theorem new : Fresh {} := by
  refine ⟨.new, .nil, ?_, ?_, ?_, .nil, ?_, ?_⟩
  · exact fun _ h => absurd h List.not_mem_nil
  · exact fun _ _ h => nomatch h
  · exact fun _ h => absurd h List.not_mem_nil
  · exact fun _ h => absurd h List.not_mem_nil
  · exact fun _ h => absurd h List.not_mem_nil

theorem join (hf : s.Fresh) {id : NodeId} {client cancelAcks : Bool}
    (hallowed : s.Allowed (.turn (.join id client cancelAcks))) :
    (s.step (.turn (.join id client cancelAcks))).Fresh := by
  obtain ⟨hid, hroom⟩ := hallowed
  have hnew : s.generators id = none := by
    by_contra hsome
    obtain ⟨g, hg⟩ := Option.ne_none_iff_exists'.mp hsome
    obtain ⟨n, hn, hself, -⟩ := hf.generators id g hg
    exact hid n hn hself
  have grown : ∀ tx, s.Drawn tx → (s.step (.turn (.join id client cancelAcks))).Drawn tx := by
    intro tx htx
    refine htx.mono fun node g hg => ?_
    have hother : node ≠ id := by
      rintro rfl
      rw [hnew] at hg
      cases hg
    exact ⟨g, (Function.update_of_ne hother _ _).trans hg, rfl, Nat.le_refl _⟩
  constructor
  · exact hf.enrolled.join hid hroom client
  · refine List.nodup_cons.mpr ⟨?_, hf.inboxes⟩
    intro howner
    obtain ⟨n, hn, hself⟩ := hf.owners id howner
    exact hid n hn hself
  · intro owner howner
    rcases List.mem_cons.mp howner with rfl | howner
    · exact ⟨_, List.mem_append_right _ List.mem_cons_self, rfl⟩
    · obtain ⟨n, hn, hself⟩ := hf.owners owner howner
      exact ⟨n, List.mem_append_left _ hn, hself⟩
  · intro node g hg
    by_cases hnode : node = id
    · subst hnode
      have hg' := (Function.update_self ..).symm.trans hg
      cases hg'
      exact ⟨_, List.mem_append_right _ List.mem_cons_self, rfl, rfl⟩
    · obtain ⟨n, hn, hself⟩ :=
        hf.generators node g ((Function.update_of_ne hnode _ _).symm.trans hg)
      exact ⟨n, List.mem_append_left _ hn, hself⟩
  · exact fun tx htx => grown tx (hf.drawn tx htx)
  · exact hf.single
  · intro m hm tx hactive
    rcases List.mem_append.mp hm with hm | hm
    · obtain ⟨hdrawn, haway⟩ := hf.active m hm tx hactive
      exact ⟨grown tx hdrawn, haway⟩
    · rw [List.mem_singleton.mp hm] at hactive
      exact absurd rfl hactive
  · intro m hm
    rcases List.mem_append.mp hm with hm | hm
    · exact hf.clean m hm
    · rw [List.mem_singleton.mp hm]

/-- What a generator hands out next came from no generator before. -/
theorem not_drawn_next (hf : s.Fresh) {node : NodeId} {g : TxId.Generator}
    (hg : s.generators node = some g) (hroom : g.last.toNat + 1 < UInt64.size)
    (version : UInt64) : ¬ s.Drawn (g.next version).1 := by
  rintro ⟨node', g', hg', horder, hlast⟩
  obtain ⟨n, hn, rfl, hn_order⟩ := hf.generators node g hg
  obtain ⟨n', hn', rfl, hn'_order⟩ := hf.generators node' g' hg'
  have hsame : n = n' :=
    hf.enrolled.order_injective hn hn' (hn_order.trans (horder.trans hn'_order.symm))
  subst hsame
  rw [hg] at hg'
  cases hg'
  have hnext : (g.next version).1.order.toNat = g.last.toNat + 1 := toNat_add_of_lt hroom
  omega

theorem drawn_draw {node : NodeId} {g : TxId.Generator} (hg : s.generators node = some g)
    (hroom : g.last.toNat + 1 < UInt64.size) (version : UInt64) {tx : TxId} (htx : s.Drawn tx) :
    (s.draw node g version).Drawn tx := by
  refine htx.mono fun node' g' hg' => ?_
  by_cases hnode : node' = node
  · subst hnode
    rw [hg] at hg'
    cases hg'
    refine ⟨_, Function.update_self .., rfl, ?_⟩
    have hnext : (g.next version).2.last.toNat = g.last.toNat + 1 := toNat_add_of_lt hroom
    rw [hnext]
    exact Nat.le_succ _
  · exact ⟨g', (Function.update_of_ne hnode _ _).trans hg', rfl, Nat.le_refl _⟩

theorem draw (hf : s.Fresh) {node : NodeId} {g : TxId.Generator}
    (hg : s.generators node = some g) (hroom : g.last.toNat + 1 < UInt64.size)
    (version : UInt64) : (s.draw node g version).Fresh := by
  have hfresh := hf.not_drawn_next hg hroom version
  constructor
  · exact hf.enrolled
  · exact hf.inboxes
  · exact hf.owners
  · intro node' g' hg'
    by_cases hnode : node' = node
    · subst hnode
      have hg' := (Function.update_self ..).symm.trans hg'
      cases hg'
      exact hf.generators node' g hg
    · exact hf.generators node' g' ((Function.update_of_ne hnode _ _).symm.trans hg')
  · intro tx htx
    rcases List.mem_cons.mp htx with rfl | htx
    · exact ⟨node, _, Function.update_self .., rfl, Nat.le_refl _⟩
    · exact drawn_draw hg hroom version (hf.drawn tx htx)
  · exact List.nodup_cons.mpr ⟨fun hmem => hfresh (hf.drawn _ hmem), hf.single⟩
  · intro m hm tx hactive
    obtain ⟨hdrawn, haway⟩ := hf.active m hm tx hactive
    refine ⟨drawn_draw hg hroom version hdrawn, ?_⟩
    intro htx
    rcases List.mem_cons.mp htx with rfl | htx
    · exact hfresh hdrawn
    · exact haway htx
  · exact hf.clean

theorem shrunk (hf : s.Fresh) {c : Cluster} (horder : c.lastOrder = s.deployment.cluster.lastOrder)
    (hmembers : c.members.Sublist s.deployment.cluster.members)
    (howners : c.inboxes.map Inbox.owner = s.deployment.cluster.inboxes.map Inbox.owner)
    (hwanted : c.wanted.Subperm s.deployment.cluster.wanted) :
    Fresh { s with deployment.cluster := c } := by
  refine hf.turn [] horder hmembers howners ?_ fun m hm => ⟨m, hm, rfl, fun _ h => .inl h⟩
  exact (List.subperm_append_left (s.unspent.map Prod.snd)).mpr hwanted

theorem changed (hf : s.Fresh) (node : NodeId) {change : Inbox → Inbox}
    (howner : ∀ b, (change b).owner = b.owner)
    (hqueue : ∀ b, s.deployment.cluster.inbox? node = some b →
      (change b).wanted.Subperm b.wanted) :
    Fresh { s with deployment.cluster := s.deployment.cluster.updateInbox node change } :=
  hf.shrunk rfl (.refl _) (Cluster.owners_updateInbox _ _ howner)
    (Cluster.wanted_updateInbox hf.inboxes [] hqueue)

theorem disturb (hf : s.Fresh) {node : NodeId} {queue : List Envelope}
    (hallowed : s.Allowed (.disturb node queue)) : (s.step (.disturb node queue)).Fresh := by
  obtain ⟨b, hb, hqueue⟩ := hallowed
  refine hf.changed node (fun _ => rfl) ?_
  intro b' hb'
  rw [hb] at hb'
  cases hb'
  exact Inbox.wanted_subperm hqueue

/-- A manager makes a request or is called. Neither touches its counters. -/
theorem spoke (hf : s.Fresh) {m : Manager} {r : Reaction} {unspent : List (NodeId × TxId)}
    {ids : IdSource} (hm : m ∈ s.deployment.managers)
    (hpool : (unspent.map Prod.snd ++ (r.wanted?.toList ++ s.deployment.cluster.wanted)).Subperm
      s.pool)
    (hviolations : r.manager.metrics.protocolViolations = m.metrics.protocolViolations)
    (hcounters : r.manager.counters = m.counters) :
    Fresh { s with deployment := Deployment.absorb { s.deployment with ids } r, unspent } := by
  refine hf.absorb [] ⟨s.deployment.cluster.inboxes, rfl⟩ rfl rfl hm hpool hviolations ?_
  intro tx htx
  rw [hcounters] at htx
  exact .inl htx

theorem called (hf : s.Fresh) {m : Manager} (hm : m ∈ s.deployment.managers) (c : Call) :
    Fresh { s with deployment := s.deployment.absorb (m.call s.deployment.cluster.outlook c) } := by
  refine hf.spoke hm ?_ (m.call_tally _ c).1 (Manager.call_counters ..)
  rw [Manager.wanted?_call]
  exact .refl _

theorem asked (hf : s.Fresh) {m : Manager} (hm : m ∈ s.deployment.managers)
    {unspent : List (NodeId × TxId)} {ids : IdSource} {id : FutureId} {target : NodeId}
    {what : Request}
    (hpool : (unspent.map Prod.snd ++ (what.wanted?.toList ++ s.deployment.cluster.wanted)).Subperm
      s.pool) :
    Fresh { s with
      deployment := Deployment.absorb { s.deployment with ids }
        (m.ask s.deployment.cluster.outlook id target what)
      unspent } := by
  refine hf.spoke hm ?_ (m.ask_tally _ id target what).1 (Manager.ask_counters ..)
  refine ((List.subperm_append_left _).mpr ((List.subperm_append_right _).mpr ?_)).trans hpool
  rw [Manager.wanted?_ask]
  cases s.deployment.cluster.outlook.refusal? target with
  | none => exact .refl _
  | some cause => exact List.nil_subperm

/-- A transaction that an inbox asks about is active nowhere. -/
theorem inactive (hf : s.Fresh) {node : NodeId} {e : Envelope} {m : Manager} {tx : TxId}
    (hm : m ∈ s.deployment.managers) (htake : (s.deployment.cluster.take node).1 = .envelope e)
    (hwanted : Wire.wanted? e.payload = some tx) : m.counters.activeCounter? tx = none := by
  by_contra hactive
  refine (hf.active m hm tx hactive).2 (List.mem_append_right _ ?_)
  rw [(Cluster.wanted_take hf.inboxes htake).mem_iff, hwanted]
  exact List.mem_cons_self

/-- A manager handles an envelope of its inbox. The transaction it asks about, if any, was not
active and may become so. -/
theorem read (hf : s.Fresh) {node : NodeId} {e : Envelope} {m : Manager}
    (htake : (s.deployment.cluster.take node).1 = .envelope e)
    (hm : s.deployment.manager? node = some m) :
    Fresh { s with
      deployment := Deployment.absorb
        { s.deployment with cluster := (s.deployment.cluster.take node).2 }
        (m.dispatch s.deployment.cluster.outlook e) } := by
  obtain ⟨hmem, -⟩ := Deployment.mem_of_manager? hm
  have hperm := Cluster.wanted_take hf.inboxes htake
  obtain ⟨b, rest, hb, -, -, hafter⟩ := Cluster.take_spec htake
  obtain ⟨hviolations, hactive⟩ := m.dispatch_fresh s.deployment.cluster.outlook
    fun tx htx => hf.inactive hmem htake htx
  refine hf.absorb (Wire.wanted? e.payload).toList ?_ ?_ rfl hmem ?_ hviolations ?_
  · exact ⟨_, hafter⟩
  · exact hafter ▸ Cluster.owners_updateInbox _ _ fun _ => rfl
  · rw [Manager.wanted?_dispatch]
    refine List.Perm.subperm (List.perm_append_comm_assoc ..|>.trans ?_)
    exact hperm.symm.append_left _
  · intro tx htx
    exact (hactive tx htx).imp_right fun h => by simp [h]

theorem turned (hf : s.Fresh) {move : Deployment.Move} (hallowed : s.Allowed (.turn move)) :
    (s.step (.turn move)).Fresh := by
  have heffect := s.deployment.effect move
  simp only [step]
  generalize s.deployment.taken? move = t, s.deployment.reaction? move = r,
    s.deployment.perform move = d at heffect ⊢
  cases heffect with
  | look | unheard | uncalled | untaken => exact hf
  | joined => exact hf.join hallowed
  | departed kind node =>
    have hsame := s.deployment.cluster.depart_inboxes kind node
    refine hf.shrunk (Cluster.depart_lastOrder ..) ?_ (by rw [hsame]) ?_
    · rw [Cluster.depart_members]
      exact List.filter_sublist
    · rw [Cluster.wanted, hsame]
      exact .refl _
  | closed node =>
    rcases s.deployment.cluster.closeInbox_eq_update node with hsame | hclose
    · rw [hsame]
      exact hf
    · rw [hclose]
      exact hf.changed node (fun _ => rfl) fun _ _ => List.nil_subperm
  | @unasked node target what hm =>
    have idle : ∀ {unspent : List (NodeId × TxId)}, unspent.Sublist s.unspent →
        Fresh { s with
          deployment := { s.deployment with ids := s.deployment.ids.next.2 }
          unspent } := by
      intro unspent hunspent
      refine hf.turn [] rfl (.refl _) rfl ?_ fun m hm => ⟨m, hm, rfl, fun _ h => .inl h⟩
      exact ((hunspent.map Prod.snd).append_right s.deployment.cluster.wanted).subperm
    cases what with
    | txCounter tx => exact idle List.erase_sublist
    | queryCounter | commit tx => exact idle (.refl _)
  | @asked node target what m hm =>
    obtain ⟨hmem, -⟩ := Deployment.mem_of_manager? hm
    cases what with
    | txCounter tx =>
      refine hf.asked hmem (List.Perm.subperm (List.perm_append_comm_assoc ..|>.trans ?_))
      rw [← List.append_assoc]
      exact ((List.perm_cons_erase hallowed).symm.map Prod.snd).append_right _
    | queryCounter | commit tx => exact hf.asked hmem (.refl _)
  | called hm => exact hf.called (Deployment.mem_of_manager? hm).1 _
  | heard hm => exact hf.called (Deployment.mem_of_manager? hm).1 _
  | unread htake hm =>
    obtain ⟨b, rest, hb, -, hqueue, hafter⟩ := Cluster.take_spec htake
    rw [hafter]
    refine hf.changed _ (fun _ => rfl) ?_
    intro b' hb'
    rw [hb] at hb'
    cases hb'
    exact Inbox.wanted_subperm (hqueue ▸ List.sublist_cons_self ..).subperm
  | read htake hm => exact hf.read htake hm

theorem step (hf : s.Fresh) {move : Move} (hallowed : s.Allowed move) : (s.step move).Fresh := by
  cases move with
  | turn move => exact hf.turned hallowed
  | draw node version =>
    rw [Supply.step]
    split
    · rename_i g hg
      exact hf.draw hg (hallowed g hg) version
    · exact hf
  | disturb node queue => exact hf.disturb hallowed

theorem run (hrun : Relation.ReflTransGen Next {} s) : s.Fresh := by
  induction hrun with
  | refl => exact .new
  | tail _ hnext ih =>
    obtain ⟨move, hallowed, rfl⟩ := hnext
    exact ih.step hallowed

end Fresh

/-- No manager of a run ever sees a violation of the protocol, and whatever live node asks for a
counter is assigned the next one, and told so if its inbox is open. -/
theorem fresh_ids_never_rejected (hrun : Relation.ReflTransGen Next {} s) :
    (∀ m ∈ s.deployment.managers, m.metrics.protocolViolations = 0) ∧
    ∀ node m e future tx, s.deployment.manager? node = some m →
      (s.deployment.cluster.take node).1 = .envelope e → e.channel = .coordinator →
      Wire.decode e.payload = .ok (.txCounterRequest future tx) →
      s.deployment.cluster.alive e.sender →
      ∃ r, s.deployment.reaction? (.dispatch node) = some r ∧
        (s.step (.turn (.dispatch node))).deployment.manager? node = some r.manager ∧
        r.manager.counters.current = m.counters.current + 1 ∧
        r.manager.counters.activeCounter? tx = some (m.counters.current + 1) ∧
        r.sent = s.deployment.cluster.outlook.outgoing? e.sender
          (.counterResponse future (m.counters.current + 1)) := by
  have hf := Fresh.run hrun
  refine ⟨hf.clean, ?_⟩
  intro node m e future tx hm htake hchannel hdecode halive
  have hinactive := hf.inactive (Deployment.mem_of_manager? hm).1 htake
    (Wire.wanted?_of_decode hdecode)
  have hserved := m.dispatch_assigns s.deployment.cluster.outlook hchannel hdecode halive hinactive
  have hdispatch := Deployment.dispatchOne_of_manager htake hm
  refine ⟨m.dispatch s.deployment.cluster.outlook e, ?_, ?_, hserved⟩
  · rw [Deployment.reaction?, hdispatch]
  · simp only [step, Deployment.perform, hdispatch]
    have hself := Deployment.manager?_absorb_eq
      (d := { s.deployment with cluster := (s.deployment.cluster.take node).2 }) hm
      (m.dispatch_self s.deployment.cluster.outlook e) node
    exact hself.trans (if_pos rfl)

/-- A request for a counter gets lost, and the requester asks again, with a new identifier. -/
def retry : List Move :=
  [.turn (.join (.ofNat 1) false true), .turn (.join (.ofNat 2) true true), .draw (.ofNat 2) 1,
    .turn (.ask (.ofNat 2) (.ofNat 1) (.txCounter ⟨1, 1, 2⟩)), .disturb (.ofNat 1) [],
    .draw (.ofNat 2) 1, .turn (.ask (.ofNat 2) (.ofNat 1) (.txCounter ⟨1, 2, 2⟩))]

theorem fresh_ids_never_rejected_retry :
    ∃ r, (retry.foldl step {}).deployment.reaction? (.dispatch (.ofNat 1)) = some r ∧
      r.manager.counters.current = 1 := by
  have hall : AllAllowed Allowed step {} retry := by
    refine ⟨⟨by decide, by decide⟩, ⟨by decide, by decide⟩, ?_, ?_, ?_, ?_, ?_, trivial⟩
    · intro g hg
      cases hg
      decide
    · exact List.mem_cons_self
    · exact ⟨_, rfl, List.nil_subperm⟩
    · intro g hg
      cases hg
      decide
    · exact List.mem_cons_self
  obtain ⟨r, hr, -, hcurrent, -⟩ := (fresh_ids_never_rejected hall.run).2 (.ofNat 1) _ _ 2
    ⟨1, 2, 2⟩ rfl rfl rfl rfl (by decide)
  exact ⟨r, hr, hcurrent⟩

end Supply
end CounterCoordinator
