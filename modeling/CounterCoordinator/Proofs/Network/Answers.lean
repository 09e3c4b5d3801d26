import CounterCoordinator.Proofs.Network.Provenance
import Mathlib.Tactic.Ring

/-!
# Counters that reach their callers

A counter that resolves a future is the one its coordinator assigned for it, no other future of that
coordinator gets it, and it exceeds every counter the coordinator's earlier answers carried when the
future was issued. All of this holds on a network that loses, duplicates and reorders messages, and
through any departures and cancellations.
-/
namespace CounterCoordinator

namespace Chronicle
variable {h : Chronicle}

namespace Sound

/-- A coordinator assigns its counters in ascending order. -/
theorem counters_ascending (hs : h.Sound) {node : NodeId}
    (hbound : (h.assignedBy node).length < 2 ^ 63) :
    ((h.assignedBy node).map Assignment.counter).Pairwise (· < ·) := by
  rw [hs.numbered, List.pairwise_map]
  apply List.pairwise_lt_range.imp_of_mem
  intro a b ha hb hab
  have hb := List.mem_range.mp hb
  rw [Int64.lt_iff_toInt_lt, Int64.toInt_ofNat_of_lt (by omega), Int64.toInt_ofNat_of_lt (by omega)]
  omega

theorem counter_injective (hs : h.Sound) {a b : Assignment}
    (hbound : (h.assignedBy a.coordinator).length < 2 ^ 63)
    (ha : a ∈ h.assignments) (hb : b ∈ h.assignments)
    (hcoordinator : a.coordinator = b.coordinator) (hcounter : a.counter = b.counter) : a = b := by
  have ascending := hs.counters_ascending hbound
  have hnodup : ((h.assignedBy a.coordinator).map Assignment.counter).Nodup := by
    apply ascending.imp
    intro c d hlt heq
    rw [heq] at hlt
    exact Int64.lt_irrefl hlt
  exact List.inj_on_of_nodup_map hnodup (mem_assignedBy ha)
    (hcoordinator ▸ mem_assignedBy hb) hcounter

theorem counter_bounds (hs : h.Sound) {a : Assignment} (ha : a ∈ h.assignments)
    (hbound : (h.assignedBy a.coordinator).length < 2 ^ 63) {m : Manager}
    (hm : h.network.manager? a.coordinator = some m) :
    1 ≤ a.counter ∧ a.counter ≤ m.counters.current := by
  obtain ⟨hmem, hnode⟩ := Network.mem_of_manager? hm
  have hcounter := List.mem_map_of_mem (f := Assignment.counter) (mem_assignedBy ha)
  rw [hs.numbered] at hcounter
  obtain ⟨k, hk, hcounter⟩ := List.mem_map.mp hcounter
  have hk := List.mem_range.mp hk
  rw [hs.current m hmem, hnode, ← hcounter]
  constructor
  · rw [Int64.le_iff_toInt_le, Int64.toInt_ofNat_of_lt (by omega)]
    change (1 : Int) ≤ _
    omega
  · rw [Int64.ofNat_le_iff_le (by omega) hbound]
    exact hk

theorem counter_lt_of_later {h' : Chronicle} (hs : h'.Sound) (e : Extends h h') {a b : Assignment}
    (hbound : (h'.assignedBy a.coordinator).length < 2 ^ 63)
    (ha : a ∈ h.assignments) (hb : b ∈ h'.assignments) (hlater : b ∉ h.assignments)
    (hcoordinator : a.coordinator = b.coordinator) : a.counter < b.counter := by
  obtain ⟨more, hmore⟩ := e.assignments
  have hb : b ∈ more := by
    rw [← hmore] at hb
    exact (List.mem_append.mp hb).resolve_left hlater
  have ascending := hs.counters_ascending hbound
  rw [assignedBy, ← hmore, List.filter_append, List.map_append, List.pairwise_append] at ascending
  apply ascending.2.2
  · exact List.mem_map_of_mem (mem_assignedBy ha)
  · refine List.mem_map_of_mem (List.mem_filter.mpr ⟨hb, ?_⟩)
    simp [hcoordinator]

theorem not_assigned (hs : h.Sound) (hids : h.network.ids.last.toNat + 1 < UInt64.size)
    {a : Assignment} (hfuture : a.future = h.network.ids.next.1) : a ∉ h.assignments := by
  intro ha
  obtain ⟨i, hi, hsame⟩ := hs.requested a ha
  exact hs.future_ne_next hids hi (hsame.trans hfuture)

end Sound

/-- A counter that ever resolved a future of the run is justified at its end. -/
theorem justified_of_answered {moves : List Network.Move}
    (hids : moves.countP Network.Move.asks < UInt64.size) {i : Issue}
    (hi : i ∈ (ofMoves moves).issues) {counter : Version} (hanswered : Answered moves i counter) :
    (ofMoves moves).Justified i counter := by
  obtain ⟨earlier, hearlier, hcounter⟩ := hanswered
  have hcount := hearlier.countP_le (p := Network.Move.asks)
  have sound := sound_ofMoves earlier (Nat.lt_of_le_of_lt hcount hids)
  have e := extends_ofMoves hearlier
  obtain ⟨m, hm, hfuture⟩ := Network.resolved_of_counter? hcounter
  obtain ⟨j, hj, hsame, -, hcounter⟩ := sound.credible m hm i.future counter hfuture
  have heq : j = i := List.inj_on_of_nodup_map (sound_ofMoves moves hids).unique
    (e.issues.mem hj) hi hsame
  exact heq ▸ e.justified hcounter

theorem assigned_of_answered {moves : List Network.Move}
    (hids : moves.countP Network.Move.asks < UInt64.size) {i : Issue}
    (hi : i ∈ (ofMoves moves).issues) {tx : TxId} (hwhat : i.what = .txCounter tx)
    {counter : Version} (hanswered : Answered moves i counter) :
    ⟨i.target, i.future, tx, counter⟩ ∈ (ofMoves moves).assignments := by
  have justified := justified_of_answered hids hi hanswered
  unfold Justified at justified
  rw [hwhat] at justified
  exact justified

/-- A resolved request for a transaction's counter carries the one its coordinator assigned to the
transaction under the future's id, and no other future to this coordinator carries the same; a
resolved query carries the coordinator's committed counter, which no transaction ever gets. -/
theorem answers_authentic (moves : List Network.Move)
    (hids : moves.countP Network.Move.asks < UInt64.size)
    (hcounters : ∀ node, ((ofMoves moves).assignedBy node).length < 2 ^ 63) :
    (∀ i ∈ (ofMoves moves).issues, ∀ tx counter, i.what = .txCounter tx →
      Answered moves i counter →
        ⟨i.target, i.future, tx, counter⟩ ∈ (ofMoves moves).assignments ∧
          ∃ m, (ofMoves moves).network.manager? i.target = some m ∧
            1 ≤ counter ∧ counter ≤ m.counters.current) ∧
    (∀ i ∈ (ofMoves moves).issues, ∀ j ∈ (ofMoves moves).issues, ∀ t u c d,
      i.what = .txCounter t → j.what = .txCounter u → i.target = j.target →
        i.future ≠ j.future → Answered moves i c → Answered moves j d → c ≠ d) ∧
    ∀ i ∈ (ofMoves moves).issues, ∀ counter, i.what = .queryCounter →
      Answered moves i counter →
        (∃ m, (ofMoves moves).network.manager? i.target = some m) ∧
        (∀ earlier m, earlier <+: moves →
          (ofMoves earlier).network.manager? i.target = some m →
            m.counters.committed = counter) ∧
        ∀ a ∈ (ofMoves moves).assignments, a.counter ≠ counter := by
  have sound := sound_ofMoves moves hids
  refine ⟨?_, ?_, ?_⟩
  · intro i hi tx counter hwhat hanswered
    have ha := assigned_of_answered hids hi hwhat hanswered
    obtain ⟨m, hm⟩ := Option.isSome_iff_exists.mp (sound.served _ ha)
    exact ⟨ha, m, hm, sound.counter_bounds ha (hcounters _) hm⟩
  · intro i hi j hj t u c d ht hu htarget hne hc hd heq
    have ha := assigned_of_answered hids hi ht hc
    have hb := assigned_of_answered hids hj hu hd
    have hsame := sound.counter_injective (hcounters _) ha hb htarget heq
    exact hne (congrArg Assignment.future hsame)
  · intro i hi counter hwhat hanswered
    have justified := justified_of_answered hids hi hanswered
    unfold Justified at justified
    rw [hwhat] at justified
    obtain ⟨rfl, hmanager⟩ := justified
    refine ⟨Option.isSome_iff_exists.mp hmanager, ?_, ?_⟩
    · intro earlier m hearlier hm
      have hcount := hearlier.countP_le (p := Network.Move.asks)
      have before := sound_ofMoves earlier (Nat.lt_of_le_of_lt hcount hids)
      exact before.committed m (Network.mem_of_manager? hm).1
    · intro a ha heq
      obtain ⟨m, hm⟩ := Option.isSome_iff_exists.mp (sound.served a ha)
      have hpositive := (sound.counter_bounds ha (hcounters _) hm).1
      rw [heq] at hpositive
      exact absurd hpositive (by decide)

/-- Node 1 asks node 2 for a counter and for a query's snapshot. The request arrives twice, the
second time after its answer, and the answers come in the order opposite to the questions. -/
def exchange : List Network.Move :=
  [.add (.ofNat 1) none false true, .add (.ofNat 2) none false true,
    .ask (.ofNat 1) (.ofNat 2) (.txCounter ⟨1, 1, 1⟩), .duplicate 0,
    .ask (.ofNat 1) (.ofNat 2) .queryCounter,
    .deliver 2, .deliver 0, .deliver 2, .deliver 1, .deliver 0]

/-- Another request after the exchange, with its answer. -/
def secondExchange : List Network.Move :=
  exchange ++ .ask (.ofNat 1) (.ofNat 2) (.txCounter ⟨1, 2, 1⟩) :: [.deliver 0, .deliver 0]

theorem answers_authentic_secondExchange :
    (∃ m, (ofMoves secondExchange).network.manager? (.ofNat 2) = some m ∧
      (1 : Version) ≤ 2 ∧ 2 ≤ m.counters.current) ∧
    (1 : Version) ≠ 2 ∧ ∀ a ∈ (ofMoves secondExchange).assignments, a.counter ≠ 0 := by
  have hearlier : exchange <+: secondExchange := List.prefix_append _ _
  have first : Answered secondExchange ⟨1, .ofNat 1, .ofNat 2, .txCounter ⟨1, 1, 1⟩⟩ 1 :=
    ⟨exchange, hearlier, by decide⟩
  have query : Answered secondExchange ⟨2, .ofNat 1, .ofNat 2, .queryCounter⟩ 0 :=
    ⟨exchange, hearlier, by decide⟩
  have second : Answered secondExchange ⟨3, .ofNat 1, .ofNat 2, .txCounter ⟨1, 2, 1⟩⟩ 2 :=
    ⟨secondExchange, List.prefix_refl _, by decide⟩
  obtain ⟨assigned, distinct, queries⟩ := answers_authentic secondExchange (by decide)
    fun node => Nat.lt_of_le_of_lt (List.length_filter_le _ _) (by decide)
  refine ⟨?_, ?_, ?_⟩
  · exact (assigned ⟨3, _, _, _⟩ (by decide) ⟨1, 2, 1⟩ 2 rfl second).2
  · exact distinct ⟨1, _, _, _⟩ (by decide) ⟨3, _, _, _⟩ (by decide) ⟨1, 1, 1⟩ ⟨1, 2, 1⟩ 1 2 rfl rfl
      rfl (by decide) first second
  · exact (queries ⟨2, _, _, _⟩ (by decide) 0 rfl query).2.2

/-- If a coordinator's counter had arrived when another one was asked for, the other is greater. -/
theorem answers_in_real_time (before after : List Network.Move) {node target : NodeId}
    {t u : TxId} {i j : Issue} {c d : Version}
    (hids : (before ++ .ask node target (.txCounter u) :: after).countP Network.Move.asks <
      UInt64.size)
    (hcounters : ((ofMoves (before ++ .ask node target (.txCounter u) :: after)).assignedBy
      target).length < 2 ^ 63)
    (hi : i ∈ (ofMoves before).issues) (htarget : i.target = target) (hwhat : i.what = .txCounter t)
    (hc : Answered before i c)
    (hj : (ofMoves before).network.issued? (.ask node target (.txCounter u)) = some j)
    (hd : Answered (before ++ .ask node target (.txCounter u) :: after) j d) : c < d := by
  have hbefore := List.prefix_append before (.ask node target (.txCounter u) :: after)
  have hsteps : before ++ [.ask node target (.txCounter u)] <+:
      before ++ .ask node target (.txCounter u) :: after :=
    ⟨after, List.append_assoc ..⟩
  have hcount := hsteps.countP_le (p := Network.Move.asks)
  have hasks : (Network.Move.ask node target (.txCounter u)).asks := rfl
  rw [List.countP_append, List.countP_singleton, if_pos hasks] at hcount
  have hroom : before.countP Network.Move.asks < UInt64.size := by omega
  have hlast := toNat_last_ofMoves hroom
  have heq := Network.eq_of_issued? hj
  have hissued : j ∈ (ofMoves (before ++ [.ask node target (.txCounter u)])).issues := by
    rw [ofMoves_concat]
    exact List.mem_append_right _ (Option.mem_toList.mpr hj)
  -- The first counter was assigned before the request, the second one only after it.
  have ha := assigned_of_answered hroom hi hwhat hc
  have hb := assigned_of_answered hids ((extends_ofMoves hsteps).issues.mem hissued)
    (congrArg Issue.what heq) hd
  have hlater : ⟨j.target, j.future, u, d⟩ ∉ (ofMoves before).assignments :=
    (sound_ofMoves before hroom).not_assigned (by omega) (congrArg Issue.future heq)
  have htargets : i.target = j.target := htarget.trans (congrArg Issue.target heq).symm
  have sound := sound_ofMoves _ hids
  have hbound : ((ofMoves (before ++ .ask node target (.txCounter u) :: after)).assignedBy
      i.target).length < 2 ^ 63 := htarget.symm ▸ hcounters
  have hlt := sound.counter_lt_of_later (extends_ofMoves hbefore) hbound ha hb hlater htargets
  exact hlt

theorem answers_in_real_time_secondExchange :
    Answered exchange ⟨1, .ofNat 1, .ofNat 2, .txCounter ⟨1, 1, 1⟩⟩ 1 ∧
      Answered secondExchange ⟨3, .ofNat 1, .ofNat 2, .txCounter ⟨1, 2, 1⟩⟩ 2 ∧
      (1 : Version) < 2 := by
  have first : Answered exchange ⟨1, .ofNat 1, .ofNat 2, .txCounter ⟨1, 1, 1⟩⟩ 1 :=
    ⟨exchange, List.prefix_refl _, by decide⟩
  have second : Answered secondExchange ⟨3, .ofNat 1, .ofNat 2, .txCounter ⟨1, 2, 1⟩⟩ 2 :=
    ⟨secondExchange, List.prefix_refl _, by decide⟩
  have issued : (ofMoves exchange).network.issued?
      (.ask (.ofNat 1) (.ofNat 2) (.txCounter ⟨1, 2, 1⟩)) =
        some ⟨3, .ofNat 1, .ofNat 2, .txCounter ⟨1, 2, 1⟩⟩ := by decide
  have hids : secondExchange.countP Network.Move.asks < UInt64.size := by decide
  have hcounters : ((ofMoves secondExchange).assignedBy (.ofNat 2)).length < 2 ^ 63 := by decide
  have hmem : (⟨1, .ofNat 1, .ofNat 2, .txCounter ⟨1, 1, 1⟩⟩ : Issue) ∈
      (ofMoves exchange).issues := by decide
  refine ⟨first, second, ?_⟩
  exact answers_in_real_time exchange [.deliver 0, .deliver 0] hids hcounters hmem rfl rfl first
    issued second

end Chronicle
end CounterCoordinator
