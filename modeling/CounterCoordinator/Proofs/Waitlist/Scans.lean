import CounterCoordinator.Proofs.Waitlist.Race

/-!
# What a scan can rely on

However the steps of scans and of other parties are interleaved, every future has one winner, and a
scan resolves nothing but what it has collected. What it collected is gone when it is done, whoever
was faster; what was registered later, or waits for other nodes, it leaves alone. And whatever left
the table was won by somebody or given up by its caller.
-/
namespace CounterCoordinator.Race
open Waitlist (Enumeration Entry Stage)
variable {α : Type}

section Steps
variable {r : Race α} {m : Move α} {e : Entry}

theorem win?_eq_some {c : Completion α} (h : r.win? m = some c) :
    r.completion? m = some c ∧ r.list.contains c.id := by
  simpa [win?, Option.filter_eq_some_iff] using h

theorem advance_of_scan {c : Completion α} {k : Nat} (h : r.completion? m = some c)
    (hparty : c.party = .scan k) : m = .advance k := by
  cases m with
  | advance j =>
    simp only [completion?] at h
    split at h <;> cases h
    cases hparty
    rfl
  | respond =>
    cases h
    cases hparty
  | register | elsewhere | drop | collect => cases h

theorem mem_entries_step (he : e ∈ (r.step m).list.entries) :
    e ∈ r.list.entries ∨ e ∈ r.entered m := by
  cases r.does m with
  | enter target hm =>
    subst hm
    simpa [step, entered, Waitlist.mem_entries_register] using he
  | complete c hc hwin hentered hlist =>
    rw [hlist, Waitlist.entries_complete, Waitlist.mem_without] at he
    exact .inl he.1
  | giveUp id hm =>
    subst hm
    rw [step, Waitlist.entries_drop, Waitlist.mem_without] at he
    exact .inl he.1
  | rest hwin hentered hlist => exact .inl (hlist ▸ he)

theorem toNat_of_entered (hroom : m.takesId → r.ids.last.toNat + 1 < UInt64.size)
    (he : e ∈ r.entered m) :
    e.id.toNat = r.ids.last.toNat + 1 ∧ e.id.toNat ≤ (r.step m).ids.last.toNat := by
  cases m with
  | register target =>
    obtain rfl := List.mem_singleton.mp he
    exact ⟨IdSource.toNat_next (hroom rfl), Nat.le_refl _⟩
  | elsewhere | respond | drop | collect | advance => cases he

/-- Whoever wins takes one entry out; registering puts one in. -/
theorem load_step (hr : r.Sound) :
    (r.win? m).toList.length + (r.step m).list.load = r.list.load + (r.entered m).length := by
  cases r.does m with
  | enter target hm hwin =>
    subst hm
    rw [hwin, step, Waitlist.load_register]
    exact Nat.zero_add _
  | complete c hc hwin hentered hlist =>
    have hcompleted := Waitlist.load_complete hr.staged.distinct c.id c.outcome
    rw [hwin, hentered, hlist, ← hcompleted]
    split <;> rfl
  | giveUp id hm hwin =>
    subst hm
    have hbound := Nat.lt_of_le_of_lt hr.load (UInt64.toNat_lt_size _)
    have hdropped := Waitlist.load_drop hr.staged.distinct hbound id
    rw [hwin, step, hdropped]
    exact Nat.zero_add _
  | rest hwin hentered hlist =>
    rw [hwin, hentered, hlist]
    exact Nat.zero_add _

end Steps

section Dropped
variable {r : Race α} {m : Move α} {f : FutureId}

theorem dropped_step (h : (r.step m).list.future? f = some .dropped) :
    r.list.future? f = some .dropped ∨ m = .drop f := by
  cases r.does m with
  | enter target hm =>
    subst hm
    rw [step, Waitlist.future?_register] at h
    split at h
    · cases h
    · exact .inl h
  | complete c hc hwin hentered hlist =>
    rw [hlist, Waitlist.future?_complete] at h
    split at h
    · obtain ⟨x, hx, hdropped⟩ := Option.map_eq_some_iff.mp h
      cases x with
      | dropped => exact .inl hx
      | waiting | resolved => cases hdropped
    · exact .inl h
  | giveUp id hm =>
    subst hm
    rw [step, Waitlist.future?_drop] at h
    split at h
    · rename_i hid
      exact .inr (hid ▸ rfl)
    · exact .inl h
  | rest hwin hentered hlist => exact .inl (hlist ▸ h)

theorem mem_of_dropped (moves : List (Move α))
    (h : (ofMoves moves).list.future? f = some .dropped) : .drop f ∈ moves := by
  induction moves using List.reverseRecOn with
  | nil => cases h
  | append_singleton moves m ih =>
    rw [ofMoves, play_concat] at h
    rw [List.mem_append, List.mem_singleton]
    exact (dropped_step h).imp ih Eq.symm

end Dropped

section Counts
variable {r : Race α} {m : Move α}

/-- What the scan with this number has counted so far; nothing if it has not started. -/
def count (r : Race α) (k : Nat) : Nat := (r.scans[k]?).elim 0 Scan.count

theorem count_step (r : Race α) (m : Move α) (k : Nat) :
    (r.step m).count k =
      r.count k + ((r.win? m).toList.countP fun c => c.party == .scan k) := by
  cases m with
  | register | drop | elsewhere => rfl
  | collect order gone outcome =>
    have hstarted : ((r.step (.collect order gone outcome)).scans[k]?).elim 0 Scan.count =
        (r.scans[k]?).elim 0 Scan.count := by
      rw [step, List.getElem?_append]
      split
      · rfl
      · rename_i hk
        rw [List.getElem?_eq_none (Nat.le_of_not_lt hk)]
        cases k - r.scans.length <;> rfl
    exact hstarted
  | respond id outcome =>
    simp only [win?, completion?, Option.filter]
    split <;> rfl
  | advance j =>
    rw [win?, completion?, count, step, List.getElem?_modify]
    by_cases hj : j = k
    · subst hj
      rcases hscan : r.scans[j]? with _ | ⟨_ | ⟨⟨id, outcome⟩, rest⟩, n⟩
      · simp [count, hscan]
      · simp [count, hscan, Scan.next]
      · by_cases hc : r.list.contains id <;> simp [count, hscan, Scan.next, Option.filter, hc]
    · rcases r.scans[j]? with _ | ⟨_ | ⟨⟨id, outcome⟩, rest⟩, n⟩ <;>
        simp [count, hj, Option.filter]

theorem count_play (r : Race α) (moves : List (Move α)) (k : Nat) :
    (r.play moves).count k =
      r.count k + (r.wins moves).countP fun c => c.party == .scan k := by
  induction moves using List.reverseRecOn with
  | nil => rfl
  | append_singleton moves m ih =>
    rw [play_concat, count_step, ih, wins_concat, List.countP_append, Nat.add_assoc]

theorem count_ofMoves (moves : List (Move α)) (k : Nat) :
    (ofMoves moves).count k = (wins {} moves).countP fun c => c.party == .scan k :=
  (count_play {} moves k).trans (Nat.zero_add _)

theorem count_unstarted (r : Race α) : r.count r.scans.length = 0 := by
  rw [count, List.getElem?_eq_none (Nat.le_refl _)]
  rfl

end Counts

/-- The scan has entries left that it collected at `start`, among them those still in the table. -/
def Todo (start r : Race α) (k : Nat) (gone : NodeId → Bool) (outcome : Entry → Outcome α) : Prop :=
  ∃ (count : Nat) (rest : List Entry),
    r.scans[k]? = some ⟨rest.map fun e => (e.id, outcome e), count⟩ ∧
      (∀ e ∈ rest, e ∈ start.list.entries ∧ gone e.target) ∧
      ∀ e ∈ start.list.entries, gone e.target → e ∈ r.list.entries → e ∈ rest

/-- What the scan with the number `k`, which started at `start`, may rely on when the race is at `r`
and these completions have won since. -/
structure Tracked (start r : Race α) (k : Nat) (gone : NodeId → Bool) (outcome : Entry → Outcome α)
    (wins : List (Completion α)) : Prop where
  older : start.ids.last.toNat ≤ r.ids.last.toNat
  /-- An id stays with its entry. -/
  same : ∀ e ∈ r.list.entries, ∀ e' ∈ start.list.entries, e.id = e'.id → e = e'
  todo : Todo start r k gone outcome
  won : ∀ c ∈ wins, c.party = .scan k →
    ∃ e ∈ start.list.entries, gone e.target ∧ e.id = c.id ∧ c.outcome = outcome e

namespace Tracked
variable {start r : Race α} {m : Move α} {k : Nat} {gone : NodeId → Bool}
  {outcome : Entry → Outcome α} {wins : List (Completion α)}

theorem new (hstart : start.Sound) (order : Enumeration) (gone : NodeId → Bool)
    (outcome : Entry → Outcome α) :
    Tracked start (start.step (.collect order gone outcome)) start.scans.length gone outcome
      [] := by
  refine ⟨Nat.le_refl _, ?_, ?_, by simp⟩
  · intro e he e' he' hid
    exact hstart.staged.distinct.keyed.eq_of_id he he' hid
  · refine ⟨0, (order.arrange start.list.entries).filter fun e => gone e.target, ?_, ?_, ?_⟩
    · simp [step, collected]
    · intro e he
      obtain ⟨he, hgone⟩ := List.mem_filter.mp he
      exact ⟨(order.perm _).mem_iff.mp he, hgone⟩
    · intro e he hgone _
      exact List.mem_filter.mpr ⟨(order.perm _).mem_iff.mpr he, hgone⟩

/-- The next completion of the scan is for an entry that it collected. -/
theorem completion (h : Tracked start r k gone outcome wins) {c : Completion α}
    (hc : r.completion? (.advance k) = some c) :
    ∃ e ∈ start.list.entries, gone e.target ∧ c = ⟨.scan k, e.id, outcome e⟩ := by
  obtain ⟨count, rest, hscan, hrest, -⟩ := h.todo
  rw [completion?, hscan] at hc
  cases rest with
  | nil => cases hc
  | cons e rest =>
    cases hc
    obtain ⟨he, hgone⟩ := hrest e (.head _)
    exact ⟨e, he, hgone, rfl⟩

/-- An entry that was not collected is left alone, and so is its future. -/
theorem untouched (h : Tracked start r k gone outcome wins) {e : Entry}
    (he : e ∈ r.list.entries) (hother : gone e.target = false ∨ e ∉ start.list.entries) :
    e ∈ (r.step (.advance k)).list.entries ∧
      (r.step (.advance k)).list.future? e.id = r.list.future? e.id := by
  rw [step]
  cases hc : r.completion? (.advance k) with
  | none => exact ⟨he, rfl⟩
  | some c =>
    obtain ⟨e', he', hgone, rfl⟩ := h.completion hc
    have hne : e.id ≠ e'.id := by
      intro hid
      obtain rfl := h.same e he e' he' hid
      rcases hother with hother | hother
      · rw [hother] at hgone
        cases hgone
      · exact hother he'
    simp only [Waitlist.entries_complete, Waitlist.mem_without, Waitlist.future?_complete]
    exact ⟨⟨he, hne⟩, if_neg fun hid => hne hid.1⟩

/-- An entry from the start that is still there has been there all along. -/
theorem mem_of_mem_step (h : Tracked start r k gone outcome wins) (hstart : start.Sound)
    (hroom : m.takesId → r.ids.last.toNat + 1 < UInt64.size) {e e' : Entry}
    (he : e ∈ (r.step m).list.entries) (he' : e' ∈ start.list.entries) (hid : e.id = e'.id) :
    e ∈ r.list.entries := by
  rcases mem_entries_step he with he | he
  · exact he
  · have hnew := (toNat_of_entered hroom he).1
    have hold := hstart.staged.distinct.issued e' he'
    have holder := h.older
    rw [← hid] at hold
    omega

theorem todo_step (h : Tracked start r k gone outcome wins) (hstart : start.Sound)
    (hroom : m.takesId → r.ids.last.toNat + 1 < UInt64.size) :
    Todo start (r.step m) k gone outcome := by
  obtain ⟨count, rest, hscan, hrest, hleft⟩ := h.todo
  have kept : ∀ e ∈ start.list.entries, gone e.target → e ∈ (r.step m).list.entries → e ∈ rest :=
    fun e he hgone hmem => hleft e he hgone (h.mem_of_mem_step hstart hroom hmem he rfl)
  have other (hsame : (r.step m).scans[k]? = r.scans[k]?) : Todo start (r.step m) k gone outcome :=
    ⟨count, rest, hsame.trans hscan, hrest, kept⟩
  cases m with
  | register | elsewhere | respond | drop => exact other rfl
  | collect =>
    have hk : k < r.scans.length := (List.getElem?_eq_some_iff.mp hscan).1
    exact other (List.getElem?_append_left hk)
  | advance j =>
    by_cases hj : j = k
    · subst hj
      cases rest with
      | nil => exact other (by simp [Race.step, hscan, Scan.next])
      | cons x rest =>
        have hcompletion : r.completion? (.advance j) = some ⟨.scan j, x.id, outcome x⟩ := by
          rw [completion?, hscan]
          rfl
        refine ⟨_, rest, by simp [Race.step, hscan, Scan.next]; rfl,
          fun e he => hrest e (.tail _ he), ?_⟩
        intro e he hgone hmem
        have hne : e.id ≠ x.id := by
          simp only [Race.step, hcompletion, Waitlist.entries_complete] at hmem
          exact (Waitlist.mem_without.mp hmem).2
        rcases List.mem_cons.mp (kept e he hgone hmem) with rfl | hmem
        · exact absurd rfl hne
        · exact hmem
    · exact other (by simp [Race.step, hj])

theorem step (h : Tracked start r k gone outcome wins) (hstart : start.Sound)
    (hroom : m.takesId → r.ids.last.toNat + 1 < UInt64.size) :
    Tracked start (r.step m) k gone outcome (wins ++ (r.win? m).toList) := by
  have hlast := toNat_last_step hroom
  have holder := h.older
  refine ⟨by omega, ?_, h.todo_step hstart hroom, ?_⟩
  · intro e he e' he' hid
    exact h.same e (h.mem_of_mem_step hstart hroom he he' hid) e' he' hid
  · intro c hc hparty
    rcases List.mem_append.mp hc with hc | hc
    · exact h.won c hc hparty
    · obtain ⟨hcompletion, -⟩ := win?_eq_some (Option.mem_toList.mp hc)
      obtain rfl := advance_of_scan hcompletion hparty
      obtain ⟨e, he, hgone, rfl⟩ := h.completion hcompletion
      exact ⟨e, he, hgone, rfl, rfl⟩

end Tracked

theorem tracked_play {start : Race α} (hstart : start.Sound) (order : Enumeration)
    (gone : NodeId → Bool) (outcome : Entry → Outcome α) (moves : List (Move α))
    (hids : start.ids.last.toNat + moves.countP Move.takesId < UInt64.size) :
    let begun := start.step (.collect order gone outcome)
    Tracked start (begun.play moves) start.scans.length gone outcome (begun.wins moves) := by
  intro begun
  apply run_induction begun (P := fun moves =>
    Tracked start (begun.play moves) start.scans.length gone outcome (begun.wins moves))
  · exact .new hstart order gone outcome
  · intro moves m hroom ih
    rw [play_concat, wins_concat]
    exact ih.step hstart hroom
  · exact hids

structure Booked (r r' : Race α) (wins : List (Completion α)) (entered : List Entry) : Prop where
  load : wins.length + r'.list.load = r.list.load + entered.length
  known : ∀ e ∈ r'.list.entries, e ∈ r.list.entries ++ entered
  distinct : ((r.list.entries ++ entered).map Entry.id).Nodup
  issued : ∀ e ∈ r.list.entries ++ entered, e.id.toNat ≤ r'.ids.last.toNat

namespace Booked
variable {r r' : Race α} {m : Move α} {wins : List (Completion α)} {entered : List Entry}

theorem new (hr : r.Sound) : Booked r r [] [] := by
  refine ⟨Nat.zero_add _, ?_, ?_, ?_⟩ <;> rw [List.append_nil]
  · exact fun e he => he
  · exact hr.staged.distinct.nodup
  · exact hr.staged.distinct.issued

theorem step (h : Booked r r' wins entered) (hr' : r'.Sound)
    (hroom : m.takesId → r'.ids.last.toNat + 1 < UInt64.size) :
    Booked r (r'.step m) (wins ++ (r'.win? m).toList) (entered ++ r'.entered m) := by
  have hlast := toNat_last_step hroom
  have hload := load_step (m := m) hr'
  have hbefore := h.load
  refine ⟨?_, ?_, ?_, ?_⟩
  · rw [List.length_append, List.length_append]
    omega
  · intro e he
    rw [← List.append_assoc, List.mem_append]
    exact (mem_entries_step he).imp_left (h.known e)
  · rw [← List.append_assoc, List.map_append]
    refine List.nodup_append.mpr ⟨h.distinct, ?_, ?_⟩
    · cases m <;> simp [Race.entered]
    · intro i hi j hj
      obtain ⟨e, he, rfl⟩ := List.mem_map.mp hi
      obtain ⟨e', he', rfl⟩ := List.mem_map.mp hj
      have hold := h.issued e he
      have hnew := (toNat_of_entered hroom he').1
      intro hid
      rw [hid] at hold
      omega
  · intro e he
    rw [← List.append_assoc] at he
    rcases List.mem_append.mp he with he | he
    · have hold := h.issued e he
      omega
    · exact (toNat_of_entered hroom he).2

/-- What left the table was won or abandoned. -/
theorem left (h : Booked r r' wins entered) (hr' : r'.Sound) :
    wins.length + r'.list.abandoned.toNat = r.list.abandoned.toNat +
      ((r.list.entries ++ entered).filter fun e => e ∉ r'.list.entries).length := by
  have hload := h.load
  have hdistinct := h.distinct.of_map
  -- what stays is the table itself
  have hstays : ((r.list.entries ++ entered).filter fun e => e ∈ r'.list.entries).Perm
      r'.list.entries := by
    apply (List.perm_ext_iff_of_nodup (hdistinct.filter _) hr'.staged.distinct.nodup.of_map).mpr
    intro e
    rw [List.mem_filter, decide_eq_true_eq]
    exact ⟨And.right, fun he => ⟨h.known e he, he⟩⟩
  have hparts := List.length_eq_length_filter_add (l := r.list.entries ++ entered)
    fun e => decide (e ∈ r'.list.entries)
  rw [hstays.length_eq, List.length_append] at hparts
  simp only [Waitlist.load, Waitlist.size] at hload
  simp only [decide_not]
  omega

end Booked

theorem booked_play {r : Race α} (hr : r.Sound) (moves : List (Move α))
    (hids : r.ids.last.toNat + moves.countP Move.takesId < UInt64.size) :
    Booked r (r.play moves) (r.wins moves) (r.entries moves) := by
  suffices h : (r.play moves).Sound ∧ Booked r (r.play moves) (r.wins moves) (r.entries moves)
    from h.2
  apply run_induction r (P := fun moves => (r.play moves).Sound ∧
    Booked r (r.play moves) (r.wins moves) (r.entries moves))
  · exact ⟨hr, .new hr⟩
  · intro moves m hroom ⟨sound, ih⟩
    rw [play_concat, wins_concat, entries_concat]
    exact ⟨sound.step hroom, ih.step sound hroom⟩
  · exact hids

theorem ofMoves_append (moves moves' : List (Move α)) :
    ofMoves (moves ++ moves') = (ofMoves moves).play moves' :=
  List.foldl_append

theorem sound_ofMoves (moves : List (Move α)) (hids : moves.countP Move.takesId < UInt64.size) :
    (ofMoves moves).Sound :=
  Sound.new.play moves ((Nat.zero_add _).symm ▸ hids)

theorem toNat_last_ofMoves {moves : List (Move α)}
    (hids : moves.countP Move.takesId < UInt64.size) :
    (ofMoves moves).ids.last.toNat = moves.countP Move.takesId :=
  (toNat_last_play moves ((Nat.zero_add _).symm ▸ hids)).trans (Nat.zero_add _)

section Verdicts
variable {moves : List (Move α)} (hids : moves.countP Move.takesId < UInt64.size)
include hids

/-- No future is won twice. -/
theorem nodup_wins : ((wins {} moves).map Completion.id).Nodup := by
  rw [List.nodup_iff_count_le_one]
  intro f
  obtain ⟨s, hs⟩ := (sound_ofMoves moves hids).staged.shows f
  have hle := (won moves hids hs).length_le
  rw [List.count, List.countP_map, List.countP_eq_length_filter]
  exact hle

/-- A future keeps the outcome that it was won with, as long as its caller does. -/
theorem resolved_of_win {c : Completion α} (hc : c ∈ wins {} moves) (hkept : .drop c.id ∉ moves) :
    (ofMoves moves).list.future? c.id = some (.resolved c.outcome) := by
  obtain ⟨s, hs⟩ := (sound_ofMoves moves hids).staged.shows c.id
  have hwon := won moves hids hs
  have hmem : c ∈ winsOf c.id (wins {} moves) := by simp [winsOf, hc]
  rw [hs.future]
  cases s with
  | unissued | listed =>
    have hnone : winsOf c.id (wins {} moves) = [] := hwon
    rw [hnone] at hmem
    cases hmem
  | taken => exact hwon.elim
  | resolved outcome =>
    obtain ⟨c', hwins, rfl⟩ := hwon
    rw [hwins, List.mem_singleton] at hmem
    rw [hmem]
    rfl
  | dropped => exact absurd (mem_of_dropped moves hs.future) hkept

theorem exists_win_of_resolved {f : FutureId} {o : Outcome α}
    (h : (ofMoves moves).list.future? f = some (.resolved o)) :
    ∃ c ∈ wins {} moves, c.id = f ∧ c.outcome = o := by
  obtain ⟨s, hs⟩ := (sound_ofMoves moves hids).staged.shows f
  have hwon := won moves hids hs
  rw [hs.eq_resolved h] at hwon
  obtain ⟨c, hwins, houtcome⟩ := hwon
  have hmem : c ∈ winsOf f (wins {} moves) := hwins ▸ .head _
  rw [winsOf, List.mem_filter] at hmem
  exact ⟨c, hmem.1, eq_of_beq hmem.2, houtcome⟩

end Verdicts

structure SingleWinner (moves : List (Move α)) : Prop where
  once : ((wins {} moves).map Completion.id).Nodup
  /-- A future keeps the outcome that it was won with, as long as its caller does. -/
  kept : ∀ c ∈ wins {} moves, .drop c.id ∉ moves →
    (ofMoves moves).list.future? c.id = some (.resolved c.outcome)
  won : ∀ f o, (ofMoves moves).list.future? f = some (.resolved o) →
    ∃ c ∈ wins {} moves, c.id = f ∧ c.outcome = o
  counted : ∀ k, (ofMoves moves).count k = (wins {} moves).countP fun c => c.party == .scan k

/-- The scan that starts between `before` and `after` completes what it has collected, and nothing
else. -/
structure Confined (before : List (Move α)) (order : Enumeration) (gone : NodeId → Bool)
    (outcome : Entry → Outcome α) (after : List (Move α)) : Prop where
  /-- When the scan has nothing left to do, what it collected is gone. -/
  done : ∃ scan, (ofMoves (before ++ .collect order gone outcome :: after)).scans[
      (ofMoves before).scans.length]? = some scan ∧
    (scan.todo = [] → ∀ e ∈ (ofMoves before).list.entries, gone e.target →
      e ∉ (ofMoves (before ++ .collect order gone outcome :: after)).list.entries)
  own : ∀ c ∈ wins {} (before ++ .collect order gone outcome :: after),
    c.party = .scan (ofMoves before).scans.length →
      ∃ e ∈ (ofMoves before).list.entries, gone e.target ∧ e.id = c.id ∧ c.outcome = outcome e
  /-- Whatever waits for another node, or came later, is left alone by each of its completions. -/
  untouched : ∀ a b, after = a ++ .advance (ofMoves before).scans.length :: b →
    let r := ofMoves (before ++ .collect order gone outcome :: a)
    let r' := r.step (.advance (ofMoves before).scans.length)
    ∀ e ∈ r.list.entries, gone e.target = false ∨ e ∉ (ofMoves before).list.entries →
      e ∈ r'.list.entries ∧ r'.list.future? e.id = r.list.future? e.id

theorem singleWinner (moves : List (Move α)) (hids : moves.countP Move.takesId < UInt64.size) :
    SingleWinner moves :=
  ⟨nodup_wins hids, fun _ => resolved_of_win hids, fun _ _ => exists_win_of_resolved hids,
    count_ofMoves moves⟩

theorem confined (before after : List (Move α)) (order : Enumeration) (gone : NodeId → Bool)
    (outcome : Entry → Outcome α)
    (hids : (before ++ .collect order gone outcome :: after).countP Move.takesId < UInt64.size) :
    Confined before order gone outcome after := by
  have hroom : before.countP Move.takesId + after.countP Move.takesId < UInt64.size := by
    simpa [Move.takesId] using hids
  have hstart : (ofMoves before).Sound := sound_ofMoves before (by omega)
  have hlast : (ofMoves before).ids.last.toNat = before.countP Move.takesId :=
    toNat_last_ofMoves (by omega)
  have tracked (a : List (Move α)) (ha : a.countP Move.takesId ≤ after.countP Move.takesId) :
      Tracked (ofMoves before) (ofMoves (before ++ .collect order gone outcome :: a))
        (ofMoves before).scans.length gone outcome
        (((ofMoves before).step (.collect order gone outcome)).wins a) := by
    rw [ofMoves_append]
    exact tracked_play hstart order gone outcome a (by omega)
  have htracked := tracked after (Nat.le_refl _)
  constructor
  · obtain ⟨count, rest, hscan, -, hleft⟩ := htracked.todo
    refine ⟨_, hscan, fun hdone e he hgone hmem => ?_⟩
    have hrest : rest = [] := List.map_eq_nil_iff.mp hdone
    have hin := hleft e he hgone hmem
    rw [hrest] at hin
    cases hin
  · intro c hc hparty
    have hsplit : wins {} (before ++ .collect order gone outcome :: after) =
        wins {} before ++ ((ofMoves before).step (.collect order gone outcome)).wins after :=
      gather_append ..
    rw [hsplit, List.mem_append] at hc
    rcases hc with hc | hc
    · -- before it starts, a scan wins nothing
      have hnone := (count_ofMoves before _).symm.trans (count_unstarted _)
      exact absurd (beq_iff_eq.mpr hparty) (List.countP_eq_zero.mp hnone c hc)
    · exact htracked.won c hc hparty
  · rintro a b rfl r r' e he hother
    exact (tracked a (by simp)).untouched he hother

/-- However the completions of scans and the steps of other parties are interleaved, every future
has a single winner, whose outcome it keeps; a scan is confined to what it has collected, and has
dealt with that when it is done; and in any stretch of the run, as many entries left the table as
completions were told that they won and futures were abandoned. With nobody in between, scans are
the bulk completions of the table. -/
theorem scans_race (before after : List (Move α)) (order : Enumeration) (gone : NodeId → Bool)
    (outcome : Entry → Outcome α)
    (hids : (before ++ .collect order gone outcome :: after).countP Move.takesId < UInt64.size) :
    let moves := before ++ .collect order gone outcome :: after
    SingleWinner moves ∧ Confined before order gone outcome after ∧
      (∀ a b c, moves = a ++ b ++ c →
        let r := ofMoves a
        let r' := ofMoves (a ++ b)
        (r.wins b).length + r'.list.abandoned.toNat = r.list.abandoned.toNat +
          ((r.list.entries ++ r.entries b).filter fun e => e ∉ r'.list.entries).length) ∧
      (ofMoves before).Undisturbed := by
  intro moves
  refine ⟨singleWinner moves hids, confined before after order gone outcome hids, ?_,
    (ofMoves before).undisturbed⟩
  intro a b c habc r r'
  have hr' : r' = r.play b := ofMoves_append a b
  have hroom : a.countP Move.takesId + b.countP Move.takesId < UInt64.size := by
    replace hids : moves.countP Move.takesId < UInt64.size := hids
    rw [habc, List.countP_append, List.countP_append] at hids
    omega
  have hr : r.Sound := sound_ofMoves a (by omega)
  have hlast : r.ids.last.toNat = a.countP Move.takesId := toNat_last_ofMoves (by omega)
  have hbooked := booked_play hr b (by omega)
  rw [hr']
  exact hbooked.left (hr.play b (by omega))

/-- Two requests to node 2 and one to node 3 wait. -/
def waiting : List (Move Unit) :=
  [.register (.ofNat 2), .register (.ofNat 3), .register (.ofNat 2)]

/-- A scan for node 2 has collected two entries. Before it completes the first of them, a responder
does; another request to node 2 enters; and the caller of the request to node 3 gives up. -/
def overtaken : List (Move Unit) :=
  [.respond 1 (.ok ()), .register (.ofNat 2), .advance 0, .drop 2, .advance 0]

theorem scans_race_overtaken :
    let moves := waiting ++ .collect .byAge (· == .ofNat 2) (fun _ => .ok ()) :: overtaken
    let r := ofMoves moves
    moves.countP Move.takesId < UInt64.size ∧ r.list.entries = [⟨4, .ofNat 2⟩] ∧ r.count 0 = 1 ∧
      (wins {} moves).length + r.list.abandoned.toNat = 3 ∧
      r.list.future? 1 = some (.resolved (.ok ())) := by
  intro moves r
  have hids : moves.countP Move.takesId < UInt64.size := by decide
  obtain ⟨hsingle, -, hleft, -⟩ := scans_race waiting overtaken .byAge (· == .ofNat 2)
    (fun _ => .ok ()) hids
  have hwins : wins {} moves = [⟨.responder, 1, .ok ()⟩, ⟨.scan 0, 3, .ok ()⟩] := rfl
  refine ⟨hids, by decide, ?_, ?_, ?_⟩
  · exact (hsingle.counted 0).trans (congrArg (List.countP _) hwins)
  · exact (hleft [] moves [] (List.append_nil _).symm).trans (by decide)
  · exact hsingle.kept ⟨.responder, 1, .ok ()⟩ (hwins ▸ .head _) (by simp [waiting, overtaken])

end CounterCoordinator.Race
