import CounterCoordinator.Proofs.Waitlist.Stages
import Mathlib.Data.List.Induction

/-!
# Scans that race

Completing all requests to some nodes is a scan in two phases: it collects the entries it finds, and
then completes one after the other. Between any two of its steps others use the table: they
register, respond, drop futures, and run scans of their own. So a scan works from a list that may be
stale. Every completion takes its entry out first, and this is all that the parties need to agree on
a single winner for each future.
-/
namespace CounterCoordinator
open Waitlist (Enumeration Entry Stage)

/-- A scan under way: what it has collected and not yet completed, and how many futures it has
resolved. -/
structure Race.Scan (α : Type) where
  todo : List (FutureId × Outcome α)
  count : Nat := 0

/-- A waitlist, the source of its ids, and the scans started on it, oldest first. -/
structure Race (α : Type) where
  list : Waitlist α := {}
  ids : IdSource := {}
  scans : List (Race.Scan α) := []

namespace Race
variable {α : Type}

inductive Move (α : Type) where
  | register (target : NodeId)
  /-- Another table takes an id. -/
  | elsewhere
  | respond (id : FutureId) (outcome : Outcome α)
  | drop (id : FutureId)
  /-- A scan starts. It collects the entries whose targets are gone, in some order, and decides on
  the outcome of each. -/
  | collect (order : Enumeration) (gone : NodeId → Bool) (outcome : Entry → Outcome α)
  /-- The scan with this number makes its next completion, if any is left. -/
  | advance (k : Nat)

def Move.takesId : Move α → Bool
  | register _ | elsewhere => true
  | respond .. | drop _ | collect .. | advance _ => false

inductive Party where
  | responder
  | scan (k : Nat)
deriving DecidableEq

/-- A completion; it wins if it is told that the entry was still there. -/
structure Completion (α : Type) where
  party : Party
  id : FutureId
  outcome : Outcome α

/-- What a scan for nodes that are `gone` collects. -/
def collected (w : Waitlist α) (order : Enumeration) (gone : NodeId → Bool)
    (outcome : Entry → Outcome α) : List (FutureId × Outcome α) :=
  ((order.arrange w.entries).filter fun e => gone e.target).map fun e => (e.id, outcome e)

def completion? (r : Race α) : Move α → Option (Completion α)
  | .respond id outcome => some ⟨.responder, id, outcome⟩
  | .advance k =>
      match r.scans[k]? with
      | some ⟨(id, outcome) :: _, _⟩ => some ⟨.scan k, id, outcome⟩
      | _ => none
  | _ => none

/-- The scan counts a completion that won, and goes on. -/
def Scan.next (s : Scan α) (w : Waitlist α) : Scan α :=
  match s.todo with
  | [] => s
  | (id, outcome) :: rest =>
      ⟨rest, if (w.complete id outcome).1 then s.count + 1 else s.count⟩

def step (r : Race α) (m : Move α) : Race α :=
  match m with
  | .register target =>
      { r with list := r.list.register r.ids.next.1 target, ids := r.ids.next.2 }
  | .elsewhere => { r with ids := r.ids.next.2 }
  | .drop id => { r with list := r.list.drop id }
  | .collect order gone outcome =>
      { r with scans := r.scans ++ [⟨collected r.list order gone outcome, 0⟩] }
  | .respond id outcome => { r with list := (r.list.complete id outcome).2 }
  | .advance k =>
      { r with
        list :=
          match r.completion? (.advance k) with
          | some c => (r.list.complete c.id c.outcome).2
          | none => r.list
        scans := r.scans.modify k fun s => s.next r.list }

def play (r : Race α) (moves : List (Move α)) : Race α := moves.foldl step r

def ofMoves (moves : List (Move α)) : Race α := play {} moves

/-- The completion of a move, if it is told that it won. -/
def win? (r : Race α) (m : Move α) : Option (Completion α) :=
  (r.completion? m).filter fun c => (r.list.complete c.id c.outcome).1

def entered (r : Race α) : Move α → List Entry
  | .register target => [⟨r.ids.next.1, target⟩]
  | _ => []

/-- What the moves of a row yield, each at the state it finds. -/
def gather {β : Type} (what : Race α → Move α → List β) (r : Race α) : List (Move α) → List β
  | [] => []
  | m :: moves => what r m ++ gather what (r.step m) moves

def wins (r : Race α) (moves : List (Move α)) : List (Completion α) :=
  r.gather (fun r m => (r.win? m).toList) moves

def entries (r : Race α) (moves : List (Move α)) : List Entry :=
  r.gather entered moves

theorem step_advance_newest (r : Race α) (id : FutureId) (outcome : Outcome α)
    (todo : List (FutureId × Outcome α)) (count : Nat) :
    step { r with scans := r.scans ++ [⟨(id, outcome) :: todo, count⟩] } (.advance r.scans.length) =
      { r with
        list := (r.list.complete id outcome).2
        scans := r.scans ++
          [⟨todo, if (r.list.complete id outcome).1 then count + 1 else count⟩] } := by
  have hfound : (r.scans ++ [Scan.mk ((id, outcome) :: todo) count])[r.scans.length]? =
      some ⟨(id, outcome) :: todo, count⟩ := by simp
  have hmodify : (r.scans ++ [Scan.mk ((id, outcome) :: todo) count]).modify r.scans.length
      (fun s => s.next r.list) = r.scans ++ [Scan.next ⟨(id, outcome) :: todo, count⟩ r.list] := by
    simp [List.modify_eq_set_getElem?]
  simp only [step, completion?, hfound, hmodify]
  rfl

/-- Left to itself, the newest scan completes one by one what it has yet to do. -/
theorem play_advance_newest (todo : List (FutureId × Outcome α)) (r : Race α) (count : Nat) :
    play { r with scans := r.scans ++ [⟨todo, count⟩] }
        (List.replicate todo.length (.advance r.scans.length)) =
      { r with
        list := (r.list.completeEach todo).2
        scans := r.scans ++ [⟨[], count + (r.list.completeEach todo).1⟩] } := by
  induction todo generalizing r count with
  | nil => rfl
  | cons x rest ih =>
    rw [List.length_cons, List.replicate_succ, play, List.foldl_cons, step_advance_newest]
    refine (ih { r with list := (r.list.complete x.1 x.2).2 } _).trans ?_
    simp only [Waitlist.completeEach]
    split <;> simp [Nat.add_assoc, Nat.add_comm]

/-- A scan that nobody disturbs: it collects, and makes all of its completions. -/
def scanAlone (r : Race α) (order : Enumeration) (gone : NodeId → Bool)
    (outcome : Entry → Outcome α) : Race α :=
  r.play (.collect order gone outcome ::
    List.replicate (collected r.list order gone outcome).length (.advance r.scans.length))

theorem scanAlone_eq_sweep (r : Race α) (order : Enumeration) (gone : NodeId → Bool)
    (outcome : Entry → Outcome α) :
    r.scanAlone order gone outcome =
      let swept := r.list.sweep order (fun e => gone e.target) outcome
      { r with list := swept.2, scans := r.scans ++ [⟨[], swept.1⟩] } := by
  have hscanned := play_advance_newest (collected r.list order gone outcome) r 0
  rw [Nat.zero_add] at hscanned
  exact hscanned

/-- Undisturbed, scans from `r` on are the bulk completions of its table: they collect the ids that
wait for the node, and do at once what they otherwise do step by step. -/
structure Undisturbed (r : Race α) : Prop where
  collects : ∀ target outcome, collected r.list .byAge (· == target) (fun _ => outcome) =
    (r.list.idsFor target).map fun id => (id, outcome)
  bulkFor : ∀ target outcome,
    let completed := r.list.completeAllFor target outcome
    r.scanAlone .byAge (· == target) (fun _ => outcome) =
      { r with list := completed.2, scans := r.scans ++ [⟨[], completed.1⟩] }
  bulkGone : ∀ alive outcome,
    let completed := r.list.completeAllGone alive outcome
    r.scanAlone .byAge (fun node => !alive node) (fun e => outcome e.target) =
      { r with list := completed.2, scans := r.scans ++ [⟨[], completed.1⟩] }

theorem undisturbed (r : Race α) : r.Undisturbed where
  collects target outcome := by
    rw [collected, Waitlist.idsFor, List.map_map]
    rfl
  bulkFor target outcome := by
    rw [Waitlist.completeAllFor_eq_sweep]
    exact r.scanAlone_eq_sweep .byAge (· == target) fun _ => outcome
  bulkGone alive outcome := by
    rw [Waitlist.completeAllGone_eq_sweep]
    exact r.scanAlone_eq_sweep .byAge (fun node => !alive node) fun e => outcome e.target

section Steps
variable {r : Race α} {m : Move α}

theorem toNat_last_step (h : m.takesId → r.ids.last.toNat + 1 < UInt64.size) :
    (r.step m).ids.last.toNat = r.ids.last.toNat + if m.takesId then 1 else 0 := by
  cases m with
  | register | elsewhere => exact IdSource.toNat_next (h rfl)
  | respond | drop | collect | advance => rfl

theorem toNat_last_play (moves : List (Move α)) {r : Race α}
    (hids : r.ids.last.toNat + moves.countP Move.takesId < UInt64.size) :
    (r.play moves).ids.last.toNat = r.ids.last.toNat + moves.countP Move.takesId := by
  induction moves generalizing r with
  | nil => rfl
  | cons m moves ih =>
    rw [List.countP_cons] at hids
    have hlast := toNat_last_step (r := r) (m := m) fun ht => by
      rw [if_pos ht] at hids
      omega
    rw [play, List.foldl_cons]
    refine (ih (by omega)).trans ?_
    rw [hlast, List.countP_cons]
    omega

theorem play_concat (r : Race α) (moves : List (Move α)) (m : Move α) :
    r.play (moves ++ [m]) = (r.play moves).step m := by
  rw [play, List.foldl_append]
  rfl

theorem run_induction (r : Race α) {P : List (Move α) → Prop} (hstart : P [])
    (hstep : ∀ moves m, (m.takesId → (r.play moves).ids.last.toNat + 1 < UInt64.size) → P moves →
      P (moves ++ [m]))
    (moves : List (Move α))
    (hids : r.ids.last.toNat + moves.countP Move.takesId < UInt64.size) : P moves := by
  induction moves using List.reverseRecOn with
  | nil => exact hstart
  | append_singleton moves m ih =>
    rw [List.countP_append, List.countP_singleton] at hids
    refine hstep moves m ?_ (ih (by omega))
    intro ht
    rw [if_pos ht] at hids
    rw [toNat_last_play moves (by omega)]
    omega

theorem gather_append {β : Type} (what : Race α → Move α → List β) (moves moves' : List (Move α)) :
    r.gather what (moves ++ moves') =
      r.gather what moves ++ (r.play moves).gather what moves' := by
  induction moves generalizing r with
  | nil => rfl
  | cons m moves ih => simp only [List.cons_append, gather, ih, List.append_assoc, play,
      List.foldl_cons]

theorem wins_concat (moves : List (Move α)) (m : Move α) :
    r.wins (moves ++ [m]) = r.wins moves ++ ((r.play moves).win? m).toList := by
  simp [wins, gather_append, gather]

theorem entries_concat (moves : List (Move α)) (m : Move α) :
    r.entries (moves ++ [m]) = r.entries moves ++ (r.play moves).entered m := by
  simp [entries, gather_append, gather]

inductive Does (r : Race α) (m : Move α) : Prop where
  | enter (target : NodeId) (hm : m = .register target) (hwin : r.win? m = none)
  | complete (c : Completion α) (hc : r.completion? m = some c)
      (hwin : r.win? m = if r.list.contains c.id then some c else none)
      (hentered : r.entered m = [])
      (hlist : (r.step m).list = (r.list.complete c.id c.outcome).2)
  | giveUp (id : FutureId) (hm : m = .drop id) (hwin : r.win? m = none)
  | rest (hwin : r.win? m = none) (hentered : r.entered m = []) (hlist : (r.step m).list = r.list)

theorem does (r : Race α) (m : Move α) : r.Does m := by
  have completes (c : Completion α) (hc : r.completion? m = some c) :
      r.win? m = if r.list.contains c.id then some c else none := by
    simp [win?, hc, Option.filter]
  cases m with
  | register target => exact .enter target rfl rfl
  | drop id => exact .giveUp id rfl rfl
  | elsewhere | collect => exact .rest rfl rfl rfl
  | respond id outcome => exact .complete _ rfl (completes _ rfl) rfl rfl
  | advance k =>
    cases hc : r.completion? (.advance k) with
    | none => exact .rest (by rw [win?, hc]; rfl) rfl (by simp only [step, hc])
    | some c => exact .complete c hc (completes c hc) rfl (by simp only [step, hc])

end Steps

structure Sound (r : Race α) : Prop where
  staged : r.list.Staged r.ids.last
  load : r.list.load ≤ r.ids.last.toNat

namespace Sound
variable {r : Race α} {m : Move α}

theorem new : ({} : Race α).Sound := ⟨.new _, Nat.le_refl _⟩

theorem step (h : r.Sound) (hroom : m.takesId → r.ids.last.toNat + 1 < UInt64.size) :
    (r.step m).Sound := by
  have hload := h.load
  have hlast := toNat_last_step hroom
  cases r.does m with
  | enter target hm =>
    subst hm
    have hid := IdSource.toNat_next (hroom rfl)
    refine ⟨h.staged.register hid target, ?_⟩
    rw [hlast]
    simp only [Race.step, Waitlist.load_register, Move.takesId, if_true]
    omega
  | complete c hc hwin hentered hlist =>
    have hcompleted := Waitlist.load_complete h.staged.distinct c.id c.outcome
    refine ⟨?_, ?_⟩
    · rw [hlist]
      exact (h.staged.perform (.complete c.id c.outcome)).mono (by omega)
    · rw [hlist, hlast]
      omega
  | giveUp id hm =>
    subst hm
    have hbound := Nat.lt_of_le_of_lt hload (UInt64.toNat_lt_size _)
    have hdropped := Waitlist.load_drop h.staged.distinct hbound id
    exact ⟨h.staged.perform (.drop id), Nat.le_trans (Nat.le_of_eq hdropped) hload⟩
  | rest hwin hentered hlist =>
    refine ⟨?_, ?_⟩
    · rw [hlist]
      exact h.staged.mono (by omega)
    · rw [hlist, hlast]
      omega

theorem play (h : r.Sound) (moves : List (Move α))
    (hids : r.ids.last.toNat + moves.countP Move.takesId < UInt64.size) : (r.play moves).Sound := by
  apply r.run_induction (P := fun moves => (r.play moves).Sound) h
  · intro moves m hroom ih
    rw [play_concat]
    exact ih.step hroom
  · exact hids

end Sound

/-! What the parties were told agrees with what became of the futures. -/

/-- The completions that won a future, read off the stage it is at. -/
def Won (s : Stage α) (wins : List (Completion α)) : Prop :=
  match s with
  | .unissued | .listed _ => wins = []
  | .taken => False
  | .resolved outcome => ∃ c, wins = [c] ∧ c.outcome = outcome
  | .dropped _ => wins.length ≤ 1

def winsOf (f : FutureId) (wins : List (Completion α)) : List (Completion α) :=
  wins.filter fun c => c.id == f

theorem Won.length_le {s : Stage α} {wins : List (Completion α)} (h : Won s wins) :
    wins.length ≤ 1 := by
  cases s with
  | unissued | listed =>
    have hnone : wins = [] := h
    simp [hnone]
  | taken => exact h.elim
  | resolved =>
    obtain ⟨c, rfl, -⟩ := h
    exact Nat.le_refl 1
  | dropped => exact h

section Verdict
variable {r : Race α} {m : Move α} {f : FutureId} {s : Stage α} {wins : List (Completion α)}

theorem Won.complete {c : Completion α} (h : Won s (winsOf f wins)) (hs : r.list.Shows f s)
    (hwin : r.win? m = if r.list.contains c.id then some c else none) :
    Won (if c.id = f then s.settle c.outcome else s)
      (winsOf f (wins ++ (r.win? m).toList)) := by
  by_cases hf : c.id = f
  · rw [if_pos hf, hwin, hf, hs.contains]
    cases s with
    | listed e =>
      have hnone : winsOf f wins = [] := h
      refine ⟨c, ?_, rfl⟩
      rw [winsOf, List.filter_append, ← winsOf, hnone]
      simp [Stage.found?, hf]
    | unissued | taken | resolved | dropped => simpa [Stage.found?, Stage.settle] using h
  · rw [if_neg hf, hwin]
    split <;> simpa [winsOf, hf] using h

theorem Won.drop {id : FutureId} (h : Won s wins) : Won (if id = f then s.drop else s) wins := by
  split
  · cases s with
    | unissued => exact h
    | listed | resolved | dropped => exact h.length_le
    | taken => exact h.elim
  · exact h

/-- A move leads the future to a stage that the wins agree with, as they did before. -/
theorem Won.step (h : Won s (winsOf f wins)) (hr : r.Sound) (hs : r.list.Shows f s)
    (hroom : m.takesId → r.ids.last.toNat + 1 < UInt64.size) :
    ∃ s', (r.step m).list.Shows f s' ∧ Won s' (winsOf f (wins ++ (r.win? m).toList)) := by
  cases r.does m with
  | enter target hm hwin =>
    subst hm
    rw [hwin, Option.toList_none, List.append_nil]
    by_cases hf : f = r.ids.next.1
    · subst hf
      have hfresh := hr.staged.unissued (by rw [IdSource.toNat_next (hroom rfl)]; omega)
      have hunissued := hs.eq_unissued hfresh
      subst hunissued
      exact ⟨_, hs.register_self target, h⟩
    · exact ⟨s, hs.register hf target, h⟩
  | complete c hc hwin hentered hlist =>
    rw [hlist]
    exact ⟨_, hs.complete c.id c.outcome, h.complete hs hwin⟩
  | giveUp id hm hwin =>
    subst hm
    rw [hwin, Option.toList_none, List.append_nil]
    exact ⟨_, hs.drop id, h.drop⟩
  | rest hwin hentered hlist =>
    rw [hlist, hwin, Option.toList_none, List.append_nil]
    exact ⟨s, hs, h⟩

end Verdict

theorem won (moves : List (Move α)) (hids : moves.countP Move.takesId < UInt64.size) {f : FutureId}
    {s : Stage α} (hs : (ofMoves moves).list.Shows f s) : Won s (winsOf f (wins {} moves)) := by
  -- the stage changes along the run, so the induction is about all stages at once
  revert s
  suffices h : (ofMoves moves).Sound ∧
      ∀ s, (ofMoves moves).list.Shows f s → Won s (winsOf f (wins {} moves)) from fun s => h.2 s
  apply run_induction {} (P := fun moves => (ofMoves moves).Sound ∧
    ∀ s, (ofMoves moves).list.Shows f s → Won s (winsOf f (wins {} moves)))
  · refine ⟨.new, fun s hs => ?_⟩
    have hunissued := hs.eq_unissued rfl
    subst hunissued
    rfl
  · intro moves m hroom ⟨sound, ih⟩
    rw [ofMoves, play_concat]
    refine ⟨sound.step hroom, fun s' hs' => ?_⟩
    obtain ⟨s, hs⟩ := sound.staged.shows f
    obtain ⟨s'', hs'', hwon⟩ := (ih s hs).step sound hs hroom
    rw [wins_concat, hs'.unique hs'']
    exact hwon
  · exact (Nat.zero_add _).symm ▸ hids

end Race
end CounterCoordinator
