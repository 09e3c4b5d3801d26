import CounterCoordinator.Proofs.Waitlist.Entries

/-!
# Sweeps through a waitlist

Several requests are completed in one go by a sweep: it goes through the entries, picks some by
their targets or otherwise, and completes these one by one. Entries have distinct ids, so
completions of two of them commute, and it does not matter in which order a table is gone through;
and two sweeps in a row do what a single one does that picks for both.
-/
namespace CounterCoordinator.Waitlist
variable {α : Type} {w : Waitlist α}

structure Enumeration where
  arrange : List Entry → List Entry
  perm : ∀ l, (arrange l).Perm l

/-- Oldest entries first. -/
def Enumeration.byAge : Enumeration := ⟨id, fun _ => .refl _⟩

/-- Complete the entries that `picks` is true of, each with an outcome of its own. -/
def sweep (w : Waitlist α) (order : Enumeration) (picks : Entry → Bool)
    (outcome : Entry → Outcome α) : Nat × Waitlist α :=
  w.completeEach (((order.arrange w.entries).filter picks).map fun e => (e.id, outcome e))

theorem completeAllFor_eq_sweep (w : Waitlist α) (target : NodeId) (outcome : Outcome α) :
    w.completeAllFor target outcome =
      w.sweep .byAge (fun e => e.target == target) fun _ => outcome := by
  rw [completeAllFor, idsFor, List.map_map]
  rfl

theorem completeAllGone_eq_sweep (w : Waitlist α) (alive : NodeId → Bool)
    (outcome : NodeId → Outcome α) :
    w.completeAllGone alive outcome =
      w.sweep .byAge (fun e => !alive e.target) fun e => outcome e.target := rfl

theorem contains_complete_of_ne {i j : FutureId} (h : i ≠ j) (o : Outcome α) :
    (w.complete i o).2.contains j = w.contains j := by
  rw [Bool.eq_iff_iff, contains_iff, contains_iff]
  simp only [entries_complete, mem_without]
  constructor
  · rintro ⟨e, ⟨he, -⟩, hj⟩
    exact ⟨e, he, hj⟩
  · rintro ⟨e, he, hj⟩
    exact ⟨e, ⟨he, fun hi => h (hi.symm.trans hj)⟩, hj⟩

theorem updateFuture_comm {i j : FutureId} (h : i ≠ j) (f g : Future α → Future α)
    (l : List (FutureId × Future α)) :
    updateFuture i f (updateFuture j g l) = updateFuture j g (updateFuture i f l) := by
  induction l with
  | nil => rfl
  | cons x rest ih =>
    obtain ⟨k, x⟩ := x
    by_cases hi : k = i
    · simp [updateFuture, hi, h]
    · by_cases hj : k = j
      · simp [updateFuture, hj, h.symm]
      · simp [updateFuture, hi, hj, ih]

theorem without_comm (i j : FutureId) (l : List Entry) :
    without i (without j l) = without j (without i l) := by
  simp only [without, List.filter_filter, Bool.and_comm]

/-- Completions of different ids do not disturb each other. -/
theorem complete_comm {i j : FutureId} (h : i ≠ j) (o p : Outcome α) :
    ((w.complete i o).2.complete j p).2 = ((w.complete j p).2.complete i o).2 := by
  have hj := contains_complete_of_ne (w := w) h o
  have hi := contains_complete_of_ne (w := w) h.symm p
  rw [complete_eq (w.complete i o).2, complete_eq (w.complete j p).2, hi, hj, complete_eq w i,
    complete_eq w j]
  by_cases hci : w.contains i <;> by_cases hcj : w.contains j <;>
    simp [hci, hcj, without_comm i j, updateFuture_comm h]

theorem completeEach_append (l l' : List (FutureId × Outcome α)) :
    w.completeEach (l ++ l') =
      ((w.completeEach l).1 + ((w.completeEach l).2.completeEach l').1,
        ((w.completeEach l).2.completeEach l').2) := by
  induction l generalizing w with
  | nil => simp [completeEach]
  | cons x rest ih =>
    simp only [List.cons_append, completeEach, ih]
    split <;> simp [Nat.add_right_comm]

/-- The order of completions does not matter if their ids are distinct. -/
theorem completeEach_perm {l l' : List (FutureId × Outcome α)} (hperm : l.Perm l')
    (hnodup : (l.map Prod.fst).Nodup) : w.completeEach l = w.completeEach l' := by
  induction hperm generalizing w with
  | nil => rfl
  | cons x _ ih =>
    have hrest := ih (w := (w.complete x.1 x.2).2) (List.nodup_cons.mp hnodup).2
    simp only [completeEach, hrest]
  | swap x y l =>
    have hne : y.1 ≠ x.1 := by
      intro heq
      simp [heq] at hnodup
    have hx := contains_complete_of_ne (w := w) hne y.2
    have hy := contains_complete_of_ne (w := w) hne.symm x.2
    simp only [completeEach, complete_won, hx, hy, complete_comm hne y.2 x.2]
    split <;> split <;> rfl
  | trans hfirst _ ih ih' =>
    exact (ih hnodup).trans (ih' ((hfirst.map Prod.fst).nodup_iff.mp hnodup))

/-- Different entries have different ids. -/
def Keyed (w : Waitlist α) : Prop := (w.entries.map Entry.id).Nodup

theorem Distinct.keyed {last : FutureId} (h : w.Distinct last) : w.Keyed := h.nodup

section Sweeps
variable {picks picks' : Entry → Bool} {outcome : Entry → Outcome α}

namespace Keyed

theorem eq_of_id (h : w.Keyed) {e e' : Entry} (he : e ∈ w.entries) (he' : e' ∈ w.entries)
    (hid : e.id = e'.id) : e = e' :=
  List.inj_on_of_nodup_map h he he' hid

theorem nodup_picked (h : w.Keyed) (order : Enumeration) (picks : Entry → Bool)
    (outcome : Entry → Outcome α) :
    ((((order.arrange w.entries).filter picks).map fun e => (e.id, outcome e)).map
      Prod.fst).Nodup := by
  have hall : ((order.arrange w.entries).map Entry.id).Nodup :=
    ((order.perm w.entries).map Entry.id).nodup_iff.mpr h
  rw [List.map_map]
  exact hall.sublist (List.filter_sublist.map _)

/-- It does not matter in which order the entries are gone through. -/
theorem sweep_order (h : w.Keyed) (order : Enumeration) :
    w.sweep order picks outcome = w.sweep .byAge picks outcome :=
  completeEach_perm (((order.perm w.entries).filter picks).map _) (h.nodup_picked order ..)

theorem entries_sweep (h : w.Keyed) (order : Enumeration) :
    (w.sweep order picks outcome).2.entries = w.entries.filter fun e => !picks e := by
  rw [h.sweep_order, sweep, entries_completeEach, List.map_map]
  apply List.filter_congr
  intro e he
  congr 1
  rw [Bool.eq_iff_iff, List.contains_iff_mem]
  simp only [Enumeration.byAge, id_eq, List.mem_map, List.mem_filter, Function.comp_apply]
  constructor
  · rintro ⟨e', ⟨he', hpicked⟩, hid⟩
    rw [← h.eq_of_id he' he hid]
    exact hpicked
  · intro hpicked
    exact ⟨e, ⟨he, hpicked⟩, rfl⟩

theorem sweep (h : w.Keyed) (order : Enumeration) : (w.sweep order picks outcome).2.Keyed := by
  rw [Keyed, h.entries_sweep]
  exact List.Nodup.sublist (List.filter_sublist.map _) h

/-- Two sweeps are one sweep for both. -/
theorem sweep_sweep (h : w.Keyed) (order order' : Enumeration) (picks picks' : Entry → Bool)
    (outcome : Entry → Outcome α) :
    ((w.sweep order picks outcome).1 +
        ((w.sweep order picks outcome).2.sweep order' picks' outcome).1,
      ((w.sweep order picks outcome).2.sweep order' picks' outcome).2) =
      w.sweep .byAge (fun e => picks e || picks' e) outcome := by
  have hsplit : (w.entries.filter picks ++ (w.entries.filter fun e => !picks e).filter picks').Perm
      (w.entries.filter fun e => picks e || picks' e) := by
    have hparts := List.filter_append_perm picks (w.entries.filter fun e => picks e || picks' e)
    simp only [List.filter_filter] at hparts ⊢
    convert hparts using 2
    · apply List.filter_congr
      intro e _
      cases picks e <;> rfl
    · apply List.filter_congr
      intro e _
      cases picks e <;> simp
  rw [(h.sweep order).sweep_order order', h.sweep_order order]
  have hentries : (w.sweep .byAge picks outcome).2.entries = w.entries.filter fun e => !picks e :=
    h.entries_sweep .byAge
  simp only [Waitlist.sweep, Enumeration.byAge, id_eq] at hentries ⊢
  rw [hentries, ← completeEach_append, ← List.map_append]
  refine completeEach_perm (hsplit.map _) ?_
  have hnodup := h.nodup_picked .byAge (fun e => picks e || picks' e) outcome
  exact (((hsplit.map _).map Prod.fst).nodup_iff).mpr hnodup

end Keyed

theorem sweep_congr (order : Enumeration) (h : ∀ e ∈ w.entries, picks e = picks' e) :
    w.sweep order picks outcome = w.sweep order picks' outcome := by
  have hsame : (order.arrange w.entries).filter picks =
      (order.arrange w.entries).filter picks' :=
    List.filter_congr fun e he => h e ((order.perm w.entries).mem_iff.mp he)
  rw [sweep, sweep, hsame]

/-- Outcomes matter for the entries that are picked only. -/
theorem sweep_outcome_congr (order : Enumeration) {outcome' : Entry → Outcome α}
    (h : ∀ e, picks e → outcome e = outcome' e) :
    w.sweep order picks outcome = w.sweep order picks outcome' := by
  have hsame : (((order.arrange w.entries).filter picks).map fun e => (e.id, outcome e)) =
      ((order.arrange w.entries).filter picks).map fun e => (e.id, outcome' e) := by
    apply List.map_congr_left
    intro e he
    exact congrArg (e.id, ·) (h e (List.mem_filter.mp he).2)
  rw [sweep, sweep, hsame]

theorem sweep_of_none (order : Enumeration) (h : ∀ e ∈ w.entries, picks e = false) :
    w.sweep order picks outcome = (0, w) := by
  have hnone : (order.arrange w.entries).filter picks = [] := by
    apply List.filter_eq_nil_iff.mpr
    intro e he
    simpa using h e ((order.perm w.entries).mem_iff.mp he)
  rw [sweep, hnone]
  rfl

end Sweeps

end CounterCoordinator.Waitlist
