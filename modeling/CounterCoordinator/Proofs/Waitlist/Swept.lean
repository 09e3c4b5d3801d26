import CounterCoordinator.Proofs.Waitlist.Stages

/-!
# What a sweep leaves behind

A sweep completes what it picks and nothing else: the entries it picks are gone and their futures
have their outcomes, every other entry stays, and so does every other future, whatever has become of
it. The count of the sweep says how many futures it resolved.
-/
namespace CounterCoordinator.Waitlist
variable {α : Type}

/-- From `w` to `w'` the entries that `picks` is true of were completed, each with its outcome, and
nothing else was done. -/
structure Swept (w w' : Waitlist α) (picks : Entry → Bool) (outcome : Entry → Outcome α) :
    Prop where
  entries : w'.entries = w.entries.filter fun e => !picks e
  distinct : ((w.entries.filter picks).map Entry.id).Nodup
  waited : ∀ e ∈ w.entries.filter picks, w.future? e.id = some .waiting
  settled : ∀ e ∈ w.entries.filter picks, w'.future? e.id = some (.resolved (outcome e))
  others : ∀ f ∉ (w.entries.filter picks).map Entry.id, w'.future? f = w.future? f
  held : w'.held = w.held
  abandoned : w'.abandoned = w.abandoned

variable {w : Waitlist α} {last : FutureId}

/-- Nothing is taken from a target that no picked entry has. -/
theorem Swept.idsFor_other {w' : Waitlist α} {picks : Entry → Bool} {outcome : Entry → Outcome α}
    {target : NodeId} (h : w.Swept w' picks outcome) (hother : ∀ e, picks e → e.target ≠ target) :
    w'.idsFor target = w.idsFor target := by
  rw [idsFor, idsFor, h.entries, List.filter_filter]
  congr 1
  apply List.filter_congr
  intro e _
  by_cases he : e.target = target
  · have hkept : picks e = false := Bool.eq_false_iff.mpr fun hpicked => hother e hpicked he
    simp [he, hkept]
  · simp [he]

theorem Keyed.find?_of_mem (h : w.Keyed) {e : Entry} (he : e ∈ w.entries) :
    w.find? e.id = some e := by
  obtain ⟨e', he'⟩ := Option.isSome_iff_exists.mp (contains_iff.mpr ⟨e, he, rfl⟩)
  have hid : e'.id = e.id := by simpa using List.find?_some he'
  rw [he', h.eq_of_id (List.mem_of_find?_eq_some he') he hid]

theorem mem_of_found {f : FutureId} {e : Entry} (h : w.find? f = some e) :
    e ∈ w.entries ∧ e.id = f :=
  ⟨List.mem_of_find?_eq_some h, by simpa using List.find?_some h⟩

theorem held_complete {id : FutureId} (h : w.holds id = false) (o : Outcome α) :
    (w.complete id o).2.held = w.held := by
  rw [complete_eq]
  split
  · apply List.filter_eq_self.mpr
    intro e he
    have hother := List.any_eq_false.mp h e he
    simpa using hother
  · rfl

theorem held_completeEach {l : List (FutureId × Outcome α)} (h : ∀ x ∈ l, w.holds x.1 = false) :
    (w.completeEach l).2.held = w.held := by
  induction l generalizing w with
  | nil => rfl
  | cons x rest ih =>
    have hfirst := held_complete (h x (.head _)) x.2
    refine (ih (w := (w.complete x.1 x.2).2) fun y hy => ?_).trans hfirst
    rw [holds, hfirst]
    exact h y (.tail _ hy)

/-- The count of a row of completions is the number of entries that are missing afterwards. -/
theorem size_completeEach (h : w.Distinct last) (l : List (FutureId × Outcome α)) :
    (w.completeEach l).1 + (w.completeEach l).2.size = w.size := by
  have hload := load_completeEach h l
  rw [load, load, abandoned_completeEach] at hload
  omega

namespace Staged
variable (h : w.Staged last)
include h

theorem shows_listed {e : Entry} (he : e ∈ w.entries) : w.Shows e.id (.listed e) := by
  obtain ⟨s, hs⟩ := h.shows e.id
  have hfound := hs.entry.symm.trans (h.distinct.keyed.find?_of_mem he)
  cases s with
  | listed e' =>
    cases hfound
    exact hs
  | unissued | taken | resolved | dropped => cases hfound

theorem waiting_of_mem {e : Entry} (he : e ∈ w.entries) : w.future? e.id = some .waiting :=
  (h.shows_listed he).future

theorem sweep (order : Enumeration) (picks : Entry → Bool) (outcome : Entry → Outcome α) :
    (w.sweep order picks outcome).2.Staged last := by
  refine ⟨h.distinct.completeEach _, ?_, ?_⟩
  · intro f
    obtain ⟨s, hs⟩ := h.shows f
    exact ⟨_, hs.sweep h.distinct.keyed order picks outcome⟩
  · intro f hf
    have hknown := (settles_completeEach w _).known f (Option.isSome_iff_ne_none.mpr hf)
    exact h.issued f (Option.isSome_iff_ne_none.mp hknown)

theorem swept (order : Enumeration) (picks : Entry → Bool) (outcome : Entry → Outcome α) :
    w.Swept (w.sweep order picks outcome).2 picks outcome := by
  have hkeyed := h.distinct.keyed
  constructor
  · exact hkeyed.entries_sweep order
  · exact List.Nodup.sublist (List.filter_sublist.map _) hkeyed
  · intro e he
    exact h.waiting_of_mem (List.mem_filter.mp he).1
  · intro e he
    obtain ⟨he, hpicked⟩ := List.mem_filter.mp he
    have hafter := (h.shows_listed he).sweep hkeyed order picks outcome
    rw [Stage.sweep, if_pos hpicked] at hafter
    exact hafter.future
  · intro f hf
    obtain ⟨s, hs⟩ := h.shows f
    have hafter := hs.sweep hkeyed order picks outcome
    rw [hafter.future, hs.future]
    cases s with
    | listed e =>
      -- were the entry picked, its future would be among those of the sweep
      obtain ⟨he, rfl⟩ := mem_of_found hs.entry
      have hleft : ¬ picks e := fun hpicked =>
        hf (List.mem_map_of_mem (List.mem_filter.mpr ⟨he, hpicked⟩))
      rw [Stage.sweep, if_neg hleft]
    | unissued | taken | resolved | dropped => rfl
  · apply held_completeEach
    intro x hx
    obtain ⟨e, he, rfl⟩ := List.mem_map.mp hx
    exact (h.shows_listed ((order.perm _).mem_iff.mp (List.mem_filter.mp he).1)).held
  · exact abandoned_completeEach _

theorem count_sweep (order : Enumeration) (picks : Entry → Bool) (outcome : Entry → Outcome α) :
    (w.sweep order picks outcome).1 = (w.entries.filter picks).length := by
  have hsize : (w.sweep order picks outcome).1 + (w.sweep order picks outcome).2.size = w.size :=
    size_completeEach h.distinct _
  rw [size, size, h.distinct.keyed.entries_sweep order] at hsize
  have hparts := List.length_eq_length_filter_add (l := w.entries) picks
  omega

end Staged
end CounterCoordinator.Waitlist
