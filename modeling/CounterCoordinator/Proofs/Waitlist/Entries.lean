import CounterCoordinator.Proofs.Waitlist.Load
import Mathlib.Data.List.Perm.Basic

/-!
# Entries of a waitlist

Which requests wait after an operation. Completing or dropping an id takes its entry out and leaves
the others, so a waitlist only grows by registering; and completing all requests to a node, or to
nodes that are gone, leaves none of these behind.
-/
namespace CounterCoordinator.Waitlist
variable {α : Type} {w : Waitlist α} {e : Entry}

theorem contains_iff {id : FutureId} : w.contains id ↔ ∃ e ∈ w.entries, e.id = id := by
  simp [contains, find?]

theorem mem_entries_register {id : FutureId} {target : NodeId} :
    e ∈ (w.register id target).entries ↔ e ∈ w.entries ∨ e = ⟨id, target⟩ := by
  simp [register]

theorem mem_without {id : FutureId} {l : List Entry} : e ∈ without id l ↔ e ∈ l ∧ e.id ≠ id := by
  simp [without]

theorem without_eq_self {id : FutureId} (h : ¬ w.contains id) :
    without id w.entries = w.entries := by
  apply List.filter_eq_self.mpr
  intro e he
  have hne : e.id ≠ id := fun hid => h (contains_iff.mpr ⟨e, he, hid⟩)
  simpa using hne

theorem entries_complete (w : Waitlist α) (id : FutureId) (outcome : Outcome α) :
    (w.complete id outcome).2.entries = without id w.entries := by
  rw [complete_eq]
  split
  · rfl
  · rename_i hmissing
    exact (without_eq_self hmissing).symm

theorem mem_entries_of_refused {id : FutureId} {target : NodeId} {outcome : Outcome α}
    (h : e ∈ ((w.register id target).complete id outcome).2.entries) : e ∈ w.entries := by
  rw [entries_complete, mem_without] at h
  rcases mem_entries_register.mp h.1 with hmem | rfl
  · exact hmem
  · exact absurd rfl h.2

theorem entries_drop (w : Waitlist α) (id : FutureId) :
    (w.drop id).entries = without id w.entries := by
  unfold drop
  split
  · rfl
  · rename_i hmissing
    exact (without_eq_self hmissing).symm

theorem entries_completeEach (l : List (FutureId × Outcome α)) :
    (w.completeEach l).2.entries = w.entries.filter fun e => !(l.map Prod.fst).contains e.id := by
  induction l generalizing w with
  | nil => simp [completeEach]
  | cons x rest ih =>
    simp only [completeEach, ih, entries_complete, without, List.filter_filter, List.map_cons,
      List.contains_cons]
    apply List.filter_congr
    intro e _
    cases hx : e.id == x.1 <;> simp [hx, bne]

theorem mem_entries_completeEach {l : List (FutureId × Outcome α)} :
    e ∈ (w.completeEach l).2.entries ↔ e ∈ w.entries ∧ ∀ x ∈ l, e.id ≠ x.1 := by
  rw [entries_completeEach, List.mem_filter, Bool.not_eq_true', ← Bool.not_eq_true,
    List.contains_iff_mem, List.mem_map]
  refine and_congr_right fun _ => ⟨fun h x hx heq => h ⟨x, hx, heq.symm⟩, ?_⟩
  rintro h ⟨x, hx, heq⟩
  exact h x hx heq.symm

theorem mem_entries_completeAllFor {target : NodeId} {outcome : Outcome α}
    (h : e ∈ (w.completeAllFor target outcome).2.entries) : e ∈ w.entries ∧ e.target ≠ target := by
  obtain ⟨hmem, hids⟩ := mem_entries_completeEach.mp h
  refine ⟨hmem, ?_⟩
  intro htarget
  have hlisted : e.id ∈ w.idsFor target := by
    simp only [idsFor, List.mem_map, List.mem_filter, beq_iff_eq]
    exact ⟨e, ⟨hmem, htarget⟩, rfl⟩
  exact hids _ (List.mem_map_of_mem hlisted) rfl

theorem mem_entries_completeAllGone {alive : NodeId → Bool} {outcome : NodeId → Outcome α}
    (h : e ∈ (w.completeAllGone alive outcome).2.entries) : e ∈ w.entries ∧ alive e.target := by
  obtain ⟨hmem, hids⟩ := mem_entries_completeEach.mp h
  refine ⟨hmem, ?_⟩
  by_contra hgone
  have hlisted : e ∈ w.entries.filter fun e => !alive e.target :=
    List.mem_filter.mpr ⟨hmem, by simpa using hgone⟩
  exact hids _ (List.mem_map_of_mem hlisted) rfl

theorem countFor_eq_zero {target : NodeId} :
    w.countFor target = 0 ↔ ∀ e ∈ w.entries, e.target ≠ target := by
  simp [countFor, idsFor]

/-- With distinct ids an entry is taken out once. -/
theorem perm_ids_without {id : FutureId} (hnodup : (w.entries.map Entry.id).Nodup)
    (h : w.contains id) :
    (w.entries.map Entry.id).Perm (id :: (without id w.entries).map Entry.id) := by
  have hmem : id ∈ w.entries.map Entry.id := by simpa using contains_iff.mp h
  have herase : (w.entries.map Entry.id).erase id = (without id w.entries).map Entry.id := by
    rw [hnodup.erase_eq_filter, List.filter_map]
    rfl
  exact herase ▸ List.perm_cons_erase hmem

/-- The future waits with its entry, or it has its value. -/
def InOrder (w : Waitlist α) (f : FutureId) : Prop :=
  (w.contains f ∧ w.future? f = some .waiting) ∨ ∃ value, w.future? f = some (.resolved (.ok value))

theorem InOrder.register {f id : FutureId} (h : w.InOrder f ∨ f = id) (target : NodeId) :
    (w.register id target).InOrder f := by
  by_cases hf : f = id
  · refine .inl ⟨contains_iff.mpr ⟨⟨id, target⟩, mem_entries_register.mpr (.inr rfl), hf.symm⟩, ?_⟩
    rw [future?_register, if_pos hf]
  · rcases h.resolve_right hf with ⟨hc, hwaiting⟩ | ⟨value, hvalue⟩
    · obtain ⟨e, he, hid⟩ := contains_iff.mp hc
      refine .inl ⟨contains_iff.mpr ⟨e, mem_entries_register.mpr (.inl he), hid⟩, ?_⟩
      rw [future?_register, if_neg hf]
      exact hwaiting
    · refine .inr ⟨value, ?_⟩
      rw [future?_register, if_neg hf]
      exact hvalue

theorem InOrder.complete {f : FutureId} (h : w.InOrder f) (id : FutureId) (value : α) :
    (w.complete id (.ok value)).2.InOrder f := by
  rcases h with ⟨hc, hwaiting⟩ | ⟨old, hold⟩
  · by_cases hf : f = id
    · refine .inr ⟨value, ?_⟩
      rw [future?_complete, if_pos ⟨hf, hf ▸ hc⟩, hwaiting]
      rfl
    · obtain ⟨e, he, hid⟩ := contains_iff.mp hc
      refine .inl ⟨contains_iff.mpr ⟨e, ?_, hid⟩, ?_⟩
      · rw [entries_complete, mem_without]
        exact ⟨he, hid ▸ hf⟩
      · rw [future?_complete, if_neg fun h => hf h.1]
        exact hwaiting
  · refine .inr ⟨old, ?_⟩
    rw [future?_complete]
    split
    · rw [hold]
      rfl
    · exact hold

end CounterCoordinator.Waitlist
