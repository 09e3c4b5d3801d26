import CounterCoordinator.Proofs.Fresh
import Mathlib.Tactic.Common

/-!
# Futures of a waitlist

Completing an id settles its future exactly if its entry is still there, and nothing else changes a
future but its own caller. `Settles` sums up what a row of completions and drops can do: it issues
no future, and whatever it resolves has an outcome that one of the completions carried.
-/
namespace CounterCoordinator

namespace Waitlist
variable {α : Type}

theorem lookup_updateFuture (id f : FutureId) (change : Future α → Future α)
    (l : List (FutureId × Future α)) :
    (updateFuture id change l).lookup f =
      if f = id then (l.lookup f).map change else l.lookup f := by
  induction l with
  | nil => simp [updateFuture]
  | cons x rest ih =>
    obtain ⟨i, g⟩ := x
    rw [lookup_cons_eq_ite, updateFuture]
    by_cases hi : i = id
    · rw [if_pos hi, lookup_cons_eq_ite]
      by_cases hf : f = i <;> simp_all
    · rw [if_neg hi, lookup_cons_eq_ite, ih]
      by_cases hf : f = i
      · simp [hf, hi]
      · simp [hf]

/-- Taking and finishing an entry in one go, without the detour through the held ones. -/
theorem complete_eq (w : Waitlist α) (id : FutureId) (outcome : Outcome α) :
    w.complete id outcome =
      if w.contains id then
        (true, { w with
          entries := without id w.entries
          held := without id w.held
          futures := updateFuture id (Future.resolve outcome) w.futures })
      else (false, w) := by
  unfold complete take contains
  cases h : w.find? id with
  | none => simp
  | some e =>
    have he : e.id = id := by simpa using List.find?_some h
    simp [finish, resolve, without, he]

@[simp] theorem complete_won (w : Waitlist α) (id : FutureId) (outcome : Outcome α) :
    (w.complete id outcome).1 = w.contains id := by
  rw [complete_eq]
  split <;> simp_all

@[simp] theorem future?_register (w : Waitlist α) (id f : FutureId) (target : NodeId) :
    (w.register id target).future? f = if f = id then some .waiting else w.future? f := by
  exact lookup_cons_eq_ite id f .waiting w.futures

theorem future?_complete (w : Waitlist α) (id f : FutureId) (outcome : Outcome α) :
    (w.complete id outcome).2.future? f =
      if f = id ∧ w.contains id then (w.future? f).map (Future.resolve outcome)
      else w.future? f := by
  rw [complete_eq]
  by_cases hc : w.contains id <;> simp [hc, future?, lookup_updateFuture]

theorem future?_drop (w : Waitlist α) (id f : FutureId) :
    (w.drop id).future? f =
      if f = id then (w.future? f).map fun _ => .dropped else w.future? f := by
  unfold drop
  split <;> simp [future?, lookup_updateFuture]

structure Settles (P : FutureId → Outcome α → Prop) (w w' : Waitlist α) : Prop where
  known : ∀ f, (w'.future? f).isSome → (w.future? f).isSome
  resolved : ∀ f o, w'.future? f = some (.resolved o) → w.future? f = some (.resolved o) ∨ P f o

namespace Settles
variable {P Q : FutureId → Outcome α → Prop} {w w' w'' : Waitlist α}

theorem refl (w : Waitlist α) : Settles P w w :=
  ⟨fun _ h => h, fun _ _ h => .inl h⟩

theorem trans (h : Settles P w w') (h' : Settles P w' w'') : Settles P w w'' := by
  refine ⟨fun f hf => h.known f (h'.known f hf), ?_⟩
  intro f o hf
  rcases h'.resolved f o hf with hf | hf
  · exact h.resolved f o hf
  · exact .inr hf

theorem mono (h : Settles P w w') (hPQ : ∀ f o, P f o → Q f o) : Settles Q w w' :=
  ⟨h.known, fun f o hf => (h.resolved f o hf).imp_right (hPQ f o)⟩

end Settles

theorem settles_complete (w : Waitlist α) (id : FutureId) (outcome : Outcome α) :
    Settles (fun f o => f = id ∧ o = outcome) w (w.complete id outcome).2 := by
  constructor
  · intro f hf
    rw [future?_complete] at hf
    split at hf <;> simpa using hf
  · intro f o hf
    rw [future?_complete] at hf
    split at hf
    · rename_i h
      cases hg : w.future? f with
      | none => simp [hg] at hf
      | some g => cases g <;> simp_all [Future.resolve]
    · exact .inl hf

theorem settles_completeEach (w : Waitlist α) (l : List (FutureId × Outcome α)) :
    Settles (fun f o => (f, o) ∈ l) w (w.completeEach l).2 := by
  induction l generalizing w with
  | nil => exact .refl w
  | cons x rest ih =>
    obtain ⟨id, outcome⟩ := x
    have first := (settles_complete w id outcome).mono
      (Q := fun f o => (f, o) ∈ (id, outcome) :: rest) (by rintro f o ⟨rfl, rfl⟩; simp)
    exact first.trans ((ih _).mono fun f o h => List.mem_cons_of_mem _ h)

theorem settles_completeAllFor (w : Waitlist α) (target : NodeId) (outcome : Outcome α) :
    Settles (fun f o => o = outcome ∧ ∃ e ∈ w.entries, e.id = f ∧ e.target = target) w
      (w.completeAllFor target outcome).2 := by
  refine (settles_completeEach w _).mono ?_
  simp only [idsFor, List.mem_map, List.mem_filter, beq_iff_eq, Prod.mk.injEq]
  rintro f o ⟨-, ⟨e, ⟨he, htarget⟩, rfl⟩, rfl, rfl⟩
  exact ⟨rfl, e, he, rfl, htarget⟩

theorem settles_completeAllGone (w : Waitlist α) (alive : NodeId → Bool)
    (outcome : NodeId → Outcome α) :
    Settles (fun f o => ∃ e ∈ w.entries, e.id = f ∧ alive e.target = false ∧ o = outcome e.target) w
      (w.completeAllGone alive outcome).2 := by
  refine (settles_completeEach w _).mono ?_
  simp only [List.mem_map, List.mem_filter, Bool.not_eq_true', Prod.mk.injEq]
  rintro f o ⟨e, ⟨he, hgone⟩, rfl, rfl⟩
  exact ⟨e, he, rfl, hgone, rfl⟩

theorem settles_drop (w : Waitlist α) (id : FutureId) :
    Settles (fun _ _ => False) w (w.drop id) := by
  constructor
  · intro f hf
    rw [future?_drop] at hf
    split at hf <;> simpa using hf
  · intro f o hf
    rw [future?_drop] at hf
    split at hf
    · simp at hf
    · exact .inl hf

end Waitlist
end CounterCoordinator
