import CounterCoordinator.Proofs.Fresh
import CounterCoordinator.Proofs.Waitlist.Futures

/-!
# The load of a waitlist

Every request entered into a waitlist is waiting, completed or abandoned. The load counts those that
were not completed; so completing requests lowers it by exactly the number of completions that won,
and giving a future up does not change it. All this rests on waiting requests having distinct ids,
which fresh ids preserve.
-/
namespace CounterCoordinator.Waitlist
variable {α : Type} {w : Waitlist α} {last : FutureId}

/-- The requests that wait or were abandoned. -/
def load (w : Waitlist α) : Nat := w.size + w.abandoned.toNat

structure Distinct (w : Waitlist α) (last : FutureId) : Prop where
  nodup : (w.entries.map Entry.id).Nodup
  issued : ∀ e ∈ w.entries, e.id.toNat ≤ last.toNat

theorem mem_of_contains {id : FutureId} (h : w.contains id) : ∃ e ∈ w.entries, e.id = id := by
  obtain ⟨e, he⟩ := Option.isSome_iff_exists.mp h
  exact ⟨e, List.mem_of_find?_eq_some he, by simpa using List.find?_some he⟩

theorem length_without {id : FutureId} {l : List Entry} (hnodup : (l.map Entry.id).Nodup)
    (hmem : ∃ e ∈ l, e.id = id) : (without id l).length + 1 = l.length := by
  induction l with
  | nil => simp at hmem
  | cons e rest ih =>
    simp only [List.map_cons, List.nodup_cons, List.mem_map, not_exists, not_and] at hnodup
    by_cases he : e.id = id
    · have hrest : without id rest = rest := by
        apply List.filter_eq_self.mpr
        intro x hx
        have hne := hnodup.1 x hx
        simp only [bne_iff_ne, ne_eq]
        exact fun h => hne (h.trans he.symm)
      have hskip : without id (e :: rest) = without id rest := by simp [without, he]
      rw [hskip, hrest, List.length_cons]
    · have hlater : ∃ x ∈ rest, x.id = id := by
        obtain ⟨x, hx, hid⟩ := hmem
        rcases List.mem_cons.mp hx with rfl | hx
        · exact absurd hid he
        · exact ⟨x, hx, hid⟩
      have hshort := ih hnodup.2 hlater
      have hkeep : without id (e :: rest) = e :: without id rest := by
        simp [without, he]
      rw [hkeep, List.length_cons, List.length_cons]
      omega

namespace Distinct

theorem mono {last' : FutureId} (h : w.Distinct last) (hle : last.toNat ≤ last'.toNat) :
    w.Distinct last' :=
  ⟨h.nodup, fun e he => Nat.le_trans (h.issued e he) hle⟩

theorem register {id : FutureId} (h : w.Distinct last) (hid : id.toNat = last.toNat + 1)
    (target : NodeId) : (w.register id target).Distinct id := by
  constructor
  · apply nodup_map_concat h.nodup
    intro e he heq
    have hle := h.issued e he
    replace heq : e.id = id := heq
    rw [heq] at hle
    omega
  · intro e he
    rcases List.mem_append.mp he with he | he
    · have := h.issued e he
      omega
    · simp [List.mem_singleton.mp he]

theorem of_sublist {w' : Waitlist α} (h : w.Distinct last)
    (hsub : List.Sublist w'.entries w.entries) : w'.Distinct last :=
  ⟨h.nodup.sublist (hsub.map _), fun e he => h.issued e (hsub.subset he)⟩

theorem complete (h : w.Distinct last) (id : FutureId) (outcome : Outcome α) :
    (w.complete id outcome).2.Distinct last := by
  apply h.of_sublist
  rw [complete_eq]
  split
  · exact List.filter_sublist
  · exact List.Sublist.refl _

theorem completeEach (h : w.Distinct last) (l : List (FutureId × Outcome α)) :
    (w.completeEach l).2.Distinct last := by
  induction l generalizing w with
  | nil => exact h
  | cons x rest ih => exact ih (h.complete x.1 x.2)

theorem drop (h : w.Distinct last) (id : FutureId) : (w.drop id).Distinct last := by
  apply h.of_sublist
  unfold Waitlist.drop
  split
  · exact List.filter_sublist
  · exact List.Sublist.refl _

end Distinct

theorem load_register (w : Waitlist α) (id : FutureId) (target : NodeId) :
    (w.register id target).load = w.load + 1 := by
  simp only [load, size, register, List.length_append, List.length_singleton]
  omega

theorem load_complete (h : w.Distinct last) (id : FutureId) (outcome : Outcome α) :
    (if w.contains id then 1 else 0) + (w.complete id outcome).2.load = w.load := by
  rw [complete_eq]
  by_cases hc : w.contains id
  · have hlength := length_without h.nodup (mem_of_contains hc)
    simp only [hc, if_true, load, size]
    omega
  · simp [hc]

theorem load_completeEach (h : w.Distinct last) (l : List (FutureId × Outcome α)) :
    (w.completeEach l).1 + (w.completeEach l).2.load = w.load := by
  induction l generalizing w with
  | nil => simp [completeEach]
  | cons x rest ih =>
    have first := load_complete h x.1 x.2
    have later := ih (h.complete x.1 x.2)
    simp only [completeEach, complete_won]
    by_cases hc : w.contains x.1
    · simp only [hc, if_true] at first ⊢
      omega
    · simp only [hc, Bool.false_eq_true, if_false] at first ⊢
      omega

/-- Dropping a waiting future moves it from the waiting to the abandoned ones. -/
theorem load_drop (h : w.Distinct last) (hload : w.load < UInt64.size) (id : FutureId) :
    (w.drop id).load = w.load := by
  unfold drop
  split
  · rename_i hc
    have hlength := length_without h.nodup (mem_of_contains hc)
    have hone : w.abandoned.toNat + 1 < UInt64.size := by
      unfold load size at hload
      omega
    have hadd : (w.abandoned + 1).toNat = w.abandoned.toNat + 1 :=
      toNat_add_of_lt hone
    simp only [load, size, hadd]
    omega
  · rfl

end CounterCoordinator.Waitlist
