import CounterCoordinator.Waitlist
import Mathlib.Data.List.Nodup

/-!
# Fresh names

Future ids, join orders and node identities tell things apart because a new one differs from all
before it. For numbers that are counted up this means that counting never wraps around. A
name that is bound again has its newest binding.
-/
namespace CounterCoordinator

theorem toNat_add_of_lt {a b : UInt64} (h : a.toNat + b.toNat < UInt64.size) :
    (a + b).toNat = a.toNat + b.toNat := by
  rw [UInt64.toNat_add]
  exact Nat.mod_eq_of_lt h

/-- As long as ids last, the source counts up and never returns to `noFuture`. -/
theorem IdSource.toNat_next {s : IdSource} (h : s.last.toNat + 1 < UInt64.size) :
    s.next.1.toNat = s.last.toNat + 1 :=
  toNat_add_of_lt h

theorem lookup_cons_eq_ite {α β : Type} [BEq α] [LawfulBEq α] [DecidableEq α] (a b : α) (c : β)
    (l : List (α × β)) : ((a, c) :: l).lookup b = if b = a then some c else l.lookup b := by
  by_cases h : b = a
  · simp [h]
  · simp [List.lookup_cons, h, beq_false_of_ne h]

theorem nodup_map_concat {α β : Type} {f : α → β} {l : List α} {x : α} (h : (l.map f).Nodup)
    (hx : ∀ a ∈ l, f a ≠ f x) : ((l ++ [x]).map f).Nodup := by
  rw [List.map_append, List.map_singleton, ← List.concat_eq_append, List.nodup_concat]
  refine ⟨?_, h⟩
  intro hmem
  obtain ⟨a, ha, heq⟩ := List.mem_map.mp hmem
  exact hx a ha heq

end CounterCoordinator
