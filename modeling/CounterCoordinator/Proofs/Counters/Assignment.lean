import CounterCoordinator.Counters
import Mathlib.Tactic.Common

/-!
# Single assignments

An assignment either fails and leaves everything as it was, or it hands out the counter after the
current one. The committed counter stays put whatever happens.
-/
namespace CounterCoordinator.Counters

theorem assign_of_ok {s : Counters} {tx : TxId} {c : Version} (h : (s.assign tx).1 = .ok c) :
    c = s.current + 1 ∧
      (s.assign tx).2 = { s with current := c, active := (tx, c) :: s.active } := by
  unfold assign at h ⊢
  split at h
  · cases h
  · cases h
    exact ⟨rfl, rfl⟩

theorem assign_of_error {s : Counters} {tx : TxId} {cause : Error}
    (h : (s.assign tx).1 = .error cause) : (s.assign tx).2 = s := by
  unfold assign at h ⊢
  split at h
  · rfl
  · cases h

@[simp] theorem assign_committed (s : Counters) (tx : TxId) :
    (s.assign tx).2.committed = s.committed := by
  unfold assign
  split <;> rfl

@[simp] theorem ack_current (s : Counters) (tx : TxId) : (s.ack tx).2.current = s.current := rfl

@[simp] theorem ack_committed (s : Counters) (tx : TxId) :
    (s.ack tx).2.committed = s.committed := rfl

end CounterCoordinator.Counters
