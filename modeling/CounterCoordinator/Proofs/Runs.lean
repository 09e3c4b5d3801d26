import Mathlib.Logic.Relation

/-!
# Runs

Where not every move is allowed in every state, a run is made of moves each of which is allowed
where it is made. Whatever allowed moves keep holds after the run.
-/
namespace CounterCoordinator
variable {State Move : Type}

/-- All moves of a row are allowed, each at its place. -/
def AllAllowed (allowed : State → Move → Prop) (step : State → Move → State) (s : State) :
    List Move → Prop
  | [] => True
  | move :: moves => allowed s move ∧ AllAllowed allowed step (step s move) moves

namespace AllAllowed
variable {allowed : State → Move → Prop} {step : State → Move → State} {s : State}
  {moves : List Move}

theorem keeps {P : State → Prop} (hall : AllAllowed allowed step s moves) (hs : P s)
    (hstep : ∀ {s move}, P s → allowed s move → P (step s move)) : P (moves.foldl step s) := by
  induction moves generalizing s with
  | nil => exact hs
  | cons move moves ih => exact ih hall.2 (hstep hs hall.1)

theorem run (hall : AllAllowed allowed step s moves) :
    Relation.ReflTransGen (fun s s' => ∃ move, allowed s move ∧ s' = step s move) s
      (moves.foldl step s) :=
  hall.keeps .refl fun hrun hmove => hrun.tail ⟨_, hmove, rfl⟩

end AllAllowed

end CounterCoordinator
