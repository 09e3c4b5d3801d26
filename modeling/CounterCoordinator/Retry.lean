import CounterCoordinator.Log.Notice

/-!
# Retrying with a growing delay

An attempt that fails with a retryable error is repeated after a delay, as long as attempts are
left; the delay doubles each time. Any other outcome ends the run, and a delay that doubles out of
range breaks it off. The attempts are given as a function from their number, so the run is a value:
its outcome, the attempts and the pauses in the order in which they were made, and the reports.
-/
namespace CounterCoordinator

/-- A step of a run: an attempt, by its number, or a pause. -/
inductive Retry.Event where
  | attempted (number : Nat)
  | slept (delay : Span)
deriving DecidableEq, Repr

structure Retry (α : Type) where
  /-- What is returned. If the run broke off, nothing is, and this is its last failure. -/
  outcome : Outcome α
  events : List Retry.Event := []
  log : List Log.Notice := []
  brokenOff : Bool := false
deriving Repr

namespace Retry
variable {α : Type}

def Event.isAttempt : Event → Bool
  | attempted _ => true
  | slept _ => false

def Event.pause? : Event → Option Span
  | attempted _ => none
  | slept delay => some delay

def attempts (r : Retry α) : Nat := r.events.countP Event.isAttempt

def slept (r : Retry α) : List Span := r.events.filterMap Event.pause?

/-- The time slept altogether. -/
def sleepTime (r : Retry α) : Span := ⟨r.slept.foldl (fun n d => n + d.nanos) 0⟩

/-- The failure of a run that may make no attempt at all. -/
def exhausted : Error := .internal "Max retries exceeded"

/-- Is another attempt made after this error, when `left` more are allowed? -/
def again (cause : Error) (left : Nat) : Bool :=
  cause.isRetryable && decide (0 < left)

/-- The run that continues with `rest` after a failed attempt and a pause. -/
def after (number : Nat) (cause : Error) (delay : Span) (rest : Retry α) : Retry α :=
  { rest with
    events := .attempted number :: .slept delay :: rest.events
    log := .retrying number cause delay :: rest.log }

/-- Attempts from number `made + 1` on, of which `left` more may be made. -/
def runFrom (attempt : Nat → Outcome α) (made : Nat) (delay : Span) : Nat → Retry α
  | 0 => { outcome := .error exhausted }
  | left + 1 =>
      match attempt made with
      | .ok v => { outcome := .ok v, events := [.attempted (made + 1)] }
      | .error cause =>
          if again cause left then
            after (made + 1) cause delay <|
              match delay.double? with
              | some longer => runFrom attempt (made + 1) longer left
              | none => { outcome := .error cause, brokenOff := true }
          else { outcome := .error cause, events := [.attempted (made + 1)] }

/-- At most `max` attempts, the first delay being `delay`. -/
def run (attempt : Nat → Outcome α) (max : Nat) (delay : Span) : Retry α :=
  runFrom attempt 0 delay max

end Retry
end CounterCoordinator
