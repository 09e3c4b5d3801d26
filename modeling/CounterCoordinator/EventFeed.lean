/-!
# Event feeds

A feed keeps the last `capacity` events. Each subscriber reads on from its own position, which is
the number of events sent before the one it wants next. A subscriber that fell behind what is kept
is told once how many events it missed, and goes on with the oldest one kept.
-/
namespace CounterCoordinator

structure EventFeed (α : Type) where
  capacity : Nat
  /-- Every event sent, oldest first. -/
  sent : List α := []
deriving DecidableEq, Repr

namespace EventFeed
variable {α : Type}

/-- What a subscriber reads. -/
inductive Reading (α : Type) where
  | event (e : α)
  | missed (count : Nat)
  | nothing
deriving DecidableEq, Repr

/-- The position of a new subscriber: it reads what is sent from now on. -/
def position (f : EventFeed α) : Nat := f.sent.length

def send (f : EventFeed α) (e : α) : EventFeed α := { f with sent := f.sent ++ [e] }

/-- The position of the oldest event kept. -/
def oldest (f : EventFeed α) : Nat := f.sent.length - f.capacity

/-- Read at a position, and the position after it. -/
def read (f : EventFeed α) (position : Nat) : Reading α × Nat :=
  if position < f.oldest then (.missed (f.oldest - position), f.oldest)
  else match f.sent[position]? with
    | some e => (.event e, position + 1)
    | none => (.nothing, position)

end EventFeed
end CounterCoordinator
