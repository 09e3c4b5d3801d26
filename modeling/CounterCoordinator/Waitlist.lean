import CounterCoordinator.Error

/-!
# Waitlists

A waitlist holds the requests that wait for the answer of a node, one entry for each, and the
futures that will hold their answers. Whoever completes a request takes its entry out first, so of
several parties only the one that finds the entry settles the future, and no future is settled
twice. An entry that was taken but not yet completed is held. A future dropped by its caller takes
its own entry along and counts as abandoned; once its entry has been taken, dropping it has no
further effect.
-/
namespace CounterCoordinator

/-- The source of future ids. It is shared by all waitlists, so an id names one future only. -/
structure IdSource where
  last : FutureId := noFuture
deriving DecidableEq, Repr

def IdSource.next (s : IdSource) : FutureId × IdSource :=
  (s.last + 1, ⟨s.last + 1⟩)

/-- The caller's side of a request. -/
inductive Future (α : Type) where
  | waiting
  | resolved (outcome : Outcome α)
  | dropped
deriving Repr

/-- Settle a future that is still waiting. -/
def Future.resolve {α : Type} (outcome : Outcome α) : Future α → Future α
  | waiting => resolved outcome
  | f => f

/-- A one-line description of a future for debugging. -/
def describeFuture (id : FutureId) : String :=
  s!"CoordinatorFuture \x7b id: {id} \x7d"

/-- A request and the node that has to answer it. -/
structure Waitlist.Entry where
  id : FutureId
  target : NodeId
deriving DecidableEq, Repr

structure Waitlist (α : Type) where
  /-- Requests nobody has taken yet, oldest first. -/
  entries : List Waitlist.Entry := []
  /-- Requests taken out and not yet completed. -/
  held : List Waitlist.Entry := []
  /-- All futures ever issued, newest first. -/
  futures : List (FutureId × Future α) := []
  /-- Entries that went away because their future was dropped. -/
  abandoned : UInt64 := 0
deriving Repr

namespace Waitlist
variable {α : Type}

def size (w : Waitlist α) : Nat := w.entries.length

def find? (w : Waitlist α) (id : FutureId) : Option Entry :=
  w.entries.find? fun e => e.id == id

def contains (w : Waitlist α) (id : FutureId) : Bool :=
  (w.find? id).isSome

/-- The ids of the requests that wait for `target`, oldest first. -/
def idsFor (w : Waitlist α) (target : NodeId) : List FutureId :=
  (w.entries.filter fun e => e.target == target).map Entry.id

def countFor (w : Waitlist α) (target : NodeId) : Nat :=
  (w.idsFor target).length

/-- The future with an id; nothing if none was issued. -/
def future? (w : Waitlist α) (id : FutureId) : Option (Future α) :=
  w.futures.lookup id

/-- Change the newest future with this id. -/
def updateFuture (id : FutureId) (change : Future α → Future α) :
    List (FutureId × Future α) → List (FutureId × Future α)
  | [] => []
  | (i, f) :: rest =>
      if i = id then (i, change f) :: rest else (i, f) :: updateFuture id change rest

def without (id : FutureId) (entries : List Entry) : List Entry :=
  entries.filter fun e => e.id != id

/-- Enter a request to `target` under a fresh id. -/
def register (w : Waitlist α) (id : FutureId) (target : NodeId) : Waitlist α :=
  { w with entries := w.entries ++ [⟨id, target⟩], futures := (id, .waiting) :: w.futures }

/-- Settle the future of an id. -/
def resolve (w : Waitlist α) (id : FutureId) (outcome : Outcome α) : Waitlist α :=
  { w with futures := updateFuture id (Future.resolve outcome) w.futures }

/-- Take the entry of an id out and hold it; only one party gets it. -/
def take (w : Waitlist α) (id : FutureId) : Option Entry × Waitlist α :=
  match w.find? id with
  | some e => (some e, { w with entries := without id w.entries, held := e :: w.held })
  | none => (none, w)

/-- Complete a held entry; false if it is not held any more. -/
def finish (w : Waitlist α) (id : FutureId) (outcome : Outcome α) : Bool × Waitlist α :=
  if w.held.any (fun e => e.id == id) then
    (true, { w with held := without id w.held }.resolve id outcome)
  else (false, w)

/-- Let go of a held entry without completing it. -/
def discard (w : Waitlist α) (id : FutureId) : Bool × Waitlist α :=
  w.finish id (.error (.neverCompleted id))

/-- Take the entry of an id and complete it; false if somebody else was first. -/
def complete (w : Waitlist α) (id : FutureId) (outcome : Outcome α) : Bool × Waitlist α :=
  match w.take id with
  | (some _, w) => w.finish id outcome
  | (none, w) => (false, w)

/-- Complete ids one after the other; the count says how many of them were still waiting. -/
def completeEach (w : Waitlist α) : List (FutureId × Outcome α) → Nat × Waitlist α
  | [] => (0, w)
  | (id, outcome) :: rest =>
      let (won, w) := w.complete id outcome
      let (n, w) := w.completeEach rest
      (if won then n + 1 else n, w)

/-- Complete every request that waits for `target`. -/
def completeAllFor (w : Waitlist α) (target : NodeId) (outcome : Outcome α) : Nat × Waitlist α :=
  w.completeEach ((w.idsFor target).map fun id => (id, outcome))

/-- Complete every request whose target is not alive. -/
def completeAllGone (w : Waitlist α) (alive : NodeId → Bool) (outcome : NodeId → Outcome α) :
    Nat × Waitlist α :=
  w.completeEach
    ((w.entries.filter fun e => !alive e.target).map fun e => (e.id, outcome e.target))

/-- The caller gives the future up. -/
def drop (w : Waitlist α) (id : FutureId) : Waitlist α :=
  let gaveUp := { w with futures := updateFuture id (fun _ => .dropped) w.futures }
  if w.contains id then
    { gaveUp with entries := without id w.entries, abandoned := w.abandoned + 1 }
  else gaveUp

/-- Give the whole list up: what nobody took can never be completed. Held entries stay held. -/
def close (w : Waitlist α) : Waitlist α :=
  w.entries.foldl (fun w e => w.resolve e.id (.error (.neverCompleted e.id)))
    { w with entries := [] }

end Waitlist
end CounterCoordinator
