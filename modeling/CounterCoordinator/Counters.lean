import CounterCoordinator.Error

/-!
# Counters of a coordinator

A coordinator holds the last counter it assigned, the committed watermark and the counters of the
transactions that are still active. Assigning moves the counter on by one and makes the transaction
active; a transaction that is active already is refused and nothing changes. Queries read the
watermark and are not tracked.
-/
namespace CounterCoordinator

structure Counters where
  current : Version := 0
  committed : Version := 0
  active : List (TxId × Version) := []
deriving DecidableEq, Repr

namespace Counters

/-- The counter an active transaction holds. -/
def activeCounter? (s : Counters) (tx : TxId) : Option Version :=
  s.active.lookup tx

def activeCount (s : Counters) : Nat := s.active.length

/-- Give the next counter to a transaction that is not active. -/
def assign (s : Counters) (tx : TxId) : Except Error Version × Counters :=
  match s.activeCounter? tx with
  | some held => (.error (.alreadyActive tx held), s)
  | none =>
      let counter := s.current + 1
      (.ok counter, { s with current := counter, active := (tx, counter) :: s.active })

/-- The snapshot boundary for a query. -/
def query (s : Counters) : Version := s.committed

/-- Forget a finished transaction and tell the counter it held; unknown ones are ignored. -/
def ack (s : Counters) (tx : TxId) : Option Version × Counters :=
  (s.activeCounter? tx, { s with active := s.active.filter fun e => e.1 ≠ tx })

/-- Release a query's snapshot. Snapshots are not reserved, so nothing changes. -/
def queryDone (s : Counters) (_counter : Version) : Counters := s

end Counters
end CounterCoordinator
