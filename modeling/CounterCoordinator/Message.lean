import CounterCoordinator.Transaction

/-!
# Protocol messages

A requester puts the id of a future into each request it wants answered, and the coordinator's
response carries that id back. Rollback acknowledgements and query acknowledgements want no answer.
-/
namespace CounterCoordinator

/-- Names a future: the pending answer to one request. -/
abbrev FutureId := UInt64

/-- The id in messages that want no answer. -/
def noFuture : FutureId := 0

/-- A version counter of the store. -/
abbrev Version := Int64

inductive Message where
  /-- Assign a counter to a transaction. -/
  | txCounterRequest (future : FutureId) (tx : TxId)
  /-- Tell the snapshot boundary for a query. -/
  | queryCounterRequest (future : FutureId)
  /-- The answer to either counter request. -/
  | counterResponse (future : FutureId) (counter : Version)
  /-- A transaction is finished; `skip` asks for no answer. -/
  | txAckRequest (future : FutureId) (tx : TxId) (skip : Bool)
  /-- The answer to a transaction acknowledgement. -/
  | txAckResponse (future : FutureId)
  /-- A query is finished. -/
  | queryAckRequest (counter : Version)
deriving DecidableEq, Repr

/-- The name of a message's kind. -/
def Message.kind : Message → String
  | .txCounterRequest .. => "TxCounterRequest"
  | .queryCounterRequest .. => "QueryCounterRequest"
  | .counterResponse .. => "CounterResponse"
  | .txAckRequest .. => "TxAckRequest"
  | .txAckResponse .. => "TxAckResponse"
  | .queryAckRequest .. => "QueryAckRequest"

/-- The logical channels a transport carries. -/
inductive Channel where
  | coordinator
  | other (name : String)
deriving DecidableEq, Repr

def Channel.text : Channel → String
  | coordinator => "mvcc.coordinator"
  | other name => name

end CounterCoordinator
