/-!
# Transaction identifiers

A transaction is named by the topology version it started under, a sequence number of its node and
the join order of that node. Identifiers compare by these three in that order. A `Generator` hands
out the identifiers of one node; its sequence number grows with every call, whatever the version.
-/
namespace CounterCoordinator

structure TxId where
  topologyVersion : UInt64
  order : UInt64
  nodeOrder : UInt64
deriving DecidableEq, Repr, Inhabited

namespace TxId

/-- Lexicographic comparison by version, sequence number and node order. -/
def compare (a b : TxId) : Ordering :=
  (Ord.compare a.topologyVersion b.topologyVersion).then
    ((Ord.compare a.order b.order).then (Ord.compare a.nodeOrder b.nodeOrder))

instance : Ord TxId := ⟨compare⟩

/-- Identifiers in ascending order; equal ones keep their places. -/
def sort (txs : List TxId) : List TxId :=
  txs.mergeSort fun a b => (compare a b).isLE

/-- The text shown in messages. -/
def text (t : TxId) : String :=
  s!"TxId[topVer={t.topologyVersion}, order={t.order}, nodeOrder={t.nodeOrder}]"

/-- The source of one node's identifiers. -/
structure Generator where
  nodeOrder : UInt64
  /-- The last sequence number handed out. -/
  last : UInt64 := 0
deriving DecidableEq, Repr

/-- The next identifier under a topology version, and the generator after it. -/
def Generator.next (g : Generator) (version : UInt64) : TxId × Generator :=
  (⟨version, g.last + 1, g.nodeOrder⟩, { g with last := g.last + 1 })

/-- The identifiers for a row of versions, in call order. -/
def Generator.run (g : Generator) : List UInt64 → List TxId × Generator
  | [] => ([], g)
  | v :: vs =>
      let (t, g) := g.next v
      let (ts, g) := g.run vs
      (t :: ts, g)

end TxId
end CounterCoordinator
