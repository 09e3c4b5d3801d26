import CounterCoordinator.Decimal.Layout
import CounterCoordinator.Metrics

/-!
# Text exposition of metrics

Metrics are published as lines of text: for each family a line with its help, a line with its type
and a line for each sample. `exposition` lists the lines as values, so that a reader can tell
samples that depend on a clock from those that do not.
-/
namespace CounterCoordinator.Metrics

inductive Family where
  | counter
  | gauge
  | histogram
deriving DecidableEq, Repr

def Family.text : Family → String
  | counter => "counter"
  | gauge => "gauge"
  | histogram => "histogram"

/-- One line of the exposition. -/
inductive Line where
  | help (name text : String)
  | type (name : String) (family : Family)
  | sample (name : String) (value : String)
  /-- A histogram bucket; without a boundary it counts every value. -/
  | bucket (name : String) (boundary : Option Float) (count : UInt64)
deriving Repr

/-- The labelled name of a histogram bucket. -/
def bucketName (name : String) (boundary : Option Float) : String :=
  let bound := match boundary with
    | none => "+Inf"
    | some b =>
        if b == 1.0 / 0.0 || b == -1.0 / 0.0 then "+Inf" else Decimal.Layout.plain.text b
  name ++ "_bucket\x7ble=\"" ++ bound ++ "\"\x7d"

def Line.text : Line → String
  | help name text => s!"# HELP {name} {text}"
  | type name family => s!"# TYPE {name} {family.text}"
  | sample name value => s!"{name} {value}"
  | bucket name boundary count => bucketName name boundary ++ " " ++ toString count

/-- Name and help of the counters, in publication order. -/
def counterFamilies : List (Counter × String × String) :=
  [(.txCountersAssigned, "mvcc_tx_counters_assigned_total",
      "Transaction counters assigned by this coordinator"),
    (.queryCountersAssigned, "mvcc_query_counters_assigned_total",
      "Query counters handed out by this coordinator"),
    (.txAcksProcessed, "mvcc_tx_acks_processed_total",
      "Commit and rollback acks processed"),
    (.protocolViolations, "mvcc_protocol_violations_total",
      "Duplicate transaction registrations rejected"),
    (.futuresRegistered, "mvcc_futures_registered_total",
      "Pending futures registered"),
    (.futuresCompleted, "mvcc_futures_completed_total",
      "Pending futures completed by a response or at send time"),
    (.futuresCancelled, "mvcc_futures_cancelled_total",
      "Pending futures cancelled by coordinator loss"),
    (.sendFailures, "mvcc_send_failures_total",
      "Messages that could not be sent"),
    (.unmatchedResponses, "mvcc_unmatched_responses_total",
      "Responses without a pending future"),
    (.droppedMessages, "mvcc_dropped_messages_total",
      "Inbound messages that could not be decoded")]

/-- Name and help of the gauges, in publication order. -/
def gaugeFamilies : List (Gauge × String × String) :=
  [(.activeTransactions, "mvcc_active_transactions",
      "Transactions holding a counter"),
    (.pendingFutures, "mvcc_pending_futures",
      "Requests awaiting a coordinator response"),
    (.futuresAbandoned, "mvcc_futures_abandoned",
      "Requests dropped by the caller before completion")]

def uptimeName : String := "mvcc_uptime_seconds"

def latencyName : String := "mvcc_response_latency_ms"

/-- All lines, for a node that has been up for the given whole seconds. -/
def exposition (m : Metrics) (uptime : Nat) : List Line :=
  let counters := counterFamilies.flatMap fun (c, name, help) =>
    [.help name help, .type name .counter, .sample name (toString (m.get c))]
  let gauges := gaugeFamilies.flatMap fun (g, name, help) =>
    [.help name help, .type name .gauge, .sample name (toString (m.gauge g))]
  let up := [.help uptimeName "Node uptime in seconds", .type uptimeName .gauge,
    .sample uptimeName (toString uptime)]
  let buckets := m.responseLatency.cumulative.map fun (b, n) => Line.bucket latencyName b n
  let latency := [.help latencyName "Request round trip in milliseconds",
      .type latencyName .histogram] ++ buckets ++
    [.sample (latencyName ++ "_sum") (Decimal.Layout.plain.text m.responseLatency.sum),
      .sample (latencyName ++ "_count") (toString m.responseLatency.count)]
  counters ++ gauges ++ up ++ latency

/-- Does a line show a reading of the node's uptime? -/
def Line.showsUptime : Line → Bool
  | sample name _ => name == uptimeName
  | _ => false

/-- Does a line show how long round trips took, rather than how many there were? -/
def Line.showsLatency : Line → Bool
  | sample name _ => name == latencyName ++ "_sum"
  | bucket _ boundary _ => boundary.isSome
  | _ => false

/-- A line with the value of its sample replaced by `mark`. -/
def Line.masked (mark : String) : Line → Line
  | sample name _ => .sample name mark
  | bucket name boundary _ => .sample (bucketName name boundary) mark
  | line => line

/-- The lines as one text, each ended by a line feed. -/
def Line.join (lines : List Line) : String :=
  String.join (lines.map fun l => l.text ++ "\n")

end CounterCoordinator.Metrics
