import CounterCoordinator.Metrics.Histogram

/-!
# Protocol metrics

Event counters, gauges and the latency histogram of one node. Counters are 64-bit words and wrap
around; gauges hold the value last set.
-/
namespace CounterCoordinator

structure Metrics where
  txCountersAssigned : UInt64 := 0
  queryCountersAssigned : UInt64 := 0
  txAcksProcessed : UInt64 := 0
  protocolViolations : UInt64 := 0
  futuresRegistered : UInt64 := 0
  futuresCompleted : UInt64 := 0
  futuresCancelled : UInt64 := 0
  sendFailures : UInt64 := 0
  unmatchedResponses : UInt64 := 0
  droppedMessages : UInt64 := 0
  responseLatency : Histogram := Histogram.latency
  activeTransactions : UInt64 := 0
  pendingFutures : UInt64 := 0
  futuresAbandoned : UInt64 := 0
deriving Repr

namespace Metrics

inductive Counter where
  | txCountersAssigned
  | queryCountersAssigned
  | txAcksProcessed
  | protocolViolations
  | futuresRegistered
  | futuresCompleted
  | futuresCancelled
  | sendFailures
  | unmatchedResponses
  | droppedMessages
deriving DecidableEq, Repr

inductive Gauge where
  | activeTransactions
  | pendingFutures
  | futuresAbandoned
deriving DecidableEq, Repr

def get (m : Metrics) : Counter → UInt64
  | .txCountersAssigned => m.txCountersAssigned
  | .queryCountersAssigned => m.queryCountersAssigned
  | .txAcksProcessed => m.txAcksProcessed
  | .protocolViolations => m.protocolViolations
  | .futuresRegistered => m.futuresRegistered
  | .futuresCompleted => m.futuresCompleted
  | .futuresCancelled => m.futuresCancelled
  | .sendFailures => m.sendFailures
  | .unmatchedResponses => m.unmatchedResponses
  | .droppedMessages => m.droppedMessages

def add (m : Metrics) (c : Counter) (n : UInt64) : Metrics :=
  match c with
  | .txCountersAssigned => { m with txCountersAssigned := m.txCountersAssigned + n }
  | .queryCountersAssigned => { m with queryCountersAssigned := m.queryCountersAssigned + n }
  | .txAcksProcessed => { m with txAcksProcessed := m.txAcksProcessed + n }
  | .protocolViolations => { m with protocolViolations := m.protocolViolations + n }
  | .futuresRegistered => { m with futuresRegistered := m.futuresRegistered + n }
  | .futuresCompleted => { m with futuresCompleted := m.futuresCompleted + n }
  | .futuresCancelled => { m with futuresCancelled := m.futuresCancelled + n }
  | .sendFailures => { m with sendFailures := m.sendFailures + n }
  | .unmatchedResponses => { m with unmatchedResponses := m.unmatchedResponses + n }
  | .droppedMessages => { m with droppedMessages := m.droppedMessages + n }

/-- Raise a counter by one. -/
def bump (m : Metrics) (c : Counter) : Metrics := m.add c 1

def gauge (m : Metrics) : Gauge → UInt64
  | .activeTransactions => m.activeTransactions
  | .pendingFutures => m.pendingFutures
  | .futuresAbandoned => m.futuresAbandoned

def setGauge (m : Metrics) (g : Gauge) (n : UInt64) : Metrics :=
  match g with
  | .activeTransactions => { m with activeTransactions := n }
  | .pendingFutures => { m with pendingFutures := n }
  | .futuresAbandoned => { m with futuresAbandoned := n }

/-- Record a round trip of this many milliseconds. -/
def observeLatency (m : Metrics) (milliseconds : Float) : Metrics :=
  { m with responseLatency := m.responseLatency.observe milliseconds }

end Metrics
end CounterCoordinator
