import CounterCoordinator.Envelope
import CounterCoordinator.Manager

/-!
# Inbound messages of a manager

Requests are served from the counters and answered to their sender; responses settle the future
they name, if it is still waiting. Nothing here fails: bytes that are no message, requests of
departed nodes, duplicate transactions and responses nobody waits for are reported and counted, and
the manager goes on.
-/
namespace CounterCoordinator.Manager

/-- Send an answer to a request; a failure is only reported. -/
def reply (m : Manager) (view : Outlook) (target : NodeId) (message : Message)
    (what : Log.Reply) : Reaction :=
  match m.transmit view target message with
  | (.ok out, m) => ⟨m, some out, []⟩
  | (.error cause, m) =>
      if cause.isTopology then ⟨m, none, [.replyUnneeded what target]⟩
      else ⟨m, none, [.replyUnsent what target cause]⟩

/-- A node asks for the counter of a transaction. -/
def serveTx (m : Manager) (view : Outlook) (sender : NodeId) (future : FutureId) (tx : TxId) :
    Reaction :=
  if view.alive sender then
    match m.counters.assign tx with
    | (.error cause, _) =>
        ⟨m.bump .protocolViolations, none, [.txRequestRejected sender cause]⟩
    | (.ok counter, counters) =>
        ({ m with counters }.bump .txCountersAssigned).reply view sender
          (.counterResponse future counter) .txCounter
  else ⟨m, none, [.txRequestIgnored tx sender]⟩

/-- A node asks for the snapshot boundary of a query. A snapshot that cannot be told is released. -/
def serveQuery (m : Manager) (view : Outlook) (sender : NodeId) (future : FutureId) : Reaction :=
  if view.alive sender then
    let counter := m.counters.query
    let r := (m.bump .queryCountersAssigned).reply view sender
      (.counterResponse future counter) .queryCounter
    if r.sent.isSome then r
    else { r with manager := { r.manager with counters := r.manager.counters.queryDone counter } }
  else ⟨m, none, [.queryRequestIgnored sender]⟩

/-- A transaction is finished; the answer is left out if `skip` asks for that. -/
def serveTxAck (m : Manager) (view : Outlook) (sender : NodeId) (future : FutureId) (tx : TxId)
    (skip : Bool) : Reaction :=
  let m := { m with counters := (m.counters.ack tx).2 }.bump .txAcksProcessed
  if skip then ⟨m, none, []⟩
  else m.reply view sender (.txAckResponse future) .txAck

/-- Count a response nobody waits for. From a live node it points at a fault; a departed one may
well have answered a request that was cancelled meanwhile. -/
def unmatched (m : Manager) (view : Outlook) (sender : NodeId) (what : Log.Awaited)
    (future : FutureId) : Reaction :=
  ⟨m.bump .unmatchedResponses, none,
    [if view.alive sender then .futureNotFound what sender future
      else .futureGone what sender future]⟩

/-- Count an answered request. There is no clock here, so the round trip takes no time. -/
def countResponse (m : Manager) : Manager :=
  { m with metrics := (m.metrics.observeLatency 0.0).bump .futuresCompleted }

def acceptCounter (m : Manager) (view : Outlook) (sender : NodeId) (future : FutureId)
    (counter : Version) : Reaction :=
  match m.counterWaits.complete future (.ok counter) with
  | (true, waits) => ⟨{ m with counterWaits := waits }.countResponse, none, []⟩
  | (false, _) => m.unmatched view sender .counter future

/-- A commit acknowledgement was processed. -/
def acceptAck (m : Manager) (view : Outlook) (sender : NodeId) (future : FutureId) : Reaction :=
  match m.ackWaits.complete future (.ok ()) with
  | (true, waits) => ⟨{ m with ackWaits := waits }.countResponse, none, []⟩
  | (false, _) => m.unmatched view sender .ack future

/-- What each kind of message does, the report of its arrival left out. -/
def act (m : Manager) (view : Outlook) (sender : NodeId) : Message → Reaction
  | .txCounterRequest future tx => m.serveTx view sender future tx
  | .queryCounterRequest future => m.serveQuery view sender future
  | .counterResponse future counter => m.acceptCounter view sender future counter
  | .txAckRequest future tx skip => m.serveTxAck view sender future tx skip
  | .txAckResponse future => m.acceptAck view sender future
  | .queryAckRequest counter => ⟨{ m with counters := m.counters.queryDone counter }, none, []⟩

def handle (m : Manager) (view : Outlook) (sender : NodeId) (message : Message) : Reaction :=
  let r := m.act view sender message
  { r with log := .received message sender :: r.log }

/-- Handle the payload of a message; bytes that are none are counted and dropped. -/
def receive (m : Manager) (view : Outlook) (sender : NodeId) (payload : Bytes) : Reaction :=
  match Wire.decode payload with
  | .ok message => m.handle view sender message
  | .error fault =>
      ⟨m.bump .droppedMessages, none, [.undecodable sender payload.length (.codec fault)]⟩

/-- Handle an envelope; those on other channels are skipped. -/
def dispatch (m : Manager) (view : Outlook) (e : Envelope) : Reaction :=
  match e.channel with
  | .coordinator => m.receive view e.sender e.payload
  | channel => ⟨m, none, [.channelSkipped channel e.sender]⟩

end CounterCoordinator.Manager
