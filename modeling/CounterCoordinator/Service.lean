import CounterCoordinator.Deployment

/-!
# Services

The services of a deployment are tasks: a dispatcher and a failure listener for each node that runs
one, and further listeners on feeds of their own. A task that has something to do is ready; ready
tasks run one after the other, in the order they became ready, each until it finds nothing more to
do. A task that has taken as much as one turn allows is put off to the next round, which begins when
no other task is ready, or after so many turns. A dispatcher stops when its node has departed and
its inbox is read; a listener stops when its feed has ended; a task that is told to stop does so in
its next turn, and a stopped dispatcher closes its inbox.
-/
namespace CounterCoordinator

/-- Where the departures that a listener hears come from. -/
inductive Service.Feed where
  | cluster
  | extra (index : Nat)
deriving DecidableEq, Repr

/-- What a task does. -/
inductive Service.Duty where
  | dispatch
  /-- Listen, reading on from a position. -/
  | listen (feed : Service.Feed) (position : Nat)
deriving DecidableEq, Repr

inductive Service.Phase where
  /-- Nothing to do until something wakes the task. -/
  | idle
  | ready
  /-- Told to stop. -/
  | stopping
  | stopped
deriving DecidableEq, Repr

structure Service.Task where
  node : NodeId
  duty : Service.Duty
  phase : Service.Phase := .ready
deriving DecidableEq, Repr

/-- A feed beside the cluster's own, and whether it may still get events. -/
structure Service.ExtraFeed where
  feed : EventFeed MembershipEvent
  isOpen : Bool := true
deriving DecidableEq, Repr

structure Service where
  deployment : Deployment := {}
  /-- All tasks ever started, in that order; a task is named by its place. -/
  tasks : List Service.Task := []
  /-- The tasks that wait for their turn. -/
  ready : List Nat := []
  /-- The tasks that wait for the next round, the one put off last first. -/
  putOff : List Nat := []
  /-- The listeners that wait for events, longest first. -/
  parked : List Nat := []
  extra : List Service.ExtraFeed := []
  /-- The nodes whose service was started and not shut down. -/
  running : List NodeId := []
deriving Repr

namespace Service

/-- How many envelopes or events a task takes in one turn. -/
def turnLimit : Nat := 128

/-- How many turns make a round at most. -/
def roundLimit : Nat := 61

def setTask (s : Service) (i : Nat) (change : Task → Task) : Service :=
  { s with tasks := s.tasks.modify i change }

def start (s : Service) (node : NodeId) (duty : Duty) : Service :=
  { s with tasks := s.tasks ++ [⟨node, duty, .ready⟩], ready := s.ready ++ [s.tasks.length] }

/-- Give an idle task a turn. -/
def wake (s : Service) (i : Nat) : Service :=
  match s.tasks[i]? with
  | some t =>
      if t.phase = .idle then
        { s.setTask i fun t => { t with phase := .ready } with ready := s.ready ++ [i] }
      else s
  | none => s

/-- Is a task the dispatcher of a node? -/
def Task.dispatches (t : Task) (node : NodeId) : Bool :=
  t.node == node && t.duty == .dispatch

/-- Does a task listen on a feed? -/
def Task.listensOn (t : Task) (feed : Feed) : Bool :=
  match t.duty with
  | .listen f _ => f == feed
  | .dispatch => false

def wakeDispatcher (s : Service) (node : NodeId) : Service :=
  match s.tasks.findIdx? fun t => t.dispatches node with
  | some i => s.wake i
  | none => s

/-- Give the listeners parked on a feed a turn, those that have waited longest first. -/
def wakeListeners (s : Service) (feed : Feed) : Service :=
  let woken := s.parked.filter fun i => (s.tasks[i]?.map fun t => t.listensOn feed).getD false
  woken.foldl wake { s with parked := s.parked.filter fun i => !woken.contains i }

/-- Take over what a step of the deployment did: the target of a message gets a turn. -/
def absorb (s : Service) (step : Option Reaction × Deployment) : List Log.Notice × Service :=
  let s := { s with deployment := step.2 }
  match step.1 with
  | some r => (r.log, r.sent.elim s fun out => s.wakeDispatcher out.target)
  | none => ([], s)

/-- A node joins, with its two tasks if it is to run a service. -/
def join (s : Service) (client cancelAcks withTasks : Bool) :
    ClusterNode × List Log.Notice × Service :=
  let (node, log, deployment) := s.deployment.join client cancelAcks
  let s := { s with deployment }
  if withTasks then
    let s := (s.start node.id .dispatch).start node.id
      (.listen .cluster deployment.cluster.events.position)
    (node, log ++ [.serviceStarted node.id], { s with running := node.id :: s.running })
  else (node, log, s)

/-- A node departs: its dispatcher gets a turn, then the listeners. -/
def depart (s : Service) (kind : Departure) (node : NodeId) : Bool × List Log.Notice × Service :=
  let (gone, log, cluster) := s.deployment.cluster.depart kind node
  let s := { s with deployment := { s.deployment with cluster } }
  if gone then (true, log, (s.wakeDispatcher node).wakeListeners .cluster) else (false, log, s)

/-- A server joins and fails at once, a number of times. -/
def churn : Nat → Service → Service
  | 0, s => s
  | n + 1, s =>
      let (node, _, cluster) := s.deployment.cluster.join s.deployment.cluster.freshId false
      let s := { s with deployment := { s.deployment with cluster } }
      let (_, _, s) := s.depart .failed node.id
      churn n { s with deployment := { s.deployment with
        cluster := (s.deployment.cluster.closeInbox node.id).2 } }

def send (s : Service) (sender target : NodeId) (channel : Channel) (payload : Bytes) :
    Outcome Unit × Service :=
  let (outcome, cluster) := s.deployment.cluster.send sender target channel payload
  let s := { s with deployment := { s.deployment with cluster } }
  match outcome with
  | .ok () => (.ok (), s.wakeDispatcher target)
  | .error cause => (.error cause, s)

/-- Close the inbox of a node that nobody dispatches. -/
def closeInbox (s : Service) (node : NodeId) : Bool × Service :=
  if s.tasks.any fun t => t.dispatches node then (false, s)
  else
    let (closed, cluster) := s.deployment.cluster.closeInbox node
    (closed, { s with deployment := { s.deployment with cluster } })

/-- Tell a task to stop in its next turn. -/
def stop (s : Service) (i : Nat) : Service :=
  match s.tasks[i]? with
  | some t =>
      match t.phase with
      | .idle => { s.setTask i fun t => { t with phase := .stopping } with
          ready := s.ready ++ [i], parked := s.parked.filter (· != i) }
      | .ready => s.setTask i fun t => { t with phase := .stopping }
      | .stopping | .stopped => s
  | none => s

/-- Shut the service of a node down: both its tasks are to stop. False if it runs none. -/
def shutdown (s : Service) (node : NodeId) : Bool × List Log.Notice × Service :=
  if s.running.contains node then
    let s := { s with running := s.running.filter (· != node) }
    match s.tasks.findIdx? fun t => t.dispatches node with
    | some i => (true, [.serviceStopped node], (s.stop i).stop (i + 1))
    | none => (true, [.serviceStopped node], s)
  else (false, [], s)

/-- Start a further listener for a node, on a feed of its own. -/
def listen (s : Service) (node : NodeId) (capacity : Nat) : Service :=
  let feed := Feed.extra s.extra.length
  let x : ExtraFeed := { feed := { capacity } }
  let s := { s with extra := s.extra ++ [x] }
  s.start node (.listen feed 0)

/-- Does any task still listen on a feed? -/
def heard (s : Service) (feed : Feed) : Bool :=
  s.tasks.any fun t => t.listensOn feed && t.phase != .stopped

/-- Send an event on an extra feed; false if it ended or nobody listens. -/
def emit (s : Service) (index : Nat) (event : MembershipEvent) : Bool × Service :=
  match s.extra[index]? with
  | some x =>
      if x.isOpen && s.heard (.extra index) then
        let x := { x with feed := x.feed.send event }
        (true, { s with extra := s.extra.set index x }.wakeListeners (.extra index))
      else (false, s)
  | none => (false, s)

/-- End an extra feed; what was sent on it can still be read. -/
def endFeed (s : Service) (index : Nat) : Bool × Service :=
  match s.extra[index]? with
  | some x =>
      if x.isOpen then
        (true, { s with extra := s.extra.set index { x with isOpen := false } }.wakeListeners
          (.extra index))
      else (false, s)
  | none => (false, s)

/-- A task ends; a dispatcher takes its inbox along. -/
def finish (s : Service) (i : Nat) (t : Task) : Service :=
  let s := s.setTask i fun t => { t with phase := .stopped }
  if t.duty = .dispatch then
    { s with deployment := { s.deployment with
      cluster := (s.deployment.cluster.closeInbox t.node).2 } }
  else s

/-- Leave the rest of what a task has to do to the next round. -/
def putOffTask (s : Service) (i : Nat) : Service := { s with putOff := i :: s.putOff }

/-- Dispatch the inbox of task `i`; the turn allows for `room` more envelopes. -/
def dispatchAll (i : Nat) (t : Task) : Nat → Service → List Log.Notice × Service
  | 0, s => ([], s.putOffTask i)
  | room + 1, s =>
      match s.deployment.dispatchOne t.node with
      | (.envelope _, step) =>
          let (log, s) := s.absorb step
          let (more, s) := dispatchAll i t room s
          (log ++ more, s)
      | (.empty, _) => ([], s.setTask i fun t => { t with phase := .idle })
      | (.disconnected, _) => ([.dispatcherStopped t.node], s.finish i t)
      | (.closed, _) => ([], s.finish i t)

/-- What a feed shows at a position, and whether it may still get events. -/
def readFeed (s : Service) (feed : Feed) (position : Nat) :
    (EventFeed.Reading MembershipEvent × Nat) × Bool :=
  match feed with
  | .cluster => (s.deployment.cluster.events.read position, true)
  | .extra index =>
      match s.extra[index]? with
      | some x => (x.feed.read position, x.isOpen)
      | none => ((.nothing, position), false)

/-- Let task `i` hear the events of its feed; the turn allows for `room` more of them. -/
def listenAll (i : Nat) (t : Task) (feed : Feed) :
    Nat → Nat → Service → List Log.Notice × Service
  | 0, position, s =>
      ([], (s.setTask i fun t => { t with duty := .listen feed position }).putOffTask i)
  | room + 1, position, s =>
      match s.readFeed feed position with
      | ((.nothing, position), isOpen) =>
          if isOpen then
            let s := s.setTask i fun t => { t with phase := .idle, duty := .listen feed position }
            ([], { s with parked := s.parked ++ [i] })
          else ([.listenerStopped t.node], s.finish i t)
      | ((reading, position), _) =>
          let (log, s) := s.absorb (s.deployment.hear t.node reading)
          let (more, s) := listenAll i t feed room position s
          (log ++ more, s)

def turn (s : Service) (i : Nat) : List Log.Notice × Service :=
  match s.tasks[i]? with
  | some t =>
      match t.phase, t.duty with
      | .stopping, _ => ([], s.finish i t)
      | .ready, .dispatch => dispatchAll i t turnLimit s
      | .ready, .listen feed position => listenAll i t feed turnLimit position s
      | _, _ => ([], s)
  | none => ([], s)

/-- Begin a round: the tasks that were put off wait behind those that are ready. -/
def nextRound (s : Service) : Service := { s with ready := s.ready ++ s.putOff, putOff := [] }

/-- Run tasks, at most `fuel` turns and new rounds; this round has `turns` turns left. -/
def settleFor : Nat → Nat → Service → List Log.Notice × Service
  | 0, _, s => ([], s)
  | fuel + 1, 0, s => settleFor fuel roundLimit s.nextRound
  | fuel + 1, turns + 1, s =>
      match s.ready with
      | [] => if s.putOff.isEmpty then ([], s) else settleFor fuel roundLimit s.nextRound
      | i :: rest =>
          let (log, s) := { s with ready := rest }.turn i
          let (more, s) := settleFor fuel turns s
          (log ++ more, s)

/-- How many envelopes lie in all inboxes together. -/
def waiting (s : Service) : Nat :=
  s.deployment.cluster.inboxes.foldl (fun n b => n + b.queue.length) 0

/-- How many events a feed has seen. -/
def feedLength (s : Service) : Feed → Nat
  | .cluster => s.deployment.cluster.events.sent.length
  | .extra index => (s.extra[index]?.map fun x => x.feed.sent.length).getD 0

/-- How many events a task may have to hear, and whether it missed some. -/
def unheard (s : Service) (t : Task) : Nat :=
  match t.duty with
  | .dispatch => 0
  | .listen feed _ => s.feedLength feed + 1

/-- How many turns of tasks there may be. A task gets a turn because it is ready, because a message
is sent to it, or because it was put off after it took something. At most one message is sent for
each envelope that lies in an inbox now; a listener hears each event of its feed at most once and
may be told once that it missed some. -/
def turnBound (s : Service) : Nat :=
  s.ready.length + 4 * s.waiting + s.tasks.foldl (fun n t => n + s.unheard t) 0

/-- Run the tasks until none is ready. There are no more new rounds than turns. -/
def settle (s : Service) : List Log.Notice × Service :=
  settleFor (2 * s.turnBound + 1) roundLimit s

end Service
end CounterCoordinator
