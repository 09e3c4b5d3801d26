import CounterCoordinator.CommandLine.Arguments
import CounterCoordinator.CommandLine.Help
import CounterCoordinator.Json.Forms
import CounterCoordinator.Log.Filter
import CounterCoordinator.Metrics.Exposition
import CounterCoordinator.Simulation.Schedule

/-!
# Sessions

A session is what the program does with one command line: what it prints, line by line, and why it
refuses to go on, if it does. Settings come from the file and the environment, and the options of
the command line go before both. Lines stay values until they are shown, since the ids of nodes and
the time that passed are none of the session's business.
-/
namespace CounterCoordinator.CommandLine

/-- What the program itself reports while it runs a simulation. -/
inductive Report where
  | started (settings : SimulationConfig)
  | finished (report : Simulation.Report)
  | coordinatorFailed (node : NodeId)
  | issued (coordinator : NodeId) (counters : List Version)
deriving Repr

def Report.text (name : Naming) (elapsed : String) : Report → String
  | started s =>
      s!"Starting simulation: {s.nodes} nodes ({s.clientNodes} clients), " ++
        s!"{s.transactions} transactions"
  | finished r =>
      s!"Simulation finished in {elapsed}: {r.committed} committed, {r.rolledBack} rolled back, " ++
        s!"{r.ackTimeouts} ack timeouts, {r.aborted} aborted, {r.failed} failed"
  | coordinatorFailed node => s!"Failed coordinator: {name node}"
  | issued coordinator counters =>
      s!"Coordinator {name coordinator} issued {counters.length} counters " ++
        s!"(max {Simulation.Report.greatest counters})"

inductive Line where
  | plain (text : String)
  | report (report : Report)
  | node (node : NodeId)
  | metric (line : Metrics.Line)
deriving Repr

/-- The target that the program's own reports have in a log. -/
def target : String := "mvcc_coord"

def Line.text (name : Naming) (elapsed : String) : Line → String
  | plain text => text
  | report r => s!"{Log.Level.info.text} {target}: {r.text name elapsed}"
  | node id => s!"# node {name id}"
  | metric line => line.text

/-- Why the program refuses to go on. -/
inductive Refusal where
  | usage (fault : Fault)
  | error (error : Error)
  /-- The log filter cannot even be read apart. -/
  | filter (fault : Log.Directive.Fault)
deriving Repr

def Refusal.text : Refusal → String
  | usage fault => "error: " ++ fault.message
  | error e => "Error: " ++ e.message NodeId.text
  | filter fault => "error: " ++ fault.message

structure Session where
  printed : List Line := []
  /-- The parts of the log filter that count for nothing. -/
  ignored : List (String × Log.Directive.Fault) := []
  refusal : Option Refusal := none
deriving Repr

namespace Session

def code (s : Session) : Nat :=
  match s.refusal with
  | none => 0
  | some (.error _) => 1
  | some (.usage _) => 2
  | some (.filter _) => 101

/-- What the program complains about: the parts of the log filter that it ignores, and why it
refuses to go on. -/
def complaints (s : Session) : List String :=
  (s.ignored.map fun (part, fault) => s!"ignoring \x60{part}\x60: {fault.message}") ++
    (s.refusal.map Refusal.text).toList

/-- The environment variable that holds a log filter. -/
def filterVariable : String := "RUST_LOG"

/-- The log filter: the one in the environment if it is well formed, or else the level in the
settings. -/
def filter (environment : List (String × String)) (c : Config) :
    Except Log.Directive.Fault Log.Filter.Reading :=
  match (environment.lookup filterVariable).map Log.Filter.ofText with
  | some (.ok filter) => .ok { filter }
  | some (.error .torn) => .error .torn
  | _ => Log.Filter.ofTextLossy c.logLevel

/-- Settings with the choices of a command line laid over them. -/
def override (s : SimulationConfig) (c : Choices) : SimulationConfig :=
  { nodes := c.nodes.getD s.nodes
    clientNodes := c.clients.getD s.clientNodes
    transactions := c.transactions.getD s.transactions
    rollbackRatio := c.rollbackRatio.getD s.rollbackRatio
    failCoordinatorAfter := c.failCoordinatorAfter <|> s.failCoordinatorAfter }

/-- The reports on a simulation that is over. -/
def conclusion (r : Simulation.Report) : List Report :=
  .finished r :: (r.failedCoordinator.map Report.coordinatorFailed).toList ++
    r.counters.map fun (coordinator, counters) => .issued coordinator counters

/-- The metrics of the nodes that are left. -/
def metricLines (s : Simulation) : List Line :=
  s.snapshot.nodes.flatMap fun node =>
    match s.deployment.manager? node.id with
    | some m => .node node.id :: (m.currentMetrics.exposition 0).map Line.metric
    | none => []

/-- Run a simulation under settings and choices; `shows` tells whether reports are printed. -/
def simulate (c : Config) (choices : Choices) (shows : Bool) : Session :=
  let reports (rs : List Report) : List Line := if shows then rs.map Line.report else []
  let c := { c with simulation := override c.simulation choices }
  match Span.ofText (choices.ackTimeout.getD defaultAckTimeout) with
  | .error e => { refusal := some (.error e) }
  | .ok _ =>
      let started := reports [.started c.simulation]
      match Simulation.runConfig c with
      | .error e => { printed := started, refusal := some (.error e) }
      | .ok s =>
          { printed := started ++ reports (conclusion s.report) ++
              if choices.metrics then metricLines s else [] }

def fileName (choices : Choices) : String := choices.config.getD Config.defaultFile

/-- Go on with the settings of the file that was chosen and the log filter. -/
def withConfig (around : Config.Surroundings) (choices : Choices)
    (go : Config → Log.Filter → Session) : Session :=
  match Config.load around (fileName choices) with
  | .error e => { refusal := some (.error e) }
  | .ok c =>
      match filter around.environment c with
      | .error fault => { refusal := some (.filter fault) }
      | .ok r => { go c r.filter with ignored := r.ignored }

/-- The files that some arguments make the program look for. -/
def files (args : List String) : List String :=
  match Request.ofArguments args with
  | .ok (.showConfig choices) | .ok (.simulate choices) => Config.candidates (fileName choices)
  | .ok _ | .error _ => []

/-- What the program does with some arguments. -/
def run (args : List String) (around : Config.Surroundings) : Session :=
  match Request.ofArguments args with
  | .error fault => { refusal := some (.usage fault) }
  | .ok (.help command) => { printed := command.helpLines.map Line.plain }
  | .ok .version => { printed := [.plain (programName ++ " " ++ programVersion)] }
  | .ok (.showConfig choices) =>
      withConfig around choices fun c _ =>
        { printed := (c.toJson.pretty.splitOn "\n").map Line.plain }
  | .ok (.simulate choices) =>
      withConfig around choices fun c f => simulate c choices (f.admits target .info)

end Session
end CounterCoordinator.CommandLine
