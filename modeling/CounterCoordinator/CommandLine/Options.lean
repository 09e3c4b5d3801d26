import CounterCoordinator.Config.Load

/-!
# Commands and options

The tables of the command line: its commands, the options that each of them takes, and what help
says about them.
-/
namespace CounterCoordinator.CommandLine

def programName : String := "mvcc-coord"

def programVersion : String := "0.1.0"

/-- How long a simulation waits for an answer if no option says. -/
def defaultAckTimeout : String := "5s"

inductive Command where
  /-- The program itself, before a command is named. -/
  | root
  | simulate
  | showConfig
  | help
deriving DecidableEq, Repr

inductive Opt where
  | config
  | nodes
  | clients
  | transactions
  | rollbackRatio
  | failCoordinatorAfter
  | ackTimeout
  | metrics
  | help
  | version
deriving DecidableEq, Repr

def Command.about : Command → String
  | root => "MVCC counter coordinator"
  | simulate => "Run transactions against an in-process cluster"
  | showConfig => "Print the effective configuration as JSON"
  | help => "Print this message or the help of the given subcommand(s)"

/-- The options of a command, in the order in which help lists them. -/
def Command.options : Command → List Opt
  | root => [.config, .help, .version]
  | simulate => [.config, .nodes, .clients, .transactions, .rollbackRatio, .failCoordinatorAfter,
      .ackTimeout, .metrics, .help]
  | showConfig => [.config, .help]
  | help => []

/-- The commands that may follow the program's own options, by their names. -/
def commands : List (String × Command) :=
  [("simulate", .simulate), ("show-config", .showConfig), ("help", .help)]

def Command.named? (name : String) : Option Command := commands.lookup name

/-- The name of an option, without the dashes in front of it. -/
def Opt.name : Opt → String
  | config => "config"
  | nodes => "nodes"
  | clients => "clients"
  | transactions => "transactions"
  | rollbackRatio => "rollback-ratio"
  | failCoordinatorAfter => "fail-coordinator-after"
  | ackTimeout => "ack-timeout"
  | metrics => "metrics"
  | help => "help"
  | version => "version"

/-- The letter that stands for an option behind one dash. -/
def Opt.letter? : Opt → Option Char
  | help => some 'h'
  | version => some 'V'
  | _ => none

/-- The name of an option's value; a switch has no value. -/
def Opt.valueName? : Opt → Option String
  | config => some "CONFIG"
  | nodes => some "NODES"
  | clients => some "CLIENTS"
  | transactions => some "TRANSACTIONS"
  | rollbackRatio => some "ROLLBACK_RATIO"
  | failCoordinatorAfter => some "FAIL_COORDINATOR_AFTER"
  | ackTimeout => some "ACK_TIMEOUT"
  | metrics | help | version => none

def Opt.about : Opt → String
  | config => "Configuration file (TOML)"
  | nodes => "Total nodes"
  | clients => "Client nodes (never elected coordinator)"
  | transactions => "Transactions to run"
  | rollbackRatio => "Fraction of transactions rolled back"
  | failCoordinatorAfter => "Fail the coordinator after this many transactions"
  | ackTimeout => "Give up waiting on a counter or commit ack after this long"
  | metrics => "Print Prometheus metrics of every node when done"
  | help => "Print help"
  | version => "Print version"

/-- The value of an option that is not given. -/
def Opt.fallback? : Opt → Option String
  | config => some Config.defaultFile
  | ackTimeout => some defaultAckTimeout
  | _ => none

def Command.option? (c : Command) (name : String) : Option Opt :=
  c.options.find? fun o => o.name == name

def Command.optionOfLetter? (c : Command) (letter : Char) : Option Opt :=
  c.options.find? fun o => o.letter? == some letter

/-- An option with its dashes and the name of its value. -/
def Opt.shown (o : Opt) : String :=
  let value := o.valueName?.elim "" fun v => " <" ++ v ++ ">"
  "--" ++ o.name ++ value

end CounterCoordinator.CommandLine
