import CounterCoordinator.CommandLine.Options

/-!
# Reading a command line

Arguments are read from left to right: options of the program, the name of a command, options of
that command. An option's value is attached to it by an equals sign or is the next argument, unless
that starts with a dash itself. An option whose value is the next argument is settled when the next
option begins or when the reading of its command ends, and the reading of the program ends after
that of the command; settling finds a value that is missing or malformed and an option that is
repeated. A request for help or for the version ends the reading at once.
-/
namespace CounterCoordinator.CommandLine

/-- Why a command line cannot be read. -/
inductive Fault where
  | unexpected (argument : String)
  | unknownCommand (name : String)
  | missingCommand
  | missingValue (option : Opt)
  | invalidValue (option : Opt) (value : String)
  | unneededValue (option : Opt) (value : String)
  | repeated (option : Opt)
deriving DecidableEq, Repr

def Fault.message : Fault → String
  | unexpected argument => s!"unexpected argument '{argument}' found"
  | unknownCommand name => s!"unrecognized subcommand '{name}'"
  | missingCommand => s!"'{programName}' requires a subcommand but one was not provided"
  | missingValue option => s!"a value is required for '{option.shown}' but none was supplied"
  | invalidValue option value => s!"invalid value '{value}' for '{option.shown}'"
  | unneededValue option value => s!"unexpected value '{value}' for '{option.shown}' found"
  | repeated option => s!"the argument '{option.shown}' cannot be used multiple times"

/-- The values of the options that were given. -/
structure Choices where
  config : Option String := none
  nodes : Option Nat := none
  clients : Option Nat := none
  transactions : Option Nat := none
  rollbackRatio : Option Float := none
  failCoordinatorAfter : Option Nat := none
  ackTimeout : Option String := none
  metrics : Bool := false
deriving Repr

/-- What a command line asks for. -/
inductive Request where
  | help (about : Command)
  | version
  | showConfig (choices : Choices)
  | simulate (choices : Choices)
deriving Repr

/-- What ends the reading of a command line before its last argument. -/
inductive Stop where
  | fault (fault : Fault)
  | request (request : Request)
deriving Repr

inductive Argument where
  /-- Two dashes alone, behind which no options stand. -/
  | marker
  | long (name : String) (value : Option String)
  | letters (first : Char)
  | plain
deriving DecidableEq, Repr

def Argument.ofText (text : String) : Argument :=
  match text.toList with
  | ['-', '-'] => .marker
  | '-' :: '-' :: cs =>
      let name := cs.takeWhile (· != '=')
      match cs.drop name.length with
      | _ :: value => .long (String.ofList name) (some (String.ofList value))
      | [] => .long (String.ofList name) none
  | '-' :: c :: _ => .letters c
  | _ => .plain

namespace Choices

/-- A value that is not yet chosen, read from a text. -/
def choose {α : Type} (o : Opt) (old : Option α) (read : String → Option α) (text : String) :
    Except Fault (Option α) :=
  match old, read text with
  | some _, _ => .error (.repeated o)
  | none, none => .error (.invalidValue o text)
  | none, some v => .ok (some v)

def withValue (c : Choices) (o : Opt) (text : String) : Except Fault Choices :=
  match o with
  | .config => do
      let path? (s : String) : Option String := if s.isEmpty then none else some s
      return { c with config := ← choose o c.config path? text }
  | .nodes => do return { c with nodes := ← choose o c.nodes Config.count? text }
  | .clients => do return { c with clients := ← choose o c.clients Config.count? text }
  | .transactions => do
      return { c with transactions := ← choose o c.transactions Config.count? text }
  | .rollbackRatio => do
      return { c with
        rollbackRatio := ← choose o c.rollbackRatio (fun s => Decimal.number? s.toList) text }
  | .failCoordinatorAfter => do
      return { c with
        failCoordinatorAfter := ← choose o c.failCoordinatorAfter Config.count? text }
  | .ackTimeout => do return { c with ackTimeout := ← choose o c.ackTimeout some text }
  | .metrics | .help | .version => .error (.unneededValue o text)

end Choices

/-- How far the reading of one command has come. -/
structure Progress where
  choices : Choices := {}
  /-- An option that is not yet settled, and its value, if that was there. -/
  unsettled : Option (Opt × Option String) := none
deriving Repr

namespace Progress

/-- Does the next argument belong to an option? -/
def awaitsValue (p : Progress) : Bool :=
  match p.unsettled with
  | some (_, none) => true
  | _ => false

def settle (p : Progress) : Except Fault Choices :=
  match p.unsettled with
  | none => .ok p.choices
  | some (o, none) => .error (.missingValue o)
  | some (o, some value) => p.choices.withValue o value

def beginValued (p : Progress) (o : Opt) (value : Option String) : Except Fault Progress := do
  let choices ← p.settle
  match value with
  | some text => return { choices := ← choices.withValue o text }
  | none => return { choices, unsettled := some (o, none) }

def beginSwitch (p : Progress) (command : Command) (o : Opt) : Except Stop Progress :=
  match p.settle, o with
  | .error fault, _ => .error (.fault fault)
  | .ok _, .help => .error (.request (.help command))
  | .ok _, .version => .error (.request .version)
  | .ok choices, _ =>
      if choices.metrics then .error (.fault (.repeated o))
      else .ok { choices := { choices with metrics := true } }

/-- An option begins, with the value attached to it. -/
def beginOption (p : Progress) (command : Command) (o : Opt) (value : Option String) :
    Except Stop Progress :=
  match o.valueName?, value with
  | some _, _ => (p.beginValued o value).mapError .fault
  | none, some text => .error (.fault (.unneededValue o text))
  | none, none => p.beginSwitch command o

def next (p : Progress) (command : Command) (text : String) : Except Stop Progress :=
  let unexpected := Except.error (Stop.fault (.unexpected text))
  match Argument.ofText text with
  | .marker => .ok p
  | .long name value =>
      (command.option? name).elim unexpected fun o => p.beginOption command o value
  | .letters c =>
      (command.optionOfLetter? c).elim unexpected fun o => p.beginOption command o none
  | .plain =>
      match p.unsettled with
      | some (o, none) => .ok { p with unsettled := some (o, some text) }
      | _ => unexpected

end Progress

/-- Read the arguments of a command, up to the name of a command below it. -/
def readCommand (command : Command) (p : Progress) :
    List String → Except Stop (Progress × Option (Command × List String))
  | [] => .ok (p, none)
  | text :: rest =>
      let below := if command = .root ∧ !p.awaitsValue then Command.named? text else none
      match below, rest with
      | some c, _ => .ok (p, some (c, rest))
      | none, first :: _ =>
          if text = "--" then .error (.fault (.unexpected first))
          else match p.next command text with
            | .ok p => readCommand command p rest
            | .error stop => .error stop
      | none, [] => (p.next command text).map fun p => (p, none)

/-- What the arguments behind `help` ask for. -/
def readHelp (command : Command) : List String → Except Fault Request
  | [] => .ok (.help command)
  | name :: rest =>
      match command, Command.named? name with
      | .root, some c => readHelp c rest
      | _, _ => .error (.unknownCommand name)

/-- Read the arguments behind the name of a command. The option for the settings file may stand
before and behind that name; the one behind it counts. -/
def readBelow (outer : Progress) (command : Command) (request : Choices → Request)
    (rest : List String) : Except Stop Request := do
  let (inner, _) ← readCommand command {} rest
  let choices ← inner.settle.mapError .fault
  let general ← outer.settle.mapError .fault
  return request { choices with config := choices.config <|> general.config }

/-- Read a whole command line. -/
def readAll (args : List String) : Except Stop Request := do
  match ← readCommand .root {} args with
  | (outer, some (.simulate, rest)) => readBelow outer .simulate .simulate rest
  | (outer, some (.showConfig, rest)) => readBelow outer .showConfig .showConfig rest
  | (_, some (.help, rest)) => (readHelp .root rest).mapError .fault
  | (_, some (.root, _)) | (_, none) => .error (.fault .missingCommand)

def Request.ofArguments (args : List String) : Except Fault Request :=
  match readAll args with
  | .ok request => .ok request
  | .error (.request request) => .ok request
  | .error (.fault fault) => .error fault

end CounterCoordinator.CommandLine
