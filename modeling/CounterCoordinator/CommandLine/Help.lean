import CounterCoordinator.CommandLine.Options

/-!
# Help

The help of a command: what it is about, how it is used, and its commands and options in columns.
Descriptions of options stand beside their names unless a name is so long that a description would
not fit on its line; then all of them stand on lines of their own.
-/
namespace CounterCoordinator.CommandLine

/-- The columns of a line of help. -/
def lineWidth : Nat := 100

/-- A text filled up with blanks. -/
def padTo (width : Nat) (s : String) : String :=
  s ++ String.ofList (List.replicate (width - s.length) ' ')

/-- An option with its letter, each at its place. -/
def Opt.column (o : Opt) : String :=
  let letter := match o.letter? with
    | some c => String.ofList ['-', c, ',', ' ']
    | none => "    "
  letter ++ o.shown

/-- What an option is for, and its value if it is not given. -/
def Opt.description (o : Opt) : String :=
  o.about ++ o.fallback?.elim "" fun v => " [default: " ++ v ++ "]"

/-- The width of the longest of some texts. -/
def widest (texts : List String) : Nat :=
  texts.foldl (fun n s => max n s.length) 0

/-- Would a description overflow its line, names taking more than two fifths of it? -/
def overflows (names : Nat) (description : String) : Bool :=
  let taken := names + 12
  decide (taken ≤ lineWidth ∧ 2 * lineWidth < 5 * taken ∧ lineWidth < taken + description.length)

def optionLines (options : List Opt) : List String :=
  let names := widest (options.map Opt.column)
  if options.any fun o => overflows names o.description then
    options.flatMap fun o => ["  " ++ o.column, "          " ++ o.description]
  else options.map fun o => "  " ++ padTo (names + 2) o.column ++ o.description

def commandLines : List String :=
  let names := widest (commands.map Prod.fst)
  commands.map fun (name, c) => "  " ++ padTo (names + 2) name ++ c.about

def Command.usage : Command → String
  | root => programName ++ " [OPTIONS] <COMMAND>"
  | simulate => programName ++ " simulate [OPTIONS]"
  | showConfig => programName ++ " show-config [OPTIONS]"
  | help => programName ++ " help [COMMAND]..."

def Command.helpLines (c : Command) : List String :=
  let header := [c.about, "", "Usage: " ++ c.usage, ""]
  let options := "Options:" :: optionLines c.options
  match c with
  | root => header ++ "Commands:" :: commandLines ++ "" :: options
  | simulate | showConfig => header ++ options
  | help => header ++ ["Arguments:", "  [COMMAND]...  Print help for the subcommand(s)"]

end CounterCoordinator.CommandLine
