import CounterCoordinator.Config.Convert
import CounterCoordinator.Toml.Reader

/-!
# Loading the settings

Settings come from a file, if there is one, and from environment variables, which are laid over it.
The file may be named without its extension. A variable counts if its name, in lower case, starts
with `mvcc_`; behind that, two underscores lead into a table.
-/
namespace CounterCoordinator.Config

/-- The file that is read when no other is named. -/
def defaultFile : String := "mvcc-coord.toml"

/-- The files of a directory and the variables of the environment. -/
structure Surroundings where
  files : List (String × String) := []
  environment : List (String × String) := []
deriving Repr

def extension : String := ".toml"

/-- The parts of a path between its slashes. -/
def parts (path : String) : List String := path.splitOn "/"

/-- The names that a path leads through. -/
def names (path : String) : List String :=
  (parts path).filter fun part => part != "" && part != "."

/-- Does a path end in a name, and not in a slash or a step that leads nowhere? -/
def namesFile (path : String) : Bool :=
  ["", ".", ".."].all (· != (parts path).getLast?.getD "")

/-- Does the last name of a path end in the extension of settings files, with more before it? -/
def hasExtension (path : String) : Bool :=
  let name := (names path).getLast?.getD ""
  name.endsWith extension && extension.length < name.length

/-- A path with the extension behind its last name, if it has one. -/
def extended? (path : String) : Option String :=
  match (names path).getLast? with
  | none => none
  | some name =>
      let root := if path.startsWith "/" then "/" else ""
      if name = ".." then none else some (root ++ "/".intercalate (names path) ++ extension)

def textOf? (files : List (String × String)) (path : String) : Option String :=
  (files.find? fun (file, _) =>
    file.startsWith "/" == path.startsWith "/" && names file == names path).map Prod.snd

/-- The file with the name of settings itself. -/
def itself? (name : String) : Option String := if namesFile name then some name else none

/-- The files that may hold the settings with a name. -/
def candidates (name : String) : List String := (itself? name).toList ++ (extended? name).toList

/-- The text of the settings file with a name. A file that has the name itself counts only if its
extension tells that it holds settings. -/
def fileText? (files : List (String × String)) (name : String) : Option String :=
  match (itself? name).bind (textOf? files) with
  | some text => if hasExtension name then some text else none
  | none => (extended? name).bind (textOf? files)

def layDocument (entries : List (String × Toml)) (t : Tree) : Tree :=
  entries.foldl (fun t (k, v) => Tree.set (Tree.ofToml v) (path k) (some t)) t

/-- What a variable's name leads to, if it is a setting. -/
def variableKey? (name : String) : Option String :=
  let lower := Text.lower name
  let mark := "mvcc_"
  if lower.startsWith mark then
    some (".".intercalate ((lower.drop mark.length).toString.splitOn "__"))
  else none

def layVariable (t : Tree) (setting : String × String) : Tree :=
  match variableKey? setting.1 with
  | some key => Tree.set (.text setting.2) (path key) (some t)
  | none => t

/-- The settings in a file and in the environment, as they are given. -/
def read (around : Surroundings) (name : String) : Outcome Config :=
  let document := match fileText? around.files name with
    | some text => Toml.read? text
    | none => some []
  match document with
  | none => .error (.config s!"{name} is no valid settings file")
  | some entries =>
      let tree := around.environment.foldl layVariable (layDocument entries (.table []))
      match ofTree? tree with
      | some config => .ok config
      | none => .error (.config "a setting has a value of the wrong type")

/-- The settings in a file and in the environment, if a simulation can run with them. -/
def load (around : Surroundings) (name : String) : Outcome Config :=
  match read around name with
  | .error e => .error e
  | .ok config =>
      match config.validate with
      | .ok () => .ok config
      | .error e => .error e

end CounterCoordinator.Config
