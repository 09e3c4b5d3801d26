import CounterCoordinator.CommandLine.Session

/-!
# The program

Gathers the settings files and the environment, runs a session and prints it.
-/
namespace CounterCoordinator.CommandLine

/-- The text of a file, if it can be read. -/
def readText? (name : String) : IO (Option String) := do
  try
    return some (← IO.FS.readFile name)
  catch _ =>
    return none

/-- The variables of the environment. -/
def readEnvironment : IO (List (String × String)) := do
  let text := (← readText? "/proc/self/environ").getD ""
  return (text.splitOn "\x00").filterMap fun entry =>
    match entry.splitOn "=" with
    | name :: first :: more => some (name, "=".intercalate (first :: more))
    | _ => none

/-- Those of some files that exist, with their texts. -/
def readTexts (names : List String) : IO (List (String × String)) := do
  let texts ← names.mapM readText?
  return (names.zip texts).filterMap fun (name, text) => text.map fun t => (name, t)

/-- Run a session with some arguments and print it; the result is the exit code. -/
def program (args : List String) : IO UInt32 := do
  let around : Config.Surroundings :=
    { files := ← readTexts (Session.files args), environment := ← readEnvironment }
  let begun ← IO.monoNanosNow
  let session ← IO.lazyPure fun _ => Session.run args around
  let elapsed : Span := ⟨(← IO.monoNanosNow) - begun⟩
  for line in session.printed do
    IO.println (line.text NodeId.text elapsed.text)
  for complaint in session.complaints do
    IO.eprintln complaint
  return UInt32.ofNat session.code

end CounterCoordinator.CommandLine

def main (args : List String) : IO UInt32 :=
  CounterCoordinator.CommandLine.program args
