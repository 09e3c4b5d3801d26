import CounterCoordinator.Toml.Document
import CounterCoordinator.Toml.Quoted
import CounterCoordinator.Toml.Scalar

/-!
# Reading TOML

`Toml.read?` reads a document line by line: an entry with its key and value, the header of a table
or of the next table of an array, or nothing but a comment. Arrays and inline tables may stretch
over several lines. Neither they nor the parts of a key go deeper than `deepest`.
-/
namespace CounterCoordinator.Toml

/-- How many arrays and inline tables may stand in each other, and how many parts a key may have. -/
def deepest : Nat := 80

def isSpace (c : Char) : Bool := c == ' ' || c == '\t'

def skipSpace (cs : List Char) : List Char := cs.dropWhile isSpace

/-- The text behind a comment, if one starts here: it goes up to the end of the line. -/
def skipComment? (cs : List Char) : Option (List Char) :=
  match cs with
  | '#' :: rest =>
      let text := rest.takeWhile isAllowed
      some (rest.drop text.length)
  | _ => some cs

/-- What follows the end of a line, which may hold blanks and a comment before it. -/
def endLine? (cs : List Char) : Option (List Char) := do
  let cs ← skipComment? (skipSpace cs)
  match cs with
  | [] => some []
  | _ => newline? cs

/-- Skip blanks, line breaks and comments. -/
def skipLines? : Nat → List Char → Option (List Char)
  | 0, cs => some cs
  | fuel + 1, cs => do
      let cs ← skipComment? (skipSpace cs)
      match newline? cs with
      | some rest => skipLines? fuel rest
      | none => some cs

def skipAll? (cs : List Char) : Option (List Char) := skipLines? cs.length cs

def isBareKeyChar (c : Char) : Bool := c.isAlphanum || c == '_' || c == '-'

/-- One part of a key. -/
def keyPart? (cs : List Char) : Option (String × List Char) :=
  let bare := cs.takeWhile isBareKeyChar
  if bare.isEmpty then quoted? cs
  else some (String.ofList bare, cs.dropWhile isBareKeyChar)

/-- The parts of a key, at most so many: dots between them, and blanks around the dots. -/
def keyParts? : Nat → List Char → Option (List String × List Char)
  | 0, _ => none
  | room + 1, cs => do
      let (part, rest) ← keyPart? cs
      match skipSpace rest with
      | '.' :: more =>
          let (parts, rest) ← keyParts? room (skipSpace more)
          return (part :: parts, rest)
      | rest => return ([part], rest)

/-- A key, and what follows it and its blanks. -/
def key? (cs : List Char) : Option (List String × List Char) := keyParts? deepest cs

mutual

/-- A value at the front of a text, in which arrays and tables may go `room` levels deep. -/
def value? : Nat → Nat → List Char → Option (Toml × List Char)
  | 0, _, _ => none
  | fuel + 1, room, cs =>
      match cs with
      | '[' :: rest => do
          if room = 0 then none
          let (items, rest) ← items? fuel (room - 1) (← skipAll? rest)
          return (.array items, rest)
      | '\x7b' :: rest => do
          if room = 0 then none
          let (entries, rest) ← members? fuel (room - 1) [] (← skipAll? rest)
          return (.table (finishEntries entries), rest)
      | c :: _ =>
          if c = '"' ∨ c = apostrophe then (string? cs).map fun (s, rest) => (.string s, rest)
          else scalarAt? cs
      | [] => none

/-- The items of an array up to its closing bracket; a comma may stand behind the last one. -/
def items? : Nat → Nat → List Char → Option (List Toml × List Char)
  | 0, _, _ => none
  | fuel + 1, room, cs =>
      match cs with
      | ']' :: rest => some ([], rest)
      | cs => do
          let (v, rest) ← value? fuel room cs
          match ← skipAll? rest with
          | ',' :: rest =>
              let (vs, rest) ← items? fuel room (← skipAll? rest)
              return (v :: vs, rest)
          | ']' :: rest => return ([v], rest)
          | _ => none

/-- The members of an inline table up to its closing brace. Lines may end anywhere but inside a key;
a comma may stand behind the last member. -/
def members? : Nat → Nat → Entries → List Char → Option (Entries × List Char)
  | 0, _, _, _ => none
  | fuel + 1, room, entries, cs =>
      match cs with
      | '\x7d' :: rest => some (entries, rest)
      | cs => do
          let (path, rest) ← key? cs
          let rest ← char? (· == '=') (← skipAll? rest)
          let (v, rest) ← value? fuel room (← skipAll? rest)
          let entries ← insert? entries v path
          match ← skipAll? rest with
          | ',' :: rest => members? fuel room entries (← skipAll? rest)
          | '\x7d' :: rest => return (entries, rest)
          | _ => none

end

/-- A document under construction: its entries and the path of the table that is open. -/
structure Draft where
  entries : Entries := []
  current : List String := []

/-- Read one line, or several if a value stretches over them, and what follows. -/
def line? (d : Draft) (cs : List Char) : Option (Draft × List Char) :=
  match skipSpace cs with
  | '[' :: '[' :: rest => do
      let rest := skipSpace rest
      let (path, rest) ← key? rest
      let rest ← char? (· == ']') rest
      let rest ← char? (· == ']') rest
      let entries ← header? openElement? path d.entries
      return (⟨entries, path⟩, ← endLine? rest)
  | '[' :: rest => do
      let rest := skipSpace rest
      let (path, rest) ← key? rest
      let rest ← char? (· == ']') rest
      let entries ← header? openTable? path d.entries
      return (⟨entries, path⟩, ← endLine? rest)
  | start =>
      match endLine? start with
      | some rest => some (d, rest)
      | none => do
          let (path, rest) ← key? start
          let rest ← char? (· == '=') rest
          let rest := skipSpace rest
          let (v, rest) ← value? (2 * rest.length + 1) deepest rest
          let entries ← within? (fun e => insert? e v path) d.current d.entries
          return ({ d with entries }, ← endLine? rest)

/-- Read lines to the end of the text; each takes at least one character. -/
def lines : Nat → Draft → List Char → Option Draft
  | 0, d, cs => if cs.isEmpty then some d else none
  | fuel + 1, d, cs =>
      if cs.isEmpty then some d
      else do
        let (d, rest) ← line? d cs
        lines fuel d rest

/-- A text without the byte order mark it may start with. -/
def dropMark (cs : List Char) : List Char :=
  match cs with
  | c :: rest => if c.toNat = 0xfeff then rest else cs
  | [] => []

/-- The entries of the document that a text is. -/
def read? (s : String) : Option (List (String × Toml)) :=
  let cs := dropMark s.toList
  (lines (cs.length + 1) {} cs).map fun d => finishEntries d.entries

end CounterCoordinator.Toml
