import CounterCoordinator.Text.Digits

/-!
# Strings in TOML

Basic strings stand between double quotes and know escapes, literal strings stand between
apostrophes and know none. Three quotes open a string over several lines: a line break right behind
them is left out, any other is kept as it is written, a backslash at the end of a line takes the
line break and all blanks and line breaks behind it away, and one or two quotes may stand in front
of the closing three.
-/
namespace CounterCoordinator.Toml

def apostrophe : Char := Char.ofNat 39

/-- Control characters other than the tab may not stand in a document. -/
def isAllowed (c : Char) : Bool :=
  c == '\t' || (0x20 ≤ c.toNat && c.toNat != 0x7f)

/-- The character with a code point; surrogates are none. -/
def scalarValue? (n : Nat) : Option Char :=
  if n < 0xd800 ∨ (0xe000 ≤ n ∧ n < 0x110000) then some (Char.ofNat n) else none

/-- The character with a code point in hexadecimal. -/
def codePoint? (cs : List Char) : Option Char :=
  (Text.value? 16 cs).bind scalarValue?

/-- The character that a one-letter escape stands for. -/
def escapedChar? (c : Char) : Option Char :=
  if c = '"' ∨ c = '\\' then some c
  else if c = 'b' then some (Char.ofNat 8)
  else if c = 't' then some '\t'
  else if c = 'n' then some '\n'
  else if c = 'f' then some (Char.ofNat 12)
  else if c = 'r' then some '\r'
  else if c = 'e' then some (Char.ofNat 27)
  else none

/-- The character of an escape, read behind its backslash, and what follows it. -/
def escape? : List Char → Option (Char × List Char)
  | [] => none
  | c :: cs =>
      let digits :=
        if c = 'x' then 2 else if c = 'u' then 4 else if c = 'U' then 8 else 0
      if digits = 0 then (escapedChar? c).map fun e => (e, cs)
      else if cs.length < digits then none
      else (codePoint? (cs.take digits)).map fun e => (e, cs.drop digits)

/-- The rest of a basic string on one line. -/
def basic? : Nat → List Char → Option (List Char × List Char)
  | 0, _ => none
  | fuel + 1, cs =>
      match cs with
      | [] => none
      | '"' :: rest => some ([], rest)
      | '\\' :: rest => do
          let (c, rest) ← escape? rest
          let (text, rest) ← basic? fuel rest
          return (c :: text, rest)
      | c :: rest =>
          if isAllowed c then do
            let (text, rest) ← basic? fuel rest
            return (c :: text, rest)
          else none

/-- The rest of a literal string on one line. -/
def literal? (cs : List Char) : Option (List Char × List Char) :=
  let text := cs.takeWhile (· != apostrophe)
  match cs.dropWhile (· != apostrophe) with
  | _ :: rest => if text.all isAllowed then some (text, rest) else none
  | [] => none

/-- What follows the line break at the front of a text. -/
def newline? : List Char → Option (List Char)
  | '\n' :: rest => some rest
  | '\r' :: '\n' :: rest => some rest
  | _ => none

/-- Without a line break right at the front. -/
def dropNewline (cs : List Char) : List Char := (newline? cs).getD cs

/-- The text behind the blanks and line breaks at its front. -/
def skipBlankLines : List Char → List Char
  | ' ' :: cs => skipBlankLines cs
  | '\t' :: cs => skipBlankLines cs
  | '\n' :: cs => skipBlankLines cs
  | '\r' :: '\n' :: cs => skipBlankLines cs
  | cs => cs

/-- Does a line end here, blanks aside? Then all blanks and line breaks that follow go. -/
def continuation? (cs : List Char) : Option (List Char) :=
  (newline? (cs.dropWhile fun c => c == ' ' || c == '\t')).map skipBlankLines

/-- The rest of a string over several lines, closed by three marks; escapes are read if `escapes`.
-/
def lines? (mark : Char) (escapes : Bool) : Nat → List Char → Option (List Char × List Char)
  | 0, _ => none
  | fuel + 1, cs =>
      match cs with
      | [] => none
      | c :: rest =>
          if c = mark then
            let run := cs.takeWhile (· == mark)
            let behind := cs.dropWhile (· == mark)
            if run.length < 3 then do
              let (text, rest) ← lines? mark escapes fuel behind
              return (run ++ text, rest)
            else if run.length ≤ 5 then some (run.drop 3, behind)
            else none
          else if c = '\\' ∧ escapes then
            match continuation? rest with
            | some rest => lines? mark escapes fuel rest
            | none => do
                let (e, rest) ← escape? rest
                let (text, rest) ← lines? mark escapes fuel rest
                return (e :: text, rest)
          else if isAllowed c ∨ (newline? cs).isSome then do
            let (text, rest) ← lines? mark escapes fuel rest
            return (c :: text, rest)
          else none

/-- A string on one line at the front of a text. -/
def quoted? (cs : List Char) : Option (String × List Char) :=
  match cs with
  | [] => none
  | c :: rest =>
      let found := if c = '"' then basic? (rest.length + 1) rest
        else if c = apostrophe then literal? rest
        else none
      found.map fun (text, rest) => (String.ofList text, rest)

/-- Any string at the front of a text. -/
def string? (cs : List Char) : Option (String × List Char) :=
  match cs with
  | [] => none
  | c :: _ =>
      if (c = '"' ∨ c = apostrophe) ∧ cs.take 3 = [c, c, c] then
        let body := dropNewline (cs.drop 3)
        (lines? c (c == '"') (body.length + 1) body).map fun (text, rest) =>
          (String.ofList text, rest)
      else quoted? cs

end CounterCoordinator.Toml
