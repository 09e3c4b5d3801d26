import CounterCoordinator.Json.Number

/-!
# Reading JSON

`Json.read?` reads a text that holds one value with blanks around it. Strings take every character
except the quote, the backslash and control characters; escapes name a character or a 16-bit unit,
and units of a surrogate pair stand for one character together.
-/
namespace CounterCoordinator.Json

def isBlank (c : Char) : Bool :=
  c == ' ' || c == '\n' || c == '\t' || c == '\r'

def skipBlanks (cs : List Char) : List Char := cs.dropWhile isBlank

/-- A piece of a string: a character, or a 16-bit unit from an escape. -/
inductive Piece where
  | char (c : Char)
  | unit (n : Nat)
deriving DecidableEq, Repr

/-- The character that a one-letter escape stands for. -/
def escaped? (c : Char) : Option Char :=
  if c = '"' ∨ c = '\\' ∨ c = '/' then some c
  else if c = 'b' then some (Char.ofNat 8)
  else if c = 'f' then some (Char.ofNat 12)
  else if c = 'n' then some '\n'
  else if c = 'r' then some '\r'
  else if c = 't' then some '\t'
  else none

/-- The pieces of a string up to its closing quote, and what follows it. -/
def pieces? : List Char → Option (List Piece × List Char)
  | [] => none
  | '"' :: cs => some ([], cs)
  | '\\' :: 'u' :: a :: b :: c :: d :: cs => do
      let n ← Text.value? 16 [a, b, c, d]
      let (ps, rest) ← pieces? cs
      return (.unit n :: ps, rest)
  | '\\' :: c :: cs => do
      let e ← escaped? c
      let (ps, rest) ← pieces? cs
      return (.char e :: ps, rest)
  | c :: cs =>
      if c.toNat < 0x20 ∨ c = '\\' then none
      else do
        let (ps, rest) ← pieces? cs
        return (.char c :: ps, rest)

def isHigh (n : Nat) : Bool := 0xd800 ≤ n && n < 0xdc00

def isLow (n : Nat) : Bool := 0xdc00 ≤ n && n < 0xe000

/-- The characters that pieces stand for; nothing if half of a surrogate pair stands alone. -/
def join? : List Piece → Option (List Char)
  | [] => some []
  | .char c :: ps => (join? ps).map (c :: ·)
  | .unit n :: .unit m :: ps =>
      if isHigh n then
        if isLow m then
          (join? ps).map (Char.ofNat (0x10000 + (n - 0xd800) * 0x400 + (m - 0xdc00)) :: ·)
        else none
      else if isLow n then none
      else (join? (.unit m :: ps)).map (Char.ofNat n :: ·)
  | .unit n :: ps =>
      if isHigh n || isLow n then none else (join? ps).map (Char.ofNat n :: ·)

/-- The string behind an opening quote. -/
def stringRest? (cs : List Char) : Option (Json.Quoted × List Char) :=
  (pieces? cs).map fun (ps, rest) => ((join? ps).map String.ofList, rest)

/-- Take a word off the front of a text. -/
def expect? (word : List Char) (cs : List Char) : Option (List Char) :=
  if cs.take word.length = word then some (cs.drop word.length) else none

mutual

/-- The value at the front of a text, nested at most `fuel` deep and wide. -/
def value? : Nat → List Char → Option (Json × List Char)
  | 0, _ => none
  | fuel + 1, cs =>
      match skipBlanks cs with
      | 'n' :: cs => (expect? "ull".toList cs).map fun rest => (.null, rest)
      | 't' :: cs => (expect? "rue".toList cs).map fun rest => (.bool true, rest)
      | 'f' :: cs => (expect? "alse".toList cs).map fun rest => (.bool false, rest)
      | '"' :: cs => (stringRest? cs).map fun (s, rest) => (.string s, rest)
      | '[' :: cs =>
          match skipBlanks cs with
          | ']' :: rest => some (.array [], rest)
          | cs => (items? fuel cs).map fun (items, rest) => (.array items, rest)
      | '\x7b' :: cs =>
          match skipBlanks cs with
          | '\x7d' :: rest => some (.object [], rest)
          | cs => (members? fuel cs).map fun (members, rest) => (.object members, rest)
      | cs => (Number.read? cs).map fun (_, rest) =>
          (.number (cs.take (cs.length - rest.length)), rest)

/-- The items of an array up to its closing bracket. -/
def items? : Nat → List Char → Option (List Json × List Char)
  | 0, _ => none
  | fuel + 1, cs => do
      let (item, cs) ← value? fuel cs
      match skipBlanks cs with
      | ',' :: cs =>
          let (items, rest) ← items? fuel cs
          return (item :: items, rest)
      | ']' :: rest => return ([item], rest)
      | _ => none

/-- The members of an object up to its closing brace. -/
def members? : Nat → List Char → Option (List (Json.Quoted × Json) × List Char)
  | 0, _ => none
  | fuel + 1, cs =>
      match skipBlanks cs with
      | '"' :: cs => do
          let (key, cs) ← stringRest? cs
          match skipBlanks cs with
          | ':' :: cs =>
              let (value, cs) ← value? fuel cs
              match skipBlanks cs with
              | ',' :: cs =>
                  let (members, rest) ← members? fuel cs
                  return ((key, value) :: members, rest)
              | '\x7d' :: rest => return ([(key, value)], rest)
              | _ => none
          | _ => none
      | _ => none

end

/-- The value that a text holds. Each level and each item takes at least one character, so the
length of the text bounds them all. -/
def read? (s : String) : Option Json :=
  let cs := s.toList
  match value? (2 * cs.length + 1) cs with
  | some (v, rest) => if (skipBlanks rest).isEmpty then some v else none
  | none => none

end CounterCoordinator.Json
