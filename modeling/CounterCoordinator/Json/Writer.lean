import CounterCoordinator.Decimal.Layout
import CounterCoordinator.Json.Value

/-!
# Writing JSON

Values are written without blanks, or over several lines with two blanks per level. Only the quote,
the backslash and control characters are escaped.
-/
namespace CounterCoordinator.Json

/-- The escape of a character, or the character itself. -/
def escape (c : Char) : List Char :=
  if c = '"' then ['\\', '"']
  else if c = '\\' then ['\\', '\\']
  else if c.toNat = 8 then ['\\', 'b']
  else if c = '\t' then ['\\', 't']
  else if c = '\n' then ['\\', 'n']
  else if c.toNat = 12 then ['\\', 'f']
  else if c = '\r' then ['\\', 'r']
  else if c.toNat < 0x20 then '\\' :: 'u' :: Text.hexText 4 c.toNat
  else [c]

def quote (s : String) : String :=
  String.ofList ('"' :: s.toList.flatMap escape ++ ['"'])

/-- A float as a number; one that is not finite as null. -/
def ofFloat (x : Float) : Json :=
  if x.isFinite then .number (Decimal.Layout.json.text x).toList else .null

/-- How the parts of arrays and objects are set off: the text in front of a part at a depth, and the
text behind a key. -/
structure Style where
  gap : Nat → String
  colon : String

/-- Everything on one line, without blanks. -/
def Style.compact : Style := ⟨fun _ => "", ":"⟩

/-- A line for each part, two blanks per level. -/
def Style.pretty : Style :=
  ⟨fun depth => "\n" ++ String.ofList (List.replicate (2 * depth) ' '), ": "⟩

/-- Parts between brackets, each on its own place; nothing between the brackets if there are none.
-/
def Style.enclose (st : Style) (depth : Nat) (opening closing : String) (parts : List String) :
    String :=
  if parts.isEmpty then opening ++ closing
  else
    opening ++ String.intercalate "," (parts.map fun p => st.gap (depth + 1) ++ p) ++
      st.gap depth ++ closing

mutual

/-- The text of a value at a depth. -/
def render (st : Style) (depth : Nat) : Json → String
  | null => "null"
  | bool b => if b then "true" else "false"
  | number written => String.ofList written
  | string text => quote (text.getD "")
  | array items => st.enclose depth "[" "]" (renderItems st (depth + 1) items)
  | object members => st.enclose depth "\x7b" "\x7d" (renderMembers st (depth + 1) members)

def renderItems (st : Style) (depth : Nat) : List Json → List String
  | [] => []
  | v :: vs => render st depth v :: renderItems st depth vs

def renderMembers (st : Style) (depth : Nat) : List (Json.Quoted × Json) → List String
  | [] => []
  | (k, v) :: ms =>
      (quote (k.getD "") ++ st.colon ++ render st depth v) :: renderMembers st depth ms

end

def compact (v : Json) : String := render .compact 0 v

def pretty (v : Json) : String := render .pretty 0 v

end CounterCoordinator.Json
