import CounterCoordinator.Text.Digits

/-!
# JSON values

A value keeps its numbers as they are written and the members of its objects in order, repeated
keys included. A string whose escapes contain half of a surrogate pair is well formed but stands for
no text.
-/
namespace CounterCoordinator

/-- A text, or nothing if its escapes stand for none. -/
abbrev Json.Quoted := Option String

inductive Json where
  | null
  | bool (b : Bool)
  | number (written : List Char)
  | string (text : Json.Quoted)
  | array (items : List Json)
  | object (members : List (Json.Quoted × Json))
deriving Inhabited

namespace Json

def ofString (s : String) : Json := .string (some s)

def ofNat (n : Nat) : Json := .number (Text.decimalText n)

def ofInt (i : Int) : Json :=
  .number ((if i < 0 then ['-'] else []) ++ Text.decimalText i.natAbs)

/-- An object whose keys are plain texts. -/
def ofMembers (members : List (String × Json)) : Json :=
  .object (members.map fun (k, v) => (some k, v))

end Json
end CounterCoordinator
