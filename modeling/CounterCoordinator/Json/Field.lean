import CounterCoordinator.Json.Number

/-!
# Records in JSON

A record is written as an object with one member for each field, and read from such an object or
from an array of its fields in order. In an object, members that are no field are ignored and a
field that stands twice is refused. A field that is missing, in an object or at the end of an array,
takes its default, if it has one.
-/
namespace CounterCoordinator.Json

/-- A way to read a value of some type. -/
abbrev Decoder (α : Type) := Json → Option α

/-- The fields of a record as they were found: the value of each, if it is there. -/
abbrev Found := List (Option Json)

/-- The one member with this key; nothing inside if there is none, nothing at all if it is repeated.
-/
def member? (members : List (Json.Quoted × Json)) (name : String) : Option (Option Json) :=
  match members.filter fun m => m.1 == some name with
  | [] => some none
  | [m] => some (some m.2)
  | _ => none

/-- The fields of a record, in the order of their names. -/
def fields? (names : List String) : Json → Option Found
  | object members =>
      if members.any fun m => m.1.isNone then none
      else names.mapM (member? members)
  | array items =>
      if names.length < items.length then none
      else some (items.map some ++ List.replicate (names.length - items.length) none)
  | _ => none

/-- A field that has to be there. -/
def required {α : Type} (decode : Decoder α) (field : Option Json) : Option α :=
  field.bind decode

/-- A field that takes a default when it is missing. -/
def withDefault {α : Type} (fallback : α) (decode : Decoder α) : Option Json → Option α
  | some v => decode v
  | none => some fallback

/-- A number that fits a word, written as an integer. -/
def nat? : Decoder Nat
  | number written => do
      let (n, _) ← Number.read? written
      let i ← n.integer?
      if 0 ≤ i ∧ i.toNat < UInt64.size then some i.toNat else none
  | _ => none

def word? : Decoder UInt64 := fun v => (nat? v).map UInt64.ofNat

/-- A signed 64-bit number, written as an integer. -/
def counter? : Decoder Int64
  | number written => do
      let (n, _) ← Number.read? written
      let i ← n.integer?
      if Int64.minValue.toInt ≤ i ∧ i ≤ Int64.maxValue.toInt then some (Int64.ofInt i) else none
  | _ => none

def float? : Decoder Float
  | number written => (Number.read? written).bind fun (n, _) => n.float?
  | _ => none

def bool? : Decoder Bool
  | bool b => some b
  | _ => none

def string? : Decoder String
  | string text => text
  | _ => none

def list? {α : Type} (decode : Decoder α) : Decoder (List α)
  | array items => items.mapM decode
  | _ => none

/-- A value that may be null. -/
def nullable {α : Type} (decode : Decoder α) : Decoder (Option α)
  | null => some none
  | v => (decode v).map some

/-- The name and the content of a value written as an object with a single member. -/
def tagged? : Json → Option (String × Json)
  | object [(some name, content)] => some (name, content)
  | _ => none

end CounterCoordinator.Json
