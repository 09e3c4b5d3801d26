import CounterCoordinator.Text.Digits
import CounterCoordinator.Toml.Value

/-!
# Setting trees

Settings from all sources are laid over each other in one tree. A source sets a value at a path;
tables are merged key by key, and any other value takes the place of what was there. A path leads
through tables by keys and through lists by indices, and makes them where something else stands.
-/
namespace CounterCoordinator.Config

inductive Tree where
  | text (s : String)
  | integer (n : Int)
  | float (x : Float)
  | boolean (b : Bool)
  /-- A place of a list that nothing was set at. -/
  | nothing
  | list (items : List Tree)
  | table (entries : List (String × Tree))
deriving Inhabited

/-- A step of a path. An index below zero counts from the end of the list. -/
inductive Step where
  | key (name : String)
  | index (i : Int)
deriving DecidableEq, Repr

namespace Tree

/-- The entries of a table; other values have none. -/
def entries : Tree → List (String × Tree)
  | table es => es
  | _ => []

/-- The items of a list; other values have none. -/
def items : Tree → List Tree
  | list ts => ts
  | _ => []

/-- Change the entry of a key, which may be missing so far. -/
def alter (key : String) (change : Option Tree → Tree) :
    List (String × Tree) → List (String × Tree)
  | [] => [(key, change none)]
  | (k, v) :: rest =>
      if k = key then (k, change (some v)) :: rest else (k, v) :: alter key change rest

/-- Change the item at an index. The list grows at the end that the index lies behind, just so far
that it has such an item. -/
def alterAt (i : Int) (change : Option Tree → Tree) (items : List Tree) : List Tree :=
  let missing := (-i).toNat - items.length
  let position := if 0 ≤ i then i.toNat else items.length - (-i).toNat
  let padded := List.replicate missing nothing ++ items
  let padded := padded ++ List.replicate (position + 1 - padded.length) nothing
  padded.modify position fun item => change (some item)

mutual

/-- Lay a value over another one. -/
def cover : Tree → Option Tree → Tree
  | table es, below => table (coverEntries es (below.elim [] entries))
  | v, _ => v

/-- Lay entries over those of a table. -/
def coverEntries : List (String × Tree) → List (String × Tree) → List (String × Tree)
  | [], below => below
  | (k, v) :: rest, below => coverEntries rest (alter k (cover v) below)

end

def set (v : Tree) : List Step → Option Tree → Tree
  | [], below => cover v below
  | .key k :: path, below => table (alter k (set v path) (below.elim [] entries))
  | .index i :: path, below => list (alterAt i (set v path) (below.elim [] items))

mutual

def ofToml : Toml → Tree
  | .string s => text s
  | .integer n => integer n
  | .float x => float x
  | .boolean b => boolean b
  | .moment s => text s
  | .array vs => list (ofItems vs)
  | .table es => table (ofEntries es)

def ofItems : List Toml → List Tree
  | [] => []
  | v :: rest => ofToml v :: ofItems rest

def ofEntries : List (String × Toml) → List (String × Tree)
  | [] => []
  | (k, v) :: rest => (k, ofToml v) :: ofEntries rest

end
end Tree

/-! ### Paths -/

def isNameChar (c : Char) : Bool := c.isAlphanum || c == '_' || c == '-'

def isPathBlank (c : Char) : Bool := c == ' ' || c == '\t'

/-- An integer at the front of a text, with blanks around it, and what follows them. -/
def index? (cs : List Char) : Option (Int × List Char) :=
  let cs := cs.dropWhile isPathBlank
  let (negative, cs) := match cs with
    | '-' :: cs => (true, cs)
    | cs => (false, cs)
  let digits := cs.takeWhile Text.isDigit
  let n : Int := Text.decimalValue digits
  let i := if negative then -n else n
  if digits.isEmpty ∨ i < Int64.minValue.toInt ∨ Int64.maxValue.toInt < i then none
  else some (i, (cs.drop digits.length).dropWhile isPathBlank)

/-- The steps behind the first name of a path: names behind dots, integers in brackets. -/
def steps? : Nat → List Char → Option (List Step)
  | 0, _ => none
  | fuel + 1, cs =>
      match cs with
      | [] => some []
      | '.' :: rest =>
          let name := rest.takeWhile isNameChar
          if name.isEmpty then none
          else (steps? fuel (rest.dropWhile isNameChar)).map (.key (String.ofList name) :: ·)
      | '[' :: rest =>
          match index? rest with
          | some (i, ']' :: rest) => (steps? fuel rest).map (.index i :: ·)
          | _ => none
      | _ => none

/-- The path that a text stands for. A text that is no path is a single key. -/
def path (s : String) : List Step :=
  (steps? (s.length + 2) ('.' :: s.toList)).getD [.key s]

end CounterCoordinator.Config
