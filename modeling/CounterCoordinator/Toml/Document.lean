import CounterCoordinator.Toml.Value

/-!
# Building a TOML document

A document is built entry by entry. A table remembers what gave it its entries: a header of its own,
the headers of other tables in passing, or dotted keys. A table may get one header of its own,
unless dotted keys lead into it; dotted keys lead into no table with a header of its own; nothing
extends a value, and no key is given twice.
-/
namespace CounterCoordinator.Toml

/-- What gave a table its entries. -/
inductive Origin where
  | header
  | passing
  | dotted
deriving DecidableEq, Repr

/-- A part of a document under construction. -/
inductive Item where
  | value (v : Toml)
  | table (origin : Origin) (entries : List (String × Item))
  /-- An array of tables; the last one is open. -/
  | tables (closed : List (List (String × Item))) (last : List (String × Item))
deriving Inhabited

abbrev Entries := List (String × Item)

/-- Put an item in the place of the one with the same key. -/
def replace (key : String) (item : Item) : Entries → Entries
  | [] => []
  | (k, old) :: rest => if k = key then (k, item) :: rest else (k, old) :: replace key item rest

/-- Enter a value under a dotted key. The tables on the way belong to dotted keys from then on; of
an array of tables the way leads into the last one, but the value itself is not entered there. -/
def insert? (entries : Entries) (v : Toml) : List String → Option Entries
  | [] => none
  | [key] =>
      match entries.lookup key with
      | none => some (entries ++ [(key, .value v)])
      | some _ => none
  | key :: next :: path =>
      match entries.lookup key with
      | none => do
          let inner ← insert? [] v (next :: path)
          return entries ++ [(key, .table .dotted inner)]
      | some (.table origin inner) =>
          if origin = .header then none
          else do
            let inner ← insert? inner v (next :: path)
            return replace key (.table .dotted inner) entries
      | some (.tables closed last) =>
          if path = [] then none
          else do
            let last ← insert? last v (next :: path)
            return replace key (.tables closed last) entries
      | some (.value _) => none

/-- Apply a change to the entries of the table with a path, making tables on the way. -/
def within? (change : Entries → Option Entries) : List String → Entries → Option Entries
  | [], entries => change entries
  | key :: path, entries =>
      match entries.lookup key with
      | none => do
          let inner ← within? change path []
          return entries ++ [(key, .table .passing inner)]
      | some (.table origin inner) => do
          let inner ← within? change path inner
          return replace key (.table origin inner) entries
      | some (.tables closed last) => do
          let last ← within? change path last
          return replace key (.tables closed last) entries
      | some (.value _) => none

/-- Give a table its own header. -/
def openTable? (key : String) (entries : Entries) : Option Entries :=
  match entries.lookup key with
  | none => some (entries ++ [(key, .table .header [])])
  | some (.table .passing inner) => some (replace key (.table .header inner) entries)
  | some _ => none

/-- Open the next table of an array of tables. -/
def openElement? (key : String) (entries : Entries) : Option Entries :=
  match entries.lookup key with
  | none => some (entries ++ [(key, .tables [] [])])
  | some (.tables closed last) => some (replace key (.tables (closed ++ [last]) []) entries)
  | some _ => none

/-- Apply a change of the last key of a header to the table of the keys before it. -/
def header? (change : String → Entries → Option Entries) (path : List String)
    (entries : Entries) : Option Entries :=
  match path.getLast? with
  | some key => within? (change key) path.dropLast entries
  | none => none

mutual

def Item.finish : Item → Toml
  | .value v => v
  | .table _ entries => .table (finishEntries entries)
  | .tables closed last => .array (finishTables closed ++ [.table (finishEntries last)])

def finishEntries : List (String × Item) → List (String × Toml)
  | [] => []
  | (key, item) :: rest => (key, item.finish) :: finishEntries rest

def finishTables : List (List (String × Item)) → List Toml
  | [] => []
  | entries :: rest => .table (finishEntries entries) :: finishTables rest

end

end CounterCoordinator.Toml
