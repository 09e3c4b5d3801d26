import CounterCoordinator.Log.Directive

/-!
# Log filters

A filter is a list of directives, separated by commas. Among the directives whose target starts the
target of an event, the most specific one decides: the one with the longest target, then one with a
field before one without, and the later one of two alike. Directives that name a span, or the value
of a field, never apply here, since no event happens in a span. A filter without directives lets
errors through.
-/
namespace CounterCoordinator.Log

def Level.rank : Level → Nat
  | error => 1
  | warn => 2
  | info => 3
  | debug => 4
  | trace => 5

/-- Does a threshold let a level through? -/
def admits (t : Threshold) (l : Level) : Bool :=
  match t with
  | some t => l.rank ≤ t.rank
  | none => false

/-- Can a directive decide about events at all? -/
def Directive.isStatic (d : Directive) : Bool :=
  d.span.isNone && d.field.all fun f => !f.toList.contains '='

/-- Does a directive apply to events with a target and no field but their message? -/
def Directive.appliesTo (d : Directive) (target : String) : Bool :=
  d.isStatic && (d.target.elim true fun t => target.startsWith t) &&
    d.field.all (· == "message")

/-- What a directive is preferred by. -/
def Directive.specificity (d : Directive) : Nat × Nat :=
  (d.target.elim 0 fun t => t.utf8ByteSize + 1, d.field.isSome.toNat)

/-- Is one of two directives less specific than the other? -/
def lessSpecific (a b : Nat × Nat) : Bool :=
  a.1 < b.1 || (a.1 == b.1 && a.2 < b.2)

abbrev Filter := List Directive

/-- The texts between the commas of a filter, empty ones left out. -/
def Filter.parts (s : String) : List String :=
  (s.splitOn ",").filter fun p => !p.isEmpty

/-- A filter whose directives all have to be well formed. -/
def Filter.ofText (s : String) : Except Directive.Fault Filter :=
  (Filter.parts s).mapM Directive.ofText

/-- A filter, and the texts beside it that are no directives. -/
structure Filter.Reading where
  filter : Filter := []
  ignored : List (String × Directive.Fault) := []
deriving Repr

/-- Add the directive that a text is to a filter. -/
def Filter.Reading.add (r : Filter.Reading) (s : String) : Except Directive.Fault Filter.Reading :=
  match Directive.ofText s with
  | .ok d => .ok { r with filter := r.filter ++ [d] }
  | .error .torn => .error .torn
  | .error fault => .ok { r with ignored := r.ignored ++ [(s, fault)] }

/-- The filter of the well-formed directives of a text, as long as none of its parts is torn. -/
def Filter.ofTextLossy (s : String) : Except Directive.Fault Filter.Reading :=
  (Filter.parts s).foldlM Filter.Reading.add {}

def Filter.threshold (f : Filter) (target : String) : Threshold :=
  if f.isEmpty then some .error
  else
    let best := (f.filter fun d => d.appliesTo target).foldl (fun best d =>
      match best with
      | some b => if lessSpecific d.specificity b.specificity then best else some d
      | none => some d) (none : Option Directive)
    best.bind Directive.threshold

def Filter.admits (f : Filter) (target : String) (l : Level) : Bool :=
  Log.admits (f.threshold target) l

end CounterCoordinator.Log
