import CounterCoordinator.Error
import CounterCoordinator.Text.Blank

/-!
# Spans of time

A span is a number of nanoseconds. `Span.parse` reads the written form: digits and one of the units
`ms`, `s`, `m` and `h`, with blanks around them; the number and the seconds it stands for must each
fit a 64-bit word. `Span.ofText` refuses any other text as a setting. `Span.text` writes a span in
the largest unit that leaves a nonzero whole part.
-/
namespace CounterCoordinator

structure Span where
  nanos : Nat
deriving DecidableEq, Repr, Inhabited

namespace Span

def ofMillis (n : Nat) : Span := ⟨n * 1000000⟩

def ofSeconds (n : Nat) : Span := ⟨n * 1000000000⟩

/-- Whole seconds. -/
def seconds (d : Span) : Nat := d.nanos / 1000000000

/-- Nanoseconds beyond the whole seconds. -/
def subsecond (d : Span) : Nat := d.nanos % 1000000000

/-- Nanoseconds from which on a span is out of range: its whole seconds have to fit a word. -/
def limit : Nat := UInt64.size * 1000000000

/-- Twice the span, if that is in range. -/
def double? (d : Span) : Option Span :=
  if 2 * d.nanos < limit then some ⟨2 * d.nanos⟩ else none

/-- Why a text is no span. -/
inductive Fault where
  | empty
  | missingUnit (text : String)
  | invalidNumber (text : String)
  | unknownUnit (unit : String)
  | outOfRange (text : String)
deriving DecidableEq, Repr

def Fault.message : Fault → String
  | empty => "empty duration"
  | missingUnit text => s!"missing duration unit: {text}"
  | invalidNumber text => s!"invalid duration: {text}"
  | unknownUnit unit => s!"unknown duration unit: {unit}"
  | outOfRange text => s!"duration out of range: {text}"

/-- The units a span may be written in. -/
inductive Unit where
  | millisecond
  | second
  | minute
  | hour
deriving DecidableEq, Repr

def Unit.ofText? (cs : List Char) : Option Unit :=
  if cs = ['m', 's'] then some .millisecond
  else if cs = ['s'] then some .second
  else if cs = ['m'] then some .minute
  else if cs = ['h'] then some .hour
  else none

/-- Read a text without blanks around it. -/
def parseStripped (cs : List Char) : Except Fault Span :=
  let text := String.ofList cs
  let digits := cs.takeWhile Text.isDigit
  let unit := cs.dropWhile Text.isDigit
  if cs.isEmpty then .error .empty
  else if unit.isEmpty then .error (.missingUnit text)
  else if digits.isEmpty || decide (UInt64.size ≤ Text.decimalValue digits) then
    .error (.invalidNumber text)
  else
    let n := Text.decimalValue digits
    let ofCount (perUnit : Nat) : Except Fault Span :=
      if n * perUnit < UInt64.size then .ok (ofSeconds (n * perUnit)) else .error (.outOfRange text)
    match Unit.ofText? unit with
    | some .millisecond => .ok (ofMillis n)
    | some .second => ofCount 1
    | some .minute => ofCount 60
    | some .hour => ofCount 3600
    | none => .error (.unknownUnit (String.ofList unit))

def parse (s : String) : Except Fault Span :=
  parseStripped (Text.strip s.toList)

/-- The span that a setting says. -/
def ofText (s : String) : Outcome Span :=
  match parse s with
  | .ok d => .ok d
  | .error fault => .error (.invalidConfig fault.message)

/-- A fraction with as many digits as `scale` has zeros, without the zeros it ends with. -/
def fractionText (places n : Nat) : List Char :=
  let digits := Text.decimalText n
  let padded := List.replicate (places - digits.length) '0' ++ digits
  (padded.reverse.dropWhile (· == '0')).reverse

/-- A count of units and the rest below one unit, `places` digits long. -/
def unitText (whole places rest : Nat) (unit : String) : String :=
  let fraction := fractionText places rest
  let point := if fraction.isEmpty then [] else '.' :: fraction
  String.ofList (Text.decimalText whole ++ point) ++ unit

/-- The exact text in seconds, milliseconds, microseconds or nanoseconds. -/
def text (d : Span) : String :=
  let n := d.nanos
  if 1000000000 ≤ n then unitText (n / 1000000000) 9 (n % 1000000000) "s"
  else if 1000000 ≤ n then unitText (n / 1000000) 6 (n % 1000000) "ms"
  else if 1000 ≤ n then unitText (n / 1000) 3 (n % 1000) "µs"
  else unitText n 0 0 "ns"

end Span
end CounterCoordinator
