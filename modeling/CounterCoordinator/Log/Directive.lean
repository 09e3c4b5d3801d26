import CounterCoordinator.Decimal.Read
import CounterCoordinator.Log.Notice
import CounterCoordinator.Log.Pattern
import CounterCoordinator.Text.Alphanumeric
import CounterCoordinator.Text.Blank

/-!
# Directives of a log filter

A directive is a level, a target, or a target with a level; it may also name a span and a field in
brackets. `Directive.ofText` reads it character by character and leaves out the blanks around it.
Its parts are cut out at the places they have without the blanks in front, but out of the text as it
is given, so blanks in front shift them. Places count bytes, and a part that would begin or end
inside a character tears the text.
-/
namespace CounterCoordinator.Log

/-- A level, or nothing at all. -/
abbrev Threshold := Option Level

structure Directive where
  /-- What the targets of events have to start with. -/
  target : Option String := none
  span : Option String := none
  /-- The name of a field, with its value behind a mark. -/
  field : Option String := none
  threshold : Threshold := some .trace
deriving DecidableEq, Repr

/-- Why a text is no directive. -/
inductive Directive.Fault where
  | malformed
  | unknownLevel
  | badField
  /-- A part would begin or end inside a character. -/
  | torn
deriving DecidableEq, Repr

def Directive.Fault.message : Directive.Fault → String
  | malformed => "invalid filter directive"
  | unknownLevel =>
      "error parsing level filter: expected one of \"off\", \"error\", \"warn\", \"info\", " ++
        "\"debug\", \"trace\", or a number 0-5"
  | badField => "invalid field filter: the value is no pattern"
  | torn => "a directive is cut inside a character"

/-- The threshold that a word or a digit names. -/
def threshold? (cs : List Char) : Option Threshold :=
  let digits := match cs with
    | '+' :: ds => ds
    | ds => ds
  match Text.value? 10 digits with
  | some n => [none, some .error, some .warn, some .info, some .debug, some .trace][n]?
  | none =>
      [("error", some Level.error), ("warn", some .warn), ("info", some .info),
        ("debug", some .debug), ("trace", some .trace), ("off", none)].lookup
        (String.ofList (cs.map Char.toLower))

/-- May a character start a directive without brackets? -/
def isNameStart (c : Char) : Bool :=
  c == '-' || c == ':' || c == '_' || Text.isAlphanumeric c

namespace Directive

/-- Is the value of a field, if it has one behind its mark, a truth value, a number or a pattern? -/
def hasGoodValue (field : List Char) : Bool :=
  match field.dropWhile (· != '=') with
  | [] => true
  | _ :: rest =>
      let value := rest.takeWhile (· != '=')
      (Decimal.number? value).isSome || Pattern.isValid value

/-- The text behind a number of bytes, if a character starts there. -/
def dropBytes? : List Char → Nat → Option (List Char)
  | cs, 0 => some cs
  | [], _ => none
  | c :: cs, n => if c.utf8Size ≤ n then dropBytes? cs (n - c.utf8Size) else none

/-- The first so many bytes of a text, if a character ends there. -/
def takeBytes? : List Char → Nat → Option (List Char)
  | _, 0 => some []
  | [], _ => none
  | c :: cs, n => if c.utf8Size ≤ n then (takeBytes? cs (n - c.utf8Size)).map (c :: ·) else none

/-- The part of a text between two places. -/
def cut (whole : List Char) (first last : Nat) : Except Fault (List Char) :=
  match (dropBytes? whole first).bind fun rest => takeBytes? rest (last - first) with
  | some part => .ok part
  | none => .error .torn

/-- The part of a text from a place on. -/
def cutRest (whole : List Char) (first : Nat) : Except Fault (List Char) :=
  match dropBytes? whole first with
  | some part => .ok part
  | none => .error .torn

/-- How far the reading of a directive has come, and where the part began that is being read. -/
inductive Stage where
  | start
  | name (since : Nat)
  | span (since : Nat)
  | field (since : Nat)
  | fieldEnd
  | bracketEnd
  | level (since : Nat)
deriving DecidableEq, Repr

/-- Read the character at a place of a text. -/
def readChar (whole : List Char) (place : Nat) (c : Char) :
    Stage × Directive → Except Fault (Stage × Directive)
  | (.start, d) =>
      if c = '[' then .ok (.span (place + 1), d)
      else if isNameStart c then .ok (.name place, d)
      else .error .malformed
  | (.name since, d) => do
      if c = '=' ∨ c = '[' then
        let target := String.ofList (← cut whole since place)
        let next := if c = '=' then Stage.level (place + 1) else .span (place + 1)
        return (next, { d with target := some target })
      else return (.name since, d)
  | (.span since, d) => do
      if c = ']' then
        return (.bracketEnd, { d with span := some (String.ofList (← cut whole since place)) })
      else if c = '\x7b' then
        let span := String.ofList (← cut whole since place)
        return (.field (place + 1), { d with span := if span = "" then none else some span })
      else return (.span since, d)
  | (.field since, d) => do
      if c = '\x7d' then
        let field ← cut whole since place
        if field.isEmpty then .error .malformed
        else if hasGoodValue field then
          return (.fieldEnd, { d with field := some (String.ofList field) })
        else .error .badField
      else return (.field since, d)
  | (.fieldEnd, d) => if c = ']' then .ok (.bracketEnd, d) else .error .malformed
  | (.bracketEnd, d) => if c = '=' then .ok (.level (place + 1), d) else .error .malformed
  | (.level since, d) => .ok (.level since, d)

/-- Read the characters from a place on. -/
def readChars (whole : List Char) :
    Nat → List Char → Stage × Directive → Except Fault (Stage × Directive)
  | _, [], state => .ok state
  | place, c :: cs, state => do
      readChars whole (place + c.utf8Size) cs (← readChar whole place c state)

/-- The directive that is complete when the text ends. A name that stands alone is a level, if it
can be one; a mark with no level behind it lets everything through. -/
def complete (whole : List Char) : Stage × Directive → Except Fault Directive
  | (.name since, d) => do
      let name ← cutRest whole since
      return match threshold? name with
      | some threshold => { d with threshold }
      | none => { d with target := some (String.ofList name) }
  | (.level since, d) => do
      let level ← cutRest whole since
      if level.isEmpty then return d
      else match threshold? level with
        | some threshold => return { d with threshold }
        | none => .error .unknownLevel
  | (.bracketEnd, d) => .ok d
  | _ => .error .malformed

/-- The directive that a text is. -/
def ofText (s : String) : Except Fault Directive := do
  let whole := s.toList
  complete whole (← readChars whole 0 (Text.strip whole) (.start, {}))

end Directive
end CounterCoordinator.Log
