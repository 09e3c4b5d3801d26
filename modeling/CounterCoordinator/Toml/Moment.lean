import CounterCoordinator.Text.Digits

/-!
# Dates and times in TOML

A moment is a date, a time of day, or both, the latter with an optional offset. Seconds may be left
out. The text of a moment separates date and time by `T`.
-/
namespace CounterCoordinator.Toml

/-- Exactly `count` digits at the front of a text, and what follows them. -/
def digits? (count : Nat) (cs : List Char) : Option (Nat × List Char) :=
  let ds := cs.take count
  if ds.length = count ∧ ds.all Text.isDigit then some (Text.decimalValue ds, cs.drop count)
  else none

/-- A separator at the front of a text. -/
def char? (ok : Char → Bool) : List Char → Option (List Char)
  | c :: cs => if ok c then some cs else none
  | [] => none

def isLeap (year : Nat) : Bool :=
  year % 4 == 0 && (year % 100 != 0 || year % 400 == 0)

def daysIn (year month : Nat) : Nat :=
  if month = 2 then if isLeap year then 29 else 28
  else if [4, 6, 9, 11].contains month then 30 else 31

/-- Two digits of `n`. -/
def two (n : Nat) : String :=
  String.ofList [Text.hexDigit (n / 10 % 10), Text.hexDigit (n % 10)]

/-- A date at the front of a text: its own text, and what follows. -/
def date? (cs : List Char) : Option (String × List Char) := do
  let (year, rest) ← digits? 4 cs
  let (month, rest) ← digits? 2 (← char? (· == '-') rest)
  let (day, rest) ← digits? 2 (← char? (· == '-') rest)
  if 1 ≤ month ∧ month ≤ 12 ∧ 1 ≤ day ∧ day ≤ daysIn year month then
    return (String.ofList (cs.take 10), rest)
  else none

/-- The fraction of a second, cut to nine places and without the zeros it ends with; one digit is
always left. -/
def fraction? : List Char → Option (String × List Char)
  | '.' :: cs =>
      let ds := cs.takeWhile Text.isDigit
      if ds.isEmpty then none
      else
        let kept := ((ds.take 9).reverse.dropWhile (· == '0')).reverse
        let shown := if kept.isEmpty then ['0'] else kept
        some (String.ofList ('.' :: shown), cs.dropWhile Text.isDigit)
  | cs => some ("", cs)

/-- The seconds of a time, if they are there. -/
def seconds? : List Char → Option (String × List Char)
  | ':' :: cs => do
      let (second, rest) ← digits? 2 cs
      let (fraction, rest) ← fraction? rest
      if second ≤ 60 then return (":" ++ two second ++ fraction, rest) else none
  | cs => some ("", cs)

/-- A time of day at the front of a text. -/
def time? (cs : List Char) : Option (String × List Char) := do
  let (hour, rest) ← digits? 2 cs
  let (minute, rest) ← digits? 2 (← char? (· == ':') rest)
  let (seconds, rest) ← seconds? rest
  if hour ≤ 23 ∧ minute ≤ 59 then return (two hour ++ ":" ++ two minute ++ seconds, rest) else none

/-- The offset of a time from universal time, if it is there: less than a day, and without a sign of
its own if it is zero. -/
def offset? : List Char → Option String
  | [] => some ""
  | [c] => if c = 'Z' ∨ c = 'z' then some "Z" else none
  | c :: cs => do
      let (hour, rest) ← digits? 2 cs
      let (minute, rest) ← digits? 2 (← char? (· == ':') rest)
      if (c = '+' ∨ c = '-') ∧ hour ≤ 23 ∧ minute ≤ 59 ∧ rest.isEmpty then
        let sign := if hour = 0 ∧ minute = 0 then '+' else c
        return String.ofList [sign] ++ two hour ++ ":" ++ two minute
      else none

/-- The normal text of the moment that a text is. -/
def moment? (cs : List Char) : Option String :=
  match date? cs with
  | some (date, []) => some date
  | some (date, c :: rest) => do
      if c = 'T' ∨ c = 't' ∨ c = ' ' then
        let (time, rest) ← time? rest
        let offset ← offset? rest
        return date ++ "T" ++ time ++ offset
      else none
  | none => do
      let (time, rest) ← time? cs
      if rest.isEmpty then return time else none

end CounterCoordinator.Toml
