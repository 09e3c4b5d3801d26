import CounterCoordinator.Text.Digits

/-!
# Reading decimals

`number?` reads the text of a float: an optional sign, then `inf`, `infinity` or `nan` in any case,
or digits with an optional point and an optional exponent, at least one digit in front of or behind
the point. The result is the float nearest to the decimal.
-/
namespace CounterCoordinator.Decimal

def infinity : Float := 1.0 / 0.0

def notANumber : Float := 0.0 / 0.0

/-- The float nearest to `digits · 10 ^ exponent`. Exponents so large or so small that the result
is infinite or zero whatever the digits are cut off first. -/
def nearest (digits : Nat) (exponent : Int) : Float :=
  let size : Int := (Text.decimalText digits).length
  if digits = 0 then 0.0
  else if 310 < exponent + size then infinity
  else if exponent + size < -330 then 0.0
  else Float.ofScientific digits (decide (exponent < 0)) exponent.natAbs

/-- A sign in front of a text: is it a minus, and what follows? -/
def splitSign : List Char → Bool × List Char
  | '-' :: cs => (true, cs)
  | '+' :: cs => (false, cs)
  | cs => (false, cs)

/-- A decimal integer with an optional sign. -/
def signedInt? (cs : List Char) : Option Int :=
  let (negative, ds) := splitSign cs
  (Text.value? 10 ds).map fun n => if negative then -(n : Int) else n

/-- The exponent part of a number: nothing, or a mark and an integer. -/
def exponentPart? : List Char → Option Int
  | [] => some 0
  | c :: cs => if c = 'e' ∨ c = 'E' then signedInt? cs else none

/-- An unsigned decimal with optional point and exponent. -/
def magnitude? (cs : List Char) : Option Float :=
  let whole := cs.takeWhile Text.isDigit
  let rest := cs.dropWhile Text.isDigit
  let (fraction, rest) := match rest with
    | '.' :: ds => (ds.takeWhile Text.isDigit, ds.dropWhile Text.isDigit)
    | ds => ([], ds)
  if whole.isEmpty && fraction.isEmpty then none
  else (exponentPart? rest).map fun e =>
    nearest (Text.decimalValue (whole ++ fraction)) (e - fraction.length)

/-- The float that a text stands for. -/
def number? (cs : List Char) : Option Float :=
  let (negative, ds) := splitSign cs
  let word := ds.map Char.toLower
  let size :=
    if word = "inf".toList ∨ word = "infinity".toList then some infinity
    else if word = "nan".toList then some notANumber
    else magnitude? ds
  size.map fun x => if negative then -x else x

end CounterCoordinator.Decimal
