import CounterCoordinator.Decimal.Read
import CounterCoordinator.Json.Value

/-!
# Numbers in JSON

A number is written as a sign, a whole part without needless zeros, a fraction and an exponent. It
is an integer when it has neither fraction nor exponent; a negative zero is none. As a float it is
the significand, cut to what fits a 64-bit word, scaled by powers of ten; a scaled number that
overflows is refused.
-/
namespace CounterCoordinator.Json

/-- The parts of a written number. -/
structure Number where
  negative : Bool
  whole : List Char
  /-- Digits behind the point; nothing without a point. -/
  fraction : Option (List Char)
  exponent : Option Int
deriving DecidableEq, Repr

/-- The digits at the front of a text, at least one, and what follows them. -/
def someDigits? (cs : List Char) : Option (List Char × List Char) :=
  let digits := cs.takeWhile Text.isDigit
  if digits.isEmpty then none else some (digits, cs.dropWhile Text.isDigit)

/-- The whole part: a single zero, or digits that start with another one. -/
def wholePart? : List Char → Option (List Char × List Char)
  | '0' :: cs => some (['0'], cs)
  | cs => someDigits? cs

/-- The fraction, if there is a point. -/
def fractionPart? : List Char → Option (Option (List Char) × List Char)
  | '.' :: cs => (someDigits? cs).map fun (ds, rest) => (some ds, rest)
  | cs => some (none, cs)

/-- The exponent, if there is a mark. -/
def exponentPart? : List Char → Option (Option Int × List Char)
  | c :: cs =>
      if c = 'e' ∨ c = 'E' then
        let (negative, ds) := Decimal.splitSign cs
        (someDigits? ds).map fun (ds, rest) =>
          let n := Text.decimalValue ds
          (some (if negative then -(n : Int) else n), rest)
      else some (none, c :: cs)
  | [] => some (none, [])

/-- The number at the front of a text, and what follows it. -/
def Number.read? (cs : List Char) : Option (Number × List Char) := do
  let (negative, cs) := match cs with
    | '-' :: cs => (true, cs)
    | cs => (false, cs)
  let (whole, cs) ← wholePart? cs
  let (fraction, cs) ← fractionPart? cs
  let (exponent, cs) ← exponentPart? cs
  return (⟨negative, whole, fraction, exponent⟩, cs)

def Number.integer? (n : Number) : Option Int :=
  match n.fraction, n.exponent with
  | none, none =>
      let v := Text.decimalValue n.whole
      if n.negative then if v = 0 then none else some (-(v : Int)) else some v
  | _, _ => none

/-- Digits appended to a significand as long as the result fits a word, and those left over. -/
def fill : Nat → List Char → Nat × List Char
  | n, [] => (n, [])
  | n, c :: cs =>
      let next := n * 10 + (c.toNat - '0'.toNat)
      if next < UInt64.size then fill next cs else (n, c :: cs)

/-- The significand word of a number and the power of ten it is scaled by. -/
def Number.scaled (n : Number) : Nat × Int :=
  let (high, extra) := fill 0 n.whole
  let digits := n.fraction.getD []
  let (significand, unused) := fill high digits
  (significand, extra.length - (digits.length - unused.length : Int) + n.exponent.getD 0)

/-- Scale down in steps of at most 308 decimal places, which zero does not need. -/
def scaleDown : Nat → Float → Nat → Float
  | 0, x, _ => x
  | fuel + 1, x, places =>
      if places ≤ 308 then x / Decimal.nearest 1 places
      else if x == 0.0 then x
      else scaleDown fuel (x / Decimal.nearest 1 308) (places - 308)

/-- The float that a number stands for; nothing if it is too large. -/
def Number.float? (n : Number) : Option Float :=
  let (significand, exponent) := n.scaled
  let x := (UInt64.ofNat significand).toFloat
  let size :=
    if exponent < 0 then some (scaleDown 8 x exponent.natAbs)
    else if exponent ≤ 308 then
      let y := x * Decimal.nearest 1 exponent
      if y == Decimal.infinity then none else some y
    else if significand = 0 then some 0.0
    else none
  size.map fun y => if n.negative then -y else y

end CounterCoordinator.Json
