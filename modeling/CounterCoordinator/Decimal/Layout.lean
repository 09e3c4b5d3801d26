import CounterCoordinator.Decimal.Shortest
import CounterCoordinator.Text.Digits

/-!
# Layouts of decimal texts

A layout says where positional notation ends, what a whole number looks like and how the special
values are spelled. `plain` never uses an exponent; `json` always shows a fraction and turns to
exponents for very large and very small magnitudes.
-/
namespace CounterCoordinator.Decimal

/-- How a float is written. -/
structure Layout where
  tie : Tie
  /-- Least and greatest decimal exponent of the leading digit that is written positionally. -/
  positional : Option (Int × Int)
  /-- What a whole number ends with. -/
  wholeMark : String
  /-- Mark in front of a nonnegative exponent. -/
  exponentMark : String
  nan : String
  infinity : String
  negativeInfinity : String
deriving DecidableEq, Repr

/-- Shortest digits, no exponent, whole numbers without a fraction. -/
def Layout.plain : Layout := ⟨.up, none, "", "", "NaN", "inf", "-inf"⟩

/-- Whole numbers end in `.0`; below `1e-5` and from `1e16` on an exponent is written, with its
sign. A number that is not finite is `null`. -/
def Layout.json : Layout := ⟨.even, some (-5, 15), ".0", "+", "null", "null", "null"⟩

def zeros (n : Nat) : List Char := List.replicate n '0'

/-- Digits with the point where the exponent puts it. -/
def Layout.positionalText (l : Layout) (digits : List Char) (exponent : Int) : List Char :=
  if 0 ≤ exponent then digits ++ zeros exponent.toNat ++ l.wholeMark.toList
  else
    let places := (-exponent).toNat
    if places < digits.length then
      digits.take (digits.length - places) ++ '.' :: digits.drop (digits.length - places)
    else '0' :: '.' :: zeros (places - digits.length) ++ digits

/-- One digit before the point, the others behind it, then the exponent of that digit. -/
def Layout.exponentText (l : Layout) (digits : List Char) (leading : Int) : List Char :=
  let mantissa := match digits with
    | [] => []
    | [d] => [d]
    | d :: ds => d :: '.' :: ds
  let sign := if leading < 0 then ['-'] else l.exponentMark.toList
  mantissa ++ 'e' :: sign ++ Text.decimalText leading.natAbs

def Layout.scaledText (l : Layout) (d : Scaled) : List Char :=
  let digits := Text.decimalText d.digits
  let leading := d.exponent + digits.length - 1
  match l.positional with
  | some (least, greatest) =>
      if least ≤ leading ∧ leading ≤ greatest then l.positionalText digits d.exponent
      else l.exponentText digits leading
  | none => l.positionalText digits d.exponent

/-- The text of the finite magnitude with these bits, sign bit left out. -/
def Layout.finiteText (l : Layout) (bits : Nat) : List Char :=
  if bits = 0 then '0' :: l.wholeMark.toList
  else l.scaledText (shortest l.tie (Binary.ofBits bits))

/-- What the sign adds to the bits of a negative number. -/
def signBit : Nat := fractions * exponents

/-- The magnitude bits of the infinities: the greatest exponent and no fraction. -/
def infiniteBits : Nat := fractions * (exponents - 1)

/-- The text of a float, read off its bits; a negative zero keeps its sign. -/
def Layout.text (l : Layout) (x : Float) : String :=
  let bits := x.toBits.toNat
  let magnitude := bits % signBit
  let negative := decide (signBit ≤ bits)
  if infiniteBits < magnitude then l.nan
  else if magnitude = infiniteBits then if negative then l.negativeInfinity else l.infinity
  else String.ofList ((if negative then ['-'] else []) ++ l.finiteText magnitude)

end CounterCoordinator.Decimal
