import CounterCoordinator.Decimal.Read
import CounterCoordinator.Toml.Moment
import CounterCoordinator.Toml.Value

/-!
# Scalars in TOML

Numbers, truth values and moments are words without blanks, except that one blank may stand between
a date and a time. Digits may be grouped by single underscores between two of them; integers have 64
bits with sign and may be hexadecimal, octal or binary.
-/
namespace CounterCoordinator.Toml

/-- The characters that such a word is made of. -/
def isWordChar (c : Char) : Bool :=
  c.isAlphanum || c == '_' || c == '-' || c == '+' || c == '.' || c == ':'

/-- Digits without the underscores between them; nothing if one stands elsewhere. -/
def ungroup? (ok : Char → Bool) : List Char → Option (List Char)
  | [] => none
  | [c] => if ok c then some [c] else none
  | c :: '_' :: cs => if ok c then (ungroup? ok cs).map (c :: ·) else none
  | c :: cs => if ok c then (ungroup? ok cs).map (c :: ·) else none

/-- Decimal digits without a needless zero in front. -/
def wholeDigits? (cs : List Char) : Option (List Char) :=
  (ungroup? Text.isDigit cs).filter fun ds => ds.head? != some '0' || ds.length == 1

/-- An integer that fits 64 bits with sign. -/
def inRange? (n : Int) : Option Int :=
  if Int64.minValue.toInt ≤ n ∧ n ≤ Int64.maxValue.toInt then some n else none

/-- An integer in another base, behind its mark. -/
def based? (base : Nat) (cs : List Char) : Option Int := do
  let ds ← ungroup? (fun c => (Text.digitValue? base c).isSome) cs
  let n ← Text.value? base ds
  inRange? n

def integer? (cs : List Char) : Option Int :=
  match cs with
  | '0' :: 'x' :: ds => based? 16 ds
  | '0' :: 'o' :: ds => based? 8 ds
  | '0' :: 'b' :: ds => based? 2 ds
  | _ => do
      let (negative, ds) := Decimal.splitSign cs
      let n := Text.decimalValue (← wholeDigits? ds)
      inRange? (if negative then -(n : Int) else n)

/-- The exponent behind its mark. -/
def exponent? (cs : List Char) : Option Int := do
  let (negative, ds) := Decimal.splitSign cs
  let n := Text.decimalValue (← ungroup? Text.isDigit ds)
  return if negative then -(n : Int) else n

/-- What stands in front of a mark and what behind it, if the mark is there. -/
def splitAtMark (ok : Char → Bool) (cs : List Char) : List Char × Option (List Char) :=
  match cs.dropWhile fun c => !ok c with
  | [] => (cs, none)
  | _ :: rest => (cs.takeWhile fun c => !ok c, some rest)

/-- A number with a point or an exponent; one that is too large is refused. -/
def decimal? (cs : List Char) : Option Float := do
  let (mantissa, exponent) := splitAtMark (fun c => c == 'e' || c == 'E') cs
  let (whole, fraction) := splitAtMark (· == '.') mantissa
  if exponent.isNone && fraction.isNone then none
  let wholeDigits ← wholeDigits? whole
  let fractionDigits ← match fraction with
    | some ds => ungroup? Text.isDigit ds
    | none => some []
  let e ← match exponent with
    | some ds => exponent? ds
    | none => some 0
  let x := Decimal.nearest (Text.decimalValue (wholeDigits ++ fractionDigits))
    (e - fractionDigits.length)
  if x == Decimal.infinity then none else some x

def float? (cs : List Char) : Option Float := do
  let (negative, ds) := Decimal.splitSign cs
  let x ←
    if ds = "inf".toList then some Decimal.infinity
    else if ds = "nan".toList then some Decimal.notANumber
    else decimal? ds
  return if negative then -x else x

/-- The scalar that a word stands for. -/
def scalar? (cs : List Char) : Option Toml :=
  if cs = "true".toList then some (.boolean true)
  else if cs = "false".toList then some (.boolean false)
  else match integer? cs, float? cs, moment? cs with
    | some n, _, _ => some (.integer n)
    | none, some x, _ => some (.float x)
    | none, none, some m => some (.moment m)
    | none, none, none => none

/-- Is a word the date of a moment whose time follows behind a blank? -/
def timeFollows (word rest : List Char) : Bool :=
  match word.length, date? word, rest with
  | 10, some _, ' ' :: c :: _ => Text.isDigit c
  | _, _, _ => false

/-- The scalar at the front of a text, and what follows it. -/
def scalarAt? (cs : List Char) : Option (Toml × List Char) :=
  let word := cs.takeWhile isWordChar
  let rest := cs.dropWhile isWordChar
  if timeFollows word rest then
    let time := rest.drop 1
    (scalar? (word ++ ' ' :: time.takeWhile isWordChar)).map fun v =>
      (v, time.dropWhile isWordChar)
  else (scalar? word).map fun v => (v, rest)

end CounterCoordinator.Toml
