/-!
# Shortest decimals of binary floats

A finite nonzero binary64 number is `m · 2 ^ q` for the significand `m` and the exponent `q` read
off its bits. A decimal reads back as that number when it lies in the interval of reals that round
to it, whose ends belong to it exactly when `m` is even. `shortest` takes the coarsest decimal grid
that has a point in the interval and, of the two grid points next to the number, the nearer one.
-/
namespace CounterCoordinator.Decimal

/-- Which neighbour a number halfway between two grid points goes to. -/
inductive Tie where
  | up
  | even
deriving DecidableEq, Repr

/-- A positive decimal `digits · 10 ^ exponent`. -/
structure Scaled where
  digits : Nat
  exponent : Int
deriving DecidableEq, Repr

/-- A positive binary64 number, with the ends of its interval counted in quarters of a unit. -/
structure Binary where
  significand : Nat
  exponent : Int
  /-- Distance to the lower end, in quarters of `2 ^ exponent`: one below a power of two. -/
  below : Nat
deriving DecidableEq, Repr

/-- The number of fractions that binary64 can hold, `2 ^ 52`. -/
def fractions : Nat := 4503599627370496

/-- The number of exponents that binary64 can hold, `2 ^ 11`. -/
def exponents : Nat := 2048

/-- The significand and exponent that the magnitude bits of a finite number stand for. -/
def Binary.ofBits (bits : Nat) : Binary :=
  let fraction : Nat := bits % fractions
  let biased : Nat := bits / fractions % exponents
  if biased = 0 then ⟨fraction, -1074, 2⟩
  else ⟨fractions + fraction, (biased : Int) - 1075, if fraction = 0 ∧ 1 < biased then 1 else 2⟩

/-- A number of quarters of `2 ^ q`, as a fraction of units `10 ^ g`. -/
def onGrid (quarters : Nat) (q g : Int) : Nat × Nat :=
  let num := quarters * Nat.pow 2 q.toNat * Nat.pow 10 (-g).toNat
  let den := 4 * Nat.pow 2 (-q).toNat * Nat.pow 10 g.toNat
  (num, den)

/-- Does the grid point `c` lie between the two ends, with the ends themselves if `closed`? -/
def within (closed : Bool) (low high : Nat) (den c : Nat) : Bool :=
  let x := c * den
  if closed then low ≤ x && x ≤ high else low < x && x < high

/-- The grid point next to the number that reads back as it, if one does. -/
def nearestOnGrid? (tie : Tie) (b : Binary) (g : Int) : Option Nat :=
  let (num, den) := onGrid (4 * b.significand) b.exponent g
  let (low, _) := onGrid (4 * b.significand - b.below) b.exponent g
  let (high, _) := onGrid (4 * b.significand + 2) b.exponent g
  let inside := within (b.significand % 2 == 0) low high den
  let floor := num / den
  let rest := num % den
  match inside floor, inside (floor + 1) with
  | true, true =>
      if 2 * rest < den then some floor
      else if den < 2 * rest then some (floor + 1)
      else match tie with
        | .up => some (floor + 1)
        | .even => some (if floor % 2 = 0 then floor else floor + 1)
  | true, false => some floor
  | false, true => some (floor + 1)
  | false, false => none

/-- Drop the zeros a row of digits ends with, moving them into the exponent. -/
def Scaled.trim : Nat → Scaled → Scaled
  | 0, d => d
  | fuel + 1, d =>
      if d.digits ≠ 0 ∧ d.digits % 10 = 0 then trim fuel ⟨d.digits / 10, d.exponent + 1⟩ else d

/-- Grids from `10 ^ g` downwards; the first with a point that reads back wins. -/
def search (tie : Tie) (b : Binary) : Nat → Int → Option Scaled
  | 0, _ => none
  | fuel + 1, g =>
      match nearestOnGrid? tie b g with
      | some c => some (Scaled.trim 18 ⟨c, g⟩)
      | none => search tie b fuel (g - 1)

/-- An exponent `k` with `10 ^ k` above the number, close enough that few grids are too coarse. -/
def Binary.ceiling (b : Binary) : Int :=
  (b.exponent + b.significand.log2 + 1) * 30103 / 100000 + 1

/-- The shortest decimal that reads back as a positive number. -/
def shortest (tie : Tie) (b : Binary) : Scaled :=
  (search tie b 24 b.ceiling).getD ⟨b.significand, b.exponent⟩

end CounterCoordinator.Decimal
