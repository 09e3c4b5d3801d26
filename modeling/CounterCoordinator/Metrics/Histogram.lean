/-!
# Histograms

A histogram counts observed values in buckets. A value goes into the first bucket whose boundary it
does not exceed, in the order the boundaries were given, and into the overflow bucket if there is
none. Values are summed up in thousandths: each is cut to a whole number of them, and the sum wraps
around at 64 bits.
-/
namespace CounterCoordinator

structure Histogram where
  /-- Boundaries with the number of values that each bucket holds. -/
  buckets : List (Float × UInt64)
  overflow : UInt64 := 0
  /-- Sum of the values, in thousandths. -/
  thousandths : UInt64 := 0
  count : UInt64 := 0
deriving Repr

namespace Histogram

def ofBoundaries (bounds : List Float) : Histogram :=
  { buckets := bounds.map fun b => (b, 0) }

/-- Boundaries for round trips in milliseconds. -/
def latencyBoundaries : List Float :=
  [0.1, 0.5, 1.0, 2.5, 5.0, 10.0, 25.0, 50.0, 100.0, 500.0]

def latency : Histogram := ofBoundaries latencyBoundaries

/-- Count a value in the first bucket that takes it. -/
def place (value : Float) : List (Float × UInt64) → UInt64 → List (Float × UInt64) × UInt64
  | [], beyond => ([], beyond + 1)
  | (b, n) :: rest, beyond =>
      if value ≤ b then ((b, n + 1) :: rest, beyond)
      else
        let (rest, beyond) := place value rest beyond
        ((b, n) :: rest, beyond)

/-- A value in whole thousandths, between zero and the largest word; NaN counts as zero. -/
def inThousandths (value : Float) : UInt64 :=
  (value * 1000.0).toUInt64

def observe (h : Histogram) (value : Float) : Histogram :=
  let (buckets, overflow) := place value h.buckets h.overflow
  { buckets, overflow,
    thousandths := h.thousandths + inThousandths value,
    count := h.count + 1 }

/-- Counts of the values up to each boundary, on top of `below`; the last entry, without a
boundary, counts them all. -/
def cumulate (overflow : UInt64) :
    UInt64 → List (Float × UInt64) → List (Option Float × UInt64)
  | below, [] => [(none, below + overflow)]
  | below, (b, n) :: rest => (some b, below + n) :: cumulate overflow (below + n) rest

def cumulative (h : Histogram) : List (Option Float × UInt64) :=
  cumulate h.overflow 0 h.buckets

def sum (h : Histogram) : Float :=
  h.thousandths.toFloat / 1000.0

end Histogram
end CounterCoordinator
