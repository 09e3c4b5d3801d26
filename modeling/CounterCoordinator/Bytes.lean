import CounterCoordinator.Text.Digits

/-!
# Bytes

Byte strings as lists, little-endian words of a given width, and the lower-case hexadecimal
text of a byte string.
-/
namespace CounterCoordinator

abbrev Bytes := List UInt8

namespace Bytes

/-- The lowest `width` bytes of `n`, least significant first. -/
def ofNat : Nat → Nat → Bytes
  | 0, _ => []
  | width + 1, n => UInt8.ofNat (n % 256) :: ofNat width (n / 256)

/-- The number whose bytes these are, least significant first. -/
def toNat : Bytes → Nat
  | [] => 0
  | b :: bs => b.toNat + 256 * toNat bs

/-- Two lower-case hexadecimal digits per byte. -/
def hex (bs : Bytes) : String :=
  String.ofList (bs.flatMap fun b => Text.hexText 2 b.toNat)

/-- The bytes of a text of digit pairs. -/
def ofHexDigits? : List Char → Option Bytes
  | [] => some []
  | [_] => none
  | a :: b :: cs => do
      let x ← Text.hexValue? a
      let y ← Text.hexValue? b
      let rest ← ofHexDigits? cs
      return UInt8.ofNat (x * 16 + y) :: rest

def ofHex? (s : String) : Option Bytes :=
  ofHexDigits? s.toList

end Bytes
end CounterCoordinator
