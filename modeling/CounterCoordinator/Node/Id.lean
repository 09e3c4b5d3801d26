import CounterCoordinator.Text.Digits

/-!
# Node identities

A node is identified by a 128-bit number. Its text is the usual hyphenated form of such numbers:
32 lower-case hexadecimal digits in groups of 8, 4, 4, 4 and 12. Reading accepts digits of either
case, without hyphens, hyphenated, hyphenated in braces, or hyphenated behind `urn:uuid:`, which may
be in any case too.
-/
namespace CounterCoordinator

structure NodeId where
  value : BitVec 128
deriving DecidableEq, Repr, Inhabited

namespace NodeId

def ofNat (n : Nat) : NodeId := ⟨BitVec.ofNat 128 n⟩

def toNat (id : NodeId) : Nat := id.value.toNat

/-- Identities are ordered as numbers. -/
instance : LE NodeId := ⟨fun a b => a.value ≤ b.value⟩

instance (a b : NodeId) : Decidable (a ≤ b) := inferInstanceAs (Decidable (a.value ≤ b.value))

/-- The sizes of the groups between hyphens. -/
def groups : List Nat := [8, 4, 4, 4, 12]

/-- Digits in groups of the given sizes, with hyphens between them. -/
def hyphenate : List Nat → List Char → List Char
  | [], _ => []
  | [n], cs => cs.take n
  | n :: ns, cs => cs.take n ++ '-' :: hyphenate ns (cs.drop n)

/-- The hyphenated lower-case form. -/
def text (id : NodeId) : String :=
  String.ofList (hyphenate groups (Text.hexText 32 id.toNat))

/-- The digits of a text whose hyphens stand exactly between the groups. -/
def unhyphenate? : List Nat → List Char → Option (List Char)
  | [], cs => if cs.isEmpty then some [] else none
  | [n], cs => if cs.length = n then some cs else none
  | n :: ns, cs =>
      match cs.drop n with
      | '-' :: rest => (unhyphenate? ns rest).map (cs.take n ++ ·)
      | _ => none

/-- The identity with exactly these 32 digits. -/
def ofDigits? (cs : List Char) : Option NodeId :=
  if cs.length = 32 then (Text.value? 16 cs).map ofNat else none

def ofHyphenated? (cs : List Char) : Option NodeId :=
  (unhyphenate? groups cs).bind ofDigits?

/-- The identity that one of the four accepted forms stands for. -/
def ofText? (s : String) : Option NodeId :=
  let cs := s.toList
  let urn := "urn:uuid:".toList
  if cs.length = 32 then ofDigits? cs
  else if cs.length = 36 then ofHyphenated? cs
  else if cs.length = 38 ∧ cs.head? = some '\x7b' ∧ cs.getLast? = some '\x7d' then
    ofHyphenated? (cs.drop 1).dropLast
  else if cs.length = 45 ∧ (cs.take urn.length).map Char.toLower = urn then
    ofHyphenated? (cs.drop urn.length)
  else none

end NodeId

/-- A way to show node identities in texts. -/
abbrev Naming := NodeId → String

end CounterCoordinator
