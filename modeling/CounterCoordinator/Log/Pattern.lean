import CounterCoordinator.Text.Digits

/-!
# Patterns for the values of fields

A pattern is a regular expression: characters, classes of characters in brackets, groups in
parentheses, alternatives and repetition. Counts of repetitions, classes and word boundaries by the
properties of letters, and matching in either case are not known. `Pattern.isValid` tells whether a text
is a pattern; no event has a value that a pattern could fit, so nothing more is asked of it.
-/
namespace CounterCoordinator.Log.Pattern

/-- The character with a code point that is written in some hexadecimal digits. -/
def numbered? (digits : Nat) (cs : List Char) : Option (Char × List Char) := do
  if cs.length < digits then none
  let n ← Text.value? 16 (cs.take digits)
  if n < 0xd800 ∨ (0xe000 ≤ n ∧ n < 0x110000) then return (Char.ofNat n, cs.drop digits) else none

/-- The character that an escape behind its backslash stands for, and what follows. -/
def literal? : List Char → Option (Char × List Char)
  | [] => none
  | c :: cs =>
      if c = 'x' then numbered? 2 cs
      else if c = 'u' then numbered? 4 cs
      else if c = 'U' then numbered? 8 cs
      else match [('a', 7), ('f', 12), ('t', 9), ('n', 10), ('r', 13), ('v', 11)].lookup c with
        | some n => some (Char.ofNat n, cs)
        | none =>
            if c.toNat < 0x80 ∧ !c.isAlphanum ∧ c ≠ '<' ∧ c ≠ '>' then some (c, cs) else none

/-- A character of a class, which may be escaped. -/
def member? : List Char → Option (Char × List Char)
  | [] => none
  | '\\' :: cs => literal? cs
  | c :: cs => some (c, cs)

/-- What follows the opening bracket of a class, its negation and the marks that stand for
themselves there. -/
def openClass (cs : List Char) : List Char :=
  let cs := match cs with
    | '^' :: rest => rest
    | cs => cs
  match cs with
  | ']' :: rest => rest
  | cs => cs.dropWhile (· == '-')

/-- What follows a class, read from inside it, with some classes open around it. -/
def class? : Nat → Nat → List Char → Option (List Char)
  | 0, _, _ => none
  | fuel + 1, around, cs =>
      match cs with
      | ']' :: rest => if around = 0 then some rest else class? fuel (around - 1) rest
      | '[' :: rest => class? fuel (around + 1) (openClass rest)
      | '&' :: '&' :: rest => class? fuel around rest
      | '-' :: '-' :: rest => class? fuel around rest
      | '~' :: '~' :: rest => class? fuel around rest
      | cs => do
          let (first, rest) ← member? cs
          match rest with
          | '-' :: ']' :: _ => class? fuel around rest
          | '-' :: '-' :: _ => class? fuel around rest
          | '-' :: more =>
              let (last, rest) ← member? more
              if first ≤ last then class? fuel around rest else none
          | _ => class? fuel around rest

/-- Are some letters flags of a group, those behind a dash turned off? -/
def areFlags (cs : List Char) : Bool :=
  cs.all "-imsUuxR".toList.contains && cs.eraseDups == cs && cs.getLast? != some '-' &&
    !(cs.takeWhile (· != '-')).contains 'i'

/-- Is a text the name of a group? -/
def isGroupName : List Char → Bool
  | [] => false
  | c :: cs => (c.isAlpha || c == '_') && cs.all fun c => c.isAlphanum || "_.[]".toList.contains c

/-- What follows the opening parenthesis of a group, and whether the group is still open: flags
alone close it at once. -/
def openGroup? (cs : List Char) : Option (Bool × List Char) :=
  let named (cs : List Char) : Option (Bool × List Char) :=
    match cs.dropWhile (· != '>') with
    | _ :: rest => if isGroupName (cs.takeWhile (· != '>')) then some (true, rest) else none
    | [] => none
  match cs with
  | '?' :: 'P' :: '<' :: rest => named rest
  | '?' :: '<' :: rest => named rest
  | '?' :: rest =>
      let stop := fun c => c != ':' && c != ')'
      let flags := rest.takeWhile stop
      match rest.dropWhile stop with
      | ':' :: rest => if areFlags flags then some (true, rest) else none
      | _ :: rest => if areFlags flags && !flags.isEmpty then some (false, rest) else none
      | [] => none
  | cs => some (true, cs)

/-- Is a text the rest of a pattern in which some groups are open? `repeatable` tells whether
something stands in front that a mark of repetition can apply to. -/
def isRest : Nat → Nat → Bool → List Char → Bool
  | 0, _, _, _ => false
  | fuel + 1, groups, repeatable, cs =>
      match cs with
      | [] => groups == 0
      | '\\' :: 'A' :: rest => isRest fuel groups true rest
      | '\\' :: 'z' :: rest => isRest fuel groups true rest
      | '\\' :: rest => (literal? rest).any fun (_, rest) => isRest fuel groups true rest
      | '[' :: rest =>
          (class? cs.length 0 (openClass rest)).any fun rest => isRest fuel groups true rest
      | '(' :: rest =>
          (openGroup? rest).any fun (isOpen, rest) => isRest fuel (groups + isOpen.toNat) false rest
      | ')' :: rest => groups != 0 && isRest fuel (groups - 1) true rest
      | '|' :: rest => isRest fuel groups false rest
      | c :: rest =>
          if c = '*' ∨ c = '+' ∨ c = '?' then repeatable && isRest fuel groups true rest
          else c != '\x7b' && isRest fuel groups true rest

/-- Is a text a pattern? -/
def isValid (cs : List Char) : Bool := isRest (cs.length + 1) 0 false cs

end CounterCoordinator.Log.Pattern
