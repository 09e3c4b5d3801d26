import CounterCoordinator.Text.Blank
import CounterCoordinator.Text.Digits
import Mathlib.Data.List.TakeWhile

/-!
# Parts of a text

Stripping takes the blanks off both ends and nothing else. A row of digits can be told from what
follows it, and the digits of a number are read as that number.
-/
namespace CounterCoordinator.Text
variable {cs front back digits : List Char}

theorem exists_strip (cs : List Char) :
    ∃ front back, cs = front ++ strip cs ++ back ∧
      (∀ c ∈ front, isBlank c) ∧ ∀ c ∈ back, isBlank c := by
  let tail := cs.dropWhile isBlank
  have htail : strip cs ++ (tail.reverse.takeWhile isBlank).reverse = tail := by
    rw [strip, ← List.reverse_append, List.takeWhile_append_dropWhile, List.reverse_reverse]
  refine ⟨cs.takeWhile isBlank, (tail.reverse.takeWhile isBlank).reverse, ?_, ?_, ?_⟩
  · rw [List.append_assoc, htail, List.takeWhile_append_dropWhile]
  · exact fun c hc => List.mem_takeWhile_imp hc
  · exact fun c hc => List.mem_takeWhile_imp (List.mem_reverse.mp hc)

theorem dropWhile_of_head? {p : Char → Bool} {c : Char} (hc : cs.head? = some c)
    (hkeep : p c = false) : cs.dropWhile p = cs := by
  obtain ⟨rest, rfl⟩ := List.head?_eq_some_iff.mp hc
  exact List.dropWhile_cons_of_neg (by simp [hkeep])

/-- A text that neither starts nor ends with a blank is what stripping leaves of it. -/
theorem strip_of_blanks {first last : Char} (hfront : ∀ c ∈ front, isBlank c)
    (hback : ∀ c ∈ back, isBlank c) (hfirst : cs.head? = some first)
    (hlast : cs.getLast? = some last) (hopen : isBlank first = false)
    (hclose : isBlank last = false) : strip (front ++ cs ++ back) = cs := by
  have hstart : (cs ++ back).head? = some first := by
    rw [List.head?_append, hfirst, Option.some_or]
  have hend : cs.reverse.head? = some last := by rw [List.head?_reverse, hlast]
  have hreverse : ∀ c ∈ back.reverse, isBlank c := fun c hc => hback c (List.mem_reverse.mp hc)
  rw [strip, List.append_assoc, List.dropWhile_append_of_pos hfront,
    dropWhile_of_head? hstart hopen, List.reverse_append, List.dropWhile_append_of_pos hreverse,
    dropWhile_of_head? hend hclose, List.reverse_reverse]

theorem isDigit_iff {c : Char} : isDigit c ↔ '0' ≤ c ∧ c ≤ '9' := by
  simp [isDigit]

theorem isBlank_of_isDigit {c : Char} (h : isDigit c) : isBlank c = false := by
  obtain ⟨hlow, hhigh⟩ := isDigit_iff.mp h
  have hlow : 48 ≤ c.toNat := hlow
  have hhigh : c.toNat ≤ 57 := hhigh
  simp [isBlank]
  omega

/-- A row of digits is told from what follows if that starts with another character. -/
theorem span_digits {rest : List Char} {c : Char} (hdigits : ∀ c ∈ digits, isDigit c)
    (hrest : rest.head? = some c) (hstop : isDigit c = false) :
    (digits ++ rest).takeWhile isDigit = digits ∧ (digits ++ rest).dropWhile isDigit = rest := by
  obtain ⟨tail, rfl⟩ := List.head?_eq_some_iff.mp hrest
  constructor
  · rw [List.takeWhile_append_of_pos hdigits, List.takeWhile_cons_of_neg (by simp [hstop]),
      List.append_nil]
  · rw [List.dropWhile_append_of_pos hdigits, dropWhile_of_head? hrest hstop]

theorem decimalValue_eq_ofDigitChars (cs : List Char) :
    decimalValue cs = Nat.ofDigitChars 10 cs 0 := by
  have hstep : (fun n (c : Char) => n * 10 + (c.toNat - '0'.toNat)) =
      fun n c => 10 * n + (c.toNat - '0'.toNat) := by
    funext n c
    rw [Nat.mul_comm]
  rw [decimalValue, Nat.ofDigitChars, hstep]

@[simp] theorem decimalValue_decimalText (n : Nat) : decimalValue (decimalText n) = n :=
  (decimalValue_eq_ofDigitChars _).trans Nat.ofDigitChars_ten_toDigits

theorem isDigit_of_mem_decimalText {n : Nat} {c : Char} (h : c ∈ decimalText n) : isDigit c := by
  have hdigit : c.isDigit = true := Nat.isDigit_of_mem_toDigits (by decide) (by decide) h
  rw [Char.isDigit, Bool.and_eq_true, decide_eq_true_eq, decide_eq_true_eq] at hdigit
  exact isDigit_iff.mpr hdigit

/-- A number other than zero starts with another digit. -/
theorem head?_decimalText {n : Nat} (hn : n ≠ 0) : (decimalText n).head? ≠ some '0' := by
  induction n using Nat.strongRecOn with
  | _ n ih =>
    rw [decimalText, Nat.toDigits_eq_if (by decide)]
    split
    · rename_i hsmall
      have hvalue := Nat.toNat_digitChar_of_lt_ten hsmall
      intro hzero
      rw [List.head?_singleton, Option.some.injEq] at hzero
      rw [hzero] at hvalue
      have : '0'.toNat = 48 := rfl
      omega
    · rename_i hlarge
      have hhead := ih (n / 10) (by omega) (by omega)
      rw [decimalText] at hhead
      obtain ⟨first, rest, hfirst⟩ := List.exists_cons_of_ne_nil
        (Nat.toDigits_ne_nil (n := n / 10) (b := 10))
      rw [hfirst] at hhead ⊢
      exact hhead

end CounterCoordinator.Text
