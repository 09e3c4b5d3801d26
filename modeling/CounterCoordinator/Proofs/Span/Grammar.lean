import CounterCoordinator.Proofs.Text.Parts
import CounterCoordinator.Span

/-!
# The grammar of spans

A span is written as a nonempty row of ASCII digits and a unit, with blanks around the two. It is
taken exactly when the number and the whole seconds it stands for each fit a word; then it is read
as what is written, and every other text is refused.
-/
namespace CounterCoordinator.Span
variable {s : String} {t digits rest : List Char} {unit : Unit} {n : Nat} {d : Span}

def Unit.text : Unit → List Char
  | millisecond => ['m', 's']
  | second => ['s']
  | minute => ['m']
  | hour => ['h']

/-- The seconds in a unit that has whole ones. -/
def Unit.seconds? : Unit → Option Nat
  | millisecond => none
  | second => some 1
  | minute => some 60
  | hour => some 3600

/-- That many of a unit make this span. Whole seconds have to fit a word. -/
def Unit.Makes (unit : Unit) (n : Nat) (d : Span) : Prop :=
  match unit.seconds? with
  | none => d.nanos = n * 1000000
  | some k => n * k < UInt64.size ∧ d.seconds = n * k ∧ d.subsecond = 0

/-- The text is a nonempty row of digits and a unit, with blanks in front and behind. -/
structure Spells (s : String) (digits : List Char) (unit : Unit) : Prop where
  surrounded : ∃ front back, s.toList = front ++ (digits ++ unit.text) ++ back ∧
    (∀ c ∈ front, Text.isBlank c) ∧ ∀ c ∈ back, Text.isBlank c
  nonempty : digits ≠ []
  decimal : ∀ c ∈ digits, '0' ≤ c ∧ c ≤ '9'

theorem Unit.ofText?_eq_some_iff : Unit.ofText? rest = some unit ↔ rest = unit.text := by
  unfold Unit.ofText?
  constructor
  · intro h
    split at h
    · cases h; assumption
    · split at h
      · cases h; assumption
      · split at h
        · cases h; assumption
        · split at h
          · cases h; assumption
          · cases h
  · rintro rfl
    cases unit <;> rfl

theorem eq_ofSeconds_iff : d = ofSeconds n ↔ d.seconds = n ∧ d.subsecond = 0 := by
  constructor
  · rintro rfl
    simp [ofSeconds, seconds, subsecond]
  · rintro ⟨hseconds, hsubsecond⟩
    obtain ⟨nanos⟩ := d
    have hseconds : nanos / 1000000000 = n := hseconds
    have hsubsecond : nanos % 1000000000 = 0 := hsubsecond
    rw [ofSeconds, mk.injEq]
    omega

theorem eq_ofMillis_iff : d = ofMillis n ↔ d.nanos = n * 1000000 := by
  obtain ⟨nanos⟩ := d
  rw [ofMillis, mk.injEq]

theorem count_eq_ok_iff {fault : Fault} :
    (if n < UInt64.size then Except.ok (ofSeconds n) else .error fault) = .ok d ↔
      n < UInt64.size ∧ d.seconds = n ∧ d.subsecond = 0 := by
  split
  · rename_i hfits
    rw [Except.ok.injEq, eq_comm, eq_ofSeconds_iff]
    exact (and_iff_right hfits).symm
  · rename_i hlarge
    exact iff_of_false (by simp) fun h => hlarge h.1

theorem parseStripped_of_unit (hunit : t.dropWhile Text.isDigit = unit.text) :
    parseStripped t = .ok d ↔
      t.takeWhile Text.isDigit ≠ [] ∧
      Text.decimalValue (t.takeWhile Text.isDigit) < UInt64.size ∧
      unit.Makes (Text.decimalValue (t.takeWhile Text.isDigit)) d := by
  have hwritten : unit.text ≠ [] := by cases unit <;> decide
  have htext : t ≠ [] := by
    rintro rfl
    exact hwritten hunit.symm
  simp only [parseStripped, hunit, List.isEmpty_iff, htext, hwritten, if_false]
  generalize t.takeWhile Text.isDigit = digits
  by_cases hnumber : digits ≠ [] ∧ Text.decimalValue digits < UInt64.size
  · rw [if_neg (by simpa using hnumber), Unit.ofText?_eq_some_iff.mpr rfl]
    simp only [hnumber, ne_eq, not_false_eq_true, true_and]
    cases unit with
    | millisecond => rw [Except.ok.injEq, eq_comm, eq_ofMillis_iff]; rfl
    | second | minute | hour => exact count_eq_ok_iff
  · rw [if_pos (by simpa [imp_iff_not_or] using hnumber)]
    refine iff_of_false (by simp) fun h => hnumber ⟨h.1, h.2.1⟩

/-- Behind the leading digits of what is read there is nothing but a unit. -/
theorem unit_of_parseStripped (h : parseStripped t = .ok d) :
    ∃ unit, t.dropWhile Text.isDigit = Unit.text unit := by
  cases hunit : Unit.ofText? (t.dropWhile Text.isDigit) with
  | some unit => exact ⟨unit, Unit.ofText?_eq_some_iff.mp hunit⟩
  | none =>
    exfalso
    simp only [parseStripped, hunit] at h
    split at h
    · cases h
    · split at h
      · cases h
      · split at h <;> cases h

/-- Stripping a written span leaves its digits and its unit, and these can be told apart. -/
theorem Spells.parts (h : Spells s digits unit) :
    (Text.strip s.toList).takeWhile Text.isDigit = digits ∧
      (Text.strip s.toList).dropWhile Text.isDigit = unit.text := by
  obtain ⟨front, back, hs, hfront, hback⟩ := h.surrounded
  have hdigits : ∀ c ∈ digits, Text.isDigit c := fun c hc => Text.isDigit_iff.mpr (h.decimal c hc)
  obtain ⟨first, more, hfirst⟩ := List.exists_cons_of_ne_nil h.nonempty
  have hopen : Text.isBlank first = false := by
    apply Text.isBlank_of_isDigit
    exact hdigits first (hfirst ▸ List.mem_cons_self)
  -- No unit starts with a digit or ends with a blank, so neither cut goes past its border.
  obtain ⟨letter, last, hletter, hlast, hstop, hclose⟩ : ∃ letter last,
      unit.text.head? = some letter ∧ (digits ++ unit.text).getLast? = some last ∧
        Text.isDigit letter = false ∧ Text.isBlank last = false := by
    cases unit <;> simp [Unit.text, List.getLast?_append] <;> decide
  have hstrip : Text.strip s.toList = digits ++ unit.text := by
    rw [hs]
    apply Text.strip_of_blanks hfront hback ?_ hlast hopen hclose
    rw [hfirst]
    rfl
  rw [hstrip]
  exact Text.span_digits hdigits hletter hstop

theorem parse_eq_ok_iff :
    parse s = .ok d ↔ ∃ digits unit, Spells s digits unit ∧
      Text.decimalValue digits < UInt64.size ∧ unit.Makes (Text.decimalValue digits) d := by
  constructor
  · intro h
    obtain ⟨unit, hunit⟩ := unit_of_parseStripped h
    obtain ⟨hnonempty, hword, hmakes⟩ := (parseStripped_of_unit hunit).mp h
    obtain ⟨front, back, hs, hfront, hback⟩ := Text.exists_strip s.toList
    refine ⟨_, unit, ⟨⟨front, back, ?_, hfront, hback⟩, hnonempty, ?_⟩, hword, hmakes⟩
    · rw [← hunit, List.takeWhile_append_dropWhile]
      exact hs
    · exact fun c hc => Text.isDigit_iff.mp (List.mem_takeWhile_imp hc)
  · rintro ⟨digits, unit, hspells, hword, hmakes⟩
    obtain ⟨hdigits, hunit⟩ := hspells.parts
    apply (parseStripped_of_unit hunit).mpr
    rw [hdigits]
    exact ⟨hspells.nonempty, hword, hmakes⟩

theorem ofText_eq_ok_iff : ofText s = .ok d ↔ parse s = .ok d := by
  unfold ofText
  cases parse s with
  | ok _ => rw [Except.ok.injEq, Except.ok.injEq]
  | error _ => exact iff_of_false (by simp) (by simp)

/-- The seconds of what is read are never more than a word holds. -/
theorem Unit.Makes.fits (h : unit.Makes n d) (hword : n < UInt64.size) :
    d.seconds < UInt64.size := by
  cases unit with
  | millisecond =>
    have hnanos : d.nanos = n * 1000000 := h
    rw [seconds, hnanos]
    omega
  | second | minute | hour => exact lt_of_eq_of_lt h.2.1 h.1

/-- A text is read as a span exactly when it is a row of digits and a unit, up to blanks around
them, and number and seconds each fit a word; then it is the span that is written. Every other text
is refused as a setting. -/
theorem ofText_exact (s : String) :
    (∀ d, ofText s = .ok d ↔ ∃ digits unit, Spells s digits unit ∧
      Nat.ofDigitChars 10 digits 0 < UInt64.size ∧
      unit.Makes (Nat.ofDigitChars 10 digits 0) d) ∧
    (∀ d, ofText s = .ok d → d.seconds < UInt64.size) ∧
    ((∃ d, ofText s = .ok d) ∨ ∃ reason, ofText s = .error (.invalidConfig reason)) := by
  refine ⟨?_, ?_, ?_⟩
  · intro d
    simp only [← Text.decimalValue_eq_ofDigitChars]
    exact ofText_eq_ok_iff.trans parse_eq_ok_iff
  · intro d hd
    obtain ⟨digits, unit, -, hword, hmakes⟩ := parse_eq_ok_iff.mp (ofText_eq_ok_iff.mp hd)
    exact hmakes.fits hword
  · unfold ofText
    cases parse s with
    | ok d => exact .inl ⟨d, rfl⟩
    | error fault => exact .inr ⟨fault.message, rfl⟩

/-- Zeros in front count for nothing, and blanks need not be ASCII. -/
theorem ofText_exact_padded : ofText "\t007m\u00a0" = .ok (ofSeconds 420) := by
  have hspells : Spells "\t007m\u00a0" ['0', '0', '7'] .minute := by
    refine ⟨⟨['\t'], ['\u00a0'], rfl, ?_, ?_⟩, by decide, by simp⟩
    · exact List.forall_mem_singleton.mpr rfl
    · exact List.forall_mem_singleton.mpr rfl
  have hmakes : Unit.minute.Makes (Nat.ofDigitChars 10 ['0', '0', '7'] 0) (ofSeconds 420) :=
    ⟨by decide, by decide, by decide⟩
  exact ((ofText_exact _).1 _).mpr ⟨_, .minute, hspells, by decide, hmakes⟩

/-- An hour more than the seconds of a word hold. -/
example : ofText " 5124095576030432h\t" =
    .error (.invalidConfig "duration out of range: 5124095576030432h") := by
  decide +kernel

end CounterCoordinator.Span
