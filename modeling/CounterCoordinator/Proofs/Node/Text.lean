import CounterCoordinator.Node.Id
import Mathlib.Tactic.Ring

/-!
# Identities as text

The text of an identity is read back as that identity: its 32 digits give its number, and the
hyphens stand where the reader looks for them.
-/
namespace CounterCoordinator

namespace Text
variable {base m n acc : Nat} {xs ys : List Char}

theorem valueFrom?_append (base acc : Nat) (xs ys : List Char) :
    valueFrom? base acc (xs ++ ys) =
      (valueFrom? base acc xs).bind fun m => valueFrom? base m ys := by
  induction xs generalizing acc with
  | nil => rfl
  | cons c xs ih =>
    rw [List.cons_append, valueFrom?, valueFrom?, Option.bind_assoc]
    exact congrArg _ (funext fun d => ih _)

theorem digitValue?_hexDigit (hn : n < 16) : digitValue? 16 (hexDigit n) = some n := by
  revert n
  decide

@[simp] theorem length_hexText (width n : Nat) : (hexText width n).length = width := by
  induction width generalizing n with
  | zero => rfl
  | succ width ih => rw [hexText, List.length_append, ih, List.length_singleton]

/-- The last digits of a number are read as what it leaves modulo a power of sixteen. -/
theorem valueFrom?_hexText (acc width n : Nat) :
    valueFrom? 16 acc (hexText width n) = some (acc * 16 ^ width + n % 16 ^ width) := by
  induction width generalizing n with
  | zero => simp [hexText, valueFrom?, Nat.mod_one]
  | succ width ih =>
    rw [hexText, valueFrom?_append, ih, Option.bind_some, valueFrom?,
      digitValue?_hexDigit (Nat.mod_lt _ (by decide)), Option.bind_some, valueFrom?,
      Option.some.injEq, Nat.pow_succ, Nat.mul_comm (16 ^ width) 16, Nat.mod_mul]
    ring

theorem value?_hexText {width : Nat} (hwidth : width ≠ 0) (hn : n < 16 ^ width) :
    value? 16 (hexText width n) = some n := by
  have hnonempty : (hexText width n).isEmpty = false := by
    rw [List.isEmpty_eq_false_iff, ← List.length_pos_iff, length_hexText]
    omega
  rw [value?, hnonempty, valueFrom?_hexText, Nat.zero_mul, Nat.zero_add, Nat.mod_eq_of_lt hn]
  rfl

theorem mem_hexText {width n : Nat} {c : Char} (h : c ∈ hexText width n) :
    ∃ m < 16, c = hexDigit m := by
  induction width generalizing n with
  | zero => cases h
  | succ width ih =>
    rcases List.mem_append.mp h with h | h
    · exact ih h
    · exact ⟨n % 16, Nat.mod_lt _ (by decide), List.mem_singleton.mp h⟩

end Text

namespace NodeId

/-- How many characters groups of these sizes hold. -/
def capacity (ns : List Nat) : Nat := ns.foldr (fun n total => n + total) 0

/-- The hyphens are found again between the groups. -/
theorem unhyphenate?_hyphenate {ns : List Nat} {cs : List Char} (hcs : cs.length = capacity ns) :
    unhyphenate? ns (hyphenate ns cs) = some cs := by
  fun_induction hyphenate ns cs with
  | case1 cs =>
    have hempty : cs = [] := List.length_eq_zero_iff.mp hcs
    rw [hempty]
    rfl
  | case2 n cs =>
    have hlength : cs.length = n := hcs
    rw [unhyphenate?, ← hlength, List.take_length, if_pos rfl]
  | case3 n ns cs hns ih =>
    have hlength : cs.length = n + capacity ns := hcs
    have hgroup : (cs.take n).length = n := by
      rw [List.length_take]
      omega
    have hrest : (cs.drop n).length = capacity ns := by
      rw [List.length_drop]
      omega
    rw [unhyphenate?.eq_3 _ _ _ hns, List.drop_left' hgroup, List.take_left' hgroup]
    simp only [ih hrest, Option.map_some, List.take_append_drop]

theorem length_hyphenate {n : Nat} {ns : List Nat} {cs : List Char}
    (hcs : cs.length = capacity (n :: ns)) :
    (hyphenate (n :: ns) cs).length = cs.length + ns.length := by
  induction ns generalizing n cs with
  | nil =>
    have hlength : cs.length = n := hcs
    rw [hyphenate, ← hlength, List.take_length]
    rfl
  | cons m ns ih =>
    have hlength : cs.length = n + capacity (m :: ns) := hcs
    have hrest : (cs.drop n).length = capacity (m :: ns) := by
      rw [List.length_drop]
      omega
    rw [hyphenate, List.length_append, List.length_cons, ih hrest, List.length_take,
      List.length_drop, List.length_cons]
    · omega
    · simp

theorem mem_hyphenate {ns : List Nat} {cs : List Char} {c : Char} (h : c ∈ hyphenate ns cs) :
    c = '-' ∨ c ∈ cs := by
  fun_induction hyphenate ns cs with
  | case1 cs => cases h
  | case2 n cs => exact .inr (List.mem_of_mem_take h)
  | case3 n ns cs hns ih =>
    rcases List.mem_append.mp h with h | h
    · exact .inr (List.mem_of_mem_take h)
    · rcases List.mem_cons.mp h with h | h
      · exact .inl h
      · exact (ih h).imp_right List.mem_of_mem_drop

theorem ofNat_toNat (id : NodeId) : ofNat id.toNat = id := by
  rw [ofNat, toNat, BitVec.ofNat_toNat, BitVec.setWidth_eq]

theorem ofText?_text (id : NodeId) : ofText? id.text = some id := by
  have hdigits : (Text.hexText 32 id.toNat).length = capacity groups := Text.length_hexText ..
  have hlength : (hyphenate groups (Text.hexText 32 id.toNat)).length = 36 :=
    (length_hyphenate hdigits).trans (congrArg (· + 4) (Text.length_hexText ..))
  have hvalue : Text.value? 16 (Text.hexText 32 id.toNat) = some id.toNat :=
    Text.value?_hexText (by decide) id.value.isLt
  simp only [ofText?, text, String.toList_ofList, hlength]
  rw [if_neg (by decide), if_pos trivial, ofHyphenated?, unhyphenate?_hyphenate hdigits,
    Option.bind_some, ofDigits?, if_pos (Text.length_hexText ..), hvalue, Option.map_some,
    ofNat_toNat]

end NodeId
end CounterCoordinator
