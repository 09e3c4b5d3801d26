import CounterCoordinator.Retry
import Mathlib.Algebra.Ring.Nat
import Mathlib.Order.Bounds.Defs
import Mathlib.Order.Lattice.Nat

/-!
# How a run of attempts goes

A run goes on while its attempts fail with retryable errors and attempts are left. Each failure on
the way is reported and followed by a pause, the first one as long as the delay given and each
later one twice as long as the one before. The attempt after the last pause says how the run ends.
As long as the last doubled delay is in range, this is all that happens.
-/
namespace CounterCoordinator.Retry
variable {α : Type} {attempt : Nat → Outcome α} {made left n : Nat} {delay : Span} {cause : Error}

/-- An outcome that is not worth another attempt. -/
def Settles : Outcome α → Prop
  | .ok _ => True
  | .error cause => cause.isRetryable = false

/-- A delay that was doubled so often. -/
def doubled (delay : Span) (times : Nat) : Span := ⟨2 ^ times * delay.nanos⟩

/-- A row of attempts with a pause after each. -/
def rounds (made : Nat) (delay : Span) (n : Nat) : List Event :=
  (List.range n).flatMap fun i => [.attempted (made + i + 1), .slept (doubled delay i)]

/-- The reports of a row of attempts that failed. -/
def reports (attempt : Nat → Outcome α) (made : Nat) (delay : Span) (n : Nat) : List Log.Notice :=
  (List.range n).filterMap fun i => match attempt (made + i) with
    | .ok _ => none
    | .error cause => some (.retrying (made + i + 1) cause (doubled delay i))

theorem doubled_zero (delay : Span) : doubled delay 0 = delay := by
  rw [doubled, pow_zero, one_mul]

theorem doubled_doubled_one (delay : Span) (times : Nat) :
    doubled (doubled delay 1) times = doubled delay (times + 1) := by
  rw [doubled, doubled, doubled, pow_one, pow_succ, mul_assoc]

theorem double?_eq (delay : Span) : delay.double? =
    if (doubled delay 1).nanos < Span.limit then some (doubled delay 1) else none :=
  rfl

theorem rounds_succ (made : Nat) (delay : Span) (n : Nat) :
    rounds made delay (n + 1) =
      .attempted (made + 1) :: .slept delay :: rounds (made + 1) (doubled delay 1) n := by
  rw [rounds, List.range_succ_eq_map, List.flatMap_cons, List.flatMap_map, doubled_zero]
  simp only [rounds, doubled_doubled_one, Nat.add_right_comm made 1]
  rfl

theorem reports_succ (h : attempt made = .error cause) (delay : Span) (n : Nat) :
    reports attempt made delay (n + 1) =
      .retrying (made + 1) cause delay :: reports attempt (made + 1) (doubled delay 1) n := by
  rw [reports, List.range_succ_eq_map, List.filterMap_cons, List.filterMap_map]
  simp only [Nat.add_zero, h, doubled_zero, reports, doubled_doubled_one, Nat.add_right_comm made 1,
    Function.comp_def]
  rfl

theorem exists_retryable {o : Outcome α} (h : ¬ Settles o) :
    ∃ cause, o = .error cause ∧ cause.isRetryable := by
  cases o with
  | ok v => exact absurd trivial h
  | error cause => exact ⟨cause, rfl, Bool.of_not_eq_false h⟩

/-- The run ends with an attempt that settles it, and with the last one allowed. -/
theorem runFrom_of_last (h : Settles (attempt made) ∨ left = 0) :
    runFrom attempt made delay (left + 1) =
      { outcome := attempt made, events := [.attempted (made + 1)] } := by
  rw [runFrom]
  cases hattempt : attempt made with
  | ok v => rfl
  | error cause =>
    have hagain : again cause left = false := by
      rw [hattempt] at h
      rcases h with hsettles | rfl
      · rw [again, show cause.isRetryable = false from hsettles]
        rfl
      · exact Bool.and_false _
    simp only [hagain]
    rfl

/-- Any other attempt is reported, and the run goes on after a pause, if the delay can double. -/
theorem runFrom_of_retryable (hcause : attempt made = .error cause) (hretry : cause.isRetryable)
    (hleft : 0 < left) :
    runFrom attempt made delay (left + 1) = after (made + 1) cause delay (
      match delay.double? with
      | some longer => runFrom attempt (made + 1) longer left
      | none => { outcome := .error cause, brokenOff := true }) := by
  have hagain : again cause left = true := by
    rw [again, hretry, decide_eq_true hleft]
    rfl
  rw [runFrom, hcause]
  exact if_pos hagain

theorem runFrom_of_retryable_fits (hcause : attempt made = .error cause)
    (hretry : cause.isRetryable) (hleft : 0 < left) (hfits : (doubled delay 1).nanos < Span.limit) :
    runFrom attempt made delay (left + 1) =
      after (made + 1) cause delay (runFrom attempt (made + 1) (doubled delay 1) left) := by
  rw [runFrom_of_retryable hcause hretry hleft, double?_eq, if_pos hfits]

theorem doubled_mono {m : Nat} (h : m ≤ n) : (doubled delay m).nanos ≤ (doubled delay n).nanos :=
  Nat.mul_le_mul_right _ (Nat.pow_le_pow_right (by decide) h)

/-- A run of so many failures worth another attempt, and one attempt after them. -/
theorem runFrom_eq (hretried : ∀ i < n, ¬ Settles (attempt (made + i))) (hleft : n ≤ left)
    (hlast : Settles (attempt (made + n)) ∨ left = n)
    (hfits : (doubled delay n).nanos < Span.limit) :
    runFrom attempt made delay (left + 1) =
      { outcome := attempt (made + n)
        events := rounds made delay n ++ [.attempted (made + n + 1)]
        log := reports attempt made delay n } := by
  -- One round is taken off in front, so the delay to start from doubles with every step.
  induction n generalizing made delay left with
  | zero => exact runFrom_of_last hlast
  | succ n ih =>
    obtain ⟨left, rfl⟩ := Nat.exists_eq_add_one.mpr (Nat.zero_lt_of_lt hleft)
    have hshift (i : Nat) : made + 1 + i = made + (i + 1) := by
      rw [Nat.add_assoc, Nat.add_comm 1]
    obtain ⟨cause, hcause, hretry⟩ : ∃ cause, attempt made = .error cause ∧ cause.isRetryable :=
      exists_retryable (hretried 0 n.succ_pos)
    have hone : (doubled delay 1).nanos < Span.limit :=
      (doubled_mono (Nat.succ_le_succ n.zero_le)).trans_lt hfits
    have hrest := @ih (made + 1) left (doubled delay 1) ?_ (Nat.le_of_succ_le_succ hleft) ?_ ?_
    · rw [runFrom_of_retryable_fits hcause hretry left.succ_pos hone, hrest, rounds_succ,
        reports_succ hcause, hshift]
      rfl
    · intro i hi
      rw [hshift]
      exact hretried (i + 1) (Nat.succ_lt_succ hi)
    · rw [hshift]
      exact hlast.imp_right Nat.succ.inj
    · rwa [doubled_doubled_one]

/-- A run whose delay doubles out of range before an attempt settles it breaks off. -/
theorem brokenOff_runFrom (hretried : ∀ i < n, ¬ Settles (attempt (made + i))) (hleft : n ≤ left)
    (hstart : delay.nanos < Span.limit) (hlarge : Span.limit ≤ (doubled delay n).nanos) :
    (runFrom attempt made delay (left + 1)).brokenOff := by
  induction n generalizing made delay left with
  | zero =>
    rw [doubled_zero] at hlarge
    exact absurd hstart (Nat.not_lt.mpr hlarge)
  | succ n ih =>
    obtain ⟨left, rfl⟩ := Nat.exists_eq_add_one.mpr (Nat.zero_lt_of_lt hleft)
    obtain ⟨cause, hcause, hretry⟩ : ∃ cause, attempt made = .error cause ∧ cause.isRetryable :=
      exists_retryable (hretried 0 n.succ_pos)
    by_cases hone : (doubled delay 1).nanos < Span.limit
    · rw [runFrom_of_retryable_fits hcause hretry left.succ_pos hone]
      apply ih (fun i hi => ?_) (Nat.le_of_succ_le_succ hleft) hone
      · rwa [doubled_doubled_one]
      · rw [Nat.add_assoc, Nat.add_comm 1]
        exact hretried (i + 1) (Nat.succ_lt_succ hi)
    · rw [runFrom_of_retryable hcause hretry left.succ_pos, double?_eq, if_neg hone]
      rfl

theorem exists_outcome_runFrom (attempt : Nat → Outcome α) (made left : Nat) (delay : Span) :
    ∃ i, (runFrom attempt made delay (left + 1)).outcome = attempt i := by
  induction left generalizing made delay with
  | zero => exact ⟨made, congrArg outcome (runFrom_of_last (.inr rfl))⟩
  | succ left ih =>
    by_cases hsettles : Settles (attempt made)
    · exact ⟨made, congrArg outcome (runFrom_of_last (.inl hsettles))⟩
    · obtain ⟨cause, hcause, hretry⟩ := exists_retryable hsettles
      rw [runFrom_of_retryable hcause hretry left.succ_pos]
      cases delay.double? with
      | some longer => exact ih (made + 1) longer
      | none => exact ⟨made, hcause.symm⟩

theorem countP_rounds (made : Nat) (delay : Span) (n : Nat) :
    (rounds made delay n).countP Event.isAttempt = n := by
  induction n generalizing made delay with
  | zero => rfl
  | succ n ih =>
    rw [rounds_succ, List.countP_cons_of_pos rfl, List.countP_cons_of_neg Bool.false_ne_true, ih]

theorem filterMap_rounds (made : Nat) (delay : Span) (n : Nat) :
    (rounds made delay n).filterMap Event.pause? = (List.range n).map (doubled delay) := by
  rw [rounds, List.filterMap_flatMap]
  exact List.map_eq_flatMap.symm

/-- The pauses add up to one delay less than the next one would be. -/
theorem sum_doubled (delay : Span) (n : Nat) :
    ((List.range n).map (doubled delay)).foldl (fun sum d => sum + d.nanos) 0 =
      (2 ^ n - 1) * delay.nanos := by
  induction n with
  | zero => simp
  | succ n ih =>
    rw [List.range_succ, List.map_append, List.foldl_append, ih]
    change (2 ^ n - 1) * delay.nanos + 2 ^ n * delay.nanos = _
    rw [← Nat.add_mul, pow_succ]
    have hpos := Nat.two_pow_pos n
    congr 1
    omega

/-- The attempts that a run with so many allowed may end with. -/
def ends (attempt : Nat → Outcome α) (max : Nat) : Set Nat :=
  {k | 1 ≤ k ∧ k ≤ max ∧ (Settles (attempt (k - 1)) ∨ k = max)}

theorem exists_isLeast_ends (attempt : Nat → Outcome α) {max : Nat} (h : 0 < max) :
    ∃ k, IsLeast (ends attempt max) k := by
  have hmax : max ∈ ends attempt max := ⟨h, Nat.le_refl max, .inr rfl⟩
  exact ⟨_, Nat.sInf_mem ⟨max, hmax⟩, fun _ hk => Nat.sInf_le hk⟩

/-- Before the least number of attempts that a run may end with, every failure is retried. -/
theorem of_isLeast_ends {max k : Nat} (hk : IsLeast (ends attempt max) k) :
    ∃ n left, k = n + 1 ∧ max = left + 1 ∧ n ≤ left ∧
      (∀ i < n, ¬ Settles (attempt (0 + i))) ∧ (Settles (attempt (0 + n)) ∨ left = n) := by
  obtain ⟨⟨hpos, hmax, hlast⟩, hleast⟩ := hk
  obtain ⟨n, rfl⟩ := Nat.exists_eq_add_one.mpr hpos
  obtain ⟨left, rfl⟩ := Nat.exists_eq_add_one.mpr (hpos.trans hmax)
  have hle : n ≤ left := Nat.le_of_succ_le_succ hmax
  refine ⟨n, left, rfl, rfl, hle, ?_, ?_⟩
  · intro i hi hsettles
    rw [Nat.zero_add] at hsettles
    have hend : n + 1 ≤ i + 1 := hleast ⟨Nat.le_add_left 1 i, by omega, .inl hsettles⟩
    omega
  · rw [Nat.zero_add]
    exact hlast.imp_right fun h => (Nat.succ.inj h).symm

theorem run_of_isLeast {max k : Nat} (hk : IsLeast (ends attempt max) k)
    (hfits : (doubled delay (k - 1)).nanos < Span.limit) :
    run attempt max delay =
      { outcome := attempt (k - 1)
        events := rounds 0 delay (k - 1) ++ [.attempted k]
        log := reports attempt 0 delay (k - 1) } := by
  obtain ⟨n, left, rfl, rfl, hle, hretried, hlast⟩ := of_isLeast_ends hk
  have hrun := runFrom_eq hretried hle hlast hfits
  rwa [Nat.zero_add] at hrun

theorem brokenOff_run {max k : Nat} (hk : IsLeast (ends attempt max) k)
    (hstart : delay.nanos < Span.limit) (hlarge : Span.limit ≤ (doubled delay (k - 1)).nanos) :
    (run attempt max delay).brokenOff := by
  obtain ⟨n, left, rfl, rfl, hle, hretried, -⟩ := of_isLeast_ends hk
  exact brokenOff_runFrom hretried hle hstart hlarge

/-- Without any attempt allowed a run makes none and fails with an error of its own. Otherwise the
number of attempts is the least at which one is a success or not worth another, or the last
allowed. The run returns what that attempt returned, and between attempts it sleeps the delay, then
twice the delay and so on. It does so if the next delay would still be in range, and breaks off if
not. Its own error never comes from a run with attempts. -/
theorem run_exact (attempt : Nat → Outcome α) (max : Nat) (delay : Span) :
    (max = 0 → run attempt max delay = { outcome := .error exhausted }) ∧
    (0 < max → ∃ k, IsLeast (ends attempt max) k ∧
      (2 ^ (k - 1) * delay.nanos < Span.limit →
        let r := run attempt max delay
        r.brokenOff = false ∧ r.outcome = attempt (k - 1) ∧ r.attempts = k ∧
        r.events = rounds 0 delay (k - 1) ++ [.attempted k] ∧
        r.slept = (List.range (k - 1)).map (doubled delay) ∧
        r.sleepTime.nanos = (2 ^ (k - 1) - 1) * delay.nanos ∧
        r.log = reports attempt 0 delay (k - 1)) ∧
      (delay.nanos < Span.limit → Span.limit ≤ 2 ^ (k - 1) * delay.nanos →
        (run attempt max delay).brokenOff)) ∧
    ((∀ i, attempt i ≠ .error exhausted) →
      ((run attempt max delay).outcome = .error exhausted ↔ max = 0)) := by
  refine ⟨?_, ?_, ?_⟩
  · rintro rfl
    rfl
  · intro hmax
    obtain ⟨k, hk⟩ := exists_isLeast_ends attempt hmax
    refine ⟨k, hk, ?_, brokenOff_run hk⟩
    intro hfits r
    have hr : r = _ := run_of_isLeast hk hfits
    have hslept : r.slept = (List.range (k - 1)).map (doubled delay) := by
      rw [hr, slept, List.filterMap_append, filterMap_rounds]
      exact List.append_nil _
    refine ⟨by rw [hr], by rw [hr], ?_, by rw [hr], hslept, ?_, by rw [hr]⟩
    · rw [hr, attempts, List.countP_append, countP_rounds]
      exact Nat.sub_add_cancel hk.1.1
    · rw [sleepTime, hslept]
      exact sum_doubled delay (k - 1)
  · intro hother
    cases max with
    | zero => exact iff_of_true rfl rfl
    | succ left =>
      obtain ⟨i, hi⟩ := exists_outcome_runFrom attempt 0 left delay
      exact iff_of_false (fun h => hother i (hi.symm.trans h)) left.succ_ne_zero

/-- Two attempts run out of time, and the third one succeeds. -/
def thirdTime (i : Nat) : Outcome Nat :=
  if i < 2 then .error (.timeout "not yet") else .ok i

theorem isLeast_ends_thirdTime : IsLeast (ends thirdTime 5) 3 := by
  refine ⟨⟨by decide, by decide, .inl trivial⟩, ?_⟩
  rintro j ⟨hpos, -, hend⟩
  by_contra hlt
  obtain rfl | rfl : j = 1 ∨ j = 2 := by omega
  all_goals
    obtain hsettles | hfive := hend
    · exact Bool.noConfusion (show true = false from hsettles)
    · exact absurd hfive (by decide)

theorem run_exact_thirdTime :
    (run thirdTime 5 (.ofMillis 1)).outcome = .ok 2 ∧
    (run thirdTime 5 (.ofMillis 1)).events = [.attempted 1, .slept (.ofMillis 1), .attempted 2,
      .slept (.ofMillis 2), .attempted 3] ∧
    (run thirdTime 0 (.ofMillis 1)).attempts = 0 := by
  obtain ⟨k, hk, hrun, -⟩ := (run_exact thirdTime 5 (.ofMillis 1)).2.1 (by decide)
  obtain rfl : k = 3 := hk.unique isLeast_ends_thirdTime
  obtain ⟨-, houtcome, -, hevents, -⟩ := hrun (by decide)
  have hnone := (run_exact thirdTime 0 (.ofMillis 1)).1 rfl
  exact ⟨houtcome, hevents, congrArg attempts hnone⟩

end CounterCoordinator.Retry
