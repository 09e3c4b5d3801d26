import CounterCoordinator.Decimal.Read
import CounterCoordinator.Metrics.Histogram
import Mathlib.Data.List.Basic
import Mathlib.Data.Prod.Lex
import Mathlib.Order.Compare

/-!
# What the buckets of a histogram count

An observation raises the cumulative count at a boundary by one when it goes up to that boundary or
one in front of it, and it always raises the last count. So after any observations each count is
the number of values that go up to one of the boundaries so far. Only the comparison of floats
decides this, and the boundaries may come in any order. Where a value that goes up to a boundary
also goes up to the next one, as it does when the boundaries ascend, the boundary itself is enough.
-/
namespace CounterCoordinator.Histogram

section Comparison
open Float.Model UnpackedFloat
variable {x y : UnpackedFloat} {a b c : Float}

/-- The place of a float that is a number: by sign and class first, then by exponent and
mantissa. -/
def rank? : UnpackedFloat → Option (ℤ ×ₗ ℤ ×ₗ ℤ)
  | .notANumber => none
  | .infinity .negative => some (toLex (-2, toLex (0, 0)))
  | .finite .negative mantissa exponent _ => some (toLex (-1, toLex (-exponent, -mantissa)))
  | .zero _ => some (toLex (0, toLex (0, 0)))
  | .finite .positive mantissa exponent _ => some (toLex (1, toLex (exponent, mantissa)))
  | .infinity .positive => some (toLex (2, toLex (0, 0)))

theorem isLE_then_iff {e e' : ℤ} {m m' : ℕ} :
    ((compare e e').then (compare m m')).isLE ↔ e < e' ∨ e = e' ∧ m ≤ m' := by
  simp [Ordering.isLE_then_iff_or, compare_lt_iff_lt, Nat.isLE_compare]

theorem isGE_then_iff {e e' : ℤ} {m m' : ℕ} :
    ((compare e e').then (compare m m')).isGE ↔ e' < e ∨ e = e' ∧ m' ≤ m := by
  rw [← Ordering.isLE_swap, Ordering.swap_then, ← Std.OrientedOrd.eq_swap,
    ← Std.OrientedOrd.eq_swap, isLE_then_iff, eq_comm]

theorem le_iff_rank? : x.le y ↔ ∃ i ∈ rank? x, ∃ j ∈ rank? y, i ≤ j := by
  unfold UnpackedFloat.le UnpackedFloat.compare rank?
  rcases x with (_ | _) | _ | _ | ⟨(_ | _), m, e, _⟩ <;>
    rcases y with (_ | _) | _ | _ | ⟨(_ | _), m', e', _⟩ <;>
      -- Signs of infinities are left over; they are compared by cases.
      simp [Prod.Lex.toLex_le_toLex, isLE_then_iff, isGE_then_iff] <;> decide

theorem float_le_trans (hab : a ≤ b) (hbc : b ≤ c) : a ≤ c := by
  have hle {a b : Float} : a ≤ b ↔ ∃ i ∈ rank? a.toModel.unpack, ∃ j ∈ rank? b.toModel.unpack,
      i ≤ j := (decide_eq_true_iff (p := a.toModel ≤ b.toModel)).trans le_iff_rank?
  obtain ⟨i, hi, j, hj, hij⟩ := hle.mp hab
  obtain ⟨j', hj', k, hk, hjk⟩ := hle.mp hbc
  obtain rfl : j = j' := Option.mem_unique hj hj'
  exact hle.mpr ⟨i, hi, k, hk, hij.trans hjk⟩

end Comparison

variable {bounds values : List Float} {value : Float} {i j : Nat}

/-- The count at a position takes the value: it goes up to a boundary there or in front, or no
boundary is there. -/
def reaches (bounds : List Float) (i : Nat) (value : Float) : Bool :=
  decide (bounds.length ≤ i) || (bounds.take (i + 1)).any (value ≤ ·)

theorem reaches_iff :
    reaches bounds i value ↔ bounds.length ≤ i ∨ ∃ b ∈ bounds.take (i + 1), value ≤ b := by
  simp [reaches]

theorem reaches_nil : reaches [] i value :=
  reaches_iff.mpr (.inl (Nat.zero_le i))

theorem reaches_cons_zero {b : Float} : reaches (b :: bounds) 0 value ↔ value ≤ b := by
  simp [reaches_iff]

theorem reaches_cons_succ {b : Float} :
    reaches (b :: bounds) (i + 1) value ↔ value ≤ b ∨ reaches bounds i value := by
  simp [reaches_iff, or_left_comm]

theorem reaches_mono (hij : i ≤ j) (hvalue : reaches bounds i value) : reaches bounds j value := by
  rw [reaches_iff] at hvalue ⊢
  obtain hend | ⟨b, hb, hle⟩ := hvalue
  · exact .inl (hend.trans hij)
  · exact .inr ⟨b, List.take_subset_take_left bounds (Nat.succ_le_succ hij) hb, hle⟩

def raise (n : Nat) (e : Option Float × UInt64) : Option Float × UInt64 :=
  (e.1, e.2 + UInt64.ofNat n)

theorem raise_zero (e : Option Float × UInt64) : raise 0 e = e :=
  Prod.ext rfl (UInt64.add_zero _)

theorem raise_raise (m n : Nat) (e : Option Float × UInt64) :
    raise m (raise n e) = raise (m + n) e := by
  rw [raise, raise, raise, Nat.add_comm, UInt64.ofNat_add, UInt64.add_assoc]

theorem cumulate_add (overflow below : UInt64) (n : Nat) (buckets : List (Float × UInt64)) :
    cumulate overflow (below + UInt64.ofNat n) buckets =
      (cumulate overflow below buckets).map (raise n) := by
  have hright (below k : UInt64) : below + UInt64.ofNat n + k = below + k + UInt64.ofNat n := by
    ac_rfl
  induction buckets generalizing below with
  | nil => simp only [cumulate, hright, List.map_cons, List.map_nil, raise]
  | cons bucket buckets ih =>
    simp only [cumulate, hright, ih, List.map_cons, raise]

/-- Every count from the first boundary on that the value goes up to is raised by one. -/
theorem getElem?_cumulate_place (value : Float) (buckets : List (Float × UInt64))
    (overflow below : UInt64) (i : Nat) :
    (cumulate (place value buckets overflow).2 below (place value buckets overflow).1)[i]? =
      (cumulate overflow below buckets)[i]?.map
        (raise (if reaches (buckets.map Prod.fst) i value then 1 else 0)) := by
  induction buckets generalizing below i with
  | nil =>
    rw [List.map_nil, if_pos reaches_nil]
    cases i with
    | zero => exact congrArg (fun n => some (none, n)) (UInt64.add_assoc ..).symm
    | succ i => rfl
  | cons bucket buckets ih =>
    obtain ⟨b, n⟩ := bucket
    by_cases hle : value ≤ b
    · -- The bucket here takes the value, and all counts from here on include it.
      have hhere : cumulate overflow below ((b, n + 1) :: buckets) =
          (cumulate overflow below ((b, n) :: buckets)).map (raise 1) := by
        rw [cumulate, cumulate, ← UInt64.add_assoc]
        exact congrArg _ (cumulate_add overflow (below + n) 1 buckets)
      rw [place, if_pos hle, hhere, List.getElem?_map, List.map_cons, if_pos]
      cases i with
      | zero => exact reaches_cons_zero.mpr hle
      | succ i => exact reaches_cons_succ.mpr (.inl hle)
    · rw [place, if_neg hle, List.map_cons]
      cases i with
      | zero =>
        rw [if_neg (mt reaches_cons_zero.mp hle)]
        exact congrArg some (raise_zero _).symm
      | succ i =>
        simp only [reaches_cons_succ, hle, false_or]
        exact ih _ i

/-- The boundaries in the order in which they were given. -/
def boundaries (h : Histogram) : List Float :=
  h.buckets.map Prod.fst

theorem map_fst_place (value : Float) (buckets : List (Float × UInt64)) (overflow : UInt64) :
    (place value buckets overflow).1.map Prod.fst = buckets.map Prod.fst := by
  induction buckets with
  | nil => rfl
  | cons bucket buckets ih =>
    rw [place]
    split
    · rfl
    · rw [List.map_cons, List.map_cons, ih]

theorem boundaries_observe (h : Histogram) (value : Float) :
    (h.observe value).boundaries = h.boundaries :=
  map_fst_place ..

/-- Each observation raises the counts it reaches, so all of them raise each count by the number
of values that reach it. -/
theorem getElem?_cumulative_observed (h : Histogram) (values : List Float) (i : Nat) :
    (values.foldl observe h).cumulative[i]? =
      h.cumulative[i]?.map (raise (values.countP fun v => reaches h.boundaries i v)) := by
  induction values generalizing h with
  | nil =>
    rw [List.foldl_nil, List.countP_nil, funext raise_zero]
    exact Option.map_id'.symm
  | cons value values ih =>
    rw [List.foldl_cons, ih, boundaries_observe, cumulative, observe, getElem?_cumulate_place,
      Option.map_map, List.countP_cons]
    simp only [Function.comp_def, raise_raise]
    rfl

theorem count_observed (h : Histogram) (values : List Float) :
    (values.foldl observe h).count = h.count + UInt64.ofNat values.length := by
  induction values generalizing h with
  | nil => exact (UInt64.add_zero _).symm
  | cons value values ih =>
    rw [List.foldl_cons, ih, List.length_cons, UInt64.ofNat_add, UInt64.add_comm _ (UInt64.ofNat 1),
      ← UInt64.add_assoc]
    rfl

theorem cumulative_ofBoundaries (bounds : List Float) :
    (ofBoundaries bounds).cumulative = (bounds.map some ++ [none]).map fun b => (b, 0) := by
  rw [cumulative, ofBoundaries]
  induction bounds with
  | nil => rfl
  | cons b bounds ih =>
    rw [List.map_cons, cumulate, UInt64.add_zero, ih]
    rfl

theorem boundaries_ofBoundaries (bounds : List Float) :
    (ofBoundaries bounds).boundaries = bounds := by
  rw [boundaries, ofBoundaries, List.map_map]
  exact List.map_id' bounds

theorem getElem?_cumulative (bounds values : List Float) (i : Nat) :
    (values.foldl observe (ofBoundaries bounds)).cumulative[i]? =
      (bounds.map some ++ [none])[i]?.map
        fun b => (b, UInt64.ofNat (values.countP fun v => reaches bounds i v)) := by
  rw [getElem?_cumulative_observed, cumulative_ofBoundaries, boundaries_ofBoundaries,
    List.getElem?_map, Option.map_map]
  simp only [Function.comp_def, raise, UInt64.zero_add]

theorem map_fst_cumulative (bounds values : List Float) :
    (values.foldl observe (ofBoundaries bounds)).cumulative.map Prod.fst =
      bounds.map some ++ [none] := by
  apply List.ext_getElem?
  intro i
  rw [List.getElem?_map, getElem?_cumulative, Option.map_map]
  exact Option.map_id'

theorem toNat_countP {p : Float → Bool} (hfew : values.length < UInt64.size) :
    (UInt64.ofNat (values.countP p)).toNat = values.countP p :=
  UInt64.toNat_ofNat_of_lt' (List.countP_le_length.trans_lt hfew)

theorem getElem?_cumulative_boundary (hfew : values.length < UInt64.size) (hi : i < bounds.length) :
    ∃ n, (values.foldl observe (ofBoundaries bounds)).cumulative[i]? = some (some bounds[i], n) ∧
      n.toNat = values.countP fun v => (bounds.take (i + 1)).any (v ≤ ·) := by
  refine ⟨_, ?_, toNat_countP hfew⟩
  rw [getElem?_cumulative, List.getElem?_append_left (by simpa using hi), List.getElem?_map,
    List.getElem?_eq_getElem hi]
  simp only [reaches, Nat.not_le.mpr hi, decide_false, Bool.false_or]
  rfl

/-- Every value reaches the last count, so it is the number of observations. -/
theorem getLast?_cumulative (bounds values : List Float) :
    (values.foldl observe (ofBoundaries bounds)).cumulative.getLast? =
      some (none, (values.foldl observe (ofBoundaries bounds)).count) := by
  have hlength := congrArg List.length (map_fst_cumulative bounds values)
  rw [List.length_map, List.length_append, List.length_map] at hlength
  have hall : values.countP (fun v => reaches bounds bounds.length v) = values.length :=
    List.countP_eq_length.mpr fun v _ => reaches_iff.mpr (.inl (Nat.le_refl _))
  have hlast : (bounds.map some ++ [none])[bounds.length]? = some (none : Option Float) := by
    simp
  rw [List.getLast?_eq_getElem?, hlength, List.length_singleton, Nat.add_sub_cancel,
    getElem?_cumulative, hlast, hall, count_observed]
  exact congrArg (fun n => some (none, n)) (UInt64.zero_add _).symm

theorem ascending_cumulative (bounds : List Float) (hfew : values.length < UInt64.size) :
    ((values.foldl observe (ofBoundaries bounds)).cumulative.map Prod.snd).Pairwise (· ≤ ·) := by
  rw [List.pairwise_map, List.pairwise_iff_getElem]
  intro i j hi hj hij
  have hcount {k : Nat} (hk : k < (values.foldl observe (ofBoundaries bounds)).cumulative.length) :
      (values.foldl observe (ofBoundaries bounds)).cumulative[k].2.toNat =
        values.countP (reaches bounds k) := by
    have hentry := getElem?_cumulative bounds values k
    rw [List.getElem?_eq_getElem hk, eq_comm, Option.map_eq_some_iff] at hentry
    obtain ⟨b, -, hb⟩ := hentry
    rw [← hb]
    exact toNat_countP hfew
  rw [UInt64.le_iff_toNat_le, hcount hi, hcount hj]
  exact List.countP_mono_left fun v _ => reaches_mono hij.le

/-- A value that passes the boundaries in order goes up to all from the first one it goes up to. -/
theorem le_of_prefix (hnext : ∀ j (hj : j + 1 < bounds.length), value ≤ bounds[j] →
    value ≤ bounds[j + 1]) {j : Nat} (hij : i ≤ j) (hj : j < bounds.length)
    (hvalue : value ≤ bounds[i]) : value ≤ bounds[j] := by
  induction j, hij using Nat.le_induction with
  | base => exact hvalue
  | succ j hij ih => exact hnext j hj (ih (by omega) hvalue)

theorem exists_take_iff (hnext : ∀ j (hj : j + 1 < bounds.length), value ≤ bounds[j] →
    value ≤ bounds[j + 1]) (hi : i < bounds.length) :
    (∃ b ∈ bounds.take (i + 1), value ≤ b) ↔ value ≤ bounds[i] := by
  constructor
  · rintro ⟨b, hb, hle⟩
    obtain ⟨j, hj, rfl⟩ := List.mem_take_iff_getElem.mp hb
    exact le_of_prefix hnext (by omega) hi hle
  · intro hle
    exact ⟨_, List.mem_take_iff_getElem.mpr ⟨i, by omega, rfl⟩, hle⟩

/-- The counts after any observations, at boundaries in any order. There is one for each boundary
and a last one at infinity. Each counts the values that go up to one of the boundaries so far, the
last one all of them. Ascending boundaries, and others which every value passes in order, count the
values up to the boundary itself. -/
theorem buckets_exact {bounds values : List Float} (hfew : values.length < UInt64.size) :
    let h := values.foldl observe (ofBoundaries bounds)
    (h.cumulative.map fun e => e.1.getD Decimal.infinity) = bounds ++ [Decimal.infinity] ∧
    (∀ i (hi : i < bounds.length), ∃ n, h.cumulative[i]? = some (some bounds[i], n) ∧
      n.toNat = values.countP fun v => (bounds.take (i + 1)).any (v ≤ ·)) ∧
    (h.cumulative.map Prod.snd).Pairwise (· ≤ ·) ∧
    h.cumulative.getLast? = some (none, h.count) ∧ h.count.toNat = values.length ∧
    ((∀ v ∈ values, ∀ j (hj : j + 1 < bounds.length), v ≤ bounds[j] → v ≤ bounds[j + 1]) →
      ∀ i (hi : i < bounds.length), ∃ n, h.cumulative[i]? = some (some bounds[i], n) ∧
        n.toNat = values.countP (· ≤ bounds[i])) ∧
    (bounds.IsChain (· ≤ ·) →
      ∀ v j (hj : j + 1 < bounds.length), v ≤ bounds[j] → v ≤ bounds[j + 1]) := by
  intro h
  refine ⟨?_, fun i => getElem?_cumulative_boundary hfew, ascending_cumulative bounds hfew,
    getLast?_cumulative bounds values, ?_, ?_, ?_⟩
  · have hfst := congrArg (List.map fun b => b.getD Decimal.infinity)
      (map_fst_cumulative bounds values)
    rw [List.map_map, List.map_append, List.map_map] at hfst
    exact hfst.trans (congrArg (· ++ _) (List.map_id' bounds))
  · rw [count_observed, ofBoundaries, UInt64.zero_add]
    exact UInt64.toNat_ofNat_of_lt' hfew
  · intro hnext i hi
    obtain ⟨n, hentry, hn⟩ := getElem?_cumulative_boundary hfew hi
    refine ⟨n, hentry, hn.trans (List.countP_congr fun v hv => ?_)⟩
    rw [List.any_eq_true, decide_eq_true_iff]
    simp only [decide_eq_true_iff]
    exact exists_take_iff (hnext v hv) hi
  · intro hascending v j hj hv
    exact float_le_trans hv (List.isChain_iff_getElem.mp hascending j hj)

/-- The boundaries 5, NaN, 1 and infinity. -/
def disordered : List Float :=
  [5.0, 0.0 / 0.0, 1.0, 1.0 / 0.0]

/-- The values 0.5, NaN, 3, infinity and 7. -/
def mixture : List Float :=
  [0.5, 0.0 / 0.0, 3.0, 1.0 / 0.0, 7.0]

theorem buckets_exact_mixture :
    (∃ n, (mixture.foldl observe (ofBoundaries disordered)).cumulative[2]? = some (some 1.0, n) ∧
      n.toNat = 2) ∧
    (∃ n, (mixture.foldl observe (ofBoundaries disordered)).cumulative[3]? =
      some (some (1.0 / 0.0), n) ∧ n.toNat = 4) ∧
    (mixture.foldl observe (ofBoundaries disordered)).count.toNat = 5 ∧
    ∃ n, (mixture.foldl observe latency).cumulative[4]? = some (some 5.0, n) ∧ n.toNat = 2 := by
  obtain ⟨-, hentry, -, -, hcount, -, -⟩ := @buckets_exact disordered mixture (by decide)
  obtain ⟨-, -, -, -, -, hinOrder, hascending⟩ :=
    @buckets_exact latencyBoundaries mixture (by decide)
  obtain ⟨n, hn, hfive⟩ := hinOrder (fun v _ => hascending (by decide) v) 4 (by decide)
  exact ⟨hentry 2 (by decide), hentry 3 (by decide), hcount, n, hn, hfive.trans (by decide)⟩

end CounterCoordinator.Histogram
