import CounterCoordinator.Proofs.Counters.Assignment
import CounterCoordinator.Proofs.Fresh
import Mathlib.Algebra.Group.Nat.Defs
import Mathlib.Data.List.Induction

/-!
# Counters and their ledger

Whatever is asked of new counters and in whatever order, what they hold and how they answer is told
by the operations alone. The ledger of a run lists the assignments that were made. They are numbered
1, 2, 3, ... without a gap; the current counter is their number; and a transaction is active exactly
if one of its assignments has not been acknowledged since.
-/
namespace CounterCoordinator

namespace Counters

@[simp] theorem activeCounter?_new (tx : TxId) : ({} : Counters).activeCounter? tx = none := rfl

theorem activeCounter?_assign (s : Counters) (tx t : TxId) :
    (s.assign tx).2.activeCounter? t =
      if t = tx then some ((s.activeCounter? tx).getD (s.current + 1)) else s.activeCounter? t := by
  unfold assign
  cases hactive : s.activeCounter? tx with
  | some held =>
    by_cases ht : t = tx
    · simp [ht, hactive]
    · simp [ht]
  | none =>
    simp only [Option.getD_none]
    exact lookup_cons_eq_ite tx t _ _

theorem activeCounter?_ack (s : Counters) (tx t : TxId) :
    (s.ack tx).2.activeCounter? t = if t = tx then none else s.activeCounter? t := by
  simp only [ack, activeCounter?]
  induction s.active with
  | nil => simp
  | cons e rest ih =>
    obtain ⟨u, c⟩ := e
    rw [lookup_cons_eq_ite]
    by_cases hu : u = tx
    · rw [List.filter_cons_of_neg (by simpa using hu), ih]
      by_cases ht : t = tx
      · rw [if_pos ht, if_pos ht]
      · rw [if_neg ht, if_neg ht, if_neg (hu ▸ ht)]
    · rw [List.filter_cons_of_pos (by simpa using hu), lookup_cons_eq_ite, ih]
      by_cases ht : t = u
      · rw [if_pos ht, if_pos ht, if_neg (ht ▸ hu)]
      · rw [if_neg ht, if_neg ht]

theorem assign_of_active {s : Counters} {tx : TxId} {held : Version}
    (h : s.activeCounter? tx = some held) : s.assign tx = (.error (.alreadyActive tx held), s) := by
  simp [assign, h]

theorem assign_of_inactive {s : Counters} {tx : TxId} (h : s.activeCounter? tx = none) :
    (s.assign tx).1 = .ok (s.current + 1) := by
  simp [assign, h]

/-- Acknowledging one transaction makes no difference to another one. -/
theorem ack_comm (s : Counters) {t u : TxId} (h : t ≠ u) :
    (s.ack t).2.ack u = ((s.ack u).1, ((s.ack u).2.ack t).2) := by
  have hheld : (s.ack t).2.activeCounter? u = s.activeCounter? u := by
    rw [activeCounter?_ack, if_neg h.symm]
  simp only [ack, Prod.mk.injEq, List.filter_filter, Bool.and_comm, and_true]
  exact hheld

theorem ack_ack (s : Counters) (t : TxId) : (s.ack t).2.ack t = (none, (s.ack t).2) := by
  have hnone : (s.ack t).2.activeCounter? t = none := by
    rw [activeCounter?_ack, if_pos rfl]
  simp only [ack, Prod.mk.injEq, List.filter_filter, Bool.and_self, and_true]
  exact hnone

inductive Op where
  | assign (tx : TxId)
  | query
  | ack (tx : TxId)
  | queryDone (counter : Version)
deriving DecidableEq, Repr

def perform (s : Counters) : Op → Counters
  | .assign tx => (s.assign tx).2
  | .query => s
  | .ack tx => (s.ack tx).2
  | .queryDone counter => s.queryDone counter

def granted? (s : Counters) : Op → Option (TxId × Version)
  | .assign tx => (s.assign tx).1.toOption.map fun counter => (tx, counter)
  | _ => none

theorem activeCounter?_perform (s : Counters) (op : Op) (t : TxId) :
    (s.perform op).activeCounter? t =
      if op = .assign t then some ((s.activeCounter? t).getD (s.current + 1))
      else if op = .ack t then none else s.activeCounter? t := by
  cases op with
  | assign tx =>
    simp only [perform, activeCounter?_assign, Op.assign.injEq, reduceCtorEq, if_false]
    by_cases ht : t = tx
    · simp [ht]
    · rw [if_neg ht, if_neg (Ne.symm ht)]
  | ack tx => simp [perform, activeCounter?_ack, eq_comm]
  | query | queryDone => simp [perform, queryDone]

end Counters

/-- Counters and all assignments they made, oldest first. -/
structure Ledger where
  counters : Counters := {}
  granted : List (TxId × Version) := []

namespace Ledger

def step (l : Ledger) (op : Counters.Op) : Ledger :=
  ⟨l.counters.perform op, l.granted ++ (l.counters.granted? op).toList⟩

def ofOps (ops : List Counters.Op) : Ledger := ops.foldl step {}

theorem ofOps_concat (ops : List Counters.Op) (op : Counters.Op) :
    ofOps (ops ++ [op]) = (ofOps ops).step op :=
  List.foldl_append

structure Numbered (l : Ledger) : Prop where
  counters : l.granted.map Prod.snd =
    (List.range l.granted.length).map fun k => Int64.ofNat (k + 1)
  current : l.counters.current = Int64.ofNat l.granted.length
  committed : l.counters.committed = 0
  active : ∀ t c, l.counters.activeCounter? t = some c → (t, c) ∈ l.granted

namespace Numbered
variable {l : Ledger}

theorem new : Numbered {} := by
  constructor <;> simp

theorem of_not_granted (hl : l.Numbered) {s : Counters} (hcurrent : s.current = l.counters.current)
    (hcommitted : s.committed = l.counters.committed)
    (hactive : ∀ t c, s.activeCounter? t = some c → l.counters.activeCounter? t = some c) :
    Numbered ⟨s, l.granted⟩ :=
  ⟨hl.counters, hcurrent.trans hl.current, hcommitted.trans hl.committed,
    fun t c h => hl.active t c (hactive t c h)⟩

theorem assign (hl : l.Numbered) (tx : TxId) : (l.step (.assign tx)).Numbered := by
  cases hactive : l.counters.activeCounter? tx with
  | some held =>
    have hrefused := Counters.assign_of_active hactive
    have hsame : l.step (.assign tx) = l := by
      simp [step, Counters.perform, Counters.granted?, hrefused, Except.toOption]
    rw [hsame]
    exact hl
  | none =>
    have hgranted := Counters.assign_of_inactive hactive
    obtain ⟨-, hafter⟩ := Counters.assign_of_ok hgranted
    have hstep : l.step (.assign tx) =
        ⟨(l.counters.assign tx).2, l.granted ++ [(tx, l.counters.current + 1)]⟩ := by
      simp [step, Counters.perform, Counters.granted?, hgranted, Except.toOption]
    rw [hstep]
    constructor
    · simp [List.range_succ, hl.counters, hl.current]
    · simp [hafter, hl.current]
    · simpa using hl.committed
    · intro t c h
      rw [Counters.activeCounter?_assign, hactive] at h
      by_cases ht : t = tx
      · simp_all
      · rw [if_neg ht] at h
        exact List.mem_append_left _ (hl.active t c h)

theorem step (hl : l.Numbered) (op : Counters.Op) : (l.step op).Numbered := by
  cases op with
  | assign tx => exact hl.assign tx
  | ack tx =>
    have hstep : l.step (.ack tx) = ⟨(l.counters.ack tx).2, l.granted⟩ :=
      congrArg (Ledger.mk _) (List.append_nil _)
    rw [hstep]
    refine hl.of_not_granted rfl rfl ?_
    intro t c h
    rw [Counters.activeCounter?_ack] at h
    split at h
    · cases h
    · exact h
  | query | queryDone =>
    simpa [Ledger.step, Counters.perform, Counters.queryDone, Counters.granted?] using hl

end Numbered

theorem numbered_ofOps (ops : List Counters.Op) : (ofOps ops).Numbered := by
  induction ops using List.reverseRecOn with
  | nil => exact .new
  | append_singleton ops op ih =>
    rw [ofOps_concat]
    exact ih.step op

/-- In the row of operations `counter` was assigned to `t`, and not acknowledged since. -/
def Holds (ops : List Counters.Op) (t : TxId) (counter : Version) : Prop :=
  ∃ before after, ops = before ++ .assign t :: after ∧
    ((ofOps before).counters.assign t).1 = .ok counter ∧ .ack t ∉ after

theorem not_holds_nil {t : TxId} {c : Version} : ¬ Holds [] t c := by
  rintro ⟨before, after, h, -⟩
  simp at h

theorem holds_concat {ops : List Counters.Op} {op : Counters.Op} {t : TxId} {c : Version} :
    Holds (ops ++ [op]) t c ↔
      (op = .assign t ∧ ((ofOps ops).counters.assign t).1 = .ok c) ∨
        (op ≠ .ack t ∧ Holds ops t c) := by
  constructor
  · rintro ⟨before, after, hops, hassigned, hkept⟩
    rcases List.eq_nil_or_concat after with rfl | ⟨after, last, rfl⟩
    · obtain ⟨rfl, hlast⟩ := List.append_inj' hops rfl
      exact .inl ⟨List.singleton_inj.mp hlast, hassigned⟩
    · rw [List.concat_eq_append] at hops hkept
      have hsplit : ops ++ [op] = (before ++ .assign t :: after) ++ [last] := by simpa using hops
      obtain ⟨rfl, hlast⟩ := List.append_inj' hsplit rfl
      obtain rfl := List.singleton_inj.mp hlast
      simp only [List.mem_append, List.mem_singleton, not_or] at hkept
      exact .inr ⟨Ne.symm hkept.2, before, after, rfl, hassigned, hkept.1⟩
  · rintro (⟨rfl, hassigned⟩ | ⟨hop, before, after, rfl, hassigned, hkept⟩)
    · exact ⟨ops, [], rfl, hassigned, by simp⟩
    · exact ⟨before, after ++ [op], by simp, hassigned, by simp [hkept, hop.symm]⟩

/-- A transaction is active exactly if it holds a counter by the row of operations. -/
theorem activeCounter?_eq_some_iff {ops : List Counters.Op} {t : TxId} {c : Version} :
    (ofOps ops).counters.activeCounter? t = some c ↔ Holds ops t c := by
  induction ops using List.reverseRecOn generalizing c with
  | nil => exact iff_of_false (by simp [ofOps]) not_holds_nil
  | append_singleton ops op ih =>
    rw [holds_concat, ← ih, ofOps_concat]
    simp only [step, Counters.activeCounter?_perform]
    by_cases hassign : op = .assign t
    · subst hassign
      cases hactive : (ofOps ops).counters.activeCounter? t with
      | some held => simp [Counters.assign_of_active hactive]
      | none => simp [Counters.assign_of_inactive hactive]
    · by_cases hack : op = .ack t
      · simp [hack]
      · simp [hassign, hack]

namespace Numbered
variable {l : Ledger}

theorem toInt_counters (hl : l.Numbered) (hbound : l.granted.length < 2 ^ 63) :
    l.granted.map (fun a => a.2.toInt) =
      (List.range l.granted.length).map fun k : Nat => (k : Int) + 1 := by
  have hcounters := congrArg (List.map Int64.toInt) hl.counters
  rw [List.map_map, List.map_map] at hcounters
  refine hcounters.trans (List.map_congr_left ?_)
  intro k hk
  have hk := List.mem_range.mp hk
  exact Int64.toInt_ofNat_of_lt (by omega)

theorem toInt_current (hl : l.Numbered) (hbound : l.granted.length < 2 ^ 63) :
    l.counters.current.toInt = l.granted.length := by
  rw [hl.current]
  exact Int64.toInt_ofNat_of_lt hbound

theorem injective (hl : l.Numbered) (hbound : l.granted.length < 2 ^ 63) {t u : TxId}
    {c : Version} (ht : (t, c) ∈ l.granted) (hu : (u, c) ∈ l.granted) : t = u := by
  have hnodup : (l.granted.map fun a => a.2.toInt).Nodup := by
    rw [hl.toInt_counters hbound]
    refine List.nodup_range.map ?_
    intro a b hab
    simp only at hab
    omega
  have hsame := List.inj_on_of_nodup_map hnodup ht hu rfl
  exact congrArg Prod.fst hsame

theorem bounds (hl : l.Numbered) (hbound : l.granted.length < 2 ^ 63) {t : TxId} {c : Version}
    (h : (t, c) ∈ l.granted) : 1 ≤ c ∧ c ≤ l.counters.current := by
  have hmem := List.mem_map_of_mem (f := fun a => a.2.toInt) h
  rw [hl.toInt_counters hbound] at hmem
  obtain ⟨k, hk, hcounter⟩ := List.mem_map.mp hmem
  have hk := List.mem_range.mp hk
  have hone : (1 : Int64).toInt = 1 := rfl
  rw [Int64.le_iff_toInt_le, Int64.le_iff_toInt_le, hl.toInt_current hbound, ← hcounter, hone]
  omega

end Numbered

/-- After any operations on new counters: the assignments made are 1, 2, 3, ... and as many as the
current counter; the watermark has not moved; a transaction is refused exactly if it is active, with
the counter it holds and without any effect; it is active with the counter it was last assigned,
unless it was acknowledged since, and its acknowledgement tells that counter; active transactions
have different counters, all between 1 and the current one; and acknowledgements commute and can be
repeated. -/
theorem counters_follow_ledger (ops : List Counters.Op)
    (hbound : (ofOps ops).granted.length < 2 ^ 63) :
    let s := (ofOps ops).counters
    let granted := (ofOps ops).granted
    granted.map (fun a => a.2.toInt) =
      (List.range granted.length).map (fun k : Nat => (k : Int) + 1) ∧
    s.current.toInt = granted.length ∧ s.committed = 0 ∧
    (∀ t held, s.activeCounter? t = some held →
      s.assign t = (.error (.alreadyActive t held), s)) ∧
    (∀ t, s.activeCounter? t = none → (s.assign t).1 = .ok (s.current + 1)) ∧
    (∀ t c, s.activeCounter? t = some c ↔ Holds ops t c) ∧
    (∀ t c, (s.ack t).1 = some c ↔ Holds ops t c) ∧
    (∀ t u c, s.activeCounter? t = some c → s.activeCounter? u = some c → t = u) ∧
    (∀ t c, s.activeCounter? t = some c → 1 ≤ c ∧ c ≤ s.current) ∧
    (∀ t u, t ≠ u → (s.ack t).2.ack u = ((s.ack u).1, ((s.ack u).2.ack t).2)) ∧
    ∀ t, (s.ack t).2.ack t = (none, (s.ack t).2) := by
  intro s granted
  have numbered := numbered_ofOps ops
  refine ⟨numbered.toInt_counters hbound, numbered.toInt_current hbound, numbered.committed,
    fun t held h => Counters.assign_of_active h, fun t h => Counters.assign_of_inactive h,
    fun t c => activeCounter?_eq_some_iff, fun t c => activeCounter?_eq_some_iff, ?_, ?_,
    fun t u h => s.ack_comm h, s.ack_ack⟩
  · intro t u c ht hu
    exact numbered.injective hbound (numbered.active t c ht) (numbered.active u c hu)
  · intro t c h
    exact numbered.bounds hbound (numbered.active t c h)

/-- A transaction asks twice, finishes, and comes back while another one is active. -/
def returning : List Counters.Op :=
  [.assign ⟨1, 1, 1⟩, .query, .assign ⟨1, 1, 1⟩, .ack ⟨1, 1, 1⟩, .assign ⟨1, 2, 1⟩,
    .ack ⟨9, 9, 9⟩, .queryDone 0, .assign ⟨1, 1, 1⟩]

theorem counters_follow_ledger_returning :
    (ofOps returning).granted.length < 2 ^ 63 ∧
      (ofOps returning).granted.map (fun a => a.2.toInt) = [1, 2, 3] ∧
      (ofOps returning).counters.current.toInt = 3 ∧ Holds returning ⟨1, 1, 1⟩ 3 := by
  have hbound : (ofOps returning).granted.length < 2 ^ 63 := by decide
  obtain ⟨counters, current, -, -, -, held, -⟩ := counters_follow_ledger returning hbound
  exact ⟨hbound, counters, current, (held ⟨1, 1, 1⟩ 3).mp (by decide)⟩

end Ledger
end CounterCoordinator
