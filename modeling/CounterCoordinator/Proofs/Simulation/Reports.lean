import CounterCoordinator.Simulation.Report
import Mathlib.Algebra.Order.Ring.Nat
import Mathlib.Data.List.Count
import Mathlib.Tactic.Common

/-!
# What a report counts

A report is a fold over the results of the transactions: it counts each kind of ending, and under
every coordinator it lists the counters of that coordinator in the order of the results.
-/
namespace CounterCoordinator.Simulation

def Result.endsAs (ending : Ending) : Result → Bool
  | .finished _ _ e => decide (e = ending)
  | .aborted | .failed _ => false

def Result.hasFailed : Result → Bool
  | .failed _ => true
  | .aborted | .finished .. => false

/-- The counter that the transaction got from a coordinator, if it got one from it. -/
def Result.counterOf? (coordinator : NodeId) : Result → Option Version
  | .finished c counter _ => if c = coordinator then some counter else none
  | .aborted | .failed _ => none

namespace Report
variable {c : NodeId} {n : Version} {l : List (NodeId × List Version)} {r : Report}
  {results : List Result}

theorem mem_keys_enter {k : NodeId} :
    k ∈ (enter c n l).map Prod.fst ↔ k = c ∨ k ∈ l.map Prod.fst := by
  induction l with
  | nil => simp [enter]
  | cons entry rest ih =>
    obtain ⟨c', counters⟩ := entry
    by_cases hc : c' = c
    · simp [enter, hc]
    · simp only [enter, if_neg hc, List.map_cons, List.mem_cons, ih]
      exact or_left_comm

theorem nodup_keys_enter (h : (l.map Prod.fst).Nodup) : ((enter c n l).map Prod.fst).Nodup := by
  induction l with
  | nil => simp [enter]
  | cons entry rest ih =>
    obtain ⟨c', counters⟩ := entry
    obtain ⟨hnew, hrest⟩ := List.nodup_cons.mp h
    by_cases hc : c' = c
    · simpa [enter, hc] using h
    · simp only [enter, if_neg hc, List.map_cons, List.nodup_cons, mem_keys_enter]
      exact ⟨fun hmem => hmem.elim hc hnew, ih hrest⟩

theorem sum_lengths_enter (c : NodeId) (n : Version) (l : List (NodeId × List Version)) :
    ((enter c n l).map fun entry => entry.2.length).sum =
      (l.map fun entry => entry.2.length).sum + 1 := by
  induction l with
  | nil => simp [enter]
  | cons entry rest ih =>
    obtain ⟨c', counters⟩ := entry
    by_cases hc : c' = c
    · simp only [enter, if_pos hc, List.map_cons, List.sum_cons, List.length_append,
        List.length_singleton]
      omega
    · simp only [enter, if_neg hc, List.map_cons, List.sum_cons, ih]
      omega

/-- The counters under other coordinators stay, and those under this one get one more. -/
theorem mem_enter (hkeys : (l.map Prod.fst).Nodup) {entry : NodeId × List Version}
    (h : entry ∈ enter c n l) :
    (entry.1 ≠ c ∧ entry ∈ l) ∨
      (entry.1 = c ∧ ∃ old, entry.2 = old ++ [n] ∧
        ((c, old) ∈ l ∨ (old = [] ∧ c ∉ l.map Prod.fst))) := by
  induction l with
  | nil =>
    rw [List.mem_singleton.mp h]
    exact .inr ⟨rfl, [], rfl, .inr ⟨rfl, List.not_mem_nil⟩⟩
  | cons first rest ih =>
    obtain ⟨c', counters⟩ := first
    obtain ⟨hnew, hrest⟩ := List.nodup_cons.mp hkeys
    by_cases hc : c' = c
    · rw [enter, if_pos hc] at h
      rcases List.mem_cons.mp h with rfl | h
      · exact .inr ⟨hc, counters, rfl, .inl (hc ▸ List.mem_cons_self)⟩
      · refine .inl ⟨fun heq => hnew ?_, List.mem_cons_of_mem _ h⟩
        exact List.mem_map.mpr ⟨entry, h, heq.trans hc.symm⟩
    · rw [enter, if_neg hc] at h
      rcases List.mem_cons.mp h with rfl | h
      · exact .inl ⟨hc, List.mem_cons_self⟩
      · rcases ih hrest h with ⟨hother, h⟩ | ⟨hown, old, hentry, hold⟩
        · exact .inl ⟨hother, List.mem_cons_of_mem _ h⟩
        · refine .inr ⟨hown, old, hentry, hold.imp (List.mem_cons_of_mem _) (And.imp_right ?_)⟩
          intro hmissing hmem
          exact (List.mem_cons.mp hmem).elim (fun heq => hc heq.symm) hmissing

structure Counts (r : Report) (results : List Result) : Prop where
  total : r.total = results.length
  committed : r.committed = results.countP (Result.endsAs .committed)
  rolledBack : r.rolledBack = results.countP (Result.endsAs .rolledBack)
  ackTimeouts : r.ackTimeouts = results.countP (Result.endsAs .ackTimedOut)
  aborted : r.aborted = results.count .aborted
  failed : r.failed = results.countP Result.hasFailed
  keys : (r.counters.map Prod.fst).Nodup
  lists : ∀ entry ∈ r.counters, entry.2 = results.filterMap (Result.counterOf? entry.1)
  listed : ∀ c, c ∈ r.counters.map Prod.fst ↔ results.filterMap (Result.counterOf? c) ≠ []
  assigned : (r.counters.map fun entry => entry.2.length).sum =
    r.committed + r.rolledBack + r.ackTimeouts

theorem addEnding_counters (r : Report) (ending : Ending) :
    (r.addEnding ending).counters = r.counters := by
  cases ending <;> rfl

namespace Counts

theorem add_finished (h : r.Counts results) (c : NodeId) (n : Version) (ending : Ending) :
    (r.add (.finished c n ending)).Counts (results ++ [.finished c n ending]) := by
  have own : (results ++ [Result.finished c n ending]).filterMap (Result.counterOf? c) =
      results.filterMap (Result.counterOf? c) ++ [n] := by
    simp [Result.counterOf?]
  have other : ∀ k, k ≠ c →
      (results ++ [Result.finished c n ending]).filterMap (Result.counterOf? k) =
        results.filterMap (Result.counterOf? k) := by
    intro k hk
    simp [Result.counterOf?, Ne.symm hk]
  have hcounters : (r.add (.finished c n ending)).counters = enter c n r.counters :=
    addEnding_counters ..
  constructor
  · rw [List.length_append, List.length_singleton, ← h.total]
    cases ending <;> simp only [Report.total, Report.add, addEnding] <;> omega
  · cases ending <;> simp [Report.add, addEnding, Result.endsAs, h.committed]
  · cases ending <;> simp [Report.add, addEnding, Result.endsAs, h.rolledBack]
  · cases ending <;> simp [Report.add, addEnding, Result.endsAs, h.ackTimeouts]
  · cases ending <;> simp [Report.add, addEnding, h.aborted]
  · cases ending <;> simp [Report.add, addEnding, Result.hasFailed, h.failed]
  · rw [hcounters]
    exact nodup_keys_enter h.keys
  · rw [hcounters]
    intro entry hentry
    rcases mem_enter h.keys hentry with ⟨hne, hold⟩ | ⟨rfl, old, hnew, hold⟩
    · rw [other _ hne]
      exact h.lists entry hold
    · rw [own, hnew]
      rcases hold with hold | ⟨rfl, hmissing⟩
      · exact congrArg (· ++ [n]) (h.lists _ hold)
      · rw [not_not.mp (mt (h.listed _).mpr hmissing)]
  · intro k
    rw [hcounters, mem_keys_enter]
    by_cases hk : k = c
    · subst hk
      simp [own]
    · rw [other k hk, ← h.listed]
      simp [hk]
  · rw [hcounters, sum_lengths_enter, h.assigned]
    cases ending <;> simp only [Report.add, addEnding] <;> omega

theorem add (h : r.Counts results) (x : Result) : (r.add x).Counts (results ++ [x]) := by
  cases x with
  | finished c n ending => exact h.add_finished c n ending
  | aborted | failed =>
    constructor
    · rw [List.length_append, List.length_singleton, ← h.total]
      simp only [Report.total, Report.add]
      omega
    · simpa [Report.add, Result.endsAs] using h.committed
    · simpa [Report.add, Result.endsAs] using h.rolledBack
    · simpa [Report.add, Result.endsAs] using h.ackTimeouts
    · simpa [Report.add] using h.aborted
    · simpa [Report.add, Result.hasFailed] using h.failed
    · exact h.keys
    · simpa [Report.add, List.filterMap_cons, Result.counterOf?] using h.lists
    · simpa [Report.add, List.filterMap_cons, Result.counterOf?] using h.listed
    · exact h.assigned

theorem foldl {before : List Result} (h : r.Counts before) (results : List Result) :
    (results.foldl Report.add r).Counts (before ++ results) := by
  induction results generalizing r before with
  | nil => simpa using h
  | cons x rest ih =>
    rw [List.append_cons]
    exact ih (h.add x)

end Counts

theorem failedCoordinator_add (r : Report) (x : Result) :
    (r.add x).failedCoordinator = r.failedCoordinator := by
  cases x with
  | finished c n ending => cases ending <;> rfl
  | aborted | failed => rfl

end Report

variable {s : Simulation}

theorem counts_report (s : Simulation) : s.report.Counts s.results := by
  have hnew : Report.Counts { failedCoordinator := s.failedCoordinator } [] := by
    constructor <;> simp [Report.total]
  simpa [report] using hnew.foldl s.results

theorem failedCoordinator_report (s : Simulation) :
    s.report.failedCoordinator = s.failedCoordinator := by
  have folded : ∀ (results : List Result) (r : Report),
      (results.foldl Report.add r).failedCoordinator = r.failedCoordinator := by
    intro results
    induction results with
    | nil => exact fun _ => rfl
    | cons x rest ih => exact fun r => (ih _).trans (r.failedCoordinator_add x)
  exact folded s.results _

end CounterCoordinator.Simulation
