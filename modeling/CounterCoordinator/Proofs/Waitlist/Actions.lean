import CounterCoordinator.Proofs.Waitlist.Sweep

/-!
# Actions on a waitlist

Whatever is done to a waitlist beside registering, each entry that goes away was taken out, was
abandoned, or went away with the table; and each action says how many entries it took out. So the
load of the waitlist can be accounted for action by action.
-/
namespace CounterCoordinator.Waitlist

/-- What can be done to a waitlist beside registering, and to entries that were taken from it. The
bulk completions may go through the table in any order. -/
inductive Action (α : Type) where
  | complete (id : FutureId) (outcome : Outcome α)
  | completeAllFor (order : Enumeration) (target : NodeId) (outcome : Entry → Outcome α)
  | completeAllGone (order : Enumeration) (alive : NodeId → Bool) (outcome : Entry → Outcome α)
  | take (id : FutureId)
  | finish (id : FutureId) (outcome : Outcome α)
  | discard (id : FutureId)
  | drop (id : FutureId)
  | close

def Action.closes {α : Type} : Action α → Bool
  | .close => true
  | _ => false

variable {α : Type} {w w' : Waitlist α} {last : FutureId}

def holds (w : Waitlist α) (f : FutureId) : Bool := w.held.any fun e => e.id == f

def perform (w : Waitlist α) : Action α → Waitlist α
  | .complete id outcome => (w.complete id outcome).2
  | .completeAllFor order target outcome =>
      (w.sweep order (fun e => e.target == target) outcome).2
  | .completeAllGone order alive outcome => (w.sweep order (fun e => !alive e.target) outcome).2
  | .take id => (w.take id).2
  | .finish id outcome => (w.finish id outcome).2
  | .discard id => (w.discard id).2
  | .drop id => w.drop id
  | .close => w.close

theorem find?_without (id f : FutureId) (l : List Entry) :
    (without id l).find? (fun e => e.id == f) =
      if f = id then none else l.find? fun e => e.id == f := by
  rw [without, List.find?_filter]
  by_cases hf : f = id
  · rw [if_pos hf, List.find?_eq_none]
    simp [hf]
  · rw [if_neg hf]
    congr 1
    funext e
    by_cases he : e.id = f <;> simp [he, hf]

theorem any_without (id f : FutureId) (l : List Entry) :
    (without id l).any (fun e => e.id == f) = (f != id && l.any fun e => e.id == f) := by
  rw [← List.isSome_find?, ← List.isSome_find?, find?_without]
  by_cases hf : f = id
  · simp [hf]
  · rw [if_neg hf, bne_iff_ne.mpr hf, Bool.true_and]

theorem find?_of_without {id : FutureId} (h : w'.entries = without id w.entries) (f : FutureId) :
    w'.find? f = if f = id then none else w.find? f := by
  rw [find?, h, find?_without]
  rfl

theorem entries_take (w : Waitlist α) (id : FutureId) :
    (w.take id).2.entries = without id w.entries := by
  unfold take
  cases h : w.find? id with
  | some e => rfl
  | none => exact (without_eq_self (by simp [contains, h])).symm

@[simp] theorem future?_take (w : Waitlist α) (id f : FutureId) :
    (w.take id).2.future? f = w.future? f := by
  unfold take
  split <;> rfl

theorem holds_take (w : Waitlist α) (id f : FutureId) :
    (w.take id).2.holds f = (id == f && w.contains id || w.holds f) := by
  unfold take contains
  cases h : w.find? id with
  | none => simp
  | some e =>
    have hid : e.id = id := by simpa using List.find?_some h
    simp [holds, hid]

theorem finish_eq (w : Waitlist α) (id : FutureId) (outcome : Outcome α) :
    w.finish id outcome =
      if w.holds id then (true, { w with held := without id w.held }.resolve id outcome)
      else (false, w) := rfl

theorem future?_resolve (w : Waitlist α) (id f : FutureId) (outcome : Outcome α) :
    (w.resolve id outcome).future? f =
      if f = id then (w.future? f).map (Future.resolve outcome) else w.future? f :=
  lookup_updateFuture id f _ w.futures

theorem resolve_resolve (o : Outcome α) (x : Future α) :
    Future.resolve o (Future.resolve o x) = Future.resolve o x := by
  cases x <;> rfl

/-- A row of futures is resolved, each with an outcome of its own. -/
theorem foldl_resolve (outcome : FutureId → Outcome α) (l : List Entry) (w : Waitlist α) :
    let w' := l.foldl (fun w e => w.resolve e.id (outcome e.id)) w
    w'.entries = w.entries ∧ w'.held = w.held ∧ w'.abandoned = w.abandoned ∧
      ∀ f, w'.future? f = if l.any (fun e => e.id == f)
        then (w.future? f).map (Future.resolve (outcome f)) else w.future? f := by
  induction l generalizing w with
  | nil => simp
  | cons x rest ih =>
    obtain ⟨hentries, hheld, habandoned, hfuture⟩ := ih (w.resolve x.id (outcome x.id))
    refine ⟨hentries, hheld, habandoned, ?_⟩
    intro f
    rw [List.foldl_cons, hfuture, future?_resolve, List.any_cons]
    by_cases hx : f = x.id
    · subst hx
      cases hrest : rest.any fun e => e.id == x.id <;>
        cases w.future? x.id <;> simp [resolve_resolve]
    · simp [hx, Ne.symm hx]

/-- The entries that an action takes out of the table, as it tells its caller. -/
def removed (w : Waitlist α) : Action α → Nat
  | .complete id outcome => if (w.complete id outcome).1 then 1 else 0
  | .completeAllFor order target outcome =>
      (w.sweep order (fun e => e.target == target) outcome).1
  | .completeAllGone order alive outcome => (w.sweep order (fun e => !alive e.target) outcome).1
  | .take id => if (w.take id).1.isSome then 1 else 0
  | .finish .. | .discard _ | .drop _ | .close => 0

/-- Gone through by age, a bulk action is the waitlist's own bulk completion. -/
theorem perform_completeAllFor (w : Waitlist α) (target : NodeId) (outcome : Outcome α) :
    let a : Action α := .completeAllFor .byAge target fun _ => outcome
    (w.removed a, w.perform a) = w.completeAllFor target outcome :=
  (completeAllFor_eq_sweep w target outcome).symm

theorem perform_completeAllGone (w : Waitlist α) (alive : NodeId → Bool)
    (outcome : NodeId → Outcome α) :
    let a : Action α := .completeAllGone .byAge alive fun e => outcome e.target
    (w.removed a, w.perform a) = w.completeAllGone alive outcome :=
  (completeAllGone_eq_sweep w alive outcome).symm

/-- Does the action drop a future that is still listed? -/
def gaveUp (w : Waitlist α) : Action α → Nat
  | .drop id => if w.contains id then 1 else 0
  | _ => 0

def lost (w : Waitlist α) : Action α → Nat
  | .close => w.size
  | _ => 0

theorem lost_of_not_closes {a : Action α} (h : a.closes = false) : w.lost a = 0 := by
  cases a with
  | close => cases h
  | _ => rfl

theorem abandoned_completeEach (l : List (FutureId × Outcome α)) :
    (w.completeEach l).2.abandoned = w.abandoned := by
  induction l generalizing w with
  | nil => rfl
  | cons x rest ih =>
    have hfirst : (w.complete x.1 x.2).2.abandoned = w.abandoned := by
      rw [complete_eq]
      split <;> rfl
    simp only [completeEach, ih, hfirst]

theorem entries_close (w : Waitlist α) : w.close.entries = [] :=
  (foldl_resolve (fun id => .error (.neverCompleted id)) w.entries { w with entries := [] }).1

theorem abandoned_close (w : Waitlist α) : w.close.abandoned = w.abandoned :=
  (foldl_resolve (fun id => .error (.neverCompleted id)) w.entries { w with entries := [] }).2.2.1

theorem Distinct.perform (h : w.Distinct last) (a : Action α) : (w.perform a).Distinct last := by
  cases a with
  | complete id outcome => exact h.complete id outcome
  | completeAllFor | completeAllGone => exact h.completeEach _
  | take id =>
    apply h.of_sublist
    rw [Waitlist.perform, entries_take]
    exact List.filter_sublist
  | finish id outcome | discard id =>
    apply h.of_sublist
    simp only [Waitlist.perform, Waitlist.discard, finish_eq]
    split <;> exact List.Sublist.refl _
  | drop id => exact h.drop id
  | close =>
    apply h.of_sublist
    rw [Waitlist.perform, entries_close]
    exact List.nil_sublist _

theorem take_won (w : Waitlist α) (id : FutureId) : (w.take id).1.isSome = w.contains id := by
  unfold take contains
  cases w.find? id <;> rfl

theorem abandoned_take (w : Waitlist α) (id : FutureId) :
    (w.take id).2.abandoned = w.abandoned := by
  unfold take
  split <;> rfl

theorem load_take (h : w.Distinct last) (id : FutureId) :
    (if w.contains id then 1 else 0) + (w.take id).2.load = w.load := by
  rw [load, load, size, size, abandoned_take, entries_take]
  by_cases hc : w.contains id
  · have hlength := length_without h.nodup (mem_of_contains hc)
    rw [if_pos hc]
    omega
  · rw [if_neg hc, without_eq_self hc]
    omega

theorem load_finish (w : Waitlist α) (id : FutureId) (outcome : Outcome α) :
    (w.finish id outcome).2.load = w.load := by
  rw [finish_eq]
  split <;> rfl

/-- Entries go away because they are taken out, or with the table. -/
theorem load_perform (h : w.Distinct last) (hload : w.load < UInt64.size) (a : Action α) :
    w.removed a + w.lost a + (w.perform a).load = w.load := by
  cases a with
  | complete id outcome =>
    have hcompleted := load_complete h id outcome
    simp only [removed, lost, perform, complete_won]
    omega
  | completeAllFor | completeAllGone =>
    have hswept := load_completeEach h
    simp only [removed, lost, perform, sweep, Nat.add_zero, hswept]
  | take id =>
    have htaken := load_take h id
    simp only [removed, lost, perform, take_won]
    omega
  | finish id outcome =>
    have hsame := load_finish w id outcome
    simp only [removed, lost, perform, hsame, Nat.zero_add]
  | discard id =>
    have hsame := load_finish w id (.error (.neverCompleted id))
    simp only [removed, lost, perform, discard, hsame, Nat.zero_add]
  | drop id =>
    have hsame := load_drop h hload id
    simp only [removed, lost, perform, hsame, Nat.zero_add]
  | close =>
    simp only [removed, lost, perform, load, size, entries_close, abandoned_close, List.length_nil]
    omega

/-- Abandoned are the futures that were dropped while they were listed. -/
theorem abandoned_perform (hload : w.load < UInt64.size) (a : Action α) :
    (w.perform a).abandoned.toNat = w.abandoned.toNat + w.gaveUp a := by
  cases a with
  | complete id outcome =>
    simp only [perform, gaveUp, complete_eq]
    split <;> rfl
  | completeAllFor | completeAllGone =>
    simp only [perform, gaveUp, sweep, abandoned_completeEach, Nat.add_zero]
  | take id =>
    simp only [perform, gaveUp, abandoned_take, Nat.add_zero]
  | finish id outcome | discard id =>
    simp only [perform, gaveUp, discard, finish_eq]
    split <;> rfl
  | drop id =>
    simp only [perform, gaveUp, drop]
    split
    · rename_i hc
      obtain ⟨e, he, -⟩ := mem_of_contains hc
      have hpos : 0 < w.entries.length := List.length_pos_of_mem he
      unfold load size at hload
      exact toNat_add_of_lt (by rw [UInt64.toNat_one]; omega)
    · rfl
  | close =>
    simp only [perform, gaveUp, abandoned_close, Nat.add_zero]

end CounterCoordinator.Waitlist
