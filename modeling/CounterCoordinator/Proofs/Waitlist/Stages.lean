import CounterCoordinator.Proofs.Waitlist.Actions

/-!
# The stages of a future

A future that was issued is listed, its entry waiting in the table; or taken, its entry held by
somebody; or resolved; or dropped by its caller. `Shows` reads the stage off the waitlist, and
`Stage.after` says where an action leads from a stage. `Shows.perform` proves that this is what the
action does to every future at once, whatever stages the others are in. So what can become of a
future is told by the stages alone.
-/
namespace CounterCoordinator.Waitlist

inductive Stage (α : Type) where
  | unissued
  | listed (e : Entry)
  | taken
  | resolved (outcome : Outcome α)
  /-- Dropped by its caller, which does not keep others from holding its entry. -/
  | dropped (held : Bool)

namespace Stage
variable {α : Type}

/-- What the caller sees. -/
def future? : Stage α → Option (Future α)
  | unissued => none
  | listed _ | taken => some .waiting
  | resolved outcome => some (.resolved outcome)
  | dropped _ => some .dropped

def found? : Stage α → Option Entry
  | listed e => some e
  | _ => none

def held : Stage α → Bool
  | taken => true
  | dropped held => held
  | _ => false

def sweep (picks : Entry → Bool) (outcome : Entry → Outcome α) : Stage α → Stage α
  | listed e => if picks e then resolved (outcome e) else listed e
  | s => s

def settle (outcome : Outcome α) : Stage α → Stage α
  | listed _ => resolved outcome
  | s => s

def take : Stage α → Stage α
  | listed _ => taken
  | s => s

def finish (outcome : Outcome α) : Stage α → Stage α
  | taken => resolved outcome
  | dropped _ => dropped false
  | s => s

def drop : Stage α → Stage α
  | unissued => unissued
  | taken => dropped true
  | dropped held => dropped held
  | listed _ | resolved _ => dropped false

def after (f : FutureId) (s : Stage α) : Action α → Stage α
  | .complete id outcome => if id = f then s.settle outcome else s
  | .completeAllFor _ target outcome => s.sweep (fun e => e.target == target) outcome
  | .completeAllGone _ alive outcome => s.sweep (fun e => !alive e.target) outcome
  | .take id => if id = f then s.take else s
  | .finish id outcome => if id = f then s.finish outcome else s
  | .discard id => if id = f then s.finish (.error (.neverCompleted f)) else s
  | .drop id => if id = f then s.drop else s
  | .close => s.settle (.error (.neverCompleted f))

/-- Somebody can still complete the future. -/
def pending (s : Stage α) : Bool := s.found?.isSome || s.held

theorem waiting_iff {s : Stage α} (hkept : s.future? ≠ some .dropped) :
    s.future? = some .waiting ↔ s.found?.isSome ∨ s.held := by
  cases s <;> simp_all [future?, found?, held]

theorem isSome_future? {s : Stage α} (h : s ≠ unissued) : s.future?.isSome = true := by
  cases s <;> first | rfl | exact absurd rfl h

@[simp] theorem after_unissued (f : FutureId) (a : Action α) :
    (unissued : Stage α).after f a = unissued := by
  cases a <;> simp [after, settle, sweep, take, finish, drop]

theorem after_eq_unissued {f : FutureId} {s : Stage α} {a : Action α}
    (h : s.after f a = unissued) : s = unissued := by
  cases a <;> cases s <;> grind [after, settle, sweep, take, finish, drop]

end Stage

variable {α : Type} {w w' : Waitlist α} {f : FutureId} {s : Stage α}

structure Shows (w : Waitlist α) (f : FutureId) (s : Stage α) : Prop where
  future : w.future? f = s.future?
  entry : w.find? f = s.found?
  held : w.holds f = s.held

namespace Shows

theorem contains (h : w.Shows f s) : w.contains f = s.found?.isSome := by
  rw [Waitlist.contains, h.entry]

theorem unique {s' : Stage α} (h : w.Shows f s) (h' : w.Shows f s') : s = s' := by
  have hfuture := h.future.symm.trans h'.future
  have hentry := h.entry.symm.trans h'.entry
  have hheld := h.held.symm.trans h'.held
  cases s <;> cases s' <;> simp_all [Stage.future?, Stage.found?, Stage.held]

theorem of_same (h : w.Shows f s) (hfuture : w'.future? f = w.future? f)
    (hentry : w'.find? f = w.find? f) (hheld : w'.holds f = w.holds f) : w'.Shows f s :=
  ⟨hfuture.trans h.future, hentry.trans h.entry, hheld.trans h.held⟩

theorem eq_unissued (h : w.Shows f s) (hnone : w.future? f = none) : s = .unissued := by
  have hfuture := h.future.symm.trans hnone
  cases s <;> simp_all [Stage.future?]

theorem eq_resolved {o : Outcome α} (h : w.Shows f s) (ho : w.future? f = some (.resolved o)) :
    s = .resolved o := by
  have hfuture := h.future.symm.trans ho
  cases s <;> simp_all [Stage.future?]

theorem register {id : FutureId} (h : w.Shows f s) (hne : f ≠ id) (target : NodeId) :
    (w.register id target).Shows f s := by
  apply h.of_same
  · rw [future?_register, if_neg hne]
  · simp [find?, Waitlist.register, List.find?_append, Ne.symm hne]
  · rfl

theorem register_self (h : w.Shows f .unissued) (target : NodeId) :
    (w.register f target).Shows f (.listed ⟨f, target⟩) := by
  constructor
  · rw [future?_register, if_pos rfl]
    rfl
  · have hnone : w.entries.find? (fun e => e.id == f) = none := h.entry
    simp [find?, Waitlist.register, List.find?_append, hnone, Stage.found?]
  · exact h.held

theorem complete (h : w.Shows f s) (id : FutureId) (outcome : Outcome α) :
    (w.complete id outcome).2.Shows f (if id = f then s.settle outcome else s) := by
  by_cases hid : id = f
  · subst hid
    rw [if_pos rfl]
    cases s with
    | listed e =>
      have hc : w.contains id := by
        rw [h.contains]
        rfl
      constructor
      · rw [future?_complete, if_pos ⟨rfl, hc⟩, h.future]
        rfl
      · rw [find?_of_without (entries_complete ..), if_pos rfl]
        rfl
      · rw [complete_eq, if_pos hc, holds, any_without]
        simp [Stage.held, Stage.settle]
    | unissued | taken | resolved | dropped =>
      have hmissing : ¬ w.contains id := by
        rw [h.contains]
        simp [Stage.found?]
      rw [complete_eq, if_neg hmissing]
      exact h
  · rw [if_neg hid]
    have hf : f ≠ id := Ne.symm hid
    apply h.of_same
    · rw [future?_complete, if_neg fun h => hf h.1]
    · rw [find?_of_without (entries_complete ..), if_neg hf]
    · rw [complete_eq]
      split
      · rw [holds, any_without]
        simp [hf, holds]
      · rfl

theorem completeEach (h : w.Shows f s) (l : List (FutureId × Outcome α)) :
    (w.completeEach l).2.Shows f
      (l.foldl (fun s x => if x.1 = f then s.settle x.2 else s) s) := by
  induction l generalizing w s with
  | nil => exact h
  | cons x rest ih => exact ih (h.complete x.1 x.2)

/-- A future that is not listed ignores completions. -/
theorem foldl_settle_of_not_listed (hs : s.found? = none) (l : List (FutureId × Outcome α)) :
    l.foldl (fun s x => if x.1 = f then s.settle x.2 else s) s = s := by
  induction l with
  | nil => rfl
  | cons x rest ih =>
    have hsame : s.settle x.2 = s := by
      cases s <;> first | rfl | cases hs
    rw [List.foldl_cons, hsame, ite_self]
    exact ih

/-- A listed future is settled by the first completion meant for it. -/
theorem foldl_settle_listed {e : Entry} (picks : Entry → Bool) (outcome : Entry → Outcome α)
    (l : List Entry) (hl : ∀ x ∈ l, x.id = e.id → x = e) :
    ((l.filter picks).map fun x => (x.id, outcome x)).foldl
        (fun s x => if x.1 = e.id then s.settle x.2 else s) (Stage.listed e) =
      if picks e ∧ e ∈ l then .resolved (outcome e) else .listed e := by
  induction l with
  | nil => simp
  | cons x rest ih =>
    have hrest := ih fun y hy => hl y (List.mem_cons_of_mem _ hy)
    by_cases hx : x.id = e.id
    · -- the one completion for `e`: if it is picked, the rest finds the future resolved
      have hxe : x = e := hl x List.mem_cons_self hx
      subst hxe
      by_cases hpicked : picks x
      · rw [List.filter_cons_of_pos hpicked, List.map_cons, List.foldl_cons, if_pos rfl]
        rw [foldl_settle_of_not_listed rfl, if_pos ⟨hpicked, List.mem_cons_self⟩]
        rfl
      · rw [List.filter_cons_of_neg hpicked, hrest, if_neg fun h => hpicked h.1,
          if_neg fun h => hpicked h.1]
    · have hne : e ≠ x := fun h => hx (congrArg Entry.id h.symm)
      have hmem : e ∈ x :: rest ↔ e ∈ rest := by simp [hne]
      simp only [hmem, ← hrest, List.filter_cons]
      split
      · rw [List.map_cons, List.foldl_cons, if_neg hx]
      · rfl

theorem sweep (hkeyed : w.Keyed) (h : w.Shows f s) (order : Enumeration) (picks : Entry → Bool)
    (outcome : Entry → Outcome α) :
    (w.sweep order picks outcome).2.Shows f (s.sweep picks outcome) := by
  have hswept := h.completeEach
    (((order.arrange w.entries).filter picks).map fun e => (e.id, outcome e))
  cases s with
  | listed e =>
    have hfound : w.entries.find? (fun e => e.id == f) = some e := h.entry
    have hid : e.id = f := by simpa using List.find?_some hfound
    have hmem : e ∈ w.entries := List.mem_of_find?_eq_some hfound
    have harranged : ∀ x, x ∈ order.arrange w.entries ↔ x ∈ w.entries :=
      fun x => (order.perm w.entries).mem_iff
    subst hid
    -- ids are distinct, so no other entry that is picked can settle this future
    rw [foldl_settle_listed picks outcome] at hswept
    · simpa [harranged, hmem, Stage.sweep, Waitlist.sweep] using hswept
    · intro x hx hid
      exact hkeyed.eq_of_id ((harranged x).mp hx) hmem hid
  | unissued | taken | resolved | dropped =>
    rw [foldl_settle_of_not_listed rfl] at hswept
    exact hswept

theorem take (h : w.Shows f s) (id : FutureId) :
    (w.take id).2.Shows f (if id = f then s.take else s) := by
  have hentry := find?_of_without (entries_take w id) f
  have hheld := holds_take w id f
  by_cases hid : id = f
  · subst hid
    rw [if_pos rfl] at hentry ⊢
    rw [h.contains, h.held] at hheld
    constructor
    · rw [future?_take, h.future]
      cases s <;> rfl
    · rw [hentry]
      cases s <;> rfl
    · rw [hheld]
      cases s <;> simp [Stage.take, Stage.found?, Stage.held]
  · rw [if_neg hid]
    rw [if_neg (Ne.symm hid)] at hentry
    rw [beq_false_of_ne hid, Bool.false_and, Bool.false_or] at hheld
    exact h.of_same (future?_take ..) hentry hheld

theorem finish (h : w.Shows f s) (id : FutureId) (outcome : Outcome α) :
    (w.finish id outcome).2.Shows f (if id = f then s.finish outcome else s) := by
  rw [finish_eq]
  by_cases hid : id = f
  · subst hid
    rw [if_pos rfl, h.held]
    have finished (hs : s.held = true) :
        ({ w with held := without id w.held }.resolve id outcome).Shows id (s.finish outcome) := by
      have hfuture : w.futures.lookup id = s.future? := h.future
      constructor
      · rw [future?_resolve, if_pos rfl, future?, hfuture]
        cases s <;> simp_all [Stage.held, Stage.future?, Stage.finish, Future.resolve]
      · have hentry : ({ w with held := without id w.held }.resolve id outcome).find? id =
            s.found? := h.entry
        rw [hentry]
        cases s <;> simp_all [Stage.held, Stage.found?, Stage.finish]
      · have hheld :
            ({ w with held := without id w.held }.resolve id outcome).holds id = false := by
          simp [holds, Waitlist.resolve, any_without]
        rw [hheld]
        cases s <;> simp_all [Stage.held, Stage.finish]
    cases hs : s.held with
    | true => exact finished hs
    | false =>
      have hsame : s.finish outcome = s := by
        cases s <;> simp_all [Stage.held, Stage.finish]
      rw [hsame]
      exact h
  · rw [if_neg hid]
    have hf : f ≠ id := Ne.symm hid
    split
    · apply h.of_same
      · rw [future?_resolve, if_neg hf]
        rfl
      · rfl
      · simp [holds, Waitlist.resolve, any_without, hf]
    · exact h

theorem drop (h : w.Shows f s) (id : FutureId) :
    (w.drop id).Shows f (if id = f then s.drop else s) := by
  have hfuture := future?_drop w id f
  have hentry := find?_of_without (entries_drop w id) f
  have hheld : (w.drop id).holds f = w.holds f := by
    unfold Waitlist.drop
    split <;> rfl
  by_cases hid : id = f
  · subst hid
    rw [if_pos rfl] at hfuture hentry ⊢
    constructor
    · rw [hfuture, h.future]
      cases s <;> rfl
    · rw [hentry]
      cases s <;> rfl
    · rw [hheld, h.held]
      cases s <;> rfl
  · rw [if_neg hid]
    rw [if_neg (Ne.symm hid)] at hfuture hentry
    exact h.of_same hfuture hentry hheld

theorem close (h : w.Shows f s) : w.close.Shows f (s.settle (.error (.neverCompleted f))) := by
  obtain ⟨hentries, hheld, -, hfuture⟩ := foldl_resolve
    (fun id => (.error (.neverCompleted id) : Outcome α)) w.entries { w with entries := [] }
  have hlisted : w.entries.any (fun e => e.id == f) = s.found?.isSome := by
    rw [← h.contains, ← List.isSome_find?]
    rfl
  constructor
  · have hclosed : w.close.future? f = _ := hfuture f
    have hbefore : Waitlist.future? { w with entries := [] } f = s.future? := h.future
    rw [hclosed, hlisted, hbefore]
    cases s <;> rfl
  · have hnone : w.close.find? f = none := by
      rw [find?, Waitlist.close, hentries]
      rfl
    rw [hnone]
    cases s <;> rfl
  · have hsame : w.close.holds f = w.holds f := by
      rw [holds, Waitlist.close, hheld]
      rfl
    rw [hsame, h.held]
    cases s <;> rfl

/-- An action leads every future from the stage it is at to the next one. -/
theorem perform (hkeyed : w.Keyed) (h : w.Shows f s) (a : Action α) :
    (w.perform a).Shows f (s.after f a) := by
  cases a with
  | complete id outcome => exact h.complete id outcome
  | completeAllFor order target outcome => exact h.sweep hkeyed order _ outcome
  | completeAllGone order alive outcome => exact h.sweep hkeyed order _ outcome
  | take id => exact h.take id
  | finish id outcome => exact h.finish id outcome
  | discard id =>
    have hdiscarded := h.finish id (.error (.neverCompleted id))
    by_cases hid : id = f
    · subst hid
      exact hdiscarded
    · rw [Stage.after, if_neg hid]
      rwa [if_neg hid] at hdiscarded
  | drop id => exact h.drop id
  | close => exact h.close

end Shows

inductive Effect (α : Type) where
  | takes
  | completes (outcome : Outcome α)
  | drops

/-- What the action does to the future `f`, and which outcome it passes. -/
def effect? (w : Waitlist α) (f : FutureId) : Action α → Option (Effect α)
  | .complete id outcome => if id = f ∧ w.contains f then some (.completes outcome) else none
  | .completeAllFor _ target outcome =>
      ((w.find? f).filter fun e => e.target == target).map fun e => .completes (outcome e)
  | .completeAllGone _ alive outcome =>
      ((w.find? f).filter fun e => !alive e.target).map fun e => .completes (outcome e)
  | .take id => if id = f ∧ w.contains f then some .takes else none
  | .finish id outcome => if id = f ∧ w.holds f then some (.completes outcome) else none
  | .discard id =>
      if id = f ∧ w.holds f then some (.completes (.error (.neverCompleted f))) else none
  | .drop id => if id = f ∧ (w.future? f).isSome then some .drops else none
  | .close => if w.contains f then some (.completes (.error (.neverCompleted f))) else none

/-- The life of a future, move by move. A future dropped while its entry is held stays dropped when
the entry is completed. -/
inductive Stage.Move : Option (Effect α) → Stage α → Stage α → Prop where
  | enter (e : Entry) : Move none .unissued (.listed e)
  | stay (s : Stage α) : Move none s s
  | take (e : Entry) : Move (some .takes) (.listed e) .taken
  | complete (e : Entry) (o : Outcome α) : Move (some (.completes o)) (.listed e) (.resolved o)
  | finish (o : Outcome α) : Move (some (.completes o)) .taken (.resolved o)
  | finishDropped (o : Outcome α) :
      Move (some (.completes o)) (.dropped true) (.dropped false)
  | drop (s : Stage α) (issued : s ≠ .unissued) : Move (some .drops) s s.drop

def Effect.isCompletion : Effect α → Bool
  | completes _ => true
  | takes | drops => false

namespace Stage.Move
variable {effect? : Option (Effect α)} {s' : Stage α}

/-- Dropped stays dropped, and nothing else makes a future so. -/
theorem dropped_iff (h : Move effect? s s') :
    s'.future? = some .dropped ↔ s.future? = some .dropped ∨ effect? = some .drops := by
  cases h with
  | drop s issued => cases s <;> simp_all [future?, Stage.drop]
  | enter | stay | take | complete | finish | finishDropped => simp [future?]

theorem completed {o : Outcome α} (h : Move effect? s s') (hs' : s' = .resolved o) :
    s = .resolved o ∨ effect? = some (.completes o) := by
  cases h with
  | drop s issued => cases s <;> cases hs'
  | enter | take | finishDropped => cases hs'
  | stay => exact .inl hs'
  | complete | finish =>
    cases hs'
    exact .inr rfl

theorem of_completes {o : Outcome α} (h : Move (some (.completes o)) s s') :
    s' = .resolved o ∨ s'.future? = some .dropped := by
  cases h with
  | complete | finish => exact .inl rfl
  | finishDropped => exact .inr rfl

/-- A value never changes, though its caller may drop the future. -/
theorem final {o : Outcome α} (h : Move effect? s s')
    (hs : s = .resolved o ∨ s.future? = some .dropped) :
    s' = .resolved o ∨ s'.future? = some .dropped := by
  rcases hs with rfl | hs
  · cases h with
    | stay => exact .inl rfl
    | drop => exact .inr rfl
  · exact .inr (h.dropped_iff.mpr (.inl hs))

/-- An entry enters the table once and leaves it once. -/
theorem removals (h : Move effect? s s') :
    (s.found?.isSome && !s'.found?.isSome).toNat + s'.found?.isSome.toNat + s.future?.isSome.toNat =
      s.found?.isSome.toNat + s'.future?.isSome.toNat := by
  cases h with
  | drop s issued => cases s <;> simp_all [future?, found?, Stage.drop]
  | stay => cases s.found? <;> simp
  | enter | take | complete | finish | finishDropped => simp [future?, found?]

theorem effect_of_removed (h : Move effect? s s') (hs : s.found?.isSome) (hs' : s'.found? = none) :
    effect?.isSome := by
  cases h with
  | stay => simp [hs'] at hs
  | enter => cases hs'
  | take | complete | finish | finishDropped | drop => rfl

/-- A future that is kept is completed once, and pending before. -/
theorem completions (h : Move effect? s s') (hkept : s'.future? ≠ some .dropped) :
    (effect?.any Effect.isCompletion).toNat + s'.pending.toNat + s.future?.isSome.toNat =
      s.pending.toNat + s'.future?.isSome.toNat := by
  cases h with
  | drop s issued => cases s <;> simp_all [future?, Stage.drop]
  | finishDropped => exact absurd rfl hkept
  | stay => simp
  | enter | take | complete | finish =>
    simp [future?, pending, found?, held, Effect.isCompletion]

end Stage.Move

theorem Stage.Move.sweep (s : Stage α) (picks : Entry → Bool) (outcome : Entry → Outcome α) :
    Move ((s.found?.filter picks).map fun e => .completes (outcome e)) s
      (s.sweep picks outcome) := by
  cases s with
  | listed e =>
    cases hpicked : picks e
    · simpa [found?, Stage.sweep, Option.filter, hpicked] using Move.stay _
    · simpa [found?, Stage.sweep, Option.filter, hpicked] using Move.complete e _
  | unissued | taken | resolved | dropped => exact .stay _

/-- An action moves every future as its effect on the future says. -/
theorem Shows.move (h : w.Shows f s) (a : Action α) :
    Stage.Move (w.effect? f a) s (s.after f a) := by
  have hfuture := h.future
  have hcontains := h.contains
  have hheld := h.held
  cases a with
  | complete id outcome | finish id outcome | take id | drop id | discard id =>
    by_cases hid : id = f
    · subst hid
      simp only [effect?, Stage.after, hfuture, hcontains, hheld]
      cases s with
      | dropped held => cases held <;> constructor <;> nofun
      | unissued | listed | taken | resolved => constructor <;> nofun
    · simpa [effect?, Stage.after, hid] using Stage.Move.stay s
  | completeAllFor | completeAllGone =>
    rw [effect?, h.entry]
    exact .sweep s _ _
  | close =>
    rw [effect?, hcontains]
    cases s <;> constructor

structure Staged (w : Waitlist α) (last : FutureId) : Prop where
  distinct : w.Distinct last
  shows : ∀ f, ∃ s, w.Shows f s
  issued : ∀ f, w.future? f ≠ none → 0 < f.toNat ∧ f.toNat ≤ last.toNat

namespace Staged
variable {last : FutureId}

theorem new (last : FutureId) : ({} : Waitlist α).Staged last := by
  refine ⟨⟨List.nodup_nil, by simp⟩, fun f => ⟨.unissued, rfl, rfl, rfl⟩, ?_⟩
  intro f hf
  exact absurd rfl hf

theorem mono {last' : FutureId} (h : w.Staged last) (hle : last.toNat ≤ last'.toNat) :
    w.Staged last' := by
  refine ⟨h.distinct.mono hle, h.shows, ?_⟩
  intro f hf
  obtain ⟨hpos, hf⟩ := h.issued f hf
  exact ⟨hpos, Nat.le_trans hf hle⟩

theorem unissued {id : FutureId} (h : w.Staged last) (hid : last.toNat < id.toNat) :
    w.future? id = none := by
  by_contra hknown
  have hle := (h.issued id hknown).2
  omega

theorem register {id : FutureId} (h : w.Staged last) (hid : id.toNat = last.toNat + 1)
    (target : NodeId) : (w.register id target).Staged id := by
  have hfresh : last.toNat < id.toNat := by omega
  have hnone := h.unissued hfresh
  refine ⟨h.distinct.register hid target, ?_, ?_⟩
  · intro f
    obtain ⟨s, hs⟩ := h.shows f
    by_cases hf : f = id
    · subst hf
      have hunissued := hs.eq_unissued hnone
      subst hunissued
      exact ⟨_, hs.register_self target⟩
    · exact ⟨s, hs.register hf target⟩
  · intro f hf
    rw [future?_register] at hf
    by_cases hid' : f = id
    · subst hid'
      omega
    · rw [if_neg hid'] at hf
      have hissued := h.issued f hf
      omega

theorem perform (h : w.Staged last) (a : Action α) : (w.perform a).Staged last := by
  refine ⟨h.distinct.perform a, ?_, ?_⟩
  · intro f
    obtain ⟨s, hs⟩ := h.shows f
    exact ⟨_, hs.perform h.distinct.keyed a⟩
  · intro f hf
    apply h.issued f
    intro hnone
    obtain ⟨s, hs⟩ := h.shows f
    have hunissued := hs.eq_unissued hnone
    subst hunissued
    have hafter := hs.perform h.distinct.keyed a
    rw [Stage.after_unissued] at hafter
    exact hf hafter.future

end Staged

end CounterCoordinator.Waitlist
