import CounterCoordinator.Proofs.Waitlist.Registry

/-!
# The life cycle of a future

What the users of a process's waitlists can rely on. Every id that is issued is new. A registered
future that was not dropped waits with its entry in its own table, or waits while somebody holds its
entry, or is resolved. Its entry is taken out by one call only, and the future keeps the outcome
that one completion passed. And each table can account for all futures it has registered.
-/
namespace CounterCoordinator.Registry
variable {α : Nat → Type}

/-- What a run tells about the future `f` of the table `t`, which ends at the stage `s`. -/
structure Fate (ops : List (Op α)) (t : Nat) (f : FutureId) (s : Waitlist.Stage (α t)) : Prop where
  dropped : s.future? = some .dropped ↔ ∃ x ∈ trail ops, x.1.effect? t f x.2 = some .drops
  completed : ∀ o, s = .resolved o → ∃ x ∈ trail ops, x.1.effect? t f x.2 = some (.completes o)
  of_completes : ∀ o, (∃ x ∈ trail ops, x.1.effect? t f x.2 = some (.completes o)) →
    s = .resolved o ∨ s.future? = some .dropped
  final : ∀ o, (∃ x ∈ trail ops, (x.1.list t).future? f = some (.resolved o)) →
    s = .resolved o ∨ s.future? = some .dropped
  removals : (trail ops).countP (removes t f) + s.found?.isSome.toNat = s.future?.isSome.toNat
  completions : s.future? ≠ some .dropped →
    (trail ops).countP (completes t f) + s.pending.toNat = s.future?.isSome.toNat
  remover : ∀ x ∈ trail ops, removes t f x → (x.1.effect? t f x.2).isSome

section Runs
variable {ops : List (Op α)} {op : Op α} {t : Nat} {f : FutureId} {s s' : Waitlist.Stage (α t)}

theorem list_concat_act (ops : List (Op α)) (t : Nat) (a : Waitlist.Action (α t)) :
    (ofOps (ops ++ [.act t a])).list t = ((ofOps ops).list t).perform a := by
  simp [ofOps_concat, step, list]

theorem countP_trail_concat (p : Registry α × Op α → Bool) (ops : List (Op α)) (op : Op α) :
    (trail (ops ++ [op])).countP p = (trail ops).countP p + (p (ofOps ops, op)).toNat := by
  rw [trail_concat, List.countP_append, List.countP_singleton]
  cases p (ofOps ops, op) <;> rfl

theorem Fate.step (h : Fate ops t f s) (hs : ((ofOps ops).list t).Shows f s)
    (hs' : (((ofOps ops).step op).list t).Shows f s')
    (hmove : Waitlist.Stage.Move ((ofOps ops).effect? t f op) s s') :
    Fate (ops ++ [op]) t f s' := by
  have hremoves : removes t f (ofOps ops, op) = (s.found?.isSome && !s'.found?.isSome) := by
    rw [removes, hs.contains, hs'.contains]
  have hcompletes : completes t f (ofOps ops, op) =
      ((ofOps ops).effect? t f op).any Waitlist.Effect.isCompletion := rfl
  constructor
  · rw [exists_trail_concat, ← h.dropped]
    exact hmove.dropped_iff
  · intro o ho
    rw [exists_trail_concat]
    exact (hmove.completed ho).imp_left (h.completed o)
  · intro o ho
    rcases exists_trail_concat.mp ho with ho | ho
    · exact hmove.final (h.of_completes o ho)
    · simp only at ho
      rw [ho] at hmove
      exact hmove.of_completes
  · intro o ho
    rcases exists_trail_concat.mp ho with ho | ho
    · exact hmove.final (h.final o ho)
    · have hresolved : s = .resolved o := hs.eq_resolved ho
      exact hmove.final (.inl hresolved)
  · have hstep := hmove.removals
    have hbefore := h.removals
    rw [countP_trail_concat, hremoves]
    omega
  · intro hkept
    have hstep := hmove.completions hkept
    have hbefore := h.completions fun hdropped => hkept (hmove.dropped_iff.mpr (.inl hdropped))
    rw [countP_trail_concat, hcompletes]
    omega
  · intro x hx hremoved
    rw [trail_concat, List.mem_append, List.mem_singleton] at hx
    rcases hx with hx | rfl
    · exact h.remover x hx hremoved
    · rw [hremoves, Bool.and_eq_true, Bool.not_eq_true'] at hremoved
      exact hmove.effect_of_removed hremoved.1 (by simpa using hremoved.2)

theorem fate (hids : (issued ops).length < UInt64.size) (hs : ((ofOps ops).list t).Shows f s) :
    Fate ops t f s := by
  -- the stage changes along the run, so the induction is about all stages at once
  revert s
  apply run_induction (P := fun ops => ∀ s, ((ofOps ops).list t).Shows f s → Fate ops t f s)
  · intro s hs
    have hunissued : s = .unissued := hs.eq_unissued rfl
    subst hunissued
    constructor <;> simp [trail, trailFrom, Waitlist.Stage.future?, Waitlist.Stage.found?,
      Waitlist.Stage.pending, Waitlist.Stage.held]
  · intro ops op _ sound hroom ih s' hs'
    obtain ⟨s, hs⟩ := (sound.staged t).shows f
    obtain ⟨s'', hs'', hmove⟩ := sound.move hroom hs
    rw [ofOps_concat] at hs'
    have hsame := hs'.unique hs''
    subst hsame
    exact (ih s hs).step hs hs' hmove
  · exact hids

structure Balanced (ops : List (Op α)) (t : Nat) : Prop where
  accounts : (registered t ops).length =
    ((ofOps ops).list t).load + tally t Waitlist.removed ops + tally t Waitlist.lost ops
  lost : (ofOps ops).isOpen t → tally t Waitlist.lost ops = 0
  abandoned : ((ofOps ops).list t).abandoned.toNat = tally t Waitlist.gaveUp ops
  issued : (registered t ops).length ≤ (issued ops).length

theorem Balanced.step (h : Balanced ops t) (sound : (ofOps ops).Sound)
    (hids : (Registry.issued (ops ++ [op])).length < UInt64.size) : Balanced (ops ++ [op]) t := by
  have haccounts := h.accounts
  have habandoned := h.abandoned
  have hissued := h.issued
  rw [issued_concat, List.length_append] at hids
  cases hturn : (ofOps ops).turns t op with
  | enter target henters hissues hon hopen hids' htable =>
    have hload := Waitlist.load_register ((ofOps ops).list t) (ofOps ops).ids.next.1 target
    constructor
    all_goals simp only [ofOps_concat, tally_concat, registered_concat, issued_concat, list, isOpen,
      htable, hon, henters, hissues, Option.elim_none, Nat.add_zero, List.length_append,
      List.length_singleton]
    · rw [list] at hload haccounts
      omega
    · intro _
      exact h.lost hopen
    · exact habandoned
    · omega
  | act a henters hon htable =>
    -- the load is bounded by the ids, which keeps the count of abandoned futures from wrapping
    have hroom : ((ofOps ops).list t).load < UInt64.size := by omega
    have hload := Waitlist.load_perform (sound.staged t).distinct hroom a
    have hgaveUp := Waitlist.abandoned_perform hroom a
    constructor
    all_goals simp only [ofOps_concat, tally_concat, registered_concat, issued_concat, list, isOpen,
      htable, hon, henters, Option.elim_some, List.append_nil, List.length_append]
    · rw [list] at hload haccounts
      omega
    · intro hopen
      rw [Bool.and_eq_true, Bool.not_eq_true'] at hopen
      rw [h.lost hopen.1, Waitlist.lost_of_not_closes hopen.2]
    · rw [list] at hgaveUp habandoned
      omega
    · omega
  | rest henters hon htable =>
    constructor
    all_goals simp only [ofOps_concat, tally_concat, registered_concat, issued_concat, list, isOpen,
      htable, hon, henters, Option.elim_none, Nat.add_zero, List.append_nil, List.length_append]
    · exact haccounts
    · exact h.lost
    · exact habandoned
    · omega

theorem balanced (hids : (Registry.issued ops).length < UInt64.size) : Balanced ops t := by
  apply run_induction (P := fun ops => Balanced ops t)
  · exact ⟨rfl, fun _ => rfl, rfl, Nat.le_refl _⟩
  · intro ops op hids sound _ ih
    exact ih.step sound hids
  · exact hids

theorem exists_fate (hids : (issued ops).length < UInt64.size) (t : Nat) (f : FutureId) :
    ∃ s, ((ofOps ops).list t).Shows f s ∧ Fate ops t f s := by
  obtain ⟨s, hs⟩ := ((sound_ofOps hids).1.staged t).shows f
  exact ⟨s, hs, fate hids hs⟩

theorem issued_stage (hids : (issued ops).length < UInt64.size) (hf : f ∈ registered t ops)
    (hs : ((ofOps ops).list t).Shows f s) : s ≠ .unissued := by
  rintro rfl
  exact (mem_registered hids).mp hf hs.future

theorem existsUnique_stage (hids : (issued ops).length < UInt64.size)
    (hf : f ∈ registered t ops) :
    ∃! s, ((ofOps ops).list t).Shows f s ∧ s ≠ .unissued := by
  obtain ⟨s, hs, -⟩ := exists_fate hids t f
  exact ⟨s, ⟨hs, issued_stage hids hf hs⟩, fun s' hs' => hs'.1.unique hs⟩

theorem elsewhere_missing {u : Nat} (hids : (issued ops).length < UInt64.size)
    (hf : f ∈ registered t ops) (hu : u ≠ t) :
    ¬ ((ofOps ops).list u).contains f ∧ ¬ ((ofOps ops).list u).holds f := by
  obtain ⟨s, hs, -⟩ := exists_fate hids u f
  have hunknown : ((ofOps ops).list u).future? f = none := by
    by_contra hknown
    exact hu ((sound_ofOps hids).1.own u t f hknown ((mem_registered hids).mp hf))
  have hunissued := hs.eq_unissued hunknown
  subst hunissued
  rw [hs.contains, hs.held]
  exact ⟨nofun, nofun⟩

theorem resolved_iff {o : Outcome (α t)} (hids : (issued ops).length < UInt64.size)
    (hkept : ((ofOps ops).list t).future? f ≠ some .dropped) :
    ((ofOps ops).list t).future? f = some (.resolved o) ↔
      ∃ x ∈ trail ops, x.1.effect? t f x.2 = some (.completes o) := by
  obtain ⟨s, hs, hfate⟩ := exists_fate hids t f
  constructor
  · intro ho
    exact hfate.completed o (hs.eq_resolved ho)
  · intro ho
    rw [hs.future] at hkept ⊢
    rw [(hfate.of_completes o ho).resolve_right hkept]
    rfl

theorem outcome_final {o : Outcome (α t)} {x : Registry α × Op α}
    (hids : (issued ops).length < UInt64.size) (hx : x ∈ trail ops)
    (ho : (x.1.list t).future? f = some (.resolved o)) :
    ((ofOps ops).list t).future? f = some (.resolved o) ∨
      ((ofOps ops).list t).future? f = some .dropped := by
  obtain ⟨s, hs, hfate⟩ := exists_fate hids t f
  rw [hs.future]
  refine (hfate.final o ⟨x, hx, ho⟩).imp_left ?_
  rintro rfl
  rfl

theorem effect_of_remover {o : Outcome (α t)} {x : Registry α × Op α}
    (hids : (issued ops).length < UInt64.size)
    (ho : ((ofOps ops).list t).future? f = some (.resolved o)) (hx : x ∈ trail ops)
    (hremoved : removes t f x) :
    x.1.effect? t f x.2 = some (.completes o) ∨ x.1.effect? t f x.2 = some .takes := by
  obtain ⟨s, hs, hfate⟩ := exists_fate hids t f
  have hresolved := hs.eq_resolved ho
  subst hresolved
  obtain ⟨effect, heffect⟩ := Option.isSome_iff_exists.mp (hfate.remover x hx hremoved)
  rw [heffect]
  cases effect with
  | takes => exact .inr rfl
  | completes o' =>
    rcases hfate.of_completes o' ⟨x, hx, heffect⟩ with hsame | hdropped
    · cases hsame
      exact .inl rfl
    · cases hdropped
  | drops =>
    have hdropped := hfate.dropped.mpr ⟨x, hx, heffect⟩
    cases hdropped

/-- A future that was registered and kept went through one completion, or waits for it. -/
theorem completed_once (hids : (issued ops).length < UInt64.size) (hf : f ∈ registered t ops)
    (hkept : ((ofOps ops).list t).future? f ≠ some .dropped) :
    (trail ops).countP (completes t f) +
      (((ofOps ops).list t).contains f || ((ofOps ops).list t).holds f).toNat = 1 := by
  obtain ⟨s, hs, hfate⟩ := exists_fate hids t f
  rw [hs.contains, hs.held]
  rw [hs.future] at hkept
  have hissued := Waitlist.Stage.isSome_future? (issued_stage hids hf hs)
  have hcompletions := hfate.completions hkept
  rw [hissued] at hcompletions
  exact hcompletions

theorem removed_once (hids : (issued ops).length < UInt64.size) (hf : f ∈ registered t ops) :
    (trail ops).countP (removes t f) + (((ofOps ops).list t).contains f).toNat = 1 := by
  obtain ⟨s, hs, hfate⟩ := exists_fate hids t f
  rw [hs.contains]
  have hissued := Waitlist.Stage.isSome_future? (issued_stage hids hf hs)
  have hremovals := hfate.removals
  rw [hissued] at hremovals
  exact hremovals

end Runs

structure LifeCycle (ops : List (Op α)) : Prop where
  ids : noFuture ∉ issued ops ∧ (issued ops).Nodup
  /-- A future is listed, taken, resolved or dropped, and only one of these. -/
  stage : ∀ t, ∀ f ∈ registered t ops, ∃! s, ((ofOps ops).list t).Shows f s ∧ s ≠ .unissued
  elsewhere : ∀ t, ∀ f ∈ registered t ops, ∀ u, u ≠ t →
    ¬ ((ofOps ops).list u).contains f ∧ ¬ ((ofOps ops).list u).holds f
  dropped : ∀ t, ∀ f ∈ registered t ops, ((ofOps ops).list t).future? f = some .dropped ↔
    ∃ x ∈ trail ops, x.1.effect? t f x.2 = some .drops
  waiting : ∀ t, ∀ f ∈ registered t ops, ((ofOps ops).list t).future? f ≠ some .dropped →
    (((ofOps ops).list t).future? f = some .waiting ↔
      ((ofOps ops).list t).contains f ∨ ((ofOps ops).list t).holds f)
  resolved : ∀ t, ∀ f ∈ registered t ops, ((ofOps ops).list t).future? f ≠ some .dropped →
    ∀ o, ((ofOps ops).list t).future? f = some (.resolved o) ↔
      ∃ x ∈ trail ops, x.1.effect? t f x.2 = some (.completes o)
  /-- An outcome that a future had at some moment is the one it has, unless it was dropped. -/
  final : ∀ t f o, ∀ x ∈ trail ops, (x.1.list t).future? f = some (.resolved o) →
    ((ofOps ops).list t).future? f = some (.resolved o) ∨
      ((ofOps ops).list t).future? f = some .dropped
  /-- One call takes the entry out. -/
  removed : ∀ t, ∀ f ∈ registered t ops,
    (trail ops).countP (removes t f) + (((ofOps ops).list t).contains f).toNat = 1
  /-- One call completes the future. -/
  completed : ∀ t, ∀ f ∈ registered t ops, ((ofOps ops).list t).future? f ≠ some .dropped →
    (trail ops).countP (completes t f) +
      (((ofOps ops).list t).contains f || ((ofOps ops).list t).holds f).toNat = 1
  /-- The call that takes the entry of a future out completes it, or leaves that to its holder. -/
  remover : ∀ t f o, ((ofOps ops).list t).future? f = some (.resolved o) →
    ∀ x ∈ trail ops, removes t f x →
      x.1.effect? t f x.2 = some (.completes o) ∨ x.1.effect? t f x.2 = some .takes
  won : ∀ t f o, (((ofOps ops).list t).complete f o).1 = true ↔ ((ofOps ops).list t).contains f
  accounts : ∀ t, (ofOps ops).isOpen t → (registered t ops).length =
    ((ofOps ops).list t).size + ((ofOps ops).list t).abandoned.toNat + tally t Waitlist.removed ops
  abandoned : ∀ t, ((ofOps ops).list t).abandoned.toNat = tally t Waitlist.gaveUp ops
  /-- The bulk actions that go by age are the bulk completions of the table. -/
  bulkFor : ∀ t target outcome,
    let a : Waitlist.Action (α t) := .completeAllFor .byAge target fun _ => outcome
    let w := (ofOps ops).list t
    (w.removed a, (ofOps (ops ++ [.act t a])).list t) = w.completeAllFor target outcome
  bulkGone : ∀ t alive outcome,
    let a : Waitlist.Action (α t) := .completeAllGone .byAge alive fun e => outcome e.target
    let w := (ofOps ops).list t
    (w.removed a, (ofOps (ops ++ [.act t a])).list t) = w.completeAllGone alive outcome

/-- Whatever is done with the waitlists of a process, every future goes through its life cycle, as
long as ids last: see `issued_new_iff`. -/
theorem life_cycle (ops : List (Op α)) (hids : (issued ops).length < UInt64.size) :
    LifeCycle ops where
  ids := (issued_new_iff ops).mpr hids
  stage t f hf := existsUnique_stage hids hf
  elsewhere t f hf u hu := elsewhere_missing hids hf hu
  dropped t f hf := by
    obtain ⟨s, hs, hfate⟩ := exists_fate hids t f
    rw [hs.future]
    exact hfate.dropped
  waiting t f hf hkept := by
    obtain ⟨s, hs, -⟩ := exists_fate hids t f
    rw [hs.future] at hkept ⊢
    rw [hs.contains, hs.held]
    exact Waitlist.Stage.waiting_iff hkept
  resolved t f hf hkept o := resolved_iff hids hkept
  final t f o x hx ho := outcome_final hids hx ho
  removed t f hf := removed_once hids hf
  completed t f hf hkept := completed_once hids hf hkept
  remover t f o ho x hx hremoved := effect_of_remover hids ho hx hremoved
  won t f o := by rw [Waitlist.complete_won]
  accounts t hopen := by
    have hbalanced := balanced (t := t) hids
    have haccounts := hbalanced.accounts
    rw [hbalanced.lost hopen] at haccounts
    unfold Waitlist.load at haccounts
    omega
  abandoned t := (balanced hids).abandoned
  bulkFor t target outcome := by
    intro a w
    rw [list_concat_act]
    exact w.perform_completeAllFor target outcome
  bulkGone t alive outcome := by
    intro a w
    rw [list_concat_act]
    exact w.perform_completeAllGone alive outcome

/-- One table with counters, and others that acknowledge. -/
def CountersAndAcks : Nat → Type
  | 0 => Version
  | _ => Unit

/-- A future that is completed, one that is taken and outlives its table, one that is dropped; and
one of another table, where all is cancelled. -/
def oneOfEachKind : List (Op CountersAndAcks) :=
  let counter (v : Version) : Outcome (CountersAndAcks 0) := .ok v
  [.register 0 (.ofNat 2), .register 1 (.ofNat 2), .nextId, .register 0 (.ofNat 3),
    .register 0 (.ofNat 3), .act 0 (.complete 1 (counter 7)), .act 0 (.take 4), .act 0 (.drop 5),
    .act 0 .close, .act 0 (.finish 4 (counter 9)),
    .act 1 (.completeAllFor .byAge (.ofNat 2) fun e => .error (.coordinatorLost e.target))]

theorem life_cycle_oneOfEachKind :
    (issued oneOfEachKind).length < UInt64.size ∧ LifeCycle oneOfEachKind :=
  ⟨by decide, life_cycle oneOfEachKind (by decide)⟩

end CounterCoordinator.Registry
