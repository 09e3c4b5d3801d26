import CounterCoordinator.Proofs.Waitlist.Stages
import Mathlib.Data.List.Induction
import Mathlib.Logic.Function.Basic

/-!
# Waitlists that share their ids

Any number of waitlists take their ids from one source, and are used in any order. Ids are counted
up, so no two futures have the same one, and a future belongs to one waitlist only. From there on
`Stage.Move` tells its life: its entry leaves the table by one call, and one call passes the outcome
it keeps. `LifeCycle` says what this means for whoever uses the waitlists.
-/
namespace CounterCoordinator

/-- A waitlist, which registers no more requests once it was closed. -/
structure Registry.Table (α : Type) where
  list : Waitlist α := {}
  isOpen : Bool := true

structure Registry (α : Nat → Type) where
  ids : IdSource := {}
  tables : (t : Nat) → Registry.Table (α t) := fun _ => {}

namespace Registry

inductive Op (α : Nat → Type) where
  | register (t : Nat) (target : NodeId)
  /-- Somebody takes an id without registering a future. -/
  | nextId
  | act (t : Nat) (a : Waitlist.Action (α t))

variable {α : Nat → Type}

/-- What the operation does to the table `t`, registering aside. -/
def Op.on (t : Nat) : Op α → Option (Waitlist.Action (α t))
  | .act u a => if h : u = t then some (h ▸ a) else none
  | _ => none

def list (r : Registry α) (t : Nat) : Waitlist (α t) := (r.tables t).list

def isOpen (r : Registry α) (t : Nat) : Bool := (r.tables t).isOpen

def step (r : Registry α) : Op α → Registry α
  | .register t target =>
      if r.isOpen t then
        let (id, ids) := r.ids.next
        { ids, tables := Function.update r.tables t ⟨(r.list t).register id target, true⟩ }
      else r
  | .nextId => { r with ids := r.ids.next.2 }
  | .act t a =>
      { r with
        tables := Function.update r.tables t
          ⟨(r.list t).perform a, r.isOpen t && !a.closes⟩ }

def ofOps (ops : List (Op α)) : Registry α := ops.foldl step {}

def issues (r : Registry α) : Op α → List FutureId
  | .register t _ => if r.isOpen t then [r.ids.next.1] else []
  | .nextId => [r.ids.next.1]
  | .act .. => []

def enters (r : Registry α) (t : Nat) : Op α → List FutureId
  | .register u _ => if u = t ∧ r.isOpen u then [r.ids.next.1] else []
  | _ => []

def effect? (r : Registry α) (t : Nat) (f : FutureId) (op : Op α) :
    Option (Waitlist.Effect (α t)) :=
  (op.on t).bind ((r.list t).effect? f)

section Steps
variable {r : Registry α} {op : Op α} {t u : Nat} {f : FutureId}

/-- The ids suffice for one more operation. -/
def Room (r : Registry α) (op : Op α) : Prop :=
  r.ids.last.toNat + (r.issues op).length < UInt64.size

theorem ids_step (r : Registry α) (op : Op α) :
    (r.issues op = [] ∧ (r.step op).ids = r.ids) ∨
      (r.issues op = [r.ids.next.1] ∧ (r.step op).ids = r.ids.next.2) := by
  cases op with
  | register t target =>
    simp only [issues, step]
    split
    · exact .inr ⟨rfl, rfl⟩
    · exact .inl ⟨rfl, rfl⟩
  | nextId => exact .inr ⟨rfl, rfl⟩
  | act => exact .inl ⟨rfl, rfl⟩

theorem toNat_last_step (hroom : r.Room op) :
    (r.step op).ids.last.toNat = r.ids.last.toNat + (r.issues op).length := by
  unfold Room at hroom
  rcases r.ids_step op with ⟨hissues, hids⟩ | ⟨hissues, hids⟩
  · rw [hissues, hids]
    rfl
  · rw [hissues] at hroom ⊢
    rw [hids]
    exact IdSource.toNat_next hroom

inductive Turns (r : Registry α) (t : Nat) (op : Op α) : Prop where
  | enter (target : NodeId) (henters : r.enters t op = [r.ids.next.1])
      (hissues : r.issues op = [r.ids.next.1]) (hon : op.on t = none) (hopen : r.isOpen t)
      (hids : (r.step op).ids.last = r.ids.next.1)
      (htable : (r.step op).tables t = ⟨(r.list t).register r.ids.next.1 target, true⟩)
  | act (a : Waitlist.Action (α t)) (henters : r.enters t op = []) (hon : op.on t = some a)
      (htable : (r.step op).tables t = ⟨(r.list t).perform a, r.isOpen t && !a.closes⟩)
  | rest (henters : r.enters t op = []) (hon : op.on t = none)
      (htable : (r.step op).tables t = r.tables t)

theorem turns (r : Registry α) (t : Nat) (op : Op α) : r.Turns t op := by
  cases op with
  | register u target =>
    by_cases hopen : r.isOpen u
    · by_cases hu : u = t
      · subst hu
        exact .enter target (by simp [enters, hopen]) (by simp [issues, hopen]) rfl hopen
          (by simp [step, hopen, IdSource.next]) (by simp [step, hopen])
      · exact .rest (by simp [enters, hu]) rfl (by simp [step, hopen, Ne.symm hu])
    · exact .rest (by simp [enters, hopen]) rfl (by simp [step, hopen])
  | nextId => exact .rest rfl rfl rfl
  | act u a =>
    by_cases hu : u = t
    · subst hu
      exact .act a rfl (by simp [Op.on]) (by simp [step])
    · exact .rest rfl (by simp [Op.on, hu]) (by simp [step, Ne.symm hu])

theorem enters_table {g : FutureId} (ht : f ∈ r.enters t op) (hu : g ∈ r.enters u op) : t = u := by
  cases op with
  | register v target =>
    simp only [enters] at ht hu
    split at ht
    · rename_i hvt
      split at hu
      · rename_i hvu
        exact hvt.1.symm.trans hvu.1
      · cases hu
    · cases ht
  | nextId | act => cases ht

end Steps

structure Sound (r : Registry α) : Prop where
  staged : ∀ t, (r.list t).Staged r.ids.last
  own : ∀ t u f, (r.list t).future? f ≠ none → (r.list u).future? f ≠ none → t = u

namespace Sound
variable {r : Registry α} {op : Op α} {t u : Nat} {f : FutureId}

theorem new : ({} : Registry α).Sound :=
  ⟨fun _ => .new _, fun _ _ _ h => absurd rfl h⟩

theorem next_unissued (h : r.Sound) (hroom : r.ids.last.toNat + 1 < UInt64.size) (t : Nat) :
    (r.list t).future? r.ids.next.1 = none := by
  apply (h.staged t).unissued
  rw [IdSource.toNat_next hroom]
  omega

/-- Only registering makes a future known. -/
theorem known_step (h : r.Sound) (t : Nat) (op : Op α) (f : FutureId) :
    ((r.step op).list t).future? f ≠ none ↔
      (r.list t).future? f ≠ none ∨ f ∈ r.enters t op := by
  cases r.turns t op with
  | enter target henters hissues hon hopen hids htable =>
    rw [list, htable, henters, Waitlist.future?_register, List.mem_singleton]
    by_cases hf : f = r.ids.next.1 <;> simp [hf]
  | act a henters hon htable =>
    rw [list, htable, henters]
    obtain ⟨s, hs⟩ := (h.staged t).shows f
    have hafter := hs.perform (h.staged t).distinct.keyed a
    have hnone : (s.after f a).future? = none ↔ s.future? = none := by
      constructor
      · intro hnone
        have hunissued := hafter.eq_unissued (hafter.future.trans hnone)
        rw [Waitlist.Stage.after_eq_unissued hunissued]
        rfl
      · intro hnone
        have hunissued := hs.eq_unissued (hs.future.trans hnone)
        rw [hunissued, Waitlist.Stage.after_unissued]
        rfl
    simp [hafter.future, hs.future, hnone]
  | rest henters hon htable =>
    rw [list, htable, henters]
    simp [list]

theorem unissued_of_enters (h : r.Sound) (hroom : r.Room op) (hf : f ∈ r.enters t op) (u : Nat) :
    (r.list u).future? f = none := by
  cases r.turns t op with
  | enter target henters hissues =>
    rw [henters, List.mem_singleton] at hf
    unfold Room at hroom
    rw [hissues] at hroom
    exact hf ▸ h.next_unissued hroom u
  | act a henters | rest henters =>
    rw [henters] at hf
    cases hf

theorem step (h : r.Sound) (hroom : r.Room op) : (r.step op).Sound := by
  have hlast := toNat_last_step hroom
  constructor
  · intro t
    have hmono := (h.staged t).mono (Nat.le.intro hlast.symm)
    cases r.turns t op with
    | enter target henters hissues hon hopen hids htable =>
      rw [hissues] at hlast
      rw [list, htable, hids]
      rw [hids] at hlast
      exact (h.staged t).register hlast target
    | act a henters hon htable =>
      rw [list, htable]
      exact hmono.perform a
    | rest henters hon htable =>
      rw [list, htable]
      exact hmono
  · intro t u f ht hu
    rw [h.known_step] at ht hu
    rcases ht with ht | ht
    · rcases hu with hu | hu
      · exact h.own t u f ht hu
      · exact absurd (h.unissued_of_enters hroom hu t) ht
    · rcases hu with hu | hu
      · exact absurd (h.unissued_of_enters hroom ht u) hu
      · exact enters_table ht hu

/-- A step moves a future as its effect on the future says. -/
theorem move {s : Waitlist.Stage (α t)} (h : r.Sound) (hroom : r.Room op)
    (hs : (r.list t).Shows f s) :
    ∃ s', ((r.step op).list t).Shows f s' ∧ Waitlist.Stage.Move (r.effect? t f op) s s' := by
  cases r.turns t op with
  | enter target henters hissues hon hopen hids htable =>
    rw [effect?, hon, list, htable]
    by_cases hf : f = r.ids.next.1
    · have hunissued : s = .unissued :=
        hs.eq_unissued (h.unissued_of_enters hroom (by rw [henters, hf]; simp) t)
      subst hunissued
      subst hf
      exact ⟨_, hs.register_self target, .enter _⟩
    · exact ⟨s, hs.register hf target, .stay s⟩
  | act a henters hon htable =>
    rw [effect?, hon, list, htable]
    exact ⟨_, hs.perform (h.staged t).distinct.keyed a, hs.move a⟩
  | rest henters hon htable =>
    rw [effect?, hon, list, htable]
    exact ⟨s, hs, .stay s⟩

end Sound

/-! ### Runs -/

def trailFrom (r : Registry α) : List (Op α) → List (Registry α × Op α)
  | [] => []
  | op :: ops => (r, op) :: trailFrom (r.step op) ops

/-- The operations of a run, each with the registry it was applied to. -/
def trail (ops : List (Op α)) : List (Registry α × Op α) := trailFrom {} ops

def issued (ops : List (Op α)) : List FutureId := (trail ops).flatMap fun x => x.1.issues x.2

/-- The futures that the table `t` has registered, oldest first. -/
def registered (t : Nat) (ops : List (Op α)) : List FutureId :=
  (trail ops).flatMap fun x => x.1.enters t x.2

/-- Does the operation take the entry of `f` out of the table? -/
def removes (t : Nat) (f : FutureId) (x : Registry α × Op α) : Bool :=
  (x.1.list t).contains f && !((x.1.step x.2).list t).contains f

def completes (t : Nat) (f : FutureId) (x : Registry α × Op α) : Bool :=
  (x.1.effect? t f x.2).any Waitlist.Effect.isCompletion

/-- Add up what the actions on the table `t` count. -/
def tally (t : Nat) (count : Waitlist (α t) → Waitlist.Action (α t) → Nat) (ops : List (Op α)) :
    Nat :=
  (trail ops).foldl (fun n x => n + (x.2.on t).elim 0 (count (x.1.list t))) 0

section Runs
variable {ops : List (Op α)} {op : Op α} {t : Nat} {f : FutureId}

theorem ofOps_concat (ops : List (Op α)) (op : Op α) : ofOps (ops ++ [op]) = (ofOps ops).step op :=
  List.foldl_append

theorem trailFrom_concat (r : Registry α) (ops : List (Op α)) (op : Op α) :
    trailFrom r (ops ++ [op]) = trailFrom r ops ++ [(ops.foldl step r, op)] := by
  induction ops generalizing r with
  | nil => rfl
  | cons first rest ih => exact congrArg ((r, first) :: ·) (ih (r.step first))

theorem trail_concat (ops : List (Op α)) (op : Op α) :
    trail (ops ++ [op]) = trail ops ++ [(ofOps ops, op)] :=
  trailFrom_concat {} ops op

theorem issued_concat (ops : List (Op α)) (op : Op α) :
    issued (ops ++ [op]) = issued ops ++ (ofOps ops).issues op := by
  simp [issued, trail_concat]

theorem registered_concat (t : Nat) (ops : List (Op α)) (op : Op α) :
    registered t (ops ++ [op]) = registered t ops ++ (ofOps ops).enters t op := by
  simp [registered, trail_concat]

theorem tally_concat (count : Waitlist (α t) → Waitlist.Action (α t) → Nat) (ops : List (Op α))
    (op : Op α) :
    tally t count (ops ++ [op]) =
      tally t count ops + (op.on t).elim 0 (count ((ofOps ops).list t)) := by
  simp [tally, trail_concat]

theorem exists_trail_concat {P : Registry α × Op α → Prop} :
    (∃ x ∈ trail (ops ++ [op]), P x) ↔ (∃ x ∈ trail ops, P x) ∨ P (ofOps ops, op) := by
  simp only [trail_concat, List.mem_append, List.mem_singleton, or_and_right, exists_or,
    exists_eq_left]

theorem room_of_length (hlast : (ofOps ops).ids.last.toNat = (issued ops).length)
    (hids : (issued ops).length + ((ofOps ops).issues op).length < UInt64.size) :
    (ofOps ops).Room op := by
  unfold Room
  rw [hlast]
  exact hids

theorem sound_ofOps (hids : (issued ops).length < UInt64.size) :
    (ofOps ops).Sound ∧ (ofOps ops).ids.last.toNat = (issued ops).length := by
  induction ops using List.reverseRecOn with
  | nil => exact ⟨.new, rfl⟩
  | append_singleton ops op ih =>
    rw [issued_concat, List.length_append] at hids ⊢
    obtain ⟨sound, hlast⟩ := ih (by omega)
    have hroom := room_of_length hlast hids
    rw [ofOps_concat, toNat_last_step hroom, hlast]
    exact ⟨sound.step hroom, rfl⟩

/-- What every step of a run keeps, as long as the ids last. -/
theorem run_induction {P : List (Op α) → Prop} (nil : P [])
    (concat : ∀ ops op, (issued (ops ++ [op])).length < UInt64.size → (ofOps ops).Sound →
      (ofOps ops).Room op → P ops → P (ops ++ [op]))
    (hids : (issued ops).length < UInt64.size) : P ops := by
  induction ops using List.reverseRecOn with
  | nil => exact nil
  | append_singleton ops op ih =>
    have hall := hids
    rw [issued_concat, List.length_append] at hids
    have hbefore : (issued ops).length < UInt64.size := by omega
    obtain ⟨sound, hlast⟩ := sound_ofOps hbefore
    exact concat ops op hall sound (room_of_length hlast hids) (ih hbefore)

/-- Ids are counted up from one, and wrap around when they run out. -/
theorem issued_eq_range (ops : List (Op α)) :
    issued ops = (List.range' 1 (issued ops).length).map UInt64.ofNat ∧
      (ofOps ops).ids.last = UInt64.ofNat (issued ops).length := by
  induction ops using List.reverseRecOn with
  | nil => exact ⟨rfl, rfl⟩
  | append_singleton ops op ih =>
    obtain ⟨hbefore, hlast⟩ := ih
    rw [issued_concat, ofOps_concat]
    rcases (ofOps ops).ids_step op with ⟨hissues, hids⟩ | ⟨hissues, hids⟩
    · rw [hissues, hids, List.append_nil]
      exact ⟨hbefore, hlast⟩
    · have hnext : (ofOps ops).ids.next.1 = UInt64.ofNat ((issued ops).length + 1) := by
        rw [UInt64.ofNat_add, ← hlast]
        rfl
      rw [hissues, hids, List.length_append, List.length_singleton]
      refine ⟨?_, hnext⟩
      rw [List.range'_concat, List.map_append, ← hbefore, hnext]
      simp [Nat.add_comm]

/-- Ids are new, and none of them is the one that names no future, as long as they last and no
longer. -/
theorem issued_new_iff (ops : List (Op α)) :
    noFuture ∉ issued ops ∧ (issued ops).Nodup ↔ (issued ops).length < UInt64.size := by
  obtain ⟨hissued, -⟩ := issued_eq_range ops
  generalize (issued ops).length = n at hissued ⊢
  rw [hissued]
  constructor
  · -- with all 64-bit ids used up, the source is back at zero
    rintro ⟨hnew, -⟩
    by_contra hlong
    apply hnew
    have hmem : UInt64.size ∈ List.range' 1 n := List.mem_range'_1.mpr ⟨by decide, by omega⟩
    have hwrapped : UInt64.ofNat UInt64.size = noFuture := by decide
    exact hwrapped ▸ List.mem_map_of_mem hmem
  · intro hids
    have htoNat : ∀ k ∈ List.range' 1 n, (UInt64.ofNat k).toNat = k := by
      intro k hk
      have hk' := List.mem_range'_1.mp hk
      exact UInt64.toNat_ofNat_of_lt' (by omega)
    constructor
    · intro hzero
      obtain ⟨k, hk, hkzero⟩ := List.mem_map.mp hzero
      have hk' := (List.mem_range'_1.mp hk).1
      have hsame := htoNat k hk
      rw [hkzero] at hsame
      have hnone : noFuture.toNat = 0 := rfl
      omega
    · refine List.Nodup.map_on ?_ List.nodup_range'
      intro j hj k hk hsame
      rw [← htoNat j hj, ← htoNat k hk, hsame]

theorem mem_registered (hids : (issued ops).length < UInt64.size) :
    f ∈ registered t ops ↔ ((ofOps ops).list t).future? f ≠ none := by
  apply run_induction (P := fun ops => f ∈ registered t ops ↔
    ((ofOps ops).list t).future? f ≠ none)
  · simp [registered, trail, trailFrom, ofOps, list, Waitlist.future?]
  · intro ops op _ sound _ ih
    rw [registered_concat, List.mem_append, ih, ofOps_concat, sound.known_step]
  · exact hids

end Runs

end Registry
end CounterCoordinator
