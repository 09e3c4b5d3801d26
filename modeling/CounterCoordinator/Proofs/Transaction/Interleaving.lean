import CounterCoordinator.Proofs.Fresh
import CounterCoordinator.Transaction
import Mathlib.Data.List.Nodup
import Mathlib.Logic.Function.Basic

/-!
# Identifiers of several generators

Several generators are called in any interleaving, under any versions. Each of them hands out what
it would hand out alone. So its identifiers compare by version and then by call order, and since no
two generators write the same join order into theirs, no identifier is handed out twice.
-/
namespace CounterCoordinator.TxId
variable {ι β : Type} [DecidableEq ι] {gens : ι → Generator} {g : Generator}
  {calls : List (ι × UInt64)} {versions : List UInt64} {a b : TxId} {i : ι} {p q : Nat}

/-- The identifiers for a row of calls. Each call says the generator and the version, and each
identifier comes with its generator. -/
def interleave (gens : ι → Generator) : List (ι × UInt64) → List (ι × TxId)
  | [] => []
  | (i, version) :: calls =>
      let (t, g) := (gens i).next version
      (i, t) :: interleave (Function.update gens i g) calls

def own (i : ι) (l : List (ι × β)) : List β :=
  (l.filter fun x => x.1 = i).map Prod.snd

theorem mem_own {l : List (ι × β)} {x : β} : x ∈ own i l ↔ (i, x) ∈ l := by
  simp [own]

theorem own_cons_self (i : ι) (x : β) (l : List (ι × β)) : own i ((i, x) :: l) = x :: own i l := by
  simp [own]

theorem own_cons_of_ne {j : ι} (h : j ≠ i) (x : β) (l : List (ι × β)) :
    own i ((j, x) :: l) = own i l := by
  simp [own, h]

/-- Where nothing goes with two generators, it is enough that each has no duplicates of its own. -/
theorem nodup_of_own {l : List (ι × β)} (hown : ∀ i, (own i l).Nodup)
    (hone : ∀ x ∈ l, ∀ y ∈ l, x.2 = y.2 → x.1 = y.1) : (l.map Prod.snd).Nodup := by
  induction l with
  | nil => exact List.nodup_nil
  | cons x l ih =>
    obtain ⟨i, x⟩ := x
    rw [List.map_cons, List.nodup_cons]
    constructor
    · intro hmem
      obtain ⟨⟨j, y⟩, hy, rfl⟩ := List.mem_map.mp hmem
      have hsame : i = j := hone _ List.mem_cons_self _ (List.mem_cons_of_mem _ hy) rfl
      subst hsame
      have hfirst := hown i
      rw [own_cons_self, List.nodup_cons] at hfirst
      exact hfirst.1 (mem_own.mpr hy)
    · refine ih (fun j => (hown j).sublist ?_) fun y hy z hz => ?_
      · exact ((List.sublist_cons_self ..).filter _).map _
      · exact hone y (List.mem_cons_of_mem _ hy) z (List.mem_cons_of_mem _ hz)

/-- The others do not matter: a generator hands out what it would hand out alone. -/
theorem own_interleave (gens : ι → Generator) (calls : List (ι × UInt64)) (i : ι) :
    own i (interleave gens calls) = ((gens i).run (own i calls)).1 := by
  induction calls generalizing gens with
  | nil => rfl
  | cons call calls ih =>
    obtain ⟨j, version⟩ := call
    by_cases hj : j = i
    · subst hj
      rw [own_cons_self, interleave, own_cons_self, ih, Function.update_self]
      rfl
    · rw [own_cons_of_ne hj, interleave, own_cons_of_ne hj, ih, Function.update_of_ne (Ne.symm hj)]

theorem map_fst_interleave (gens : ι → Generator) (calls : List (ι × UInt64)) :
    (interleave gens calls).map Prod.fst = calls.map Prod.fst := by
  induction calls generalizing gens with
  | nil => rfl
  | cons call calls ih =>
    rw [interleave, List.map_cons, List.map_cons, ih]

theorem getElem?_run (g : Generator) (versions : List UInt64) (p : Nat) :
    (g.run versions).1[p]? =
      versions[p]?.map fun v => ⟨v, g.last + UInt64.ofNat (p + 1), g.nodeOrder⟩ := by
  induction versions generalizing g p with
  | nil => rfl
  | cons v versions ih =>
    cases p with
    | zero => rfl
    | succ p =>
      refine (ih _ p).trans ?_
      rw [List.getElem?_cons_succ, UInt64.ofNat_add (p + 1) 1]
      rw [UInt64.add_comm _ (UInt64.ofNat 1)]
      simp only [← UInt64.add_assoc]
      rfl

theorem versions_run (g : Generator) (versions : List UInt64) :
    (g.run versions).1.map topologyVersion = versions := by
  apply List.ext_getElem?
  intro p
  rw [List.getElem?_map, getElem?_run, Option.map_map]
  exact Option.map_id' ..

theorem nodeOrder_run (h : a ∈ (g.run versions).1) : a.nodeOrder = g.nodeOrder := by
  obtain ⟨p, hp⟩ := List.mem_iff_getElem?.mp h
  rw [getElem?_run] at hp
  obtain ⟨v, -, rfl⟩ := Option.map_eq_some_iff.mp hp
  rfl

theorem toNat_getElem?_run (hroom : g.last.toNat + versions.length < UInt64.size)
    (ha : (g.run versions).1[p]? = some a) : a.order.toNat = g.last.toNat + (p + 1) := by
  rw [getElem?_run] at ha
  obtain ⟨v, hv, rfl⟩ := Option.map_eq_some_iff.mp ha
  have hp : p < versions.length := (List.getElem?_eq_some_iff.mp hv).1
  have hcalls : (UInt64.ofNat (p + 1)).toNat = p + 1 := UInt64.toNat_ofNat_of_lt' (by omega)
  rw [toNat_add_of_lt (by omega), hcalls]

/-- Two identifiers of one generator compare by version, and then by call order. -/
theorem compare_run (hroom : g.last.toNat + versions.length < UInt64.size)
    (ha : (g.run versions).1[p]? = some a) (hb : (g.run versions).1[q]? = some b) :
    Ord.compare a b =
      (Ord.compare a.topologyVersion b.topologyVersion).then (Ord.compare p q) := by
  have horder : Ord.compare a.order b.order = Ord.compare p q := by
    rw [UInt64.compare_eq_toNat_compare_toNat, toNat_getElem?_run hroom ha,
      toNat_getElem?_run hroom hb]
    rcases Nat.lt_trichotomy p q with h | h | h
    · rw [Nat.compare_eq_lt.mpr h, Nat.compare_eq_lt.mpr (by omega)]
    · rw [h, Std.compare_self, Std.compare_self]
    · rw [Nat.compare_eq_gt.mpr h, Nat.compare_eq_gt.mpr (by omega)]
  have hnode : Ord.compare a.nodeOrder b.nodeOrder = .eq := by
    rw [nodeOrder_run (List.mem_of_getElem? ha), nodeOrder_run (List.mem_of_getElem? hb)]
    exact Std.compare_self
  change (Ord.compare a.topologyVersion b.topologyVersion).then
    ((Ord.compare a.order b.order).then (Ord.compare a.nodeOrder b.nodeOrder)) = _
  rw [horder, hnode, Ordering.then_eq]

theorem nodup_run (hroom : g.last.toNat + versions.length < UInt64.size) :
    (g.run versions).1.Nodup := by
  rw [List.Nodup, List.pairwise_iff_getElem]
  intro p q hp hq hpq heq
  have ha := toNat_getElem?_run hroom (List.getElem?_eq_getElem hp)
  have hb := toNat_getElem?_run hroom (List.getElem?_eq_getElem hq)
  rw [heq] at ha
  omega

/-- Under versions that never go down, every identifier is above the ones before it. -/
theorem ascending_run (hroom : g.last.toNat + versions.length < UInt64.size)
    (hversions : versions.Pairwise (· ≤ ·)) :
    (g.run versions).1.Pairwise fun a b => Ord.compare a b = .lt := by
  rw [List.pairwise_iff_getElem]
  intro p q hp hq hpq
  have hle : (g.run versions).1[p].topologyVersion ≤ (g.run versions).1[q].topologyVersion := by
    rw [← versions_run g versions, List.pairwise_map, List.pairwise_iff_getElem] at hversions
    exact hversions p q hp hq hpq
  rw [compare_run hroom (List.getElem?_eq_getElem hp) (List.getElem?_eq_getElem hq),
    Nat.compare_eq_lt.mpr hpq]
  have hversion := Std.LawfulOrderOrd.isLE_compare _ _ |>.mpr hle
  revert hversion
  cases Ord.compare (g.run versions).1[p].topologyVersion (g.run versions).1[q].topologyVersion with
  | lt | eq => exact fun _ => rfl
  | gt => exact fun h => nomatch h

/-- However the calls of generators with different join orders interleave, no identifier is handed
out twice, each generator gets its versions in order, and its identifiers compare by version and
then by call order. They ascend where the versions never go down. -/
theorem draws_distinct_and_ordered {orders : ι → UInt64} (horders : Function.Injective orders)
    {calls : List (ι × UInt64)} (hfew : ∀ i, (own i calls).length < UInt64.size) :
    let draws := interleave (fun i => { nodeOrder := orders i }) calls
    draws.map Prod.fst = calls.map Prod.fst ∧
    (draws.map Prod.snd).Nodup ∧
    ∀ i, (own i draws).map topologyVersion = own i calls ∧
      (∀ t ∈ own i draws, t.nodeOrder = orders i) ∧
      ((own i calls).Pairwise (· ≤ ·) →
        (own i draws).Pairwise fun a b : TxId => Ord.compare a b = .lt) ∧
      ∀ (p q : Nat) (a b : TxId), (own i draws)[p]? = some a → (own i draws)[q]? = some b →
        Ord.compare a b =
          (Ord.compare a.topologyVersion b.topologyVersion).then (Ord.compare p q) := by
  intro draws
  have halone (i : ι) : own i draws =
      (Generator.run { nodeOrder := orders i } (own i calls)).1 := own_interleave _ calls i
  have hroom (i : ι) : ({ nodeOrder := orders i } : Generator).last.toNat +
      (own i calls).length < UInt64.size := by
    simpa using hfew i
  have hnode {i : ι} {t : TxId} (ht : t ∈ own i draws) : t.nodeOrder = orders i := by
    rw [halone] at ht
    exact nodeOrder_run ht
  refine ⟨map_fst_interleave _ calls, ?_, ?_⟩
  · apply nodup_of_own
    · intro i
      rw [halone]
      exact nodup_run (hroom i)
    · rintro ⟨i, t⟩ ht ⟨j, u⟩ hu hsame
      obtain rfl : t = u := hsame
      exact horders ((hnode (mem_own.mpr ht)).symm.trans (hnode (mem_own.mpr hu)))
  · intro i
    refine ⟨?_, fun t => hnode, ?_, ?_⟩
    · rw [halone, versions_run]
    · rw [halone]
      exact ascending_run (hroom i)
    · rw [halone]
      exact fun p q a b => compare_run (hroom i)

/-- Two generators called by turns. The versions of the one never go down, those of the other do. -/
def turns : List (Bool × UInt64) :=
  [(true, 5), (false, 5), (true, 2), (false, 6), (true, 5), (false, 6)]

theorem draws_distinct_and_ordered_turns :
    own true (interleave (fun i => { nodeOrder := cond i 7 3 }) turns) =
      [⟨5, 1, 7⟩, ⟨2, 2, 7⟩, ⟨5, 3, 7⟩] ∧
    ((interleave (fun i => { nodeOrder := cond i 7 3 }) turns).map Prod.snd).Nodup ∧
    ([⟨5, 1, 3⟩, ⟨6, 2, 3⟩, ⟨6, 3, 3⟩] : List TxId).Pairwise (Ord.compare · · = .lt) ∧
    Ord.compare (⟨5, 1, 7⟩ : TxId) ⟨2, 2, 7⟩ = .gt ∧
    Ord.compare (⟨5, 1, 7⟩ : TxId) ⟨5, 3, 7⟩ = .lt := by
  have horders : Function.Injective fun i => cond i (7 : UInt64) 3 := by
    intro i j
    revert i j
    decide
  obtain ⟨-, hdistinct, hown⟩ := @draws_distinct_and_ordered _ _ _ horders turns (by decide)
  obtain ⟨-, -, hascending, -⟩ := hown false
  obtain ⟨-, -, -, hcompare⟩ := hown true
  refine ⟨by decide, hdistinct, hascending (by decide), ?_, ?_⟩
  · exact hcompare 0 1 _ _ rfl rfl
  · exact hcompare 0 2 _ _ rfl rfl

end CounterCoordinator.TxId
