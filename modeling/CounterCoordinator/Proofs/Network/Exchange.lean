import CounterCoordinator.Proofs.Manager.Weight
import CounterCoordinator.Proofs.Network.Carriage
import Mathlib.Algebra.Order.BigOperators.Group.List

/-!
# Exchanges die out

Handling a message puts one more message in flight at most, an answer to it, and answers ask for
nothing. So the flight loses weight with every delivery, whatever lies in it and whoever sent it:
forged messages, bytes that are none, messages to nobody, and messages of a node to itself. Hence
delivering one message after the other comes to an end.
-/
namespace CounterCoordinator

/-- A response to the message `p`, on its way back to the sender, that names the future for which
`p` asks an answer. -/
def Parcel.Answers (q p : Parcel) : Prop :=
  q.source = p.target ∧ q.target = p.source ∧
    ∃ request answer f, Wire.decode p.payload = .ok request ∧ request.wantsAnswer ∧
      request.future? = some f ∧ q.payload = Wire.encode answer ∧ answer.settled? = some f

theorem Parcel.Answers.weight_lt {p q : Parcel} (h : q.Answers p) :
    Wire.weight q.payload < Wire.weight p.payload := by
  obtain ⟨-, -, request, answer, f, hrequest, hwants, -, hanswer, hsettled⟩ := h
  exact hanswer ▸ Wire.weight_answer_lt hrequest hwants hsettled

namespace Network
variable {n : Network} {i : Nat} {p : Parcel}

/-- A delivery takes the message out of the flight and puts its answer there, if there is one. -/
theorem flight_deliver (h : n.flight[i]? = some p) :
    ∃ answer : Option Parcel,
      (n.perform (.deliver i)).flight = n.flight.eraseIdx i ++ answer.toList ∧
        ∀ q ∈ answer, q.Answers p := by
  cases hm : n.manager? p.target with
  | none =>
    refine ⟨none, ?_, nofun⟩
    rw [perform_deliver_unclaimed h hm]
    exact (List.append_nil _).symm
  | some m =>
    obtain ⟨-, hself⟩ := mem_of_manager? hm
    refine ⟨dispatched (m.receive n.outlook p.source p.payload), ?_, ?_⟩
    · rw [perform_deliver_of_some h hm, flight_absorb]
      rfl
    · intro q hq
      obtain ⟨out, hout, rfl⟩ := Option.map_eq_some_iff.mp hq
      obtain ⟨htarget, hanswers⟩ := Manager.receive_answers hout
      exact ⟨(Manager.receive_self ..).trans hself, htarget, hanswers⟩

/-- How many messages can still be delivered, answers included. -/
def weight (n : Network) : Nat := (n.flight.map fun p => Wire.weight p.payload).sum

theorem weight_le (n : Network) : n.weight ≤ 2 * n.flight.length := by
  have hmax : ∀ w ∈ n.flight.map fun p => Wire.weight p.payload, w ≤ 2 := by
    intro w hw
    obtain ⟨p, -, rfl⟩ := List.mem_map.mp hw
    exact Wire.weight_le p.payload
  have hsum := List.sum_le_card_nsmul _ 2 hmax
  rw [List.length_map, nsmul_eq_mul, Nat.mul_comm] at hsum
  exact hsum

theorem flight_of_weight (h : n.weight = 0) : n.flight = [] := by
  have hlength := List.length_le_sum_of_one_le (n.flight.map fun p => Wire.weight p.payload) (by
    intro w hw
    obtain ⟨p, -, rfl⟩ := List.mem_map.mp hw
    exact Wire.weight_pos p.payload)
  rw [List.length_map] at hlength
  exact List.length_eq_zero_iff.mp (Nat.le_zero.mp (hlength.trans h.le))

/-- Every delivery makes the flight lighter. -/
theorem weight_deliver (h : n.flight[i]? = some p) :
    (n.perform (.deliver i)).weight < n.weight := by
  obtain ⟨answer, hflight, hanswer⟩ := flight_deliver h
  obtain ⟨hlt, rfl⟩ := List.getElem?_eq_some_iff.mp h
  have htaken := (((List.getElem_cons_eraseIdx_perm hlt).map
    fun p => Wire.weight p.payload).sum_eq)
  have hpos := Wire.weight_pos n.flight[i].payload
  rw [List.map_cons, List.sum_cons] at htaken
  unfold weight
  rw [hflight, ← htaken, List.map_append, List.sum_append]
  cases answer with
  | none =>
    simp only [Option.toList_none, List.map_nil, List.sum_nil]
    omega
  | some q =>
    have hlighter := (hanswer q rfl).weight_lt
    simp only [Option.toList_some, List.map_cons, List.map_nil, List.sum_cons, List.sum_nil]
    omega

/-- The network after `k` deliveries. Each time `picks` chooses among the messages then in flight;
the numbers beyond their count start over with the first one. -/
def pumped (n : Network) (picks : Nat → Nat) : Nat → Network
  | 0 => n
  | k + 1 =>
      let now := n.pumped picks k
      now.perform (.deliver (picks k % now.flight.length))

/-- As long as there was something to deliver, each delivery has used up some weight. -/
theorem weight_pumped (n : Network) (picks : Nat → Nat) {k : Nat}
    (hbusy : ∀ j < k, (n.pumped picks j).flight ≠ []) :
    (n.pumped picks k).weight + k ≤ n.weight := by
  induction k with
  | zero => exact Nat.le_refl _
  | succ k ih =>
    have hbefore := ih fun j hj => hbusy j (Nat.lt_succ_of_lt hj)
    have hsome := List.length_pos_iff.mpr (hbusy k (Nat.lt_succ_self k))
    have hpicked := List.getElem?_eq_getElem (Nat.mod_lt (picks k) hsome)
    have hstep := weight_deliver hpicked
    rw [pumped]
    omega

/-- In whatever order messages are picked, there is nothing left to pick in the end. -/
theorem pumped_empty (n : Network) (picks : Nat → Nat) :
    ∃ k ≤ n.weight, (n.pumped picks k).flight = [] ∧
      ∀ j < k, (n.pumped picks j).flight ≠ [] := by
  have hends : ∃ k, (n.pumped picks k).flight = [] := by
    by_contra hnever
    have hweight := n.weight_pumped picks (k := n.weight + 1) fun j _ h => hnever ⟨j, h⟩
    omega
  have hbusy : ∀ j < Nat.find hends, (n.pumped picks j).flight ≠ [] := fun j hj =>
    Nat.find_min hends hj
  have hweight := n.weight_pumped picks hbusy
  exact ⟨Nat.find hends, by omega, Nat.find_spec hends, hbusy⟩

theorem pumpFor_of_empty (h : n.flight = []) (fuel : Nat) :
    (pumpFor fuel n).1 = 0 ∧ (pumpFor fuel n).2.2 = n := by
  cases fuel with
  | zero => exact ⟨rfl, rfl⟩
  | succ fuel => simp [pumpFor, deliver, takeParcel, h]

theorem pumpFor_succ (h : n.flight[0]? = some p) (fuel : Nat) :
    (pumpFor (fuel + 1) n).1 = (pumpFor fuel (n.perform (.deliver 0))).1 + 1 ∧
      (pumpFor (fuel + 1) n).2.2 = (pumpFor fuel (n.perform (.deliver 0))).2.2 := by
  simp [pumpFor, perform, deliver, takeParcel, h]

/-- With as much fuel as the flight weighs, delivering from the front comes to its end. -/
theorem pumpFor_spec {fuel : Nat} (hfuel : n.weight ≤ fuel) :
    (pumpFor fuel n).2.2.flight = [] ∧ (pumpFor fuel n).1 ≤ n.weight := by
  induction fuel generalizing n with
  | zero => exact ⟨flight_of_weight (Nat.le_zero.mp hfuel), Nat.zero_le _⟩
  | succ fuel ih =>
    cases h : n.flight with
    | nil =>
      obtain ⟨hcount, hend⟩ := pumpFor_of_empty h (fuel + 1)
      rw [hcount, hend]
      exact ⟨h, Nat.zero_le _⟩
    | cons p rest =>
      have hfirst : n.flight[0]? = some p := by rw [h]; rfl
      have hlighter := weight_deliver hfirst
      obtain ⟨hcount, hend⟩ := pumpFor_succ hfirst fuel
      obtain ⟨hempty, hle⟩ := ih (n := n.perform (.deliver 0)) (by omega)
      rw [hcount, hend]
      exact ⟨hempty, by omega⟩

/-- Whatever is in flight between whatever managers, handling a message sends one answer at most,
and none unless the message asks for it; so however messages are picked one after the other, the
flight is empty after twice as many deliveries as there were messages, or earlier. -/
theorem exchange_dies_out (n : Network) :
    (∀ i p, n.flight[i]? = some p → ∃ answer : Option Parcel,
      (n.perform (.deliver i)).flight = n.flight.eraseIdx i ++ answer.toList ∧
      (∀ q ∈ answer, q.Answers p) ∧
      (∀ message, Wire.decode p.payload = .ok message → message.wantsAnswer = false →
        answer = none) ∧
      ∀ fault, Wire.decode p.payload = .error fault → answer = none) ∧
    (∀ picks : Nat → Nat, ∃ k ≤ 2 * n.flight.length, (n.pumped picks k).flight = [] ∧
      ∀ j < k, (n.pumped picks j).flight ≠ []) ∧
    n.pump.2.2.flight = [] ∧ n.pump.1 ≤ 2 * n.flight.length := by
  have hweight := n.weight_le
  refine ⟨?_, ?_, ?_⟩
  · intro i p h
    obtain ⟨answer, hflight, hanswer⟩ := flight_deliver h
    refine ⟨answer, hflight, hanswer, ?_, ?_⟩
    · intro message hmessage hquiet
      refine Option.eq_none_iff_forall_not_mem.mpr fun q hq => ?_
      obtain ⟨-, -, request, -, -, hrequest, hwants, -⟩ := hanswer q hq
      rw [hmessage] at hrequest
      cases hrequest
      rw [hquiet] at hwants
      cases hwants
    · intro fault hfault
      refine Option.eq_none_iff_forall_not_mem.mpr fun q hq => ?_
      obtain ⟨-, -, request, -, -, hrequest, -⟩ := hanswer q hq
      rw [hfault] at hrequest
      cases hrequest
  · intro picks
    obtain ⟨k, hk, hempty, hbusy⟩ := n.pumped_empty picks
    exact ⟨k, hk.trans hweight, hempty, hbusy⟩
  · obtain ⟨hempty, hcount⟩ := pumpFor_spec hweight
    exact ⟨hempty, hcount.trans hweight⟩

/-- A snapshot request of node 1 to itself, a forged response, bytes that are no message, an
acknowledgement to a node behind a broken link, and a request to nobody. -/
def strangeTraffic : Network where
  live := [⟨.ofNat 1, 1, false⟩, ⟨.ofNat 2, 2, false⟩]
  broken := [.ofNat 2]
  managers := [{ self := .ofNat 1 }, { self := .ofNat 2 }]
  flight := [⟨.ofNat 1, .ofNat 1, Wire.encode (.queryCounterRequest 5)⟩,
    ⟨.ofNat 8, .ofNat 1, Wire.encode (.counterResponse 9 (-3))⟩, ⟨.ofNat 2, .ofNat 1, [255]⟩,
    ⟨.ofNat 2, .ofNat 1, Wire.encode (.txAckRequest 4 ⟨1, 1, 1⟩ false)⟩,
    ⟨.ofNat 1, .ofNat 9, Wire.encode (.txCounterRequest 6 ⟨1, 2, 1⟩)⟩]

/-- The forged response and the bytes that are no message go without leaving anything, and the
snapshot request and the acknowledgement cause one answer between them. -/
theorem exchange_dies_out_strangeTraffic :
    let forged : Message := .counterResponse 9 (-3)
    strangeTraffic.flight[1]? = some ⟨.ofNat 8, .ofNat 1, Wire.encode forged⟩ ∧
      Wire.decode (Wire.encode forged) = .ok forged ∧ forged.wantsAnswer = false ∧
      (strangeTraffic.perform (.deliver 1)).flight = strangeTraffic.flight.eraseIdx 1 ∧
      strangeTraffic.flight[2]? = some ⟨.ofNat 2, .ofNat 1, [255]⟩ ∧
      Wire.decode [255] = .error .truncated ∧
      (strangeTraffic.perform (.deliver 2)).flight = strangeTraffic.flight.eraseIdx 2 ∧
      (∃ k ≤ 10, (strangeTraffic.pumped (fun k => 7 * k) k).flight = []) ∧
      strangeTraffic.pump.1 = 6 ∧ strangeTraffic.pump.2.2.flight = [] := by
  intro forged
  obtain ⟨hdelivered, hpumped, hend, -⟩ := exchange_dies_out strangeTraffic
  have hforged : Wire.decode (Wire.encode forged) = .ok forged := by decide
  have hbytes : Wire.decode [255] = .error .truncated := by decide
  obtain ⟨_, hflight, -, hquiet, -⟩ := hdelivered 1 _ rfl
  rw [hquiet forged hforged rfl, Option.toList_none, List.append_nil] at hflight
  obtain ⟨_, hflight', -, -, hquiet'⟩ := hdelivered 2 _ rfl
  rw [hquiet' _ hbytes, Option.toList_none, List.append_nil] at hflight'
  obtain ⟨k, hk, hempty, -⟩ := hpumped fun k => 7 * k
  exact ⟨rfl, hforged, rfl, hflight, rfl, hbytes, hflight', ⟨k, hk, hempty⟩, by decide, hend⟩

end Network
end CounterCoordinator
