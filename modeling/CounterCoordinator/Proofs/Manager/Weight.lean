import CounterCoordinator.Proofs.Manager.Fate

/-!
# The weight of messages

A message that asks for an answer weighs two, every other one weighs one: a payload weighs as much
as there are messages that can come of it. An answer asks for nothing, so it is lighter than what it
answers.
-/
namespace CounterCoordinator

def Message.wantsAnswer : Message → Bool
  | .txCounterRequest .. | .queryCounterRequest _ => true
  | .txAckRequest _ _ skip => !skip
  | .counterResponse .. | .txAckResponse _ | .queryAckRequest _ => false

/-- How many messages a payload can still lead to, itself included. -/
def Wire.weight (payload : Bytes) : Nat :=
  match decode payload with
  | .ok message => if message.wantsAnswer then 2 else 1
  | .error _ => 1

namespace Wire

theorem weight_encode (message : Message) :
    weight (encode message) = if message.wantsAnswer then 2 else 1 := by
  rw [weight, decode_encode]

theorem weight_pos (payload : Bytes) : 1 ≤ weight payload := by
  unfold weight
  split
  · split <;> decide
  · exact Nat.le_refl 1

theorem weight_le (payload : Bytes) : weight payload ≤ 2 := by
  unfold weight
  split
  · split <;> decide
  · decide

/-- Answers are lighter than what they answer. -/
theorem weight_answer_lt {payload : Bytes} {request answer : Message} {f : FutureId}
    (hrequest : decode payload = .ok request) (hwants : request.wantsAnswer)
    (hanswer : answer.settled? = some f) : weight (encode answer) < weight payload := by
  have hquiet : answer.wantsAnswer = false := by
    cases answer <;> first | rfl | cases hanswer
  rw [weight_encode, hquiet, weight, hrequest]
  simp [hwants]

end Wire

namespace Manager
variable {m : Manager} {view : Outlook} {out : Outgoing}

/-- What leaves when a payload was handled is a response to it: it goes to the sender, and names the
future that the payload asks an answer for. -/
theorem receive_answers {sender : NodeId} {payload : Bytes}
    (h : (m.receive view sender payload).sent = some out) :
    out.target = sender ∧ ∃ request answer f, Wire.decode payload = .ok request ∧
      request.wantsAnswer ∧ request.future? = some f ∧ out.payload = Wire.encode answer ∧
      answer.settled? = some f := by
  cases hdecode : Wire.decode payload with
  | error fault =>
    rw [(receive_of_fault m view sender payload hdecode).2] at h
    cases h
  | ok message =>
    rw [(receive_of_decode m view sender payload hdecode).2] at h
    rcases m.act_sent_cases view sender message with hsent | ⟨answer, hanswer, hsent⟩
    · rw [hsent] at h
      cases h
    · rw [hsent] at h
      cases h
      obtain ⟨what, f, rfl, hwhat⟩ := answer_cases hanswer
      refine ⟨rfl, _, answer, f, rfl, ?_, what.future?_message f, rfl, ?_⟩
      · cases what <;> rfl
      · split at hwhat
        · rw [hwhat]
          rfl
        · obtain ⟨c, rfl⟩ := hwhat
          rfl

theorem weight_receive {sender : NodeId} {payload : Bytes}
    (h : (m.receive view sender payload).sent = some out) :
    Wire.weight out.payload < Wire.weight payload := by
  obtain ⟨-, request, answer, f, hrequest, hwants, -, hanswer, hsettled⟩ := receive_answers h
  exact hanswer ▸ Wire.weight_answer_lt hrequest hwants hsettled

theorem weight_dispatch {e : Envelope} (h : (m.dispatch view e).sent = some out) :
    Wire.weight out.payload < Wire.weight e.payload := by
  unfold dispatch at h
  split at h
  · exact weight_receive h
  · cases h

theorem weight_call {c : Call} (h : (m.call view c).sent = some out) :
    Wire.weight out.payload = 1 := by
  rcases call_sent m view c h with ⟨tx, hpayload⟩ | ⟨counter, hpayload⟩
  all_goals
    rw [hpayload, Wire.weight_encode]
    rfl

end Manager

end CounterCoordinator
