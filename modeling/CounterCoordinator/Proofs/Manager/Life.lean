import CounterCoordinator.Proofs.Fresh
import CounterCoordinator.Proofs.Manager.Turn

/-!
# The life of a manager

A manager lives through turns in any order, each under whatever it sees at that moment. The source
of future ids is shared with the other tables of the process, which take ids between its turns.
`Life.run_induction` proves what every turn keeps, as long as the ids do not run out.
-/
namespace CounterCoordinator

inductive Turn where
  | ask (view : Outlook) (target : NodeId) (what : Request)
  | call (view : Outlook) (c : Call)
  | receive (view : Outlook) (sender : NodeId) (payload : Bytes)
  /-- Another table takes an id. -/
  | elsewhere

def Turn.takesId : Turn → Bool
  | ask .. | elsewhere => true
  | call .. | receive .. => false

structure Life where
  manager : Manager
  ids : IdSource := {}

namespace Life

def step (l : Life) : Turn → Life
  | .ask view target what =>
      let (id, ids) := l.ids.next
      ⟨(l.manager.ask view id target what).manager, ids⟩
  | .call view c => ⟨(l.manager.call view c).manager, l.ids⟩
  | .receive view sender payload => ⟨(l.manager.receive view sender payload).manager, l.ids⟩
  | .elsewhere => ⟨l.manager, l.ids.next.2⟩

def ofTurns (node : NodeId) (cancelAcks : Bool) (turns : List Turn) : Life :=
  turns.foldl step { manager := { self := node, cancelAcks } }

theorem toNat_last_step {l : Life} {t : Turn}
    (h : t.takesId → l.ids.last.toNat + 1 < UInt64.size) :
    (l.step t).ids.last.toNat = l.ids.last.toNat + if t.takesId then 1 else 0 := by
  cases t with
  | ask => exact IdSource.toNat_next (h rfl)
  | elsewhere => exact IdSource.toNat_next (h rfl)
  | call => rfl
  | receive => rfl

theorem toNat_last_run (turns : List Turn) {l : Life}
    (hids : l.ids.last.toNat + turns.countP Turn.takesId < UInt64.size) :
    (turns.foldl step l).ids.last.toNat = l.ids.last.toNat + turns.countP Turn.takesId := by
  induction turns generalizing l with
  | nil => rfl
  | cons t turns ih =>
    rw [List.countP_cons] at hids
    have hlast := toNat_last_step (l := l) (t := t) fun ht => by
      rw [if_pos ht] at hids
      omega
    rw [List.foldl_cons, ih (by omega), hlast, List.countP_cons]
    omega

theorem run_induction {P : Life → Prop}
    (hstep : ∀ l t, P l → (t.takesId → l.ids.last.toNat + 1 < UInt64.size) → P (l.step t))
    (turns : List Turn) {l : Life} (hl : P l)
    (hids : l.ids.last.toNat + turns.countP Turn.takesId < UInt64.size) :
    P (turns.foldl step l) := by
  induction turns generalizing l with
  | nil => exact hl
  | cons t turns ih =>
    rw [List.countP_cons] at hids
    have hroom : t.takesId → l.ids.last.toNat + 1 < UInt64.size := by
      intro ht
      rw [if_pos ht] at hids
      omega
    apply ih (hstep l t hl hroom)
    rw [toNat_last_step hroom]
    omega

end Life
end CounterCoordinator
