import CounterCoordinator.Message.Wire
import Mathlib.Tactic.Ring

/-!
# Reading messages back

Every reader of the wire format takes exactly what its writer wrote and leaves the bytes behind it
alone. So a message is read back from its bytes whatever follows them, and a payload stands for one
message only.
-/
namespace CounterCoordinator

@[simp] theorem Bytes.length_ofNat (width n : Nat) : (Bytes.ofNat width n).length = width := by
  induction width generalizing n with
  | zero => rfl
  | succ width ih => simp [Bytes.ofNat, ih]

theorem Bytes.toNat_ofNat (width n : Nat) :
    Bytes.toNat (Bytes.ofNat width n) = n % 256 ^ width := by
  induction width generalizing n with
  | zero => simp [Bytes.ofNat, Bytes.toNat, Nat.mod_one]
  | succ width ih =>
    have hbyte : (UInt8.ofNat (n % 256)).toNat = n % 256 := by
      simp [UInt8.toNat_ofNat']
    rw [Bytes.ofNat, Bytes.toNat, ih, hbyte, Nat.pow_succ, Nat.mul_comm (256 ^ width),
      Nat.mod_mul]

namespace Wire

theorem takeNat_ofNat {width n : Nat} (hn : n < 256 ^ width) (rest : Bytes) :
    takeNat width (Bytes.ofNat width n ++ rest) = .ok (n, rest) := by
  have hlength : ¬ (Bytes.ofNat width n ++ rest).length < width := by simp
  rw [takeNat, if_neg hlength, List.take_left' (Bytes.length_ofNat width n),
    List.drop_left' (Bytes.length_ofNat width n), Bytes.toNat_ofNat, Nat.mod_eq_of_lt hn]

@[simp] theorem takeWord_putWord (w : UInt64) (rest : Bytes) :
    takeWord (putWord w ++ rest) = .ok (w, rest) := by
  have hw : w.toNat < 256 ^ 8 := w.toNat_lt
  simp [takeWord, putWord, takeNat_ofNat hw, bind, Except.bind, pure, Except.pure]

@[simp] theorem takeCounter_putCounter (c : Version) (rest : Bytes) :
    takeCounter (putCounter c ++ rest) = .ok (c, rest) := by
  simp [takeCounter, putCounter, bind, Except.bind, pure, Except.pure]

@[simp] theorem takeTx_putTx (t : TxId) (rest : Bytes) :
    takeTx (putTx t ++ rest) = .ok (t, rest) := by
  simp [takeTx, putTx, List.append_assoc, bind, Except.bind, pure, Except.pure]

@[simp] theorem takeFlag_putFlag (b : Bool) (rest : Bytes) :
    takeFlag (putFlag b ++ rest) = .ok (b, rest) := by
  cases b <;> rfl

theorem takeFields_putFields (m : Message) (rest : Bytes) :
    takeFields (kindIndex m) (putFields m ++ rest) = .ok (m, rest) := by
  cases m <;>
    simp [takeFields, kindIndex, putFields, List.append_assoc, bind, Except.bind, pure, Except.pure]

theorem takeMessage_encode (m : Message) (rest : Bytes) :
    takeMessage (encode m ++ rest) = .ok (m, rest) := by
  have hkind : kindIndex m < 256 ^ 4 := by cases m <;> simp [kindIndex]
  simp only [takeMessage, encode, List.append_assoc, takeNat_ofNat hkind, bind, Except.bind]
  exact takeFields_putFields m rest

@[simp] theorem decode_encode (m : Message) : decode (encode m) = .ok m := by
  have h := takeMessage_encode m []
  rw [List.append_nil] at h
  rw [decode, h]
  rfl

theorem encode_injective : Function.Injective encode := by
  intro m m' h
  have hdecode := congrArg decode h
  rw [decode_encode, decode_encode] at hdecode
  exact Except.ok.inj hdecode

end Wire
end CounterCoordinator
