import CounterCoordinator.Proofs.Message.RoundTrip

/-!
# Messages at the front of bytes

What a reader of the wire format accepts is exactly what its writer would have written: there is one
way to write each field, so the bytes that were consumed can be told from the value that was read.
Hence some bytes stand for a message if and only if they start with its encoding, no encoding is the
beginning of another one, and a message cut short is no message.
-/
namespace CounterCoordinator

theorem Bytes.ofNat_toNat (bs : Bytes) : Bytes.ofNat bs.length (Bytes.toNat bs) = bs := by
  induction bs with
  | nil => rfl
  | cons b bs ih =>
    have hb : b.toNat < 256 := b.toNat_lt
    have hlow : (b.toNat + 256 * Bytes.toNat bs) % 256 = b.toNat := by omega
    have hhigh : (b.toNat + 256 * Bytes.toNat bs) / 256 = Bytes.toNat bs := by omega
    rw [Bytes.toNat, List.length_cons, Bytes.ofNat, hlow, hhigh, ih, UInt8.ofNat_toNat]

theorem Bytes.toNat_lt (bs : Bytes) : Bytes.toNat bs < 256 ^ bs.length := by
  have h := Bytes.toNat_ofNat bs.length (Bytes.toNat bs)
  rw [Bytes.ofNat_toNat] at h
  exact h ▸ Nat.mod_lt _ (Nat.pow_pos (by decide))

namespace Wire

theorem bind_eq_ok {α β : Type} {x : Except Fault α} {f : α → Except Fault β} {b : β} :
    (x >>= f) = .ok b ↔ ∃ a, x = .ok a ∧ f a = .ok b := by
  cases x with
  | error fault =>
    constructor
    · intro h
      cases h
    · rintro ⟨a, ha, -⟩
      cases ha
  | ok a =>
    constructor
    · intro h
      exact ⟨a, rfl, h⟩
    · rintro ⟨a', ha, h⟩
      cases ha
      exact h

section Fields
variable {bs rest : Bytes}

theorem eq_append_of_takeNat {width n : Nat} (h : takeNat width bs = .ok (n, rest)) :
    bs = Bytes.ofNat width n ++ rest ∧ n < 256 ^ width := by
  unfold takeNat at h
  split at h
  · cases h
  · rename_i hlong
    cases h
    have hlength : (bs.take width).length = width := by
      rw [List.length_take]
      omega
    have hwritten := Bytes.ofNat_toNat (bs.take width)
    have hsmall := Bytes.toNat_lt (bs.take width)
    rw [hlength] at hwritten hsmall
    rw [hwritten, List.take_append_drop]
    exact ⟨rfl, hsmall⟩

theorem eq_append_of_takeWord {w : UInt64} (h : takeWord bs = .ok (w, rest)) :
    bs = putWord w ++ rest := by
  obtain ⟨⟨n, behind⟩, hn, hw⟩ := bind_eq_ok.mp h
  obtain ⟨hbs, hsmall⟩ := eq_append_of_takeNat hn
  cases hw
  have htoNat : (UInt64.ofNat n).toNat = n := UInt64.toNat_ofNat_of_lt' hsmall
  rw [putWord, htoNat]
  exact hbs

theorem eq_append_of_takeCounter {c : Version} (h : takeCounter bs = .ok (c, rest)) :
    bs = putCounter c ++ rest := by
  obtain ⟨⟨w, behind⟩, hword, hc⟩ := bind_eq_ok.mp h
  cases hc
  rw [putCounter, UInt64.toUInt64_toInt64]
  exact eq_append_of_takeWord hword

theorem eq_append_of_takeTx {t : TxId} (h : takeTx bs = .ok (t, rest)) : bs = putTx t ++ rest := by
  obtain ⟨⟨version, afterVersion⟩, hversion, h⟩ := bind_eq_ok.mp h
  obtain ⟨⟨order, afterOrder⟩, horder, h⟩ := bind_eq_ok.mp h
  obtain ⟨⟨nodeOrder, behind⟩, hnodeOrder, h⟩ := bind_eq_ok.mp h
  cases h
  rw [eq_append_of_takeWord hversion, eq_append_of_takeWord horder,
    eq_append_of_takeWord hnodeOrder]
  simp only [putTx, List.append_assoc]

theorem eq_append_of_takeFlag {b : Bool} (h : takeFlag bs = .ok (b, rest)) :
    bs = putFlag b ++ rest := by
  obtain ⟨⟨n, behind⟩, hn, h⟩ := bind_eq_ok.mp h
  obtain ⟨hbs, -⟩ := eq_append_of_takeNat hn
  dsimp only at h
  split at h
  · rename_i hzero
    cases h
    rw [hbs, hzero]
    rfl
  · split at h
    · rename_i hone
      cases h
      rw [hbs, hone]
      rfl
    · cases h

/-- The fields that were read tell the index of the kind they belong to. -/
theorem eq_append_of_takeFields {index : Nat} {m : Message}
    (h : takeFields index bs = .ok (m, rest)) : index = kindIndex m ∧ bs = putFields m ++ rest := by
  unfold takeFields at h
  split at h
  · obtain ⟨⟨f, behind⟩, hf, h⟩ := bind_eq_ok.mp h
    obtain ⟨⟨t, last⟩, ht, h⟩ := bind_eq_ok.mp h
    cases h
    rw [eq_append_of_takeWord hf, eq_append_of_takeTx ht]
    exact ⟨rfl, by simp only [putFields, List.append_assoc]⟩
  · obtain ⟨⟨f, behind⟩, hf, h⟩ := bind_eq_ok.mp h
    cases h
    exact ⟨rfl, eq_append_of_takeWord hf⟩
  · obtain ⟨⟨f, behind⟩, hf, h⟩ := bind_eq_ok.mp h
    obtain ⟨⟨c, last⟩, hc, h⟩ := bind_eq_ok.mp h
    cases h
    rw [eq_append_of_takeWord hf, eq_append_of_takeCounter hc]
    exact ⟨rfl, by simp only [putFields, List.append_assoc]⟩
  · obtain ⟨⟨f, afterFuture⟩, hf, h⟩ := bind_eq_ok.mp h
    obtain ⟨⟨t, afterTx⟩, ht, h⟩ := bind_eq_ok.mp h
    obtain ⟨⟨skip, last⟩, hskip, h⟩ := bind_eq_ok.mp h
    cases h
    rw [eq_append_of_takeWord hf, eq_append_of_takeTx ht, eq_append_of_takeFlag hskip]
    exact ⟨rfl, by simp only [putFields, List.append_assoc]⟩
  · obtain ⟨⟨f, behind⟩, hf, h⟩ := bind_eq_ok.mp h
    cases h
    exact ⟨rfl, eq_append_of_takeWord hf⟩
  · obtain ⟨⟨c, behind⟩, hc, h⟩ := bind_eq_ok.mp h
    cases h
    exact ⟨rfl, eq_append_of_takeCounter hc⟩
  · cases h

end Fields

/-- Reading takes exactly the bytes that writing gives. -/
theorem takeMessage_eq_ok_iff {bs rest : Bytes} {m : Message} :
    takeMessage bs = .ok (m, rest) ↔ bs = encode m ++ rest := by
  constructor
  · intro h
    obtain ⟨⟨index, behind⟩, hindex, hfields⟩ := bind_eq_ok.mp h
    obtain ⟨hkind, hbehind⟩ := eq_append_of_takeFields hfields
    rw [(eq_append_of_takeNat hindex).1, hbehind, hkind, encode, List.append_assoc]
  · rintro rfl
    exact takeMessage_encode m rest

theorem decode_eq_ok_iff {bs : Bytes} {m : Message} : decode bs = .ok m ↔ encode m <+: bs := by
  constructor
  · intro h
    cases htake : takeMessage bs with
    | error fault =>
      rw [decode, htake] at h
      cases h
    | ok read =>
      obtain ⟨m', rest⟩ := read
      rw [decode, htake] at h
      cases h
      exact ⟨rest, (takeMessage_eq_ok_iff.mp htake).symm⟩
  · rintro ⟨rest, rfl⟩
    rw [decode, takeMessage_encode]
    rfl

/-- No encoding is the beginning of another one. -/
theorem eq_of_encode_prefix {m m' : Message} (h : encode m <+: encode m') : m = m' := by
  have hread := decode_eq_ok_iff.mpr h
  rw [decode_encode] at hread
  exact (Except.ok.inj hread).symm

theorem decode_of_cut {m : Message} {bs : Bytes} (hbeginning : bs <+: encode m)
    (hcut : bs ≠ encode m) : ∃ fault, decode bs = .error fault := by
  cases hread : decode bs with
  | error fault => exact ⟨fault, rfl⟩
  | ok m' =>
    have hfront := decode_eq_ok_iff.mp hread
    have hsame := eq_of_encode_prefix (hfront.trans hbeginning)
    have hlength := hfront.length_le
    rw [hsame] at hlength
    exact absurd (hbeginning.eq_of_length_le hlength) hcut

/-- Reading and writing agree exactly: bytes are read as a message if and only if they start with
its encoding, and then everything behind the encoding is left. Nothing else is read: an encoding
is no beginning of another one, and what is cut off before its end is refused. -/
theorem read_iff_written (m : Message) :
    (∀ bs, decode bs = .ok m ↔ encode m <+: bs) ∧
    (∀ rest, decode (encode m ++ rest) = .ok m) ∧
    (∀ bs rest, takeMessage bs = .ok (m, rest) ↔ bs = encode m ++ rest) ∧
    (∀ m', encode m = encode m' → m = m') ∧
    (∀ m', encode m <+: encode m' → m = m') ∧
    ∀ bs, bs <+: encode m → bs ≠ encode m → ∃ fault, decode bs = .error fault := by
  refine ⟨fun bs => decode_eq_ok_iff, fun rest => decode_eq_ok_iff.mpr ⟨rest, rfl⟩,
    fun bs rest => takeMessage_eq_ok_iff, fun m' h => encode_injective h,
    fun m' => eq_of_encode_prefix, fun bs => decode_of_cut⟩

/-- A rollback with a byte behind it, with its flag missing, and with a flag that is none. -/
theorem read_iff_written_rollback :
    let m : Message := .txAckRequest 0 ⟨4, 17, 2⟩ true
    let cut := (encode m).dropLast
    decode (encode m ++ [7]) = .ok m ∧ cut <+: encode m ∧ cut ≠ encode m ∧
      (∃ fault, decode cut = .error fault) ∧ decode (cut ++ [2]) ≠ .ok m := by
  intro m cut
  obtain ⟨hread, hbehind, -, -, -, hcut⟩ := read_iff_written m
  have hbeginning : cut <+: encode m := List.dropLast_prefix _
  have hshort : cut ≠ encode m := by decide
  refine ⟨hbehind [7], hbeginning, hshort, hcut cut hbeginning hshort, ?_⟩
  rw [Ne, hread]
  decide

example : encode (.counterResponse 258 (-2)) =
    [2, 0, 0, 0, 2, 1, 0, 0, 0, 0, 0, 0, 254, 255, 255, 255, 255, 255, 255, 255] := by decide

end Wire
end CounterCoordinator
