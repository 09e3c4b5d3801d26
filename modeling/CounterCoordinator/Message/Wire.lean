import CounterCoordinator.Bytes
import CounterCoordinator.Message

/-!
# Wire format of messages

A message is written as the index of its kind in four bytes, then its fields in order: ids, counters
and the three numbers of a transaction in eight bytes each, least significant byte first, a flag in
one byte. Reading takes what it needs from the front and ignores bytes behind the message; it
reports the first fault met in reading order.
-/
namespace CounterCoordinator.Wire

/-- Why bytes are no message. -/
inductive Fault where
  | truncated
  | unknownKind (index : Nat)
  | invalidFlag (byte : Nat)
deriving DecidableEq, Repr

def Fault.message : Fault → String
  | truncated => "io error: unexpected end of file"
  | unknownKind index =>
      s!"invalid value: integer `{index}`, expected variant index 0 <= i < 6"
  | invalidFlag byte =>
      s!"invalid u8 while decoding bool, expected 0 or 1, found {byte}"

/-- A value read from the front, and the bytes behind it. -/
abbrev Reader (α : Type) := Bytes → Except Fault (α × Bytes)

/-- The index of a message's kind. -/
def kindIndex : Message → Nat
  | .txCounterRequest .. => 0
  | .queryCounterRequest .. => 1
  | .counterResponse .. => 2
  | .txAckRequest .. => 3
  | .txAckResponse .. => 4
  | .queryAckRequest .. => 5

def putWord (w : UInt64) : Bytes := Bytes.ofNat 8 w.toNat

def putCounter (c : Version) : Bytes := putWord c.toUInt64

def putTx (t : TxId) : Bytes :=
  putWord t.topologyVersion ++ putWord t.order ++ putWord t.nodeOrder

def putFlag (b : Bool) : Bytes := [if b then 1 else 0]

/-- The fields of a message, behind the index of its kind. -/
def putFields : Message → Bytes
  | .txCounterRequest f t => putWord f ++ putTx t
  | .queryCounterRequest f => putWord f
  | .counterResponse f c => putWord f ++ putCounter c
  | .txAckRequest f t skip => putWord f ++ putTx t ++ putFlag skip
  | .txAckResponse f => putWord f
  | .queryAckRequest c => putCounter c

/-- The bytes of a message. -/
def encode (m : Message) : Bytes :=
  Bytes.ofNat 4 (kindIndex m) ++ putFields m

/-- The number in the first `width` bytes. -/
def takeNat (width : Nat) : Reader Nat := fun bs =>
  if bs.length < width then .error .truncated
  else .ok (Bytes.toNat (bs.take width), bs.drop width)

def takeWord : Reader UInt64 := fun bs => do
  let (n, rest) ← takeNat 8 bs
  return (UInt64.ofNat n, rest)

def takeCounter : Reader Version := fun bs => do
  let (w, rest) ← takeWord bs
  return (w.toInt64, rest)

def takeTx : Reader TxId := fun bs => do
  let (version, bs) ← takeWord bs
  let (order, bs) ← takeWord bs
  let (nodeOrder, bs) ← takeWord bs
  return (⟨version, order, nodeOrder⟩, bs)

def takeFlag : Reader Bool := fun bs => do
  let (n, rest) ← takeNat 1 bs
  if n = 0 then return (false, rest)
  else if n = 1 then return (true, rest)
  else .error (.invalidFlag n)

/-- The fields of the message of the kind with this index. -/
def takeFields (index : Nat) : Reader Message := fun bs => do
  match index with
  | 0 =>
      let (f, bs) ← takeWord bs
      let (t, bs) ← takeTx bs
      return (.txCounterRequest f t, bs)
  | 1 =>
      let (f, bs) ← takeWord bs
      return (.queryCounterRequest f, bs)
  | 2 =>
      let (f, bs) ← takeWord bs
      let (c, bs) ← takeCounter bs
      return (.counterResponse f c, bs)
  | 3 =>
      let (f, bs) ← takeWord bs
      let (t, bs) ← takeTx bs
      let (skip, bs) ← takeFlag bs
      return (.txAckRequest f t skip, bs)
  | 4 =>
      let (f, bs) ← takeWord bs
      return (.txAckResponse f, bs)
  | 5 =>
      let (c, bs) ← takeCounter bs
      return (.queryAckRequest c, bs)
  | n => .error (.unknownKind n)

/-- The message at the front of some bytes. -/
def takeMessage : Reader Message := fun bs => do
  let (index, bs) ← takeNat 4 bs
  takeFields index bs

/-- The message that some bytes start with. -/
def decode (bs : Bytes) : Except Fault Message :=
  (takeMessage bs).map Prod.fst

end CounterCoordinator.Wire
