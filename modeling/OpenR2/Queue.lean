import OpenR2.Lib.Ring
import OpenR2.Lib.Runs

namespace OpenR2

/-- `queue_state_t`: a byte queue, with one more cell in its buffer than it can hold bytes. -/
structure QueueState where
  readAtomic : Bool
  writeAtomic : Bool
  len : Nat
  iptr : Nat
  optr : Nat
  data : Nat → UInt8

/-- What a function of the queue returns, and the bytes that it puts in the caller's buffer. -/
structure QueueResult where
  ret : Int
  bytes : List UInt8
  deriving DecidableEq, Repr

namespace QueueState

/-- `memcpy` out of the buffer. Beyond its end there is no answer. -/
def load (off n : Int) (s : QueueState) : Option (List UInt8) :=
  if 0 ≤ off ∧ 0 ≤ n ∧ off + n ≤ s.len then some (Ring.fetch s.data off.toNat n.toNat) else none

/-- `memcpy` of the first `n` of these bytes into the buffer. -/
def store (off n : Int) (bs : List UInt8) (s : QueueState) : Option QueueState :=
  if 0 ≤ off ∧ 0 ≤ n ∧ n ≤ bs.length ∧ off + n ≤ s.len then
    some { s with data := Ring.copy s.data off.toNat (bs.take n.toNat) }
  else none

def setIptr (p : Int) (s : QueueState) : QueueState := { s with iptr := p.toNat }

def setOptr (p : Int) (s : QueueState) : QueueState := { s with optr := p.toNat }

end QueueState

section Queue

open QueueState

/-- `queue_init`, on memory that holds anything. -/
def queueInit (len : Nat) (readAtomic writeAtomic : Bool) (data : Nat → UInt8) : QueueState :=
  ⟨readAtomic, writeAtomic, len + 1, 0, 0, data⟩

/-- `queue_empty`. -/
def queueEmpty (s : QueueState) : Bool := s.iptr = s.optr

/-- `queue_free_space`. -/
def queueFreeSpace (s : QueueState) : Int :=
  let len : Int := s.optr - s.iptr - 1
  if len < 0 then len + s.len else len

/-- `queue_contents`. -/
def queueContents (s : QueueState) : Int :=
  let len : Int := s.iptr - s.optr
  if len < 0 then len + s.len else len

/-- `queue_flush`. -/
def queueFlush (s : QueueState) : QueueState := s.setOptr s.iptr

/-- The bytes of a read go on at the start of the buffer. -/
def readWraps (realLen : Int) (s : QueueState) : Prop := s.iptr < s.optr ∧ (s.len : Int) - s.optr < realLen

instance (realLen : Int) (s : QueueState) : Decidable (readWraps realLen s) := by
  unfold readWraps; exact inferInstance

/-- The part of `queue_view` and `queue_read` that copies. -/
def copyOut (realLen : Int) (s : QueueState) : Option (List UInt8) :=
  let toEnd : Int := s.len - s.optr
  if readWraps realLen s then do
    let first ← s.load s.optr toEnd
    let second ← s.load 0 (realLen - toEnd)
    some (first ++ second)
  else s.load s.optr realLen

/-- How many of `len` bytes are read, if the queue does not refuse. -/
def readLength (len : Nat) (s : QueueState) : Option Int :=
  if queueContents s < len then if s.readAtomic then none else some (queueContents s) else some len

/-- `queue_view`. -/
def queueView (len : Nat) (s : QueueState) : Option QueueResult :=
  match readLength len s with
  | none => some ⟨-1, []⟩
  | some realLen =>
    if realLen = 0 then some ⟨0, []⟩ else (copyOut realLen s).map fun bs => ⟨realLen, bs⟩

/-- `queue_read`. The caller without a buffer drops the bytes. -/
def queueRead (len : Nat) (s : QueueState) : Option (QueueResult × QueueState) :=
  match readLength len s with
  | none => some (⟨-1, []⟩, s)
  | some realLen =>
    if realLen = 0 then some (⟨0, []⟩, s)
    else
      let newOptr : Int := if readWraps realLen s then realLen - (s.len - s.optr)
        else if s.optr + realLen > s.len then 0 else s.optr + realLen
      (copyOut realLen s).map fun bs => (⟨realLen, bs⟩, s.setOptr newOptr)

/-- `queue_read_byte`. -/
def queueReadByte (s : QueueState) : Option (QueueResult × QueueState) :=
  if queueContents s < 1 then some (⟨-1, []⟩, s)
  else do
    let bs ← s.load s.optr 1
    let byte := bs.headD 0
    let newOptr : Int := if s.optr + 1 ≥ s.len then 0 else s.optr + 1
    some (⟨byte.toNat, [byte]⟩, s.setOptr newOptr)

/-- A write of this length fits before the end of the buffer. -/
def writeFits (realLen : Int) (s : QueueState) : Prop := s.iptr < s.optr ∨ (s.len : Int) - s.iptr ≥ realLen

instance (realLen : Int) (s : QueueState) : Decidable (writeFits realLen s) := by
  unfold writeFits; exact inferInstance

/-- The part of `queue_write` that copies, and the new input pointer. -/
def copyIn (realLen : Int) (bs : List UInt8) (s : QueueState) : Option QueueState :=
  let toEnd : Int := s.len - s.iptr
  if writeFits realLen s then do
    let s' ← s.store s.iptr realLen bs
    some (s'.setIptr (if s.iptr + realLen > s.len then 0 else s.iptr + realLen))
  else do
    let s' ← s.store s.iptr toEnd bs
    let s'' ← s'.store 0 (realLen - toEnd) (bs.drop toEnd.toNat)
    some (s''.setIptr (realLen - toEnd))

/-- `queue_write`. -/
def queueWrite (bs : List UInt8) (s : QueueState) : Option (QueueResult × QueueState) :=
  let free := queueFreeSpace s
  if free < bs.length ∧ s.writeAtomic then some (⟨-1, []⟩, s)
  else
    let realLen : Int := if free < bs.length then free else bs.length
    if realLen = 0 then some (⟨0, []⟩, s) else (copyIn realLen bs s).map fun s' => (⟨realLen, []⟩, s')

/-- `queue_write_byte`. -/
def queueWriteByte (byte : UInt8) (s : QueueState) : Option (QueueResult × QueueState) :=
  if queueFreeSpace s < 1 then some (⟨if s.writeAtomic then -1 else 0, []⟩, s)
  else do
    let s' ← s.store s.iptr 1 [byte]
    some (⟨1, []⟩, s'.setIptr (if s.iptr + 1 ≥ s.len then 0 else s.iptr + 1))

/-- A `uint16_t` in memory, low byte first. -/
def encodeLength (n : Nat) : List UInt8 := [UInt8.ofNat n, UInt8.ofNat (n / 256)]

def decodeLength (bs : List UInt8) : Nat := (bs.getD 0 0).toNat + 256 * (bs.getD 1 0).toNat

/-- `queue_state_test_msg`. -/
def queueStateTestMsg (s : QueueState) : Option QueueResult := do
  let r ← queueView 2 s
  some ⟨if r.ret ≠ 2 then -1 else decodeLength r.bytes, []⟩

/-- `queue_read_msg`. What does not fit in the caller's buffer is dropped. -/
def queueReadMsg (len : Nat) (s : QueueState) : Option (QueueResult × QueueState) := do
  let (head, s) ← queueRead 2 s
  if head.ret ≠ 2 then some (⟨-1, []⟩, s)
  else
    let lenx := decodeLength head.bytes
    if lenx = 0 then some (⟨0, []⟩, s)
    else if lenx > len then do
      let (body, s) ← queueRead len s
      let (_, s) ← queueRead ((lenx : Int) - body.ret).toNat s
      some (⟨body.ret, body.bytes⟩, s)
    else queueRead lenx s

/-- `queue_write_msg`. The free space is looked at as a `uint16_t`. -/
def queueWriteMsg (bs : List UInt8) (s : QueueState) : Option (QueueResult × QueueState) :=
  let free := queueFreeSpace s
  if free % 65536 < bs.length + 2 then some (⟨-1, []⟩, s)
  else
    let realLen : Int := bs.length + 2
    let toEnd : Int := s.len - s.iptr
    let lenx := encodeLength bs.length
    if writeFits realLen s then do
      let s' ← s.store s.iptr 2 lenx
      let s' ← s'.store (s.iptr + 2) bs.length bs
      some (⟨bs.length, []⟩, s'.setIptr (if s.iptr + realLen > s.len then 0 else s.iptr + realLen))
    else if toEnd ≥ 2 then do
      -- the message goes on at the start of the buffer
      let s' ← s.store s.iptr 2 lenx
      let s' ← s'.store (s.iptr + 2) (toEnd - 2) bs
      let s' ← s'.store 0 (realLen - toEnd) (bs.drop (toEnd - 2).toNat)
      some (⟨bs.length, []⟩, s'.setIptr (realLen - toEnd))
    else do
      -- its length does
      let s' ← s.store s.iptr toEnd lenx
      let s' ← s'.store 0 (2 - toEnd) (lenx.drop toEnd.toNat)
      let s' ← s'.store (2 - toEnd) bs.length bs
      some (⟨bs.length, []⟩, s'.setIptr (realLen - toEnd))

end Queue

/-- The operations on the bytes of a queue. -/
inductive QueueOp where
  | write (bs : List UInt8)
  | read (len : Nat)
  | view (len : Nat)
  | flush
  | writeByte (byte : UInt8)
  | readByte
  deriving DecidableEq, Repr

namespace QueueOp

/-- Those of one byte at a time. -/
def Bytewise : QueueOp → Prop
  | .writeByte _ | .readByte => True
  | _ => False

instance (op : QueueOp) : Decidable op.Bytewise := by
  cases op <;> unfold Bytewise <;> exact inferInstance

def act (op : QueueOp) (s : QueueState) : Option (QueueResult × QueueState) :=
  match op with
  | .write bs => queueWrite bs s
  | .read len => queueRead len s
  | .view len => (queueView len s).map fun r => (r, s)
  | .flush => some (⟨0, []⟩, queueFlush s)
  | .writeByte byte => queueWriteByte byte s
  | .readByte => queueReadByte s

end QueueOp

/-- A write or a read of several bytes that would end with the last cell of the buffer, behind
which its pointer is left. -/
def QueueState.MeetsEnd (s : QueueState) : QueueOp → Prop
  | .write bs => s.iptr + min bs.length (queueFreeSpace s).toNat = s.len
  | .read len => s.optr + min len (queueContents s).toNat = s.len
  | _ => False

instance (s : QueueState) (op : QueueOp) : Decidable (s.MeetsEnd op) := by
  cases op <;> unfold QueueState.MeetsEnd <;> exact inferInstance

/-- One operation. The output is what it returns, or nothing where it leaves the buffer. -/
def queueTick (s : QueueState) (op : QueueOp) : QueueState × List (Option QueueResult) :=
  match op.act s with
  | none => (s, [none])
  | some (r, s') => (s', [some r])

/-- What a queue is for: the bytes that were put in come out in the order in which they were. -/
structure Fifo where
  capacity : Nat
  readAtomic : Bool
  writeAtomic : Bool
  bytes : List UInt8

namespace Fifo

variable (q : Fifo)

def set (bytes : List UInt8) : Fifo := { q with bytes := bytes }

/-- A read of more than there is gets what there is, or nothing. -/
def view (len : Nat) : QueueResult :=
  if q.bytes.length < len ∧ q.readAtomic then ⟨-1, []⟩
  else ⟨(q.bytes.take len).length, q.bytes.take len⟩

def read (len : Nat) : Fifo :=
  if q.bytes.length < len ∧ q.readAtomic then q else q.set (q.bytes.drop len)

/-- The bytes of a write for which there is room, or none of them. -/
def room (bs : List UInt8) : List UInt8 :=
  if q.capacity - q.bytes.length < bs.length ∧ q.writeAtomic then []
  else bs.take (q.capacity - q.bytes.length)

def wrote (bs : List UInt8) : QueueResult :=
  if q.capacity - q.bytes.length < bs.length ∧ q.writeAtomic then ⟨-1, []⟩ else ⟨(q.room bs).length, []⟩

/-- What each operation is to return, and to leave. -/
def act (q : Fifo) : QueueOp → QueueResult × Fifo
  | .write bs => (q.wrote bs, q.set (q.bytes ++ q.room bs))
  | .read len => (q.view len, q.read len)
  | .view len => (q.view len, q)
  | .flush => (⟨0, []⟩, q.set [])
  | .writeByte byte => (q.wrote [byte], q.set (q.bytes ++ q.room [byte]))
  | .readByte =>
    match q.bytes with
    | [] => (⟨-1, []⟩, q)
    | byte :: bs => (⟨byte.toNat, [byte]⟩, q.set bs)

def tick (q : Fifo) (op : QueueOp) : Fifo × List (Option QueueResult) := ((q.act op).2, [some (q.act op).1])

end Fifo

/-- The operations on the messages of a queue. -/
inductive MsgOp where
  | write (msg : List UInt8)
  | read (len : Nat)
  | test
  | flush
  deriving DecidableEq, Repr

def MsgOp.act (op : MsgOp) (s : QueueState) : Option (QueueResult × QueueState) :=
  match op with
  | .write msg => queueWriteMsg msg s
  | .read len => queueReadMsg len s
  | .test => (queueStateTestMsg s).map fun r => (r, s)
  | .flush => some (⟨0, []⟩, queueFlush s)

def msgTick (s : QueueState) (op : MsgOp) : QueueState × List (Option QueueResult) :=
  match op.act s with
  | none => (s, [none])
  | some (r, s') => (s', [some r])

/-- What the message functions are for: messages come out whole and in order. -/
structure Mailbox where
  capacity : Nat
  msgs : List (List UInt8)

namespace Mailbox

/-- A message as it lies in the queue. -/
def frame (msg : List UInt8) : List UInt8 := encodeLength msg.length ++ msg

def bytes (b : Mailbox) : List UInt8 := b.msgs.flatMap frame

/-- What each operation is to return, and to leave. A queue of 64 KiB and more may refuse a
message for which it has room. -/
def act (b : Mailbox) : MsgOp → QueueResult × Mailbox
  | .write msg =>
    if (b.capacity - b.bytes.length) % 65536 < msg.length + 2 then (⟨-1, []⟩, b)
    else (⟨msg.length, []⟩, { b with msgs := b.msgs ++ [msg] })
  | .read len =>
    match b.msgs with
    | [] => (⟨-1, []⟩, b)
    | msg :: msgs => (⟨(msg.take len).length, msg.take len⟩, { b with msgs := msgs })
  | .test =>
    match b.msgs with
    | [] => (⟨-1, []⟩, b)
    | msg :: _ => (⟨msg.length, []⟩, b)
  | .flush => (⟨0, []⟩, { b with msgs := [] })

def tick (b : Mailbox) (op : MsgOp) : Mailbox × List (Option QueueResult) :=
  ((b.act op).2, [some (b.act op).1])

end Mailbox

end OpenR2
