import Mathlib.Data.List.Basic

namespace OpenR2

/-- A result of `openr2_io_write`: a count, -1 with `EAGAIN`, or -1 with another error. -/
inductive IoWrite where
  | accepted (n : Nat)
  | again
  | failed
  deriving DecidableEq, Repr

/-- `openr2_chan_write` under way: the bytes that the I/O layer has accepted, the count
that will be returned, and whether the loop was left for an error. -/
structure Writing (β : Type*) where
  sent : List β
  wrote : Nat
  failed : Bool
  deriving DecidableEq, Repr

section Write

variable {β : Type*} (buf : List β) (bufSize : Nat)

/-- The loop of `openr2_chan_write`, on the results that the I/O layer gives. Each write
is one of the whole buffer. -/
def writeLoop : List IoWrite → Writing β → Writing β
  | [], w => w
  | r :: rs, w =>
    if w.wrote < bufSize then
      match r with
      | .failed => { w with failed := true }
      | .again => writeLoop rs w
      | .accepted n => writeLoop rs ⟨w.sent ++ buf.take n, w.wrote + n, w.failed⟩
    else w

/-- `openr2_chan_write`. -/
def chanWrite (rs : List IoWrite) : Writing β := writeLoop buf bufSize rs ⟨[], 0, false⟩

end Write

end OpenR2
