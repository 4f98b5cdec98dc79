import OpenR2.Lib.Chain
import OpenR2.Lib.Runs

namespace OpenR2

abbrev Addr := Nat

/-- The channels of a context: the head of its list, the `next` field of the memory at
each address, freed or not, and the channels that are allocated. -/
structure Registry where
  chanlist : Option Addr
  next : Addr → Option Addr
  live : List Addr

/-- What the allocator and the I/O layer answer while a channel is created. `freed` is
what the memory of a channel holds in the place of `next` once it was freed. -/
structure Alloc where
  cell : Option Addr
  opened : Bool
  setup : Bool
  freed : Option Addr

/-- The calls that create and delete channels. -/
inductive ChanOp where
  | new (channo : Int) (w : Alloc)
  | newFromFd (channo : Int) (w : Alloc)
  | delete (a : Addr) (freed : Option Addr)

namespace Registry

/-- A new context, zeroed by `calloc`. -/
def new : Registry := ⟨none, fun _ => none, []⟩

def calloc (a : Addr) (s : Registry) : Registry :=
  { s with next := Function.update s.next a none, live := a :: s.live }

def free (a : Addr) (freed : Option Addr) (s : Registry) : Registry :=
  { s with next := Function.update s.next a freed, live := s.live.erase a }

/-- `openr2_context_add_channel`. -/
def addChannel (a : Addr) (s : Registry) : Registry :=
  { s with chanlist := some a, next := Function.update s.next a s.chanlist }

/-- The loop of `openr2_context_remove_channel`. -/
def removeLoop (a : Addr) : Nat → Option Addr → Option Addr → Registry → Option Registry
  | _, _, none, s => some s
  | 0, _, some _, _ => none
  | n + 1, prev, some curr, s =>
    if curr = a then
      let s := match prev with
        | some p => { s with next := Function.update s.next p (s.next curr) }
        | none => s
      some (if some curr = s.chanlist then { s with chanlist := none } else s)
    else removeLoop a n (some curr) (s.next curr) s

/-- `openr2_context_remove_channel`, if it ends within so many turns. -/
def removeChannel (n : Nat) (a : Addr) (s : Registry) : Option Registry :=
  removeLoop a n none s.chanlist s

/-- `openr2_chan_delete`. -/
def chanDelete (a : Addr) (freed : Option Addr) (s : Registry) : Registry := s.free a freed

/-- `__openr2_chan_new`. A channel that cannot be opened is deleted before it is linked. -/
def chanNew' (openchan : Bool) (w : Alloc) (s : Registry) : Registry × Option Addr :=
  match w.cell with
  | none => (s, none)
  | some a =>
    let s := s.calloc a
    if openchan ∧ w.opened = false then (s.chanDelete a w.freed, none)
    else if openchan ∧ w.setup = false then (s.chanDelete a w.freed, none)
    else (s.addChannel a, some a)

/-- `openr2_chan_new`. -/
def chanNew (channo : Int) (w : Alloc) (s : Registry) : Registry × Option Addr :=
  if channo ≤ 0 then (s, none) else chanNew' true w s

/-- `openr2_chan_new_from_fd`. -/
def chanNewFromFd (channo : Int) (w : Alloc) (s : Registry) : Registry × Option Addr :=
  if channo ≤ 0 then (s, none) else chanNew' false w s

/-- One call, and the channel it returned. -/
def apply (s : Registry) (op : ChanOp) : Registry × List Addr :=
  match op with
  | .new channo w => ((s.chanNew channo w).1, (s.chanNew channo w).2.toList)
  | .newFromFd channo w => ((s.chanNewFromFd channo w).1, (s.chanNewFromFd channo w).2.toList)
  | .delete a freed => (s.chanDelete a freed, [])

/-- The allocator gives out free memory, and the user deletes channels that exist. -/
def Allowed (s : Registry) : ChanOp → Prop
  | .new _ w | .newFromFd _ w => ∀ a, w.cell = some a → a ∉ s.live
  | .delete a _ => a ∈ s.live

/-- The loop of `openr2_context_delete`: the channels it deletes, if it ends within so
many turns. -/
def contextDelete (freed : Addr → Option Addr) : Nat → Option Addr → Registry → Option (List Addr)
  | _, none, _ => some []
  | 0, some _, _ => none
  | n + 1, some a, s =>
    let next := s.next a
    (contextDelete freed n next (s.chanDelete a (freed a))).map (a :: ·)

/-- The loop of `openr2_context_get_time_to_next_event`: the channels it looks at, with
timers or without. -/
def timeToNextEvent : Nat → Option Addr → Registry → Option (List Addr)
  | _, none, _ => some []
  | 0, some _, _ => none
  | n + 1, some a, s => (timeToNextEvent n (s.next a) s).map (a :: ·)

end Registry

end OpenR2
