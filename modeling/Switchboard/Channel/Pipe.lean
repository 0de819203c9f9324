import Switchboard.IoFault

/-!
# Pipes

One direction of a byte channel inside a machine: bytes that were written and not yet read, no more
than the capacity, and whether either end is gone. A read gives what is there, and the end once
nothing is and nothing can come; a write takes as much as there is room for.
-/

namespace Switchboard

/-- One direction of a channel. -/
structure Pipe where
  capacity : Nat
  data : ByteArray := ByteArray.empty
  /-- Whether the writer has ended it or the reader is gone. -/
  closed : Bool := false
  deriving Inhabited

/-- What an operation on a channel gives: a value, a failure, or nothing yet. -/
inductive Ready (α : Type) where
  | now (value : α)
  | failed (fault : IoFault)
  | later
  deriving Inhabited

def Ready.isReady : Ready α → Bool
  | .later => false
  | _ => true

namespace Pipe

def room (p : Pipe) : Nat :=
  p.capacity - p.data.size

/-- Read at most `n` bytes; no bytes at all mean the end. -/
def read (n : Nat) (p : Pipe) : Ready ByteArray × Pipe :=
  if p.data.size = 0 then
    if p.closed || n = 0 then (.now ByteArray.empty, p) else (.later, p)
  else
    (.now (p.data.extract 0 n), { p with data := p.data.extract n p.data.size })

/-- Write as many of the bytes from `start` on as there is room for; how many that were. -/
def write (bytes : ByteArray) (start : Nat) (p : Pipe) : Ready Nat × Pipe :=
  if p.closed then (.failed (.bare .brokenPipe), p)
  else
    let n := min p.room (bytes.size - start)
    if n = 0 then (.later, p)
    else (.now n, { p with data := p.data ++ bytes.extract start (start + n) })

def close (p : Pipe) : Pipe :=
  { p with closed := true }

def shutdown (p : Pipe) : Ready Unit × Pipe :=
  (.now (), p.close)

def isReadable (p : Pipe) : Bool :=
  p.closed || p.data.size ≠ 0

def isWritable (p : Pipe) : Bool :=
  p.closed || p.room ≠ 0

end Pipe

end Switchboard
