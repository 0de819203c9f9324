import Switchboard.IoFault

/-!
# Sinks

The writing end of a byte channel whose behaviour is known: how many bytes each write accepts at
most, from which byte on writes fail, and which flushes fail. It keeps what it accepted.
`Sink.writeAll` writes until everything is accepted, as callers of a channel do.
-/

namespace Switchboard

structure Sink where
  /-- The most bytes that a write accepts, by the number of writes before it. -/
  portion : Nat → Option Nat := fun _ => none
  /-- Writes fail in this way once so many bytes were accepted. -/
  breaksAt : Option (Nat × IoKind) := none
  /-- How a flush fails, by the number of flushes before it. -/
  flushFault : Nat → Option IoKind := fun _ => none
  written : ByteArray := ByteArray.empty
  writes : Nat := 0
  flushes : Nat := 0
  shutdowns : Nat := 0

namespace Sink

def accepts (sink : Sink) (n : Nat) : Nat :=
  let n := match sink.portion sink.writes with
    | some most => min most n
    | none => n
  match sink.breaksAt with
  | some (limit, _) => min (limit - sink.written.size) n
  | none => n

/-- The failure of writes once the channel is broken. -/
def broken (sink : Sink) : Option IoFault :=
  match sink.breaksAt with
  | some (limit, kind) => if limit ≤ sink.written.size then some (.bare kind) else none
  | none => none

/-- Write the bytes from `start` on until all are accepted. -/
def writeFrom (data : ByteArray) (start : Nat) (sink : Sink) : Option IoFault × Sink :=
  if data.size ≤ start then (none, sink)
  else
    match sink.broken with
    | some fault => (some fault, sink)
    | none =>
      let n := sink.accepts (data.size - start)
      let next := { sink with
        written := sink.written ++ data.extract start (start + n), writes := sink.writes + 1 }
      if n = 0 then (some (.bare .writeZero), next) else writeFrom data (start + n) next
termination_by data.size - start

def writeAll (data : ByteArray) (sink : Sink) : Option IoFault × Sink :=
  writeFrom data 0 sink

def flush (sink : Sink) : Option IoFault × Sink :=
  ((sink.flushFault sink.flushes).map .bare, { sink with flushes := sink.flushes + 1 })

def shutdown (sink : Sink) : Sink :=
  { sink with shutdowns := sink.shutdowns + 1 }

end Sink

end Switchboard
