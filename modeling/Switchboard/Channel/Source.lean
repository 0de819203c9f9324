import Switchboard.IoFault

/-!
# Sources

The reading end of a byte channel whose future is known: the chunks that will arrive and the reads
that will fail, in order, and whether the channel then ends or falls silent. A read gives bytes of
one chunk only, and never more than the reader has room for.
-/

namespace Switchboard

/-- What the next reads of a source will meet. -/
inductive Arrival where
  /-- Bytes, at least one. -/
  | bytes (data : ByteArray)
  /-- One read that fails. -/
  | fault (kind : IoKind)
  deriving DecidableEq, Inhabited

structure Source where
  arrivals : List Arrival := []
  /-- Whether reads after the last arrival wait for ever, and not meet the end. -/
  silent : Bool := false

inductive Read where
  | bytes (data : ByteArray)
  | fault (kind : IoKind)
  /-- The end of the channel. -/
  | ended
  /-- Nothing, for ever. -/
  | waiting

namespace Arrival

def weight : Arrival → Nat
  | bytes data => data.size + 1
  | fault _ => 1

end Arrival

namespace Source

def weight (source : Source) : Nat :=
  (source.arrivals.map Arrival.weight).sum

/-- A source that gives chunks; empty chunks are no arrivals. -/
def ofChunks (chunks : List ByteArray) (silent : Bool) : Source :=
  ⟨(chunks.filter (·.size ≠ 0)).map .bytes, silent⟩

def read (room : Nat) (source : Source) : Read × Source :=
  match source.arrivals with
  | [] => (if source.silent then .waiting else .ended, source)
  | .fault kind :: later => (.fault kind, { source with arrivals := later })
  | .bytes data :: later =>
    if data.size ≤ room then (.bytes data, { source with arrivals := later })
    else
      (.bytes (data.extract 0 room),
        { source with arrivals := .bytes (data.extract room data.size) :: later })

/-- A read that gives bytes or a failure brings the end of the arrivals nearer. -/
theorem weight_read_lt {room : Nat} (hroom : 0 < room) {source : Source}
    (h : source.arrivals ≠ []) : (source.read room).2.weight < source.weight := by
  unfold read
  split
  · contradiction
  · next hs => simp [weight, hs, Arrival.weight]
  · next data later hs =>
    split
    · simp [weight, hs, Arrival.weight]
    · simp only [weight, hs, Arrival.weight, List.map_cons, List.sum_cons, ByteArray.size_extract]
      omega

theorem arrivals_ne_nil_of_read_bytes {room : Nat} {source rest : Source} {data : ByteArray}
    (h : source.read room = (.bytes data, rest)) : source.arrivals ≠ [] := by
  intro hs
  unfold read at h
  rw [hs] at h
  simp only [Prod.mk.injEq] at h
  split at h <;> simp at h

def unread (source : Source) : Nat :=
  (source.arrivals.map fun
    | .bytes data => data.size
    | .fault _ => 0).sum

end Source

end Switchboard
