import Switchboard.Frame.Transfer
import Switchboard.Proofs.Frames.Verdicts

/-!
# Reading a frame from a source

A reader makes one read after the other, each with the room that its buffer has by then, and tries
to take a frame off after each. `FrameReader.Transcript` lists these reads. Of the source two things
matter: its front, which are the bytes before the first read that fails, and what is met behind them
(`Source.front`, `Source.ending`). The result is what decoding the front gives, and if it gives
nothing, what is met then (`Transcript.received_eq`); and no read is made once the bytes decide
(`Transcript.undecided`). How the bytes are cut, and how the buffer grows, is in neither.
-/

namespace Switchboard

/-! ## What a source gives -/

namespace Source

variable {source : Source} {room : Nat}

/-- The bytes of some arrivals before the first failure. -/
def frontOf : List Arrival → ByteArray
  | .bytes data :: later => data ++ frontOf later
  | .fault _ :: _ | [] => ByteArray.empty

/-- What a read meets behind the bytes before the first failure. -/
def endingOf (silent : Bool) : List Arrival → Read
  | .bytes _ :: later => endingOf silent later
  | .fault kind :: _ => .fault kind
  | [] => if silent then .waiting else .ended

/-- The bytes that a source gives before a read fails or gives none. -/
def front (source : Source) : ByteArray :=
  frontOf source.arrivals

def ending (source : Source) : Read :=
  endingOf source.silent source.arrivals

/-- A read gives the next bytes of the front, or there are none and it gives what is met then. -/
theorem read_cases (room : Nat) (source : Source) :
    (∃ data rest, source.read room = (.bytes data, rest) ∧ source.front = data ++ rest.front ∧
      rest.ending = source.ending) ∨
    ∃ rest, source.read room = (source.ending, rest) ∧ source.front = ByteArray.empty := by
  obtain ⟨arrivals, silent⟩ := source
  cases arrivals with
  | nil => exact .inr ⟨_, rfl, rfl⟩
  | cons arrival later =>
    cases arrival with
    | fault kind => exact .inr ⟨_, rfl, rfl⟩
    | bytes data =>
      left
      by_cases hroom : data.size ≤ room
      · exact ⟨data, ⟨later, silent⟩, if_pos hroom, rfl, rfl⟩
      · refine ⟨data.extract 0 room, ⟨.bytes (data.extract room data.size) :: later, silent⟩,
          if_neg hroom, ?_, rfl⟩
        simp only [front, frontOf]
        rw [← ByteArray.append_assoc, Bytes.extract_append_rest]

theorem ending_ne_bytes (source : Source) (data : ByteArray) : source.ending ≠ .bytes data := by
  obtain ⟨arrivals, silent⟩ := source
  unfold ending
  induction arrivals with
  | nil => cases silent <;> exact nofun
  | cons arrival later ih =>
    cases arrival with
    | fault kind => exact nofun
    | bytes more => exact ih

end Source

/-! ## What decides -/

namespace Frame

variable {bytes : ByteArray}

/-- No beginning of some bytes is a frame, and their first five are no header that is refused. -/
structure Undecided (bytes : ByteArray) : Prop where
  frame : ∀ n frame rest, decode (bytes.extract 0 n) ≠ .ok (some (frame, rest))
  header : ∀ fault, decode (bytes.extract 0 5) ≠ .error fault

theorem decode_of_beginning {n : Nat} {frame : Frame} {rest : ByteArray}
    (h : decode (bytes.extract 0 n) = .ok (some (frame, rest))) :
    ∃ rest, decode bytes = .ok (some (frame, rest)) := by
  have hall := decode_append_some (bytes.extract n bytes.size) h
  rw [Bytes.extract_append_rest] at hall
  exact ⟨_, hall⟩

theorem decode_of_header {fault : IoFault} (h : decode (bytes.extract 0 5) = .error fault) :
    decode bytes = .error fault := by
  have hall := decode_append_error (bytes.extract 5 bytes.size) h
  rwa [Bytes.extract_append_rest] at hall

theorem Opens.beginning {mark : UInt8} {length : Nat} (h : Opens bytes mark length) :
    Opens (bytes.extract 0 5) mark length := by
  obtain ⟨hlt, behind, rfl⟩ := h
  refine ⟨hlt, ByteArray.empty, ?_⟩
  have hsize : (⟨(mark :: lengthBytes length).toArray⟩ : ByteArray).size = 5 := rfl
  rw [Bytes.extract_append_left (by omega), Bytes.extract_zero_of_le (by omega),
    ByteArray.append_empty]

theorem undecided_iff : Undecided bytes ↔ decode bytes = .ok none := by
  constructor
  · intro h
    cases hdecode : decode bytes with
    | error fault =>
      obtain ⟨mark, length, hopens, hrefused⟩ := error_of_decode hdecode
      obtain ⟨fault', hheader⟩ := decode_refused hopens.beginning hrefused
      exact absurd hheader (h.header fault')
    | ok found =>
      cases found with
      | none => rfl
      | some found =>
        have hall : decode (bytes.extract 0 bytes.size) = .ok (some found) := by
          rw [ByteArray.extract_zero_size, hdecode]
        exact absurd hall (h.frame _ found.1 found.2)
  · intro h
    constructor
    · intro n frame rest hframe
      obtain ⟨rest', hall⟩ := decode_of_beginning hframe
      rw [h] at hall
      cases hall
    · intro fault hheader
      have hall := decode_of_header hheader
      rw [h] at hall
      cases hall

theorem invalidData_of_decode {fault : IoFault} (h : decode bytes = .error fault) :
    fault.kind = .invalidData := by
  have hverdict := verdict bytes
  rw [h] at hverdict
  cases hverdict with
  | large => rfl
  | unknown => rfl

end Frame

/-! ## The reads of a reader -/

namespace FrameReader

variable {reader next : FrameReader} {source rest after : Source} {reads : List Read}
  {read : Read} {received : Received} {data : ByteArray}

def hear (reader : FrameReader) : Read → Received ⊕ FrameReader
  | .bytes data => reader.feed data
  | .fault kind => .inl (.fault (.bare kind))
  | .waiting => .inl .waiting
  | .ended => .inl reader.ended

/-- A reader makes some reads, the last of which settles what is received. -/
inductive Transcript : FrameReader → Source → List Read → Received → Source → Prop
  | last {reader : FrameReader} {source rest : Source} {read : Read} {received : Received}
      (hread : source.read reader.room = (read, rest)) (hover : reader.hear read = .inl received) :
      Transcript reader source [read] received rest
  | more {reader next : FrameReader} {source rest after : Source} {read : Read}
      {reads : List Read} {received : Received} (hread : source.read reader.room = (read, rest))
      (hmore : reader.hear read = .inr next) (hlater : Transcript next rest reads received after) :
      Transcript reader source (read :: reads) received after

def bytesRead : List Read → ByteArray
  | .bytes data :: later => data ++ bytesRead later
  | _ :: later => bytesRead later
  | [] => ByteArray.empty

theorem receive_eq (h : source.read reader.room = (read, rest)) :
    reader.receive source =
      match reader.hear read with
      | .inl received => (received, rest)
      | .inr next => next.receive rest := by
  rw [receive]
  split
  · rename_i data rest hread
    rw [h] at hread
    cases hread
    cases hfeed : reader.feed data <;> simp only [hear, hfeed]
  all_goals
    rename_i hread
    rw [h] at hread
    cases hread
    rfl

/-- What comes of some bytes is what comes of decoding the buffer with them. -/
theorem feed_cases (reader : FrameReader) (data : ByteArray) :
    (∃ fault, Frame.decode (reader.buffer ++ data) = .error fault ∧
      reader.feed data = .inl (.fault fault)) ∨
    (∃ frame rest, Frame.decode (reader.buffer ++ data) = .ok (some (frame, rest)) ∧
      reader.feed data = .inl (.frame frame)) ∨
    (Frame.decode (reader.buffer ++ data) = .ok none ∧
      reader.feed data = .inr ⟨reader.nextCapacity, reader.buffer ++ data⟩) := by
  unfold feed
  cases hdecode : Frame.decode (reader.buffer ++ data) with
  | error fault => exact .inl ⟨fault, rfl, by simp only [hdecode]⟩
  | ok found =>
    cases found with
    | none => exact .inr (.inr ⟨rfl, by simp only [hdecode]⟩)
    | some found => exact .inr (.inl ⟨found.1, found.2, rfl, by simp only [hdecode]⟩)

/-- A reader goes on only with bytes that still decide nothing. -/
theorem hear_more (h : reader.hear read = .inr next) :
    ∃ data, read = .bytes data ∧ next.buffer = reader.buffer ++ data ∧
      Frame.decode next.buffer = .ok none := by
  cases read with
  | bytes data =>
    rcases reader.feed_cases data with ⟨fault, -, hfeed⟩ | ⟨frame, rest, -, hfeed⟩ |
      ⟨hdecode, hfeed⟩
    · rw [hear, hfeed] at h
      cases h
    · rw [hear, hfeed] at h
      cases h
    · rw [hear, hfeed] at h
      cases h
      exact ⟨data, rfl, rfl, hdecode⟩
  | fault kind => cases h
  | ended => cases h
  | waiting => cases h

theorem transcript_receive (reader : FrameReader) (source : Source) :
    ∃ reads, Transcript reader source reads (reader.receive source).1
      (reader.receive source).2 := by
  induction hweight : source.weight using Nat.strongRecOn generalizing reader source with
  | ind weight ih =>
    subst hweight
    rcases hread : source.read reader.room with ⟨read, rest⟩
    rw [receive_eq hread]
    cases hhear : reader.hear read with
    | inl received => exact ⟨[read], .last hread hhear⟩
    | inr next =>
      obtain ⟨data, rfl, -, -⟩ := hear_more hhear
      have hlighter : rest.weight < source.weight := by
        have hlt := Source.weight_read_lt reader.room_pos
          (Source.arrivals_ne_nil_of_read_bytes hread)
        rwa [hread] at hlt
      obtain ⟨reads, hreads⟩ := ih rest.weight hlighter next rest rfl
      exact ⟨.bytes data :: reads, .more hread hhear hreads⟩

/-- **No read is made once the bytes decide.** By induction on the reads: what was read before each
of them, with what the reader had at first, is no frame yet and no fault. -/
theorem Transcript.undecided (h : Transcript reader source reads received after)
    (hbuffer : Frame.decode reader.buffer = .ok none) :
    ∀ before read later, reads = before ++ read :: later →
      Frame.decode (reader.buffer ++ bytesRead before) = .ok none := by
  induction h with
  | last hread hover =>
    intro before read later heq
    have hbefore : before = [] := by
      cases before with
      | nil => rfl
      | cons first before => simp at heq
    rw [hbefore, bytesRead, ByteArray.append_empty]
    exact hbuffer
  | more hread hmore hlater ih =>
    intro before read later heq
    cases before with
    | nil =>
      rw [bytesRead, ByteArray.append_empty]
      exact hbuffer
    | cons first before =>
      rw [List.cons_append, List.cons.injEq] at heq
      obtain ⟨rfl, hrest⟩ := heq
      obtain ⟨data, rfl, hnext, hdecode⟩ := hear_more hmore
      rw [bytesRead, ← ByteArray.append_assoc, ← hnext]
      exact ih hdecode before read later hrest

/-! ## The result -/

/-- What reading a frame comes to that begins with some bytes and then meets `ending`. -/
def outcome (bytes : ByteArray) (ending : Read) : Received :=
  match Frame.decode bytes with
  | .error fault => .fault fault
  | .ok (some (frame, _)) => .frame frame
  | .ok none =>
    match ending with
    | .fault kind => .fault (.bare kind)
    | .waiting => .waiting
    | .ended | .bytes _ =>
      if bytes.size = 0 then .ended else .fault (endedInside bytes.size)

theorem outcome_error {bytes : ByteArray} {fault : IoFault} (h : Frame.decode bytes = .error fault)
    (ending : Read) : outcome bytes ending = .fault fault := by
  unfold outcome
  rw [h]

theorem outcome_frame {bytes behind : ByteArray} {frame : Frame}
    (h : Frame.decode bytes = .ok (some (frame, behind))) (ending : Read) :
    outcome bytes ending = .frame frame := by
  unfold outcome
  rw [h]

/-- A read that is the last one settles the result, whatever would come behind it. -/
theorem received_of_last (hread : source.read reader.room = (read, rest))
    (hover : reader.hear read = .inl received)
    (hbuffer : Frame.decode reader.buffer = .ok none) :
    received = outcome (reader.buffer ++ source.front) source.ending := by
  rcases source.read_cases reader.room with ⟨data, later, hbytes, hfront, -⟩ | ⟨later, hend, hfront⟩
  · rw [hbytes] at hread
    cases hread
    rw [hfront, ← ByteArray.append_assoc]
    rcases reader.feed_cases data with ⟨fault, hdecode, hfeed⟩ | ⟨frame, behind, hdecode, hfeed⟩ |
      ⟨-, hfeed⟩
    · rw [hear, hfeed] at hover
      cases hover
      rw [outcome_error (Frame.decode_append_error _ hdecode)]
    · rw [hear, hfeed] at hover
      cases hover
      rw [outcome_frame (Frame.decode_append_some _ hdecode)]
    · rw [hear, hfeed] at hover
      cases hover
  · rw [hend] at hread
    cases hread
    rw [hfront, ByteArray.append_empty]
    unfold outcome
    rw [hbuffer]
    cases hending : source.ending with
    | bytes data => exact absurd hending (source.ending_ne_bytes data)
    | fault kind => rw [hending] at hover; cases hover; rfl
    | waiting => rw [hending] at hover; cases hover; rfl
    | ended => rw [hending] at hover; cases hover; rfl

/-- **The result is what decoding the front gives**, or what is met behind it. By induction on the
reads: what was read moves from the front into the buffer, and the bytes of both stay the same. -/
theorem Transcript.received_eq (h : Transcript reader source reads received after)
    (hbuffer : Frame.decode reader.buffer = .ok none) :
    received = outcome (reader.buffer ++ source.front) source.ending := by
  induction h with
  | last hread hover => exact received_of_last hread hover hbuffer
  | @more reader next source rest after read reads received hread hmore hlater ih =>
    obtain ⟨data, rfl, hnext, hdecode⟩ := hear_more hmore
    rcases source.read_cases reader.room with ⟨data', later, hbytes, hfront, hending⟩ |
      ⟨later, hend, -⟩
    · rw [hbytes] at hread
      cases hread
      rw [ih hdecode, hnext, hfront, hending, ByteArray.append_assoc]
    · rw [hend, Prod.mk.injEq] at hread
      exact absurd hread.1 (source.ending_ne_bytes data)

end FrameReader

/-- What reading a frame comes to, by the bytes before the first failure and by what is met behind
them. -/
structure Received.FollowsFrom (received : Received) (front : ByteArray) (ending : Read) :
    Prop where
  frame : ∀ n frame rest, Frame.decode (front.extract 0 n) = .ok (some (frame, rest)) →
    received = .frame frame
  header : ∀ fault, Frame.decode (front.extract 0 5) = .error fault →
    received = .fault fault ∧ fault.kind = .invalidData
  /-- The failure that is met is passed on. -/
  failed : Frame.Undecided front → ∀ kind, ending = .fault kind → received = .fault (.bare kind)
  silent : Frame.Undecided front → ending = .waiting → received = .waiting
  nothing : Frame.Undecided front → ending = .ended → front.size = 0 → received = .ended
  inside : Frame.Undecided front → ending = .ended → front.size ≠ 0 → received =
    .fault ⟨.unexpectedEof, s!"stream ended inside a frame ({front.size} bytes buffered)"⟩

theorem FrameReader.outcome_followsFrom (front : ByteArray) (ending : Read) :
    (outcome front ending).FollowsFrom front ending where
  frame n frame rest h := by
    obtain ⟨behind, hall⟩ := Frame.decode_of_beginning h
    exact outcome_frame hall ending
  header fault h :=
    ⟨outcome_error (Frame.decode_of_header h) ending, Frame.invalidData_of_decode h⟩
  failed h kind hending := by
    unfold outcome
    rw [Frame.undecided_iff.1 h, hending]
  silent h hending := by
    unfold outcome
    rw [Frame.undecided_iff.1 h, hending]
  nothing h hending hsize := by
    unfold outcome
    rw [Frame.undecided_iff.1 h, hending]
    exact if_pos hsize
  inside h hending hsize := by
    unfold outcome
    rw [Frame.undecided_iff.1 h, hending]
    exact if_neg hsize

/-- A reader that has nothing yet receives what the front and the ending settle, whatever room it
starts with. -/
theorem FrameReader.receive_eq_outcome (capacity : Nat) (source : Source) :
    (({ capacity } : FrameReader).receive source).1 = outcome source.front source.ending := by
  obtain ⟨reads, hreads⟩ := transcript_receive { capacity } source
  have hreceived := hreads.received_eq Frame.decode_empty
  rwa [ByteArray.empty_append] at hreceived

/-- **Reading a frame is decoding all that comes.** If a beginning of the bytes before the first
failure is a frame, or their header is refused, then that is what is received; otherwise it is the
failure, or nothing for ever, or the end, which is clean only before the first byte. No read is made
once the bytes that were read decide. The chunks in which the bytes come, what stands behind them
and the room of the buffer do not matter. -/
theorem receiveFrame_followsFrom (source : Source) :
    (receiveFrame source).1.FollowsFrom source.front source.ending ∧
    (∃ reads, FrameReader.Transcript {} source reads (receiveFrame source).1
        (receiveFrame source).2 ∧
      ∀ before read later, reads = before ++ read :: later →
        Frame.Undecided (FrameReader.bytesRead before)) ∧
    ∀ (other : Source) (capacity : Nat), other.front = source.front →
      other.ending = source.ending →
      (({ capacity } : FrameReader).receive other).1 = (receiveFrame source).1 := by
  have hreceived : (receiveFrame source).1 = FrameReader.outcome source.front source.ending :=
    FrameReader.receive_eq_outcome readerCapacity source
  refine ⟨?_, ?_, ?_⟩
  · rw [hreceived]
    exact FrameReader.outcome_followsFrom _ _
  · obtain ⟨reads, hreads⟩ := FrameReader.transcript_receive {} source
    refine ⟨reads, hreads, fun before read later heq => ?_⟩
    have hnone := hreads.undecided Frame.decode_empty before read later heq
    rw [ByteArray.empty_append] at hnone
    exact Frame.undecided_iff.2 hnone
  · intro other capacity hfront hending
    rw [hreceived, FrameReader.receive_eq_outcome, hfront, hending]

/-- A frame in three pieces, with a byte behind it and a failure that is not met; and a header that
the channel ends in. -/
theorem receiveFrame_followsFrom_in_pieces :
    let whole : Source :=
      ⟨[.bytes ⟨#[2, 0, 0]⟩, .bytes ⟨#[0, 2, 9]⟩, .bytes ⟨#[8, 7]⟩, .fault .connectionReset], true⟩
    let cut : Source := ⟨[.bytes ⟨#[1]⟩, .bytes ⟨#[0, 0]⟩], false⟩
    (receiveFrame whole).1 = .frame (.response ⟨#[9, 8]⟩) ∧
      (receiveFrame cut).1 = .fault (endedInside 3) := by
  intro whole cut
  have hfront : whole.front = ⟨#[2, 0, 0, 0, 2, 9, 8, 7]⟩ := by decide
  have hcut : cut.front = ⟨#[1, 0, 0]⟩ := by decide
  constructor
  · have hencode : (Frame.response ⟨#[9, 8]⟩).encode = .ok ⟨#[2, 0, 0, 0, 2, 9, 8]⟩ := rfl
    have hdecode := Frame.decode_encode hencode ByteArray.empty
    rw [ByteArray.append_empty] at hdecode
    refine (receiveFrame_followsFrom whole).1.frame 7 _ ByteArray.empty ?_
    rw [hfront]
    exact hdecode
  · have hshort : Frame.Undecided cut.front :=
      Frame.undecided_iff.2 (Frame.decode_short (by rw [hcut]; decide))
    have hinside := (receiveFrame_followsFrom cut).1.inside hshort rfl (by rw [hcut]; decide)
    rw [hcut] at hinside
    exact hinside

end Switchboard
