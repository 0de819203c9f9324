import Switchboard.Handshake.Exchange
import Switchboard.Proofs.Bytes

/-!
# Reading a head piece by piece

A head is read from whatever chunks arrive. `HeadReader.readBytes` is the same reading from a list
of bytes; `readHeadFrom_chunks` shows that chunks give what their bytes give, and leave what
they leave. What is read of a beginning then follows from the number of bytes that the reading
needs, `HeadReader.need`: with fewer it is not over, and what stands behind them does not change
it (`readBytes_take`).
-/

namespace Switchboard

namespace HeadProgress

variable {α : Type}

def isOver : HeadProgress α → Bool
  | more _ => false
  | done .. | failed _ => true

end HeadProgress

namespace HeadReader

variable {α : Type} {parse : String → Except Fault α}

/-! ## Lists of bytes -/

/-- What comes of a list of bytes, and the bytes that are not touched. -/
def readBytes (parse : String → Except Fault α) :
    List UInt8 → HeadReader α → HeadProgress α × List UInt8
  | [], reader => (.more reader, [])
  | b :: bytes, reader =>
    match reader.step parse b with
    | .more reader => readBytes parse bytes reader
    | .done first headers => (.done first headers, bytes)
    | .failed fault => (.failed fault, bytes)

theorem readBytes_append (bytes later : List UInt8) (reader : HeadReader α) :
    readBytes parse (bytes ++ later) reader =
      match readBytes parse bytes reader with
      | (.more reader, _) => readBytes parse later reader
      | (progress, rest) => (progress, rest ++ later) := by
  induction bytes generalizing reader with
  | nil => rfl
  | cons b bytes ih =>
    simp only [List.cons_append, readBytes]
    cases reader.step parse b with
    | more reader => exact ih reader
    | done first headers => rfl
    | failed fault => rfl

theorem readBytes_append_more {bytes rest : List UInt8} {reader between : HeadReader α}
    (later : List UInt8) (h : readBytes parse bytes reader = (.more between, rest)) :
    readBytes parse (bytes ++ later) reader = readBytes parse later between := by
  rw [readBytes_append, h]

theorem readBytes_append_over {bytes rest : List UInt8} {reader : HeadReader α}
    {progress : HeadProgress α} (later : List UInt8)
    (h : readBytes parse bytes reader = (progress, rest)) (hover : progress.isOver = true) :
    readBytes parse (bytes ++ later) reader = (progress, rest ++ later) := by
  rw [readBytes_append, h]
  cases progress with
  | more reader => cases hover
  | done first headers => rfl
  | failed fault => rfl

/-- As long as the reading is not over, every byte is taken. -/
theorem rest_of_more {bytes rest : List UInt8} {reader between : HeadReader α}
    (h : readBytes parse bytes reader = (.more between, rest)) : rest = [] := by
  induction bytes generalizing reader with
  | nil => cases h; rfl
  | cons b bytes ih =>
    simp only [readBytes] at h
    cases hs : reader.step parse b with
    | more reader => rw [hs] at h; exact ih h
    | done first headers => rw [hs] at h; cases h
    | failed fault => rw [hs] at h; cases h

/-- A reading that is over took some first bytes, and these alone would have ended it. -/
theorem exists_taken {bytes rest : List UInt8} {reader : HeadReader α}
    {progress : HeadProgress α} (h : readBytes parse bytes reader = (progress, rest))
    (hover : progress.isOver = true) :
    ∃ taken, bytes = taken ++ rest ∧ readBytes parse taken reader = (progress, []) := by
  induction bytes generalizing reader with
  | nil => cases h; cases hover
  | cons b bytes ih =>
    simp only [readBytes] at h
    cases hs : reader.step parse b with
    | more between =>
      rw [hs] at h
      obtain ⟨taken, rfl, ht⟩ := ih h
      refine ⟨b :: taken, rfl, ?_⟩
      simp only [readBytes, hs, ht]
    | done first headers =>
      rw [hs] at h
      cases h
      exact ⟨[b], rfl, by simp only [readBytes, hs]⟩
    | failed fault =>
      rw [hs] at h
      cases h
      exact ⟨[b], rfl, by simp only [readBytes, hs]⟩

/-! ## Beginnings -/

/-- How many of some bytes it takes to read a head: more than there are if it is not over with
them. -/
def need (parse : String → Except Fault α) (bytes : List UInt8) : Nat :=
  match readBytes parse bytes {} with
  | (.more _, _) => bytes.length + 1
  | (_, rest) => bytes.length - rest.length

theorem need_of_taken {taken : List UInt8} {progress : HeadProgress α} (rest : List UInt8)
    (h : readBytes parse taken {} = (progress, [])) (hover : progress.isOver = true) :
    need parse (taken ++ rest) = taken.length := by
  rw [need, readBytes_append_over rest h hover]
  cases progress with
  | more reader => cases hover
  | done first headers => simp
  | failed fault => simp

theorem need_of_more {bytes rest : List UInt8} {reader : HeadReader α}
    (h : readBytes parse bytes {} = (.more reader, rest)) :
    need parse bytes = bytes.length + 1 := by
  rw [need, h]

/-- A reading that a beginning does not end takes all of it. -/
theorem more_of_take {bytes : List UInt8} {n : Nat} {reader : HeadReader α}
    (h : ∀ rest progress, readBytes parse bytes reader = (progress, rest ++ bytes.drop n) →
      progress.isOver = true → False) :
    ∃ between, readBytes parse (bytes.take n) reader = (.more between, []) := by
  rcases hr : readBytes parse (bytes.take n) reader with ⟨progress, rest⟩
  cases hp : progress with
  | more between =>
    subst hp
    exact ⟨between, by rw [rest_of_more hr]⟩
  | done first headers =>
    have ha := readBytes_append_over (bytes.drop n) hr (by rw [hp]; rfl)
    rw [List.take_append_drop] at ha
    exact (h rest progress ha (by rw [hp]; rfl)).elim
  | failed fault =>
    have ha := readBytes_append_over (bytes.drop n) hr (by rw [hp]; rfl)
    rw [List.take_append_drop] at ha
    exact (h rest progress ha (by rw [hp]; rfl)).elim

/-- **The reading of a head is over with the bytes that it needs, and not before.** So it is for a
beginning of a head with more bytes behind it, if there is a head for them to stand behind. -/
theorem readBytes_take (head later : List UInt8) {n : Nat} (hn : n ≤ (head ++ later).length)
    (hlater : head.length < need parse head → later = []) :
    (need parse head ≤ n → (readBytes parse head {}).1.isOver = true ∧
      readBytes parse ((head ++ later).take n) {} =
        ((readBytes parse head {}).1, ((head ++ later).take n).drop (need parse head))) ∧
    (n < need parse head →
      ∃ reader, readBytes parse ((head ++ later).take n) {} = (.more reader, [])) := by
  rcases hr : readBytes parse head {} with ⟨progress, rest⟩
  by_cases hover : progress.isOver = true
  · obtain ⟨taken, rfl, ht⟩ := exists_taken hr hover
    rw [need_of_taken rest ht hover, List.append_assoc]
    constructor
    · intro hle
      refine ⟨hover, ?_⟩
      rw [List.take_append, List.take_of_length_le hle, readBytes_append_over _ ht hover,
        List.drop_left, List.nil_append]
    · intro hlt
      rw [List.take_append_of_le_length (Nat.le_of_lt hlt)]
      refine more_of_take fun rest' progress' h _ => ?_
      have hnil : rest' ++ taken.drop n = [] := by rw [ht] at h; exact (Prod.mk.inj h).2.symm
      have hlen := congrArg List.length hnil
      simp only [List.length_append, List.length_drop, List.length_nil] at hlen
      omega
  · cases hp : progress with
    | done first headers => rw [hp] at hover; exact absurd rfl hover
    | failed fault => rw [hp] at hover; exact absurd rfl hover
    | more reader =>
      subst hp
      rw [need_of_more hr] at hlater ⊢
      rw [hlater (Nat.lt_succ_self _), List.append_nil] at hn ⊢
      refine ⟨fun hle => by omega, fun _ => more_of_take fun rest' progress' h hover' => ?_⟩
      rw [hr] at h
      cases h
      cases hover'

theorem need_le_iff {bytes : List UInt8} :
    need parse bytes ≤ bytes.length ↔ (readBytes parse bytes {}).1.isOver = true := by
  rcases hr : readBytes parse bytes {} with ⟨progress, rest⟩
  unfold need
  rw [hr]
  cases progress with
  | more reader => simp [HeadProgress.isOver]
  | done first headers => simp [HeadProgress.isOver]
  | failed fault => simp [HeadProgress.isOver]

/-! ## Chunks -/

/-- Feeding a chunk from a place on is reading the bytes from there on. -/
theorem feed_eq (data : ByteArray) (pos : Nat) (hpos : pos ≤ data.size) (reader : HeadReader α)
    {progress : HeadProgress α} {rest : List UInt8}
    (h : readBytes parse ((bytesOf data).drop pos) reader = (progress, rest)) :
    ∃ stop ≤ data.size, feed parse data pos reader = (progress, stop) ∧
      rest = (bytesOf data).drop stop := by
  induction hk : data.size - pos generalizing pos reader with
  | zero =>
    have hs : pos = data.size := by omega
    subst hs
    rw [List.drop_eq_nil_of_le (by simp)] at h
    cases h
    refine ⟨data.size, Nat.le_refl _, ?_, by simp⟩
    rw [feed, dif_neg (Nat.lt_irrefl _)]
  | succ k ih =>
    have hlt : pos < data.size := by omega
    have hb : (bytesOf data).drop pos = data[pos] :: (bytesOf data).drop (pos + 1) :=
      List.drop_eq_getElem_cons (by simpa using hlt)
    rw [hb] at h
    simp only [readBytes] at h
    rw [feed, dif_pos hlt]
    cases hs : reader.step parse data[pos] with
    | more between =>
      rw [hs] at h
      exact ih (pos + 1) hlt between h (by omega)
    | done first headers =>
      rw [hs] at h
      cases h
      exact ⟨pos + 1, hlt, rfl, rfl⟩
    | failed fault =>
      rw [hs] at h
      cases h
      exact ⟨pos + 1, hlt, rfl, rfl⟩

end HeadReader

/-- What a reading from a source gives that has come so far when the arrivals are at an end. -/
def HeadProgress.atEnd {α : Type} (silent : Bool) : HeadProgress α → HeadResult α
  | more reader => if silent then .waiting else .failed reader.atEnd
  | done first headers => .done first headers
  | failed fault => .failed fault

theorem leftOver_eq (data : ByteArray) (pos : Nat) :
    ∃ left : List ByteArray, leftOver data pos = left.map .bytes ∧
      bytesOf (joined left) = (bytesOf data).drop pos := by
  by_cases hpos : pos < data.size
  · refine ⟨[data.extract pos data.size], if_pos hpos, ?_⟩
    rw [joined_cons, joined_nil, ByteArray.append_empty, bytesOf_extract,
      List.take_of_length_le (by simp)]
  · refine ⟨[], if_neg hpos, ?_⟩
    rw [List.drop_eq_nil_of_le (by simp; omega)]
    rfl

/-- **Reading a head from chunks is reading it from their bytes.** The chunks that are left have the
bytes that are not touched. -/
theorem readHeadFrom_chunks {α : Type} (parse : String → Except Fault α) (silent : Bool)
    (chunks : List ByteArray) (reader : HeadReader α) :
    ∃ left : List ByteArray,
      readHeadFrom parse silent (chunks.map .bytes) reader =
        ((HeadReader.readBytes parse (bytesOf (joined chunks)) reader).1.atEnd silent,
          ⟨left.map .bytes, silent⟩) ∧
      bytesOf (joined left) = (HeadReader.readBytes parse (bytesOf (joined chunks)) reader).2 := by
  induction chunks generalizing reader with
  | nil => exact ⟨[], rfl, rfl⟩
  | cons chunk chunks ih =>
    rcases hr : HeadReader.readBytes parse (bytesOf chunk) reader with ⟨progress, rest⟩
    obtain ⟨stop, -, hfeed, hrest⟩ := HeadReader.feed_eq chunk 0 (Nat.zero_le _) reader hr
    obtain ⟨left, hleft, hbytes⟩ := leftOver_eq chunk stop
    simp only [List.map_cons, readHeadFrom, hfeed, joined_cons, bytesOf_append]
    cases hp : progress with
    | more between =>
      subst hp
      rw [HeadReader.readBytes_append_more _ hr]
      exact ih between
    | done first headers =>
      subst hp
      rw [HeadReader.readBytes_append_over _ hr rfl]
      refine ⟨left ++ chunks, by rw [List.map_append, ← hleft]; rfl, ?_⟩
      rw [joined_append, bytesOf_append, hbytes, hrest]
    | failed fault =>
      subst hp
      rw [HeadReader.readBytes_append_over _ hr rfl]
      refine ⟨left ++ chunks, by rw [List.map_append, ← hleft]; rfl, ?_⟩
      rw [joined_append, bytesOf_append, hbytes, hrest]

/-- A source of chunks gives their bytes, and then its end if it has one. -/
theorem Source.drain_eq (chunks : List ByteArray) (silent : Bool) :
    (Source.mk (chunks.map .bytes) silent).drain =
      (joined chunks, if silent then .waiting else .ended) := by
  have hgo : ∀ data, Source.drain.go ⟨chunks.map .bytes, silent⟩ data (chunks.map .bytes) =
      (data ++ joined chunks, if silent then .waiting else .ended) := by
    have hsilent : (Source.mk (chunks.map .bytes) silent).silent = silent := rfl
    generalize Source.mk (chunks.map .bytes) silent = source at hsilent ⊢
    induction chunks with
    | nil =>
      intro data
      rw [joined_nil, ByteArray.append_empty, ← hsilent]
      rfl
    | cons chunk chunks ih =>
      intro data
      simp only [List.map_cons, Source.drain.go, joined_cons]
      rw [ih, ByteArray.append_assoc]
  rw [Source.drain, hgo, ByteArray.empty_append]

theorem Source.drain_chunks (chunks : List ByteArray) (silent : Bool) :
    (Source.mk (chunks.map .bytes) silent).drain.1 = joined chunks := by
  rw [Source.drain_eq]

end Switchboard
