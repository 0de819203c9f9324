import Switchboard.Proofs.Handshake.Decisions

/-!
# A handshake does not depend on how its bytes come

The bytes of a handshake come in chunks that nobody chooses: a chunk may end inside a character,
inside the end of a line, or after the head. `Prompt` says what that must not change. The result and
what is written depend on the bytes alone; some first bytes decide them (`Decides`), so that nothing
behind these is waited for, and nothing is decided before the last of them has come; and of what
stands behind a head nothing is lost.

Both sides read one head and then act on it (`Reads`). What the reading does to a list of bytes
therefore carries over to every script of chunks.
-/

namespace Switchboard

section Scripts

variable {α β : Type} {parse : String → Except Fault β} {IsFirst : String → β → Prop}
  {run : Source → HandshakeResult α × Connection}
  {conclude : HeadResult β → HandshakeResult α × Sink}
  {bytes rest : List UInt8} {progress : HeadProgress β}

/-- Some bytes decide how a handshake ends that reads from a source. -/
structure Decides (run : Source → HandshakeResult α × Connection) (bytes : List UInt8)
    (result : HandshakeResult α) (after : Sink) : Prop where
  ends : result ≠ .waiting
  /-- With these bytes it ends so, in whatever pieces they come, whatever stands behind them and
  whether more will come; and what stands behind them is left. -/
  enough : ∀ (chunks : List ByteArray) (silent : Bool) (rest : List UInt8),
    bytesOf (joined chunks) = bytes ++ rest →
    ∃ left : List ByteArray,
      run (.ofChunks chunks silent) = (result, ⟨⟨left.map .bytes, silent⟩, after⟩) ∧
      bytesOf (joined left) = rest
  /-- With fewer of them it waits. -/
  least : ∀ (chunks : List ByteArray) (missing : List UInt8), missing ≠ [] →
    bytesOf (joined chunks) ++ missing = bytes → (run (.ofChunks chunks true)).1 = .waiting

/-- A handshake does not depend on how its bytes come, waits for none that it does not need, and
leaves those behind its head. -/
structure Prompt (IsFirst : String → β → Prop) (run : Source → HandshakeResult α × Connection) :
    Prop where
  pieces : ∀ (chunks others : List ByteArray) (silent : Bool), joined chunks = joined others →
    (run (.ofChunks chunks silent)).1 = (run (.ofChunks others silent)).1 ∧
    (run (.ofChunks chunks silent)).2.sink = (run (.ofChunks others silent)).2.sink
  /-- If it does not wait for more, some first bytes have decided it. -/
  decided : ∀ chunks : List ByteArray, (run (.ofChunks chunks true)).1 ≠ .waiting →
    ∃ bytes rest result after,
      bytesOf (joined chunks) = bytes ++ rest ∧ Decides run bytes result after
  /-- A success is decided by a head, with the line feed of its blank line, and the connection then
  gives exactly the bytes behind it. -/
  success : ∀ (chunks : List ByteArray) (silent : Bool) (value : α),
    (run (.ofChunks chunks silent)).1 = .done value →
    ∃ head first headers rest, IsHead IsFirst head first headers ∧
      bytesOf (joined chunks) = head ++ rest ∧
      Decides run head (.done value) (run (.ofChunks chunks silent)).2.sink ∧
      (run (.ofChunks chunks silent)).2.source.drain =
        (rest.toByteArray, if silent then .waiting else .ended)
  /-- A line that is too long is a failure at the last byte that a line may have. -/
  tooLong : ∀ before line : List UInt8,
    (before = [] ∨ ∃ first headers, IsOpening IsFirst before first headers) →
    (0x0A : UInt8) ∉ line → line.length = maxLine →
    ∃ fault after, Decides run (before ++ line) (.failed fault) after

/-- A handshake reads a head, and what comes of it follows from what was read. -/
structure Reads (parse : String → Except Fault β)
    (conclude : HeadResult β → HandshakeResult α × Sink)
    (run : Source → HandshakeResult α × Connection) : Prop where
  eq : ∀ source, run source = ((conclude (readHead parse source).1).1,
    ⟨(readHead parse source).2, (conclude (readHead parse source).1).2⟩)
  waiting : (conclude .waiting).1 = .waiting
  failed : ∀ fault, (conclude (.failed fault)).1 = .failed fault
  done : ∀ first headers, (conclude (.done first headers)).1 ≠ .waiting

/-! ## Reading -/

namespace HeadProgress

/-- What a reading that is over gives does not depend on what comes then. -/
theorem atEnd_of_isOver (hover : progress.isOver = true) (silent : Bool) :
    progress.atEnd silent = progress.atEnd true ∧ progress.atEnd true ≠ .waiting := by
  cases progress with
  | more reader => cases hover
  | done first headers => exact ⟨rfl, nofun⟩
  | failed fault => exact ⟨rfl, nofun⟩

theorem isOver_of_atEnd (h : progress.atEnd true ≠ .waiting) : progress.isOver = true := by
  cases progress with
  | more reader => exact absurd rfl h
  | done first headers => rfl
  | failed fault => rfl

theorem eq_done_of_atEnd {silent : Bool} {first : β} {headers : Headers}
    (h : progress.atEnd silent = .done first headers) : progress = .done first headers := by
  cases progress with
  | more reader => cases silent <;> cases h
  | done first headers => cases h; rfl
  | failed fault => cases h

end HeadProgress

/-- A line that is too long, at the begin of a head or behind other lines. -/
theorem HeadReader.readBytes_opening_full
    (hparse : ∀ line first, parse line = .ok first ↔ IsFirst line first) {before line : List UInt8}
    (hbefore : before = [] ∨ ∃ first headers, IsOpening IsFirst before first headers)
    (hfeed : (0x0A : UInt8) ∉ line) (hsize : line.length = maxLine) :
    ∃ fault, readBytes parse (before ++ line) {} = (.failed fault, []) := by
  rcases hbefore with rfl | ⟨first, headers, hopening⟩
  · exact readBytes_full parse hfeed hsize {} rfl
  · rw [readBytes_append_more _ (readBytes_isOpening hparse hopening)]
    exact readBytes_full parse hfeed hsize _ rfl

/-! ## Handshakes that read a head -/

theorem Reads.waiting_iff (h : Reads parse conclude run) (read : HeadResult β) :
    (conclude read).1 = .waiting ↔ read = .waiting := by
  cases read with
  | waiting => exact iff_of_true h.waiting rfl
  | failed fault => exact iff_of_false (by rw [h.failed]; exact nofun) nofun
  | done first headers => exact iff_of_false (h.done first headers) nofun

theorem Reads.exists_head (h : Reads parse conclude run) {read : HeadResult β} {value : α}
    (hdone : (conclude read).1 = .done value) : ∃ first headers, read = .done first headers := by
  cases read with
  | waiting => rw [h.waiting] at hdone; cases hdone
  | failed fault => rw [h.failed] at hdone; cases hdone
  | done first headers => exact ⟨first, headers, rfl⟩

theorem Reads.ofChunks (h : Reads parse conclude run) (chunks : List ByteArray) (silent : Bool) :
    ∃ left : List ByteArray,
      run (.ofChunks chunks silent) =
        ((conclude ((HeadReader.readBytes parse (bytesOf (joined chunks)) {}).1.atEnd silent)).1,
          ⟨⟨left.map .bytes, silent⟩, (conclude
            ((HeadReader.readBytes parse (bytesOf (joined chunks)) {}).1.atEnd silent)).2⟩) ∧
      bytesOf (joined left) = (HeadReader.readBytes parse (bytesOf (joined chunks)) {}).2 := by
  obtain ⟨left, hread, hleft⟩ := readHead_ofChunks parse chunks silent
  exact ⟨left, by rw [h.eq, hread], hleft⟩

/-- Bytes with the last of which the reading is over decide the handshake. -/
theorem Reads.decides (h : Reads parse conclude run)
    (hread : HeadReader.readBytes parse bytes {} = (progress, []))
    (hover : progress.isOver = true) :
    Decides run bytes (conclude (progress.atEnd true)).1 (conclude (progress.atEnd true)).2 where
  ends := fun hwaits =>
    (HeadProgress.atEnd_of_isOver hover true).2 ((h.waiting_iff _).1 hwaits)
  enough chunks silent rest hchunks := by
    obtain ⟨left, hrun, hleft⟩ := h.ofChunks chunks silent
    rw [hchunks, HeadReader.readBytes_append_over rest hread hover] at hrun hleft
    rw [(HeadProgress.atEnd_of_isOver hover silent).1] at hrun
    exact ⟨left, hrun, hleft⟩
  least chunks missing hne hchunks := by
    obtain ⟨left, hrun, -⟩ := h.ofChunks chunks true
    rw [hrun, h.waiting_iff]
    by_contra hends
    -- Otherwise the reading would be over before the missing bytes, and would leave them.
    have hall := HeadReader.readBytes_append_over missing rfl (HeadProgress.isOver_of_atEnd hends)
    rw [hchunks, hread] at hall
    exact hne (List.append_eq_nil_iff.1 (Prod.mk.inj hall).2.symm).2

/-- **A handshake that reads one head and acts on it is prompt.** -/
theorem Reads.prompt (h : Reads parse conclude run)
    (hparse : ∀ line first, parse line = .ok first ↔ IsFirst line first) : Prompt IsFirst run where
  pieces chunks others silent hjoined := by
    obtain ⟨left, hrun, -⟩ := h.ofChunks chunks silent
    obtain ⟨left', hrun', -⟩ := h.ofChunks others silent
    rw [hrun, hrun', hjoined]
    exact ⟨rfl, rfl⟩
  decided chunks hends := by
    obtain ⟨left, hrun, -⟩ := h.ofChunks chunks true
    rw [hrun] at hends
    have hover := HeadProgress.isOver_of_atEnd fun hwaits => hends ((h.waiting_iff _).2 hwaits)
    obtain ⟨taken, htaken, hread⟩ := HeadReader.exists_taken rfl hover
    exact ⟨taken, _, _, _, htaken, h.decides hread hover⟩
  success chunks silent value hdone := by
    obtain ⟨left, hrun, hleft⟩ := h.ofChunks chunks silent
    rw [hrun] at hdone ⊢
    obtain ⟨first, headers, hend⟩ := h.exists_head hdone
    have hall : HeadReader.readBytes parse (bytesOf (joined chunks)) {} =
        (.done first headers, bytesOf (joined left)) :=
      Prod.ext (HeadProgress.eq_done_of_atEnd hend) hleft.symm
    obtain ⟨head, hbytes, hread⟩ := HeadReader.exists_taken hall rfl
    obtain ⟨_, hhead, heq⟩ := (HeadReader.readBytes_eq_done_iff hparse).1 hread
    rw [List.append_nil] at heq
    subst heq
    have hdecides := h.decides hread rfl
    rw [hend] at hdone ⊢
    have hvalue : (conclude (.done first headers)).1 = .done value := hdone
    refine ⟨head, first, headers, bytesOf (joined left), hhead, hbytes, hvalue ▸ hdecides, ?_⟩
    rw [Source.drain_eq]
    exact congrArg (·, _) (bytesOf_inj (by simp [bytesOf]))
  tooLong before line hbefore hfeed hsize := by
    obtain ⟨fault, hread⟩ := HeadReader.readBytes_opening_full hparse hbefore hfeed hsize
    exact ⟨fault, _, h.failed fault ▸ h.decides hread rfl⟩

/-- A handshake that fails without reading waits for no byte. -/
theorem decides_nothing {fault : Fault} {after : Sink}
    (h : ∀ source, run source = (.failed fault, ⟨source, after⟩)) :
    Decides run [] (.failed fault) after where
  ends := nofun
  enough chunks silent rest hchunks :=
    ⟨_, h _, by rw [joined_filter, hchunks, List.nil_append]⟩
  least chunks missing hne hchunks := absurd (List.append_eq_nil_iff.1 hchunks).2 hne

end Scripts

namespace Connection

/-! ## The two sides -/

theorem grantUpgrade_reads (peer : String) (expected : Option String) (sink : Sink) :
    Reads parseRequestLine (verdict peer expected sink)
      fun source => grantUpgrade peer expected ⟨source, sink⟩ where
  eq source := grantUpgrade_eq peer expected source sink
  waiting := rfl
  failed _ := rfl
  done := by
    rintro ⟨method, path⟩ headers
    simp only [verdict]
    cases RequestHead.refusal? ⟨method, path, headers⟩ expected with
    | some refusal => rintro ⟨⟩
    | none => rcases sink.send Answer.switching.bytes with ⟨fault | fault, after⟩ <;> rintro ⟨⟩

theorem seekUpgrade_reads {request : UpgradeRequest} {text : String} {sink after : Sink}
    (hhead : request.head = .ok text) (hsend : sink.send text.toUTF8 = (none, after))
    (peer : String) :
    Reads (parseStatusLine peer) (fun read => (settlement read, after))
      fun source => seekUpgrade peer request ⟨source, sink⟩ where
  eq := seekUpgrade_eq hhead hsend peer
  waiting := rfl
  failed _ := rfl
  done _ _ := nofun

theorem seekUpgrade_unsent {request : UpgradeRequest} {sink : Sink}
    (h : ∀ text after, request.head = .ok text → sink.send text.toUTF8 ≠ (none, after))
    (peer : String) :
    ∃ fault after, ∀ source, seekUpgrade peer request ⟨source, sink⟩ =
      (.failed fault, ⟨source, after⟩) := by
  cases hhead : request.head with
  | error fault => exact ⟨fault, sink, fun source => by simp only [seekUpgrade, hhead]⟩
  | ok text =>
    rcases hsend : sink.send text.toUTF8 with ⟨fault | fault, after⟩
    · exact absurd hsend (h text after hhead)
    · exact ⟨.transport fault, after, fun source => by
        simp only [seekUpgrade, hhead, send_eq, hsend]⟩

/-- **A handshake does not depend on how its bytes come**, waits for no byte beyond the one that
decides it, and leaves all that stands behind a head. So it is for a server, whatever path it
expects and whatever becomes of its answer, and for an agent once its head is sent; if it cannot be
sent, no byte is waited for. -/
theorem handshakes_prompt (peer : String) (sink : Sink) :
    (∀ expected, Prompt IsRequestLine fun source => grantUpgrade peer expected ⟨source, sink⟩) ∧
    ∀ request : UpgradeRequest,
      (∀ text, request.head = .ok text → sink.TakesAll →
        Prompt IsSwitchLine fun source => seekUpgrade peer request ⟨source, sink⟩) ∧
      (Prompt IsSwitchLine (fun source => seekUpgrade peer request ⟨source, sink⟩) ∨
        ∃ fault after,
          Decides (fun source => seekUpgrade peer request ⟨source, sink⟩) [] (.failed fault)
            after) := by
  refine ⟨fun expected => (grantUpgrade_reads peer expected sink).prompt parseRequestLine_eq_ok_iff,
    fun request => ⟨fun text hhead htakes => ?_, ?_⟩⟩
  · obtain ⟨after, hsend, -⟩ := htakes.send text.toUTF8
    exact (seekUpgrade_reads hhead hsend peer).prompt (parseStatusLine_eq_ok_iff peer)
  · by_cases hsent : ∃ text after,
        request.head = .ok text ∧ sink.send text.toUTF8 = (none, after)
    · obtain ⟨text, after, hhead, hsend⟩ := hsent
      exact .inl ((seekUpgrade_reads hhead hsend peer).prompt (parseStatusLine_eq_ok_iff peer))
    · obtain ⟨fault, after, hrun⟩ := seekUpgrade_unsent
        (fun text after hhead hsend => hsent ⟨text, after, hhead, hsend⟩) peer
      exact .inr ⟨fault, after, decides_nothing hrun⟩

end Connection

end Switchboard
