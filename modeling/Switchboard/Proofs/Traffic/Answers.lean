import Switchboard.Proofs.Traffic.Inbound

/-!
# What comes back on a stream

Somebody who sends one frame, and then waits, gets one frame back when the work that it called for
is done: `Inbound.one_frame_back`. A frame that asks for nothing sets no router to work and gets
word of it, and bytes that are no frame get nothing.

There is one exception. An answer that is too large for a frame is not sent, and nothing is sent in
its place: the service lets go of the stream, `Inbound.large_answer_lost`.
-/

namespace Switchboard

namespace Inbound

structure AtWork (work : Work ByteArray) (s : Inbound) : Prop where
  stage : ∃ began ≤ s.now, s.service.stage = .working work (work.duration.map (began + ·)) ∧
    ∀ span ∈ work.duration, s.now < began + span
  silent : s.down.Fresh
  notes : s.notes = work.started

/-- The work is done and what comes of it was sent, if a frame can carry it. -/
structure Replied (work : Work ByteArray) (s : Inbound) : Prop where
  ends : work.duration.isSome = true
  done : s.service.isDone = true
  notes : s.notes = work.started ++ work.finished
  /-- What was sent is one frame, and behind it the stream is finished. -/
  sent : work.frame.payload.size ≤ Frame.maxPayload →
    work.frame.encode = .ok s.down.written ∧ s.down.ended = true ∧ s.dropped = false
  /-- The stream is let go of before anything was sent. -/
  lost : Frame.maxPayload < work.frame.payload.size → s.down.Fresh ∧ s.dropped = true

/-- What somebody gets who called for some work, for an envelope if there was one. -/
structure Answers (work : Work ByteArray) (envelope? : Option Envelope) (s : Inbound) : Prop where
  /-- The router is set to work on nothing else, and once at most. -/
  once : s.invoked <+: envelope?.toList
  /-- Nothing is sent but a beginning of the one frame. -/
  beginning : s.down.Fresh ∨ s.down.Carries work.frame
  /-- Where the service waits, it waits for the work or has replied. -/
  settled : s.AtRest → s.invoked = envelope?.toList ∧ (s.AtWork work ∨ s.Replied work)

/-- What comes back to somebody who sent one frame, or none. -/
structure OneFrameBack (router : Router) (s : Inbound) : Prop where
  /-- A request has the router work, and what comes of it is sent. -/
  request : ∀ data envelope, s.Stays → s.Begins (.request data) .empty →
    Envelope.decode data = .ok envelope →
    s.Answers (router.dispatch envelope.method envelope.payload) (some envelope)
  /-- A request without an envelope gets word of it. -/
  malformed : ∀ data fault, s.Stays → s.Begins (.request data) .empty →
    Envelope.decode data = .error fault →
    s.Answers { outcome := .error s!"malformed request: {fault.message}" } none
  /-- So does a frame that is no request. -/
  unexpected : ∀ frame, s.Stays → s.Begins frame .empty → frame.kind ≠ .request →
    s.Answers { outcome := .error "expected a request frame" } none
  /-- What is refused as a frame gets nothing. -/
  refused : ∀ fault, Frame.decode s.up.written = .error fault →
    s.Untouched ∧ (s.AtRest → s.service.isDone = true)
  /-- Nor does what is not yet a frame, or ends before it is one. -/
  unfinished : Frame.decode s.up.written = .ok none →
    s.Untouched ∧ (s.AtRest → ¬ s.Stays → s.service.isDone = true)

variable {router : Router} {stream : StreamRef} {s : Inbound} {frame other : Frame}
  {rest : ByteArray} {need : Need} {portion : Portion}

/-! ## Where the service waits -/

theorem AtRest.waits (h : s.AtRest) (hneed : need ∈ s.service.needs) (portion : Portion) :
    s.meet need portion = none := by
  obtain ⟨place, hplace⟩ := List.mem_iff_getElem?.1 hneed
  have hnone := h place portion
  simp only [step, hplace, Option.bind_some, Option.map_eq_none_iff] at hnone
  exact hnone

/-- A service that reads waits for more, and the caller stays. -/
theorem AtRest.read_all (h : s.AtRest) {reader : FrameReader}
    (hstage : s.service.stage = .reading reader) (htaken : s.up.taken ≤ s.up.written.size) :
    s.up.taken = s.up.written.size ∧ s.Stays := by
  have hread : ∀ portion, s.up.read s.reset reader.room portion = none := by
    intro portion
    have hneed : Need.read s.service.stream reader.room ∈ s.service.needs := by
      simp [Service.needs, Service.stageNeeds, hstage]
    have hnone := h.waits hneed portion
    simpa only [meet, Option.map_eq_none_iff] using hnone
  have hneed : Need.cancelled s.service.stream.session ∈ s.service.needs := by
    simp [Service.needs, hstage]
  have hcancelled := h.waits hneed .ended
  have hroom := reader.room_pos
  have hone := hread (.bytes 1)
  have hend := hread .ended
  simp only [Flow.read, ite_eq_right_iff, reduceCtorEq, imp_false] at hone hend
  simp only [meet, ite_eq_right_iff, reduceCtorEq, imp_false, Bool.not_eq_true] at hcancelled
  have hall : s.up.taken = s.up.written.size := by omega
  simp only [hall, and_true, not_or, Bool.not_eq_true] at hend
  exact ⟨hall, hend.1, hend.2, hcancelled⟩

/-- A service that works waits for a moment that has not come. -/
theorem AtRest.not_due (h : s.AtRest) {work : Work ByteArray} {due : Option Nat}
    (hstage : s.service.stage = .working work due) : ∀ time ∈ due, s.now < time := by
  intro time htime
  have hneed : Need.moment time ∈ s.service.needs := by
    simp [Service.needs, Service.stageNeeds, hstage, Option.mem_def.1 htime]
  have hnone := h.waits hneed .ended
  simp only [meet, ite_eq_right_iff, reduceCtorEq, imp_false] at hnone
  omega

theorem AtRest.not_writing (h : s.AtRest) {data : ByteArray} {sent : Nat} (hlt : sent < data.size) :
    s.service.stage ≠ .writing data sent := by
  intro hstage
  have hneed : Need.write s.service.stream data sent ∈ s.service.needs := by
    simp [Service.needs, Service.stageNeeds, hstage, Nat.not_le.2 hlt]
  have hnone := h.waits hneed (.bytes 1)
  simp only [meet, Flow.write, Option.map_eq_none_iff, ite_eq_right_iff, reduceCtorEq,
    imp_false] at hnone
  omega

theorem AtRest.not_finishing (h : s.AtRest) : s.service.stage ≠ .finishing := by
  intro hstage
  have hneed : Need.finish s.service.stream ∈ s.service.needs := by
    simp [Service.needs, Service.stageNeeds, hstage]
  have hnone := h.waits hneed .ended
  simp only [meet, Flow.finish, Option.map_some, reduceCtorEq] at hnone

/-! ## What came first -/

theorem Begins.unique {behind : ByteArray} (h : s.Begins frame rest) (h' : s.Begins other behind) :
    frame = other ∧ rest = behind := by
  unfold Begins at h h'
  rw [h] at h'
  simpa only [Except.ok.injEq, Option.some.injEq, Prod.mk.injEq] using h'

/-- A service that is still reading has not read all of a stream that begins with a frame. -/
theorem Begins.not_all_read (h : s.Begins frame rest) {reader : FrameReader}
    (hread : s.up.ReadBy reader) : s.up.taken ≠ s.up.written.size := by
  intro hall
  have hnone := hread.pending
  rw [hread.buffer, hall, ByteArray.extract_zero_size, h] at hnone
  cases hnone

namespace Sound

/-- Nobody waits for an answer, and no frame came, where nothing was touched. -/
theorem untouched_of_no_frame (h : s.Sound router)
    (hnone : ∀ frame rest, ¬ s.Begins frame rest) :
    s.Untouched ∧ ((∃ reader, s.service.stage = .reading reader) ∨ s.service.isDone = true) := by
  have hstanding := h.standing
  unfold Standing at hstanding
  split at hstanding
  · rename_i reader hstage
    exact ⟨hstanding.2, .inl ⟨reader, hstage⟩⟩
  · obtain ⟨frame, rest, -, hbegins, -⟩ := hstanding
    exact absurd hbegins (hnone frame rest)
  · obtain ⟨frame, rest, hbegins, -⟩ := hstanding
    exact absurd hbegins (hnone frame rest)
  · obtain ⟨frame, rest, hbegins, -⟩ := hstanding
    exact absurd hbegins (hnone frame rest)
  · rename_i hstage
    cases hstanding with
    | replied hbegins => exact absurd hbegins (hnone _ _)
    | refused hbegins => exact absurd hbegins (hnone _ _)
    | untouched huntouched => exact ⟨huntouched, .inr (by simp only [Service.isDone, hstage])⟩
    | givenUp hbegins => exact absurd hbegins (hnone _ _)

/-- A service that has ended while the caller stays has replied to the one frame that came. -/
theorem replied_of_ended (hended : s.Ended router) (hdone : s.service.isDone = true)
    (hstays : s.Stays) (hbegins : s.Begins frame .empty) :
    s.invoked = frame.envelope?.toList ∧ s.Replied (router.respond frame) ∧
      (s.down.Fresh ∨ s.down.Carries (router.respond frame).frame) := by
  cases hended with
  | replied hfirst hworked hwhole hended hkept =>
    obtain ⟨rfl, -⟩ := hfirst.unique hbegins
    refine ⟨hworked.invoked, ⟨hworked.ends, hdone, hworked.notes, fun _ => ⟨hwhole, hended, hkept⟩,
      fun hlarge => ?_⟩, .inr (Flow.carries_of_whole hwhole)⟩
    rw [Frame.encode_large hlarge] at hwhole
    cases hwhole
  | refused hfirst hworked hlarge hsilent hdropped =>
    obtain ⟨rfl, -⟩ := hfirst.unique hbegins
    exact ⟨hworked.invoked, ⟨hworked.ends, hdone, hworked.notes,
      fun hfits => absurd hlarge (Nat.not_lt.2 hfits), fun _ => ⟨hsilent, hdropped⟩⟩, .inl hsilent⟩
  | untouched huntouched hreason =>
    rcases hreason with ⟨fault, hfault⟩ | hgone
    · rw [hbegins] at hfault
      cases hfault
    · exact absurd hstays hgone
  | givenUp hfirst hreason =>
    obtain ⟨rfl, hempty⟩ := hfirst.unique hbegins
    rcases hreason with hmore | hgone
    · exact absurd hempty hmore
    · exact absurd hstays hgone

/-- **One frame for the one that came**: while the caller stays and sends no more, the service does
what the frame calls for and sends what comes of it. -/
theorem answers (h : s.Sound router) (hstays : s.Stays) (hbegins : s.Begins frame .empty) :
    s.Answers (router.respond frame) frame.envelope? := by
  have hstanding := h.standing
  unfold Standing at hstanding
  split at hstanding
  · rename_i reader hstage
    obtain ⟨hread, huntouched⟩ := hstanding
    refine ⟨by rw [huntouched.unasked]; exact List.nil_prefix, .inl huntouched.silent, ?_⟩
    intro hrest
    exact absurd (hrest.read_all hstage h.taken).1 (hbegins.not_all_read hread)
  · rename_i work due hstage
    obtain ⟨other, rest, envelope, hfirst, hasks, rfl, ⟨began, hbegan, rfl⟩, -, hfresh, hinvoked,
      hnotes⟩ := hstanding
    obtain ⟨rfl, -⟩ := hfirst.unique hbegins
    have hasked : s.invoked = other.envelope?.toList := by rw [hasks]; exact hinvoked
    refine ⟨hasked ▸ List.prefix_rfl, .inl hfresh, fun hrest => ⟨hasked, .inl ⟨?_, hfresh, hnotes⟩⟩⟩
    refine ⟨began, hbegan, hstage, fun span hspan => ?_⟩
    exact hrest.not_due hstage (began + span) (Option.mem_map_of_mem _ hspan)
  · rename_i data sent hstage
    obtain ⟨other, rest, hfirst, hworked, hencode, hwritten, hlt, hopen⟩ := hstanding
    obtain ⟨rfl, -⟩ := hfirst.unique hbegins
    exact ⟨hworked.invoked ▸ List.prefix_rfl,
      .inr (Flow.carries_of_written hencode hwritten (Nat.le_of_lt hlt) hopen),
      fun hrest => absurd hstage (hrest.not_writing hlt)⟩
  · rename_i hstage
    obtain ⟨other, rest, hfirst, hworked, hencode, -⟩ := hstanding
    obtain ⟨rfl, -⟩ := hfirst.unique hbegins
    exact ⟨hworked.invoked ▸ List.prefix_rfl, .inr (Flow.carries_of_whole hencode),
      fun hrest => absurd hstage hrest.not_finishing⟩
  · rename_i hstage
    obtain ⟨hinvoked, hreplied, hbeginning⟩ := replied_of_ended hstanding
      (by simp only [Service.isDone, hstage]) hstays hbegins
    exact ⟨hinvoked ▸ List.prefix_rfl, hbeginning, fun _ => ⟨hinvoked, .inr hreplied⟩⟩

/-- What is no frame gets nothing, and the service waits only while there may come one. -/
theorem oneFrameBack (h : s.Sound router) : s.OneFrameBack router where
  request := by
    intro data envelope hstays hbegins hdecode
    have henvelope : Frame.envelope? (.request data) = some envelope := by
      simp only [Frame.envelope?, Received.envelope?, hdecode, Except.toOption]
    have hanswers := h.answers hstays hbegins
    rwa [henvelope, (Service.route_asking s.service router s.now henvelope).1]
      at hanswers
  malformed := by
    intro data fault hstays hbegins hdecode
    have hanswers := h.answers hstays hbegins
    simpa only [Router.respond, Frame.envelope?, Received.envelope?, hdecode, Except.toOption]
      using hanswers
  unexpected := by
    intro frame hstays hbegins hkind
    have hanswers := h.answers hstays hbegins
    cases frame with
    | request data => exact absurd rfl hkind
    | response data => exact hanswers
    | error text => exact hanswers
  refused := by
    intro fault hfault
    obtain ⟨huntouched, hstage⟩ := h.untouched_of_no_frame fun frame rest hbegins => by
      rw [hbegins] at hfault
      cases hfault
    refine ⟨huntouched, fun hrest => hstage.resolve_left ?_⟩
    rintro ⟨reader, hreading⟩
    have hstanding := h.standing
    simp only [Standing, hreading] at hstanding
    have hnone := hstanding.1.pending
    rw [hstanding.1.buffer, (hrest.read_all hreading h.taken).1, ByteArray.extract_zero_size,
      hfault] at hnone
    cases hnone
  unfinished := by
    intro hnone
    obtain ⟨huntouched, hstage⟩ := h.untouched_of_no_frame fun frame rest hbegins => by
      rw [hbegins] at hnone
      cases hnone
    refine ⟨huntouched, fun hrest hgone => hstage.resolve_left ?_⟩
    rintro ⟨reader, hreading⟩
    exact hgone (hrest.read_all hreading h.taken).2

end Sound

/-- A run keeps what holds of a stream, and bounds how often the service moves. -/
theorem run_sound {moves : List Move} (h : runFrom step (start stream router) moves = some s) :
    s.Sound router ∧
      moves.countP Move.isServe ≤ s.up.written.size + s.down.written.size + 4 := by
  have hkeeps : ∀ (s : Inbound) (move : Move) (s' : Inbound),
      Sound router s → s.step move = some s' → Sound router s' :=
    fun s move s' h hstep => (h.step hstep).1
  have hsound := runFrom_keeps hkeeps Sound.start h
  have hcount := runFrom_counts hkeeps Move.isServe progress
    (fun _ _ _ h hstep => (h.step hstep).2) Sound.start h
  have hstart : progress (start stream router) = 3 := rfl
  have htaken := hsound.taken
  have hrank := s.service.rank_le
  refine ⟨hsound, ?_⟩
  rw [hstart] at hcount
  simp only [progress] at hcount
  omega

/-- **Whoever sends one frame and waits gets one frame back**, for every router, whatever bytes come
in whatever pieces, and in whatever order the service and the others move. The service makes only so
many moves, so that it comes to where it waits. -/
theorem one_frame_back (stream : StreamRef) (router : Router) (moves : List Move) (s : Inbound)
    (hrun : runFrom step (start stream router) moves = some s) :
    s.OneFrameBack router ∧
      moves.countP Move.isServe ≤ s.up.written.size + s.down.written.size + 4 := by
  obtain ⟨hsound, hcount⟩ := run_sound hrun
  exact ⟨hsound.oneFrameBack, hcount⟩

/-- A router that answers with what it was sent, when a moment has passed. -/
def echoing : Router :=
  ({} : Router).onRaw "echo" fun payload => { outcome := .ok payload, duration := some 1 }

/-- The frame that asks to echo two bytes, in three pieces. -/
def inPieces : List Move :=
  [.send ⟨#[1, 0, 0]⟩, .serve 1 (.bytes 2), .send ⟨#[0, 25, 130, 166, 109, 101, 116, 104]⟩,
    .serve 1 (.bytes 9),
    .send ⟨#[111, 100, 164, 101, 99, 104, 111, 167, 112, 97, 121, 108, 111, 97, 100, 196, 2, 7, 9]⟩,
    .serve 1 (.bytes 19), .tick, .serve 1 .ended, .serve 1 (.bytes 6), .serve 1 (.bytes 1),
    .serve 1 .ended]

theorem one_frame_back_in_pieces :
    ∃ s, runFrom step (start ⟨1, 0⟩ echoing) inPieces = some s ∧
      s.down.written = ⟨#[2, 0, 0, 0, 2, 7, 9]⟩ ∧ s.down.ended = true ∧
      s.invoked = [⟨"echo", ⟨#[7, 9]⟩⟩] ∧ s.OneFrameBack echoing ∧
      inPieces.countP Move.isServe ≤ s.up.written.size + s.down.written.size + 4 := by
  have hmap : (runFrom step (start ⟨1, 0⟩ echoing) inPieces).map (fun s =>
      (s.down.written, s.down.ended, s.invoked)) =
      some (⟨#[2, 0, 0, 0, 2, 7, 9]⟩, true, [⟨"echo", ⟨#[7, 9]⟩⟩]) := by decide +kernel
  obtain ⟨s, hrun, heq⟩ := Option.map_eq_some_iff.1 hmap
  simp only [Prod.mk.injEq] at heq
  obtain ⟨hback, hcount⟩ := one_frame_back ⟨1, 0⟩ echoing inPieces s hrun
  exact ⟨s, hrun, heq.1, heq.2.1, heq.2.2, hback, hcount⟩

/-! ## The answer that is too large -/

/-- The work that ends with an answer that no frame can carry ends the service, and nothing is
sent. -/
theorem hear_large {work : Work ByteArray} {due : Option Nat} {time : Nat} {signal : Signal}
    (hstage : s.service.stage = .working work due)
    (hlarge : Frame.maxPayload < work.frame.payload.size) :
    s.hear (.moment time) signal = { s with notes := s.notes ++ work.finished }.letGo := by
  simp only [hear, Service.hear, Service.advance, hstage, Service.reply,
    Frame.encode_large hlarge, Service.conclude, Service.invocation?, List.foldl_cons,
    List.foldl_nil, perform, letGo, Option.toList_none, List.append_nil]

/-- A router with one byte more to say than a frame can carry. -/
def excessive : Router :=
  ({} : Router).onRaw "big" fun _ =>
    { outcome := .ok ⟨Array.replicate (Frame.maxPayload + 1) 7⟩ }

def bigRequest : ByteArray :=
  ⟨#[1, 0, 0, 0, 22, 130, 166, 109, 101, 116, 104, 111, 100, 163, 98, 105, 103, 167, 112, 97, 121,
    108, 111, 97, 100, 196, 0]⟩

theorem excessive_large :
    Frame.maxPayload < (excessive.dispatch "big" .empty).frame.payload.size := by
  have hpayload : (excessive.dispatch "big" .empty).frame.payload =
      ⟨Array.replicate (Frame.maxPayload + 1) 7⟩ := rfl
  rw [hpayload, ByteArray.size, Array.size_replicate]
  exact Nat.lt_succ_self _

/-- **An answer that is too large is lost**: the one frame that came is a request with an envelope,
the caller stays, the handler is done, and nothing was sent back or ever will be. -/
theorem large_answer_lost :
    ∃ s data, runFrom step (start ⟨1, 0⟩ excessive)
        [.send bigRequest, .serve 1 (.bytes 27), .serve 1 .ended] = some s ∧
      s.Stays ∧ s.Begins (.request data) .empty ∧
      Envelope.decode data = .ok ⟨"big", .empty⟩ ∧ s.invoked = [⟨"big", .empty⟩] ∧
      s.service.isDone = true ∧ s.down.written = .empty ∧ s.dropped = true := by
  -- the first two moves can be followed, the third one never writes the answer out
  have hmap : (runFrom step (start ⟨1, 0⟩ excessive) [.send bigRequest, .serve 1 (.bytes 27)]).map
      (fun s => (s.now, s.up.written, s.up.ended, s.reset, s.closed)) =
      some (0, bigRequest, false, false, false) := by decide +kernel
  have hrank : (runFrom step (start ⟨1, 0⟩ excessive) [.send bigRequest, .serve 1 (.bytes 27)]).map
      (fun s => (s.service.rank, s.invoked)) = some (4, [⟨"big", .empty⟩]) := by decide +kernel
  have hencode : (Frame.request (bigRequest.extract 5 27)).encode = .ok bigRequest := rfl
  have hdecode : Frame.decode bigRequest =
      .ok (some (.request (bigRequest.extract 5 27), .empty)) := by
    have hwhole := Frame.decode_encode hencode .empty
    rwa [ByteArray.append_empty] at hwhole
  have hencoded : bigRequest.extract 5 27 = Envelope.encode ⟨"big", .empty⟩ := by decide +kernel
  have henvelope : Envelope.decode (bigRequest.extract 5 27) = .ok ⟨"big", .empty⟩ := by
    rw [hencoded]
    exact Envelope.decode_encode (by decide +kernel)
  obtain ⟨s, hrun, heq⟩ := Option.map_eq_some_iff.1 hmap
  simp only [hrun, Option.map_some, Option.some.injEq, Prod.mk.injEq] at heq hrank
  obtain ⟨hnow, hwritten, hstays⟩ := heq
  obtain ⟨hrank, hinvoked⟩ := hrank
  have hsound := (run_sound hrun).1
  have hbegins : s.Begins (.request (bigRequest.extract 5 27)) .empty := by
    rw [Begins, hwritten]
    exact hdecode
  have hrespond : excessive.respond (.request (bigRequest.extract 5 27)) =
      excessive.dispatch "big" .empty := by
    simp only [Router.respond, henvelope]
  have hstanding := hsound.standing
  cases hstage : s.service.stage with
  | working work due =>
    simp only [Standing, hstage] at hstanding
    obtain ⟨frame, rest, envelope, hfirst, -, rfl, ⟨began, hbegan, rfl⟩, -, hfresh, -, -⟩ :=
      hstanding
    obtain ⟨rfl, -⟩ := hfirst.unique hbegins
    have hlarge : Frame.maxPayload < (excessive.respond
        (.request (bigRequest.extract 5 27))).frame.payload.size := by
      rw [hrespond]
      exact excessive_large
    have hneed : s.service.needs[1]? = some (.moment began) := by
      simp only [Service.needs, Service.stageNeeds, hstage, hrespond]
      rfl
    have hlast : s.step (.serve 1 .ended) = some (s.hear (.moment began) .done) := by
      simp only [step, hneed, Option.bind_some, meet, if_pos hbegan, Option.map_some]
    rw [hear_large hstage hlarge, hrespond] at hlast
    refine ⟨letGo { s with notes := s.notes ++ (excessive.dispatch "big" .empty).finished },
      bigRequest.extract 5 27, ?_, hstays, hbegins, henvelope, hinvoked, rfl, hfresh.empty, ?_⟩
    · obtain ⟨between, hfirst, hrest⟩ := runFrom_cons hrun
      obtain ⟨last, hsecond, hnil⟩ := runFrom_cons hrest
      cases hnil
      simp only [runFrom, hfirst, hsecond, hlast, Option.bind_some]
    · simp only [letGo, hfresh.more, Bool.not_false, Bool.or_true]
  | _ =>
    simp only [Service.rank, hstage] at hrank
    omega

end Inbound

end Switchboard
