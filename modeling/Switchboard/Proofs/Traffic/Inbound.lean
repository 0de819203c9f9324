import Switchboard.Proofs.FrameStream
import Switchboard.Proofs.Runs
import Switchboard.Proofs.Traffic.Link

/-!
# A stream that anybody may have begun

A service does not know who began its stream. Here the caller sends any bytes in any pieces, says
that it is done, resets the stream or closes the session whenever it likes, and the service that
answers the stream moves in between. `Inbound.step` makes a move of one of them.

What came first on the stream decides what the service may have done: `Inbound.Standing` says so by
the stage of the service, and `Inbound.Sound.step` that every move keeps it.
-/

namespace Switchboard

/-- The work that the first frame of a stream calls for. A frame that asks for nothing calls for
word of it. -/
def Router.respond (router : Router) : Frame → Work ByteArray
  | .request data =>
    match Envelope.decode data with
    | .ok envelope => router.dispatch envelope.method envelope.payload
    | .error fault => { outcome := .error s!"malformed request: {fault.message}" }
  | _ => { outcome := .error "expected a request frame" }

def Frame.envelope? (frame : Frame) : Option Envelope :=
  (Received.frame frame).envelope?

namespace Service

variable {frame : Frame} {envelope : Envelope}

theorem reply_stage (service : Service) (stage : ServiceStage) :
    ({ service with stage } : Service).reply frame = service.reply frame := by
  simp only [reply, conclude]

/-- A frame that asks for something sets the router to work on it. -/
theorem route_asking (service : Service) (router : Router) (now : Nat)
    (henvelope : frame.envelope? = some envelope) :
    router.respond frame = router.dispatch envelope.method envelope.payload ∧
      service.route now router (.frame frame) = service.dispatch now router envelope := by
  cases frame with
  | request data =>
    cases hdecode : Envelope.decode data with
    | ok other =>
      simp only [Frame.envelope?, Received.envelope?, hdecode, Except.toOption,
        Option.some.injEq] at henvelope
      simp only [Router.respond, route, hdecode, henvelope, and_self]
    | error fault =>
      simp only [Frame.envelope?, Received.envelope?, hdecode, Except.toOption,
        reduceCtorEq] at henvelope
  | response data => cases henvelope
  | error text => cases henvelope

theorem route_not_asking (service : Service) (router : Router) (now : Nat)
    (henvelope : frame.envelope? = none) :
    (∃ text, router.respond frame = { outcome := .error text }) ∧
      service.route now router (.frame frame) = service.reply (router.respond frame).frame := by
  cases frame with
  | request data =>
    cases hdecode : Envelope.decode data with
    | ok envelope =>
      simp only [Frame.envelope?, Received.envelope?, hdecode, Except.toOption,
        reduceCtorEq] at henvelope
    | error fault =>
      simp only [Router.respond, route, hdecode, Work.frame, and_true]
      exact ⟨_, rfl⟩
  | response data => exact ⟨⟨_, rfl⟩, rfl⟩
  | error text => exact ⟨⟨_, rfl⟩, rfl⟩

end Service

/-- **What a reader makes of the next bytes of a flow**: a fault that all of the flow has, the frame
that the flow begins with, or a reader that goes on. -/
theorem Flow.ReadBy.feed {flow : Flow} {reader : FrameReader} {n : Nat}
    (hread : flow.ReadBy reader) (hle : flow.taken + n ≤ flow.written.size) :
    (∃ fault, reader.feed (flow.written.extract flow.taken (flow.taken + n)) = .inl (.fault fault) ∧
      Frame.decode flow.written = .error fault) ∨
    (∃ frame rest,
      reader.feed (flow.written.extract flow.taken (flow.taken + n)) = .inl (.frame frame) ∧
        Frame.decode flow.written = .ok (some (frame, rest)) ∧
        flow.written.size ≤ flow.taken + n + rest.size) ∨
    ∃ next, reader.feed (flow.written.extract flow.taken (flow.taken + n)) = .inr next ∧
      ReadBy { flow with taken := flow.taken + n } next := by
  have hbuffer : reader.buffer ++ flow.written.extract flow.taken (flow.taken + n) =
      flow.written.extract 0 (flow.taken + n) := by
    rw [hread.buffer, Bytes.extract_append_next (by omega)]
  have hwhole : flow.written.extract 0 (flow.taken + n) ++
      flow.written.extract (flow.taken + n) flow.written.size = flow.written :=
    Bytes.extract_append_rest
  unfold FrameReader.feed
  simp only [hbuffer]
  cases hdecode : Frame.decode (flow.written.extract 0 (flow.taken + n)) with
  | error fault =>
    have hall := Frame.decode_append_error
      (flow.written.extract (flow.taken + n) flow.written.size) hdecode
    rw [hwhole] at hall
    exact .inl ⟨fault, rfl, hall⟩
  | ok found =>
    cases found with
    | none => exact .inr (.inr ⟨_, rfl, rfl, hdecode⟩)
    | some found =>
      have hall := Frame.decode_append_some
        (flow.written.extract (flow.taken + n) flow.written.size) hdecode
      rw [hwhole] at hall
      refine .inr (.inl ⟨found.1, _, rfl, hall, ?_⟩)
      rw [ByteArray.size_append, ByteArray.size_extract]
      omega

structure Inbound where
  now : Nat := 0
  /-- What the caller sends. -/
  up : Flow := {}
  /-- What is sent back. -/
  down : Flow := {}
  /-- Whether the caller has let go of the stream before it was done sending. -/
  reset : Bool := false
  /-- Whether the session is closed. -/
  closed : Bool := false
  service : Service
  /-- Whether the service has let go of the stream before it was done sending. -/
  dropped : Bool := false
  /-- The requests on which a router was set to work. -/
  invoked : List Envelope := []
  /-- What the work has noted. -/
  notes : List String := []

namespace Inbound

/-- The moves of the caller, of time and of the service. -/
inductive Move where
  | tick
  /-- The caller sends some bytes. -/
  | send (data : ByteArray)
  /-- The caller says that it is done sending. -/
  | finish
  /-- The caller lets go of the stream. -/
  | reset
  | close
  /-- The service goes on with one of the things that it waits for. -/
  | serve (place : Nat) (portion : Portion)

def Move.isServe : Move → Bool
  | serve .. => true
  | _ => false

/-- A stream on which nothing was sent yet, with a service that is to answer it. -/
def start (stream : StreamRef) (router : Router) : Inbound where
  service := { stream, responder := .router router }

/-- Meet a need of the service, if it can be met now. -/
def meet (need : Need) (portion : Portion) (s : Inbound) : Option (Signal × Inbound) :=
  match need with
  | .turn => some (.done, s)
  | .cancelled _ => if s.closed then some (.done, s) else none
  | .moment time => if time ≤ s.now then some (.done, s) else none
  | .read _ room =>
    (s.up.read s.reset room portion).map fun (signal, up) => (signal, { s with up })
  | .write _ data start =>
    (s.down.write s.reset data start portion).map fun (signal, down) => (signal, { s with down })
  | .finish _ =>
    (s.down.finish s.reset portion).map fun (signal, down) => (signal, { s with down })
  | _ => none

def perform (s : Inbound) : Deed → Inbound
  | .drop _ => { s with dropped := s.dropped || !s.down.ended }
  | .note lines => { s with notes := s.notes ++ lines }
  | _ => s

def hear (need : Need) (signal : Signal) (s : Inbound) : Inbound :=
  (s.service.hear s.now need signal).2.foldl perform
    { s with
      service := (s.service.hear s.now need signal).1
      invoked := s.invoked ++ (s.service.invocation? need signal).toList }

/-- What a move makes of the stream, if it is possible. -/
def step (s : Inbound) : Move → Option Inbound
  | .tick => some { s with now := s.now + 1 }
  | .send data =>
    if s.up.ended || s.reset then none
    else some { s with up := { s.up with written := s.up.written ++ data } }
  | .finish => some { s with up := { s.up with ended := true } }
  | .reset => some { s with reset := true }
  | .close => some { s with closed := true }
  | .serve place portion =>
    s.service.needs[place]?.bind fun need =>
      (s.meet need portion).map fun (signal, s) => s.hear need signal

def AtRest (s : Inbound) : Prop :=
  ∀ place portion, s.step (.serve place portion) = none

/-- The caller has not said that it is done, nor let go of the stream, nor closed the session. -/
def Stays (s : Inbound) : Prop :=
  s.up.ended = false ∧ s.reset = false ∧ s.closed = false

/-- The stream begins with a frame, behind which there is a rest. -/
def Begins (frame : Frame) (rest : ByteArray) (s : Inbound) : Prop :=
  Frame.decode s.up.written = .ok (some (frame, rest))

/-- Nothing was sent back, no router was set to work and nothing was noted. -/
structure Untouched (s : Inbound) : Prop where
  silent : s.down.Fresh
  unasked : s.invoked = []
  unnoted : s.notes = []

structure Worked (router : Router) (frame : Frame) (s : Inbound) : Prop where
  ends : (router.respond frame).duration.isSome = true
  invoked : s.invoked = frame.envelope?.toList
  notes : s.notes = (router.respond frame).started ++ (router.respond frame).finished

inductive Ended (router : Router) (s : Inbound) : Prop where
  /-- The answer was sent and the stream finished. -/
  | replied {frame : Frame} {rest : ByteArray} (begins : s.Begins frame rest)
      (worked : s.Worked router frame)
      (whole : (router.respond frame).frame.encode = .ok s.down.written)
      (ended : s.down.ended = true) (kept : s.dropped = false)
  /-- No frame can carry the answer. -/
  | refused {frame : Frame} {rest : ByteArray} (begins : s.Begins frame rest)
      (worked : s.Worked router frame)
      (large : Frame.maxPayload < (router.respond frame).frame.payload.size)
      (silent : s.down.Fresh) (dropped : s.dropped = true)
  /-- There was no frame, or not while somebody waited. -/
  | untouched (untouched : s.Untouched)
      (reason : (∃ fault, Frame.decode s.up.written = .error fault) ∨ ¬ s.Stays)
  /-- The caller spoke again or went away before the answer was sent. -/
  | givenUp {frame : Frame} {rest : ByteArray} (begins : s.Begins frame rest)
      (reason : rest ≠ ByteArray.empty ∨ ¬ s.Stays) (invoked : s.invoked = frame.envelope?.toList)
      (beginning : s.down.Fresh ∨ s.down.Carries (router.respond frame).frame)

def Standing (router : Router) (s : Inbound) : Prop :=
  match s.service.stage with
  | .reading reader => s.up.ReadBy reader ∧ s.Untouched
  | .working work due =>
    ∃ frame rest envelope, s.Begins frame rest ∧ frame.envelope? = some envelope ∧
      work = router.respond frame ∧ (∃ began ≤ s.now, due = work.duration.map (began + ·)) ∧
      s.up.written.size ≤ s.up.taken + rest.size ∧ s.down.Fresh ∧ s.invoked = [envelope] ∧
      s.notes = work.started
  | .writing data sent =>
    ∃ frame rest, s.Begins frame rest ∧ s.Worked router frame ∧
      (router.respond frame).frame.encode = .ok data ∧ s.down.written = data.extract 0 sent ∧
      sent < data.size ∧ s.down.ended = false
  | .finishing =>
    ∃ frame rest, s.Begins frame rest ∧ s.Worked router frame ∧
      (router.respond frame).frame.encode = .ok s.down.written ∧ s.down.ended = false
  | .done => s.Ended router

/-- What holds of the service and its stream, whatever anybody does. -/
structure Sound (router : Router) (s : Inbound) : Prop where
  responder : s.service.responder = .router router
  taken : s.up.taken ≤ s.up.written.size
  kept : s.service.isDone = false → s.dropped = false
  standing : s.Standing router

/-- How much has happened on the stream by the hands of the service. -/
def progress (s : Inbound) : Nat :=
  s.up.taken + s.down.written.size + s.service.rank

variable {router : Router} {stream : StreamRef} {s s' : Inbound} {frame : Frame}
  {rest more : ByteArray} {need : Need} {portion : Portion} {signal : Signal}

theorem Sound.start : Sound router (start stream router) where
  responder := rfl
  taken := Nat.le_refl _
  kept := fun _ => rfl
  standing := ⟨Flow.readBy_start rfl, ⟨rfl, rfl⟩, rfl, rfl⟩

/-! ## The moves of others -/

structure Outside (s s' : Inbound) : Prop where
  service : s'.service = s.service
  down : s'.down = s.down
  dropped : s'.dropped = s.dropped
  invoked : s'.invoked = s.invoked
  notes : s'.notes = s.notes
  taken : s'.up.taken = s.up.taken
  written : ∃ more, s'.up.written = s.up.written ++ more
  later : s.now ≤ s'.now
  stays : s'.Stays → s.Stays

namespace Outside

theorem begins (h : Outside s s') (hbegins : s.Begins frame rest) :
    ∃ more, s'.Begins frame (rest ++ more) ∧ s'.up.written = s.up.written ++ more := by
  obtain ⟨more, hmore⟩ := h.written
  refine ⟨more, ?_, hmore⟩
  unfold Begins
  rw [hmore]
  exact Frame.decode_append_some more hbegins

theorem untouched (h : Outside s s') (huntouched : s.Untouched) : s'.Untouched :=
  ⟨by rw [h.down]; exact huntouched.silent, h.invoked.trans huntouched.unasked,
    h.notes.trans huntouched.unnoted⟩

theorem worked (h : Outside s s') (hworked : s.Worked router frame) : s'.Worked router frame :=
  ⟨hworked.ends, h.invoked.trans hworked.invoked, h.notes.trans hworked.notes⟩

theorem ended (h : Outside s s') (hended : s.Ended router) : s'.Ended router := by
  cases hended with
  | replied hbegins hworked hwhole hended hkept =>
    obtain ⟨more, hbegins', -⟩ := h.begins hbegins
    exact .replied hbegins' (h.worked hworked) (by rw [h.down]; exact hwhole)
      (by rw [h.down]; exact hended) (h.dropped.trans hkept)
  | refused hbegins hworked hlarge hsilent hdropped =>
    obtain ⟨more, hbegins', -⟩ := h.begins hbegins
    exact .refused hbegins' (h.worked hworked) hlarge (by rw [h.down]; exact hsilent)
      (h.dropped.trans hdropped)
  | untouched huntouched hreason =>
    refine .untouched (h.untouched huntouched) (hreason.imp ?_ fun hgone hstays =>
      hgone (h.stays hstays))
    rintro ⟨fault, hfault⟩
    obtain ⟨more, hmore⟩ := h.written
    exact ⟨fault, by rw [hmore]; exact Frame.decode_append_error more hfault⟩
  | givenUp hbegins hreason hinvoked hbeginning =>
    obtain ⟨more, hbegins', -⟩ := h.begins hbegins
    refine .givenUp hbegins' (hreason.imp ?_ fun hgone hstays => hgone (h.stays hstays))
      (h.invoked.trans hinvoked) (by rw [h.down]; exact hbeginning)
    intro hrest hempty
    exact hrest (ByteArray.append_eq_empty_iff.1 hempty).1

theorem standing (h : Outside s s') (hsound : s.Sound router) : s'.Standing router := by
  have hstanding := hsound.standing
  unfold Standing at hstanding ⊢
  rw [h.service]
  split at hstanding
  · obtain ⟨hread, huntouched⟩ := hstanding
    obtain ⟨more, hmore⟩ := h.written
    refine ⟨⟨?_, hread.pending⟩, h.untouched huntouched⟩
    rw [h.taken, hmore, Bytes.extract_append_left hsound.taken]
    exact hread.buffer
  · obtain ⟨frame, rest, envelope, hbegins, hasks, hwork, ⟨began, hbegan, hdue⟩, hall, hfresh,
      hinvoked, hnotes⟩ := hstanding
    obtain ⟨more, hbegins', hmore⟩ := h.begins hbegins
    refine ⟨frame, rest ++ more, envelope, hbegins', hasks, hwork,
      ⟨began, Nat.le_trans hbegan h.later, hdue⟩, ?_, by rw [h.down]; exact hfresh,
      h.invoked.trans hinvoked, h.notes.trans hnotes⟩
    rw [hmore, h.taken, ByteArray.size_append, ByteArray.size_append]
    omega
  · obtain ⟨frame, rest, hbegins, hworked, hencode, hwritten, hlt, hopen⟩ := hstanding
    obtain ⟨more, hbegins', -⟩ := h.begins hbegins
    exact ⟨frame, rest ++ more, hbegins', h.worked hworked, hencode, by rw [h.down]; exact hwritten,
      hlt, by rw [h.down]; exact hopen⟩
  · obtain ⟨frame, rest, hbegins, hworked, hencode, hopen⟩ := hstanding
    obtain ⟨more, hbegins', -⟩ := h.begins hbegins
    exact ⟨frame, rest ++ more, hbegins', h.worked hworked, by rw [h.down]; exact hencode,
      by rw [h.down]; exact hopen⟩
  · exact h.ended hstanding

theorem sound (h : Outside s s') (hsound : s.Sound router) :
    s'.Sound router ∧ s'.progress = s.progress := by
  obtain ⟨more, hmore⟩ := h.written
  refine ⟨⟨by rw [h.service]; exact hsound.responder, ?_, ?_, h.standing hsound⟩, ?_⟩
  · rw [h.taken, hmore, ByteArray.size_append]
    exact Nat.le_trans hsound.taken (Nat.le_add_right ..)
  · intro hdone
    rw [h.service] at hdone
    exact h.dropped.trans (hsound.kept hdone)
  · simp only [progress, h.taken, h.down, h.service]

end Outside

/-- A move that is not of the service is made by the caller or by time. -/
theorem outside_of_step {move : Move} (hmove : move.isServe = false)
    (h : s.step move = some s') : Outside s s' := by
  have hsame : s.up.written = s.up.written ++ ByteArray.empty := ByteArray.append_empty.symm
  cases move with
  | tick =>
    cases h
    exact ⟨rfl, rfl, rfl, rfl, rfl, rfl, ⟨_, hsame⟩, Nat.le_succ _, id⟩
  | send data =>
    simp only [step] at h
    split at h
    · cases h
    · cases h
      exact ⟨rfl, rfl, rfl, rfl, rfl, rfl, ⟨data, rfl⟩, Nat.le_refl _, id⟩
  | finish =>
    cases h
    exact ⟨rfl, rfl, rfl, rfl, rfl, rfl, ⟨_, hsame⟩, Nat.le_refl _,
      fun hstays => absurd hstays.1 (by simp)⟩
  | reset =>
    cases h
    exact ⟨rfl, rfl, rfl, rfl, rfl, rfl, ⟨_, hsame⟩, Nat.le_refl _,
      fun hstays => absurd hstays.2.1 (by simp)⟩
  | close =>
    cases h
    exact ⟨rfl, rfl, rfl, rfl, rfl, rfl, ⟨_, hsame⟩, Nat.le_refl _,
      fun hstays => absurd hstays.2.2 (by simp)⟩
  | serve place portion => cases hmove

/-! ## The moves of the service -/

def letGo (s : Inbound) : Inbound :=
  { s with service := { s.service with stage := .done }, dropped := s.dropped || !s.down.ended }

theorem hear_conclude (hhear : s.service.hear s.now need signal = s.service.conclude)
    (hinvocation : s.service.invocation? need signal = none) : s.hear need signal = s.letGo := by
  simp only [hear, hhear, hinvocation, Service.conclude, List.foldl_cons, List.foldl_nil, perform,
    letGo, Option.toList_none, List.append_nil]

theorem letGo_sound (hresponder : s.service.responder = .router router)
    (htaken : s.up.taken ≤ s.up.written.size) (hrank : s.service.rank < 7)
    (hended : s.letGo.Ended router) : s.letGo.Sound router ∧ s.progress < s.letGo.progress := by
  refine ⟨⟨hresponder, htaken, fun hdone => ?_, hended⟩, ?_⟩
  · cases hdone
  · have hafter : s.letGo.service.rank = 7 := rfl
    have hdown : s.letGo.down = s.down := rfl
    have hup : s.letGo.up = s.up := rfl
    simp only [progress, hafter, hdown, hup]
    omega

/-- The answer to a frame is on its way, or the stream ends because no frame can carry it. -/
theorem reply_sound (hresponder : s.service.responder = .router router)
    (htaken : s.up.taken ≤ s.up.written.size) (hkept : s.dropped = false)
    (hrank : s.service.rank < 5) (hbegins : s.Begins frame rest)
    (hworked : s.Worked router frame) (hfresh : s.down.Fresh) :
    let (service, deeds) := s.service.reply (router.respond frame).frame
    (deeds.foldl perform { s with service }).Sound router ∧
      s.progress < (deeds.foldl perform { s with service }).progress := by
  have hworked' : ∀ service dropped, Worked router frame { s with service, dropped } :=
    fun _ _ => ⟨hworked.ends, hworked.invoked, hworked.notes⟩
  by_cases hlarge : Frame.maxPayload < (router.respond frame).frame.payload.size
  · simp only [Service.reply, Frame.encode_large hlarge]
    refine letGo_sound hresponder htaken (by omega)
      (.refused hbegins (hworked' _ _) hlarge hfresh ?_)
    simp only [letGo, hkept, hfresh.more, Bool.not_false, Bool.or_true]
  · have hencode := Frame.encode_fits (Nat.not_lt.1 hlarge)
    simp only [Service.reply, hencode, List.foldl_nil]
    refine ⟨⟨hresponder, htaken, fun _ => hkept, frame, rest, hbegins, hworked' _ _, hencode, ?_,
      ?_, hfresh.more⟩, ?_⟩
    · rw [hfresh.empty]
      exact (ByteArray.extract_eq_empty_iff.2 (by omega)).symm
    · rw [ByteArray.size_append, Frame.size_header]
      exact Nat.add_pos_left (by decide) _
    · simp only [progress]
      exact Nat.add_lt_add_left hrank _

/-- The end or a failure of a read comes of something that the caller did. -/
theorem not_stays (hend : s.up.ended = true ∨ s.reset = true ∨ s.closed = true) : ¬ s.Stays := by
  rintro ⟨hopen, hreset, hclosed⟩
  rcases hend with h | h | h
  · rw [hopen] at h; cases h
  · rw [hreset] at h; cases h
  · rw [hclosed] at h; cases h

/-- The stream after the service has read some bytes more. -/
def took (n : Nat) (s : Inbound) : Inbound :=
  { s with up := { s.up with taken := s.up.taken + n } }

/-- What a service does with a part of the stream that completes a first frame. -/
theorem hear_frame {reader : FrameReader} {data : ByteArray} {ref : StreamRef} {room : Nat}
    (hresponder : s.service.responder = .router router)
    (hstage : s.service.stage = .reading reader) (hsize : data.size ≠ 0)
    (hfeed : reader.feed data = .inl (.frame frame)) :
    let routed := { s.service with stage := .done }.route s.now router (.frame frame)
    s.hear (.read ref room) (.bytes data) = routed.2.foldl perform
      { s with service := routed.1, invoked := s.invoked ++ frame.envelope?.toList } := by
  simp only [hear, Service.hear, Service.advance, hstage, Service.read, if_neg hsize, hfeed,
    Service.take, hresponder, Service.invocation?, Frame.envelope?]

namespace Sound

/-! ### Reading -/

section

variable {reader : FrameReader} {ref : StreamRef} {room n : Nat}

theorem reads_nothing (h : s.Sound router) (hstage : s.service.stage = .reading reader)
    (hle : s.up.taken + n ≤ s.up.written.size)
    (hhear : s.service.hear s.now need signal = s.service.conclude)
    (hinvocation : s.service.invocation? need signal = none)
    (hreason : (∃ fault, Frame.decode s.up.written = .error fault) ∨ ¬ s.Stays) :
    ((s.took n).hear need signal).Sound router ∧
      s.progress < ((s.took n).hear need signal).progress := by
  have hstanding := h.standing
  simp only [Standing, hstage] at hstanding
  obtain ⟨-, huntouched⟩ := hstanding
  have hrank : (s.took n).service.rank < 7 := by
    simp only [took, Service.rank, hstage]
    omega
  rw [hear_conclude (s := s.took n) hhear hinvocation]
  have hsound := letGo_sound (s := s.took n) h.responder hle hrank (.untouched
    ⟨huntouched.silent, huntouched.unasked, huntouched.unnoted⟩ hreason)
  refine ⟨hsound.1, Nat.lt_of_le_of_lt ?_ hsound.2⟩
  simp only [progress, took]
  omega

/-- A frame that asks for something sets the router to work, any other one is answered. -/
theorem reads_frame (h : s.Sound router) (hstage : s.service.stage = .reading reader) (hn : 0 < n)
    (hle : s.up.taken + n ≤ s.up.written.size)
    (hfeed : reader.feed (s.up.written.extract s.up.taken (s.up.taken + n)) = .inl (.frame frame))
    (hbegins : s.Begins frame rest) (hall : s.up.written.size ≤ s.up.taken + n + rest.size) :
    let signal : Signal := .bytes (s.up.written.extract s.up.taken (s.up.taken + n))
    ((s.took n).hear (.read ref room) signal).Sound router ∧
      s.progress < ((s.took n).hear (.read ref room) signal).progress := by
  have hstanding := h.standing
  simp only [Standing, hstage] at hstanding
  obtain ⟨-, huntouched⟩ := hstanding
  have hkept := h.kept (by simp only [Service.isDone, hstage])
  have hsize : (s.up.written.extract s.up.taken (s.up.taken + n)).size ≠ 0 := by
    rw [ByteArray.size_extract]; omega
  dsimp only
  rw [hear_frame (s := s.took n) h.responder hstage hsize hfeed]
  cases henvelope : frame.envelope? with
  | some envelope =>
    obtain ⟨hwork, hroute⟩ := Service.route_asking { s.service with stage := .done } router s.now
      henvelope
    simp only [took, hroute, Service.dispatch, List.foldl_cons, List.foldl_nil, perform]
    refine ⟨⟨h.responder, hle, fun _ => hkept, frame, rest, envelope, hbegins, henvelope,
      hwork.symm, ⟨s.now, Nat.le_refl _, rfl⟩, hall, huntouched.silent, ?_, ?_⟩, ?_⟩
    · rw [huntouched.unasked]; rfl
    · rw [huntouched.unnoted]; rfl
    · simp only [progress, Service.rank, hstage]
      omega
  | none =>
    obtain ⟨⟨text, htext⟩, hroute⟩ := Service.route_not_asking
      { (s.took n).service with stage := .done } router (s.took n).now henvelope
    simp only [hroute, Service.reply_stage, Option.toList_none, List.append_nil]
    have hworked : (s.took n).Worked router frame := by
      refine ⟨by rw [htext]; rfl, ?_, ?_⟩
      · rw [henvelope]
        exact huntouched.unasked
      · rw [htext]
        exact huntouched.unnoted
    have hreplied := reply_sound (s := s.took n) h.responder hle hkept
      (by simp only [took, Service.rank, hstage]; omega) hbegins hworked huntouched.silent
    refine ⟨hreplied.1, Nat.lt_of_le_of_lt ?_ hreplied.2⟩
    simp only [progress, took]
    omega

/-- The service reads a part of what was sent, or learns that no more comes. -/
theorem reads (h : s.Sound router) (hstage : s.service.stage = .reading reader)
    (hmeet : s.meet (.read ref room) portion = some (signal, s')) :
    (s'.hear (.read ref room) signal).Sound router ∧
      s.progress < (s'.hear (.read ref room) signal).progress := by
  have hstanding := h.standing
  simp only [Standing, hstage] at hstanding
  obtain ⟨hread, huntouched⟩ := hstanding
  simp only [meet] at hmeet
  obtain ⟨⟨signal', up⟩, hflow, heq⟩ := Option.map_eq_some_iff.1 hmeet
  simp only [Prod.mk.injEq] at heq
  obtain ⟨rfl, rfl⟩ := heq
  rcases Flow.read_cases hflow with ⟨n, hn, hle, rfl, rfl⟩ | ⟨rfl, rfl, hend⟩ |
    ⟨fault, rfl, rfl, hreset⟩
  · have hsize : (s.up.written.extract s.up.taken (s.up.taken + n)).size ≠ 0 := by
      rw [ByteArray.size_extract]; omega
    rcases hread.feed hle with ⟨fault, hfeed, hrefused⟩ | ⟨frame, rest, hfeed, hbegins, hall⟩ |
      ⟨next, hfeed, hnext⟩
    · refine h.reads_nothing (n := n) hstage hle ?_ ?_ (.inl ⟨fault, hrefused⟩)
      · simp only [Service.hear, Service.advance, hstage, Service.read, if_neg hsize, hfeed,
          Service.take, h.responder, Service.route, Service.conclude]
      · simp only [Service.invocation?, hstage, if_neg hsize, hfeed, Received.envelope?]
    · exact h.reads_frame hstage hn hle hfeed hbegins hall
    · have hafter : hear (.read ref room)
          (.bytes (s.up.written.extract s.up.taken (s.up.taken + n))) (s.took n) =
          { s.took n with service := { s.service with stage := .reading next } } := by
        simp only [hear, took, Service.hear, Service.advance, hstage, Service.read, if_neg hsize,
          hfeed, Service.invocation?, List.foldl_nil, Option.toList_none, List.append_nil]
      change (hear _ _ (s.took n)).Sound router ∧ _ < (hear _ _ (s.took n)).progress
      rw [hafter]
      refine ⟨⟨h.responder, hle, fun _ => h.kept (by simp only [Service.isDone, hstage]), hnext,
        huntouched.silent, huntouched.unasked, huntouched.unnoted⟩, ?_⟩
      simp only [progress, took, Service.rank, hstage]
      omega
  · refine h.reads_nothing (n := 0) hstage h.taken ?_ ?_ (.inr (not_stays ?_))
    · simp only [Service.hear, Service.advance, hstage, Service.read, ByteArray.size_empty, if_true,
        Service.take, h.responder, FrameReader.ended]
      split <;> simp only [Service.route, Service.conclude, h.responder]
    · simp only [Service.invocation?, hstage, ByteArray.size_empty, if_true]
    · rcases hend with ⟨hended, -⟩ | hreset
      · exact .inl hended
      · exact .inr (.inl hreset)
  · refine h.reads_nothing (n := 0) hstage h.taken ?_ ?_ (.inr (not_stays (.inr (.inl hreset))))
    · simp only [Service.hear, Service.advance, hstage]
    · simp only [Service.invocation?, hstage]

end

/-! ### Working -/

section

variable {work : Work ByteArray} {due : Option Nat}

/-- A word of the caller, or the end of the session, while the work is under way. -/
theorem leaves_work (h : s.Sound router) (hstage : s.service.stage = .working work due) {n : Nat}
    (hle : s.up.taken + n ≤ s.up.written.size)
    (hhear : s.service.hear s.now need signal = s.service.conclude)
    (hreason : 0 < n ∨ ¬ s.Stays) :
    ((s.took n).hear need signal).Sound router ∧
      s.progress < ((s.took n).hear need signal).progress := by
  have hstanding := h.standing
  simp only [Standing, hstage] at hstanding
  obtain ⟨frame, rest, envelope, hbegins, hasks, -, -, hall, hfresh, hinvoked, -⟩ := hstanding
  have hinvocation : s.service.invocation? need signal = none := by
    simp only [Service.invocation?, hstage]
  have hrank : (s.took n).service.rank < 7 := by
    simp only [took, Service.rank, hstage]
    omega
  have hreason : rest ≠ ByteArray.empty ∨ ¬ s.Stays := by
    refine hreason.imp_left fun hn hempty => ?_
    rw [hempty, ByteArray.size_empty] at hall
    omega
  rw [hear_conclude (s := s.took n) hhear hinvocation]
  have hsound := letGo_sound (s := s.took n) h.responder hle hrank
    (.givenUp hbegins hreason (by rw [hasks]; exact hinvoked) (.inl hfresh))
  refine ⟨hsound.1, Nat.lt_of_le_of_lt ?_ hsound.2⟩
  simp only [progress, took]
  omega

theorem listens (h : s.Sound router) (hstage : s.service.stage = .working work due)
    {ref : StreamRef} {room : Nat} (hmeet : s.meet (.read ref room) portion = some (signal, s')) :
    (s'.hear (.read ref room) signal).Sound router ∧
      s.progress < (s'.hear (.read ref room) signal).progress := by
  have hhear : ∀ signal, s.service.hear s.now (.read ref room) signal = s.service.conclude := by
    intro signal
    simp only [Service.hear, Service.advance, hstage]
  simp only [meet] at hmeet
  obtain ⟨⟨signal', up⟩, hflow, heq⟩ := Option.map_eq_some_iff.1 hmeet
  simp only [Prod.mk.injEq] at heq
  obtain ⟨rfl, rfl⟩ := heq
  rcases Flow.read_cases hflow with ⟨n, hn, hle, rfl, rfl⟩ | ⟨rfl, rfl, hend⟩ |
    ⟨fault, rfl, rfl, hreset⟩
  · exact h.leaves_work hstage hle (hhear _) (.inl hn)
  · refine h.leaves_work (n := 0) hstage h.taken (hhear _) (.inr (not_stays ?_))
    rcases hend with ⟨hended, -⟩ | hreset
    · exact .inl hended
    · exact .inr (.inl hreset)
  · exact h.leaves_work (n := 0) hstage h.taken (hhear _) (.inr (not_stays (.inr (.inl hreset))))

theorem works (h : s.Sound router) (hstage : s.service.stage = .working work due) {time : Nat}
    (htime : time ∈ due) :
    (s.hear (.moment time) signal).Sound router ∧
      s.progress < (s.hear (.moment time) signal).progress := by
  have hstanding := h.standing
  simp only [Standing, hstage] at hstanding
  obtain ⟨frame, rest, envelope, hbegins, hasks, rfl, ⟨began, -, hdue⟩, -, hfresh, hinvoked,
    hnotes⟩ := hstanding
  have hafter : s.hear (.moment time) signal =
      (s.service.reply (router.respond frame).frame).2.foldl perform
        { s with
          notes := s.notes ++ (router.respond frame).finished
          service := (s.service.reply (router.respond frame).frame).1 } := by
    simp only [hear, Service.hear, Service.advance, hstage, Service.invocation?, List.foldl_cons,
      perform, Option.toList_none, List.append_nil]
  have hworked : Worked router frame
      { s with notes := s.notes ++ (router.respond frame).finished } := by
    refine ⟨?_, by rw [hasks]; exact hinvoked, by rw [hnotes]⟩
    rw [hdue, Option.mem_def] at htime
    obtain ⟨span, hspan, -⟩ := Option.map_eq_some_iff.1 htime
    rw [hspan]
    rfl
  rw [hafter]
  exact reply_sound (s := { s with notes := s.notes ++ (router.respond frame).finished })
    h.responder h.taken (h.kept (by simp only [Service.isDone, hstage]))
    (by simp only [Service.rank, hstage]; omega) hbegins hworked hfresh

end

/-! ### Writing -/

/-- The caller lets go of the stream, or the session is closed, before the answer is whole. -/
theorem leaves_answer (h : s.Sound router) (hbegins : s.Begins frame rest)
    (hworked : s.Worked router frame) (hcarries : s.down.Carries (router.respond frame).frame)
    (hrank : s.service.rank < 7) (hhear : s.service.hear s.now need signal = s.service.conclude)
    (hinvocation : s.service.invocation? need signal = none) (hgone : ¬ s.Stays) :
    (s.hear need signal).Sound router ∧ s.progress < (s.hear need signal).progress := by
  rw [hear_conclude hhear hinvocation]
  exact letGo_sound h.responder h.taken hrank
    (.givenUp hbegins (.inr hgone) hworked.invoked (.inr hcarries))

theorem writes (h : s.Sound router) {data : ByteArray} {sent : Nat} {ref : StreamRef}
    (hstage : s.service.stage = .writing data sent)
    (hmeet : s.meet (.write ref data sent) portion = some (signal, s')) :
    (s'.hear (.write ref data sent) signal).Sound router ∧
      s.progress < (s'.hear (.write ref data sent) signal).progress := by
  have hstanding := h.standing
  simp only [Standing, hstage] at hstanding
  obtain ⟨frame, rest, hbegins, hworked, hencode, hwritten, hlt, hopen⟩ := hstanding
  have hkept := h.kept (by simp only [Service.isDone, hstage])
  simp only [meet] at hmeet
  obtain ⟨⟨signal', down⟩, hflow, heq⟩ := Option.map_eq_some_iff.1 hmeet
  simp only [Prod.mk.injEq] at heq
  obtain ⟨rfl, rfl⟩ := heq
  rcases Flow.write_cases hflow with ⟨n, hn, hle, rfl, rfl⟩ | ⟨fault, rfl, rfl, hreset⟩
  · have hmore : s.down.written ++ data.extract sent (sent + n) = data.extract 0 (sent + n) := by
      rw [hwritten]
      exact Bytes.extract_append_next (by omega)
    by_cases hlast : data.size ≤ sent + n
    · have hall : s.down.written ++ data.extract sent (sent + n) = data := by
        rw [hmore, Bytes.extract_zero_of_le hlast]
      simp only [hear, Service.hear, Service.advance, hstage, Service.invocation?, if_pos hlast,
        List.foldl_nil, Option.toList_none, List.append_nil, hall]
      refine ⟨⟨h.responder, h.taken, fun _ => hkept, frame, rest, hbegins,
        ⟨hworked.ends, hworked.invoked, hworked.notes⟩, hencode, hopen⟩, ?_⟩
      simp only [progress, Service.rank, hstage, hwritten, ByteArray.size_extract]
      omega
    · simp only [hear, Service.hear, Service.advance, hstage, Service.invocation?, if_neg hlast,
        List.foldl_nil, Option.toList_none, List.append_nil]
      refine ⟨⟨h.responder, h.taken, fun _ => hkept, frame, rest, hbegins,
        ⟨hworked.ends, hworked.invoked, hworked.notes⟩, hencode, hmore, by omega, hopen⟩, ?_⟩
      simp only [progress, Service.rank, hstage, ByteArray.size_append, ByteArray.size_extract]
      omega
  · refine h.leaves_answer hbegins hworked
      (Flow.carries_of_written hencode hwritten (Nat.le_of_lt hlt) hopen)
      (by simp only [Service.rank, hstage]; omega) ?_ ?_ (not_stays (.inr (.inl hreset)))
    · simp only [Service.hear, Service.advance, hstage]
    · simp only [Service.invocation?, hstage]

/-- The answer is there, and the service says that it is done sending. -/
theorem finishes (h : s.Sound router) {ref : StreamRef} (hstage : s.service.stage = .finishing)
    (hmeet : s.meet (.finish ref) portion = some (signal, s')) :
    (s'.hear (.finish ref) signal).Sound router ∧
      s.progress < (s'.hear (.finish ref) signal).progress := by
  have hstanding := h.standing
  simp only [Standing, hstage] at hstanding
  obtain ⟨frame, rest, hbegins, hworked, hencode, hopen⟩ := hstanding
  have hkept := h.kept (by simp only [Service.isDone, hstage])
  have hhear : ∀ signal, s.service.hear s.now (.finish ref) signal = s.service.conclude := by
    intro signal
    simp only [Service.hear, Service.advance, hstage]
  have hinvocation : ∀ signal, s.service.invocation? (.finish ref) signal = none := by
    intro signal
    simp only [Service.invocation?, hstage]
  simp only [meet] at hmeet
  obtain ⟨⟨signal', down⟩, hflow, heq⟩ := Option.map_eq_some_iff.1 hmeet
  simp only [Prod.mk.injEq] at heq
  obtain ⟨rfl, rfl⟩ := heq
  rcases Flow.finish_cases hflow with ⟨rfl, rfl⟩ | ⟨fault, rfl, rfl, hreset⟩
  · rw [hear_conclude (s := { s with down := { s.down with ended := true } }) (hhear _)
      (hinvocation _)]
    refine letGo_sound h.responder h.taken (by simp only [Service.rank, hstage]; omega)
      (.replied hbegins ⟨hworked.ends, hworked.invoked, hworked.notes⟩ hencode rfl ?_)
    simp only [letGo, hkept, Bool.not_true, Bool.or_false]
  · exact h.leaves_answer hbegins hworked (Flow.carries_of_whole hencode)
      (by simp only [Service.rank, hstage]; omega) (hhear _) (hinvocation _)
      (not_stays (.inr (.inl hreset)))

/-! ### Every move -/

theorem cancelled (h : s.Sound router) (hdone : s.service.stage ≠ .done) (hclosed : s.closed = true)
    {id : Nat} :
    (s.hear (.cancelled id) signal).Sound router ∧
      s.progress < (s.hear (.cancelled id) signal).progress := by
  have hhear : s.service.hear s.now (.cancelled id) signal = s.service.conclude := rfl
  have hinvocation : s.service.invocation? (.cancelled id) signal = none := by
    unfold Service.invocation?
    cases s.service.stage <;> rfl
  have hgone : ¬ s.Stays := not_stays (.inr (.inr hclosed))
  have hrank : s.service.rank < 7 := by
    unfold Service.rank
    split <;> first | omega | contradiction
  have hstanding := h.standing
  cases hstage : s.service.stage with
  | done => exact absurd hstage hdone
  | reading reader =>
    exact h.reads_nothing (n := 0) hstage h.taken hhear hinvocation (.inr hgone)
  | working work due => exact h.leaves_work (n := 0) hstage h.taken hhear (.inr hgone)
  | writing data sent =>
    simp only [Standing, hstage] at hstanding
    obtain ⟨frame, rest, hbegins, hworked, hencode, hwritten, hlt, hopen⟩ := hstanding
    exact h.leaves_answer hbegins hworked
      (Flow.carries_of_written hencode hwritten (Nat.le_of_lt hlt) hopen) hrank hhear hinvocation
      hgone
  | finishing =>
    simp only [Standing, hstage] at hstanding
    obtain ⟨frame, rest, hbegins, hworked, hencode, -⟩ := hstanding
    exact h.leaves_answer hbegins hworked (Flow.carries_of_whole hencode) hrank hhear hinvocation
      hgone

/-- **Whatever the service is told, what holds of it and its stream goes on to hold.** -/
theorem serves (h : s.Sound router) (hneed : need ∈ s.service.needs)
    (hmeet : s.meet need portion = some (signal, s')) :
    (s'.hear need signal).Sound router ∧ s.progress < (s'.hear need signal).progress := by
  have hends : ∀ id, s.service.stage ≠ .done → s.meet (.cancelled id) portion = some (signal, s') →
      (s'.hear (.cancelled id) signal).Sound router ∧
        s.progress < (s'.hear (.cancelled id) signal).progress := by
    intro id hdone hmeet
    simp only [meet] at hmeet
    split at hmeet
    · rename_i hclosed
      cases hmeet
      exact h.cancelled hdone hclosed
    · cases hmeet
  cases hstage : s.service.stage with
  | done => simp only [Service.needs, hstage, List.not_mem_nil] at hneed
  | reading reader =>
    simp only [Service.needs, Service.stageNeeds, hstage, List.mem_cons, List.not_mem_nil,
      or_false] at hneed
    rcases hneed with rfl | rfl
    · exact hends _ (by simp [hstage]) hmeet
    · exact h.reads hstage hmeet
  | working work due =>
    simp only [Service.needs, Service.stageNeeds, hstage, List.mem_cons, List.mem_append,
      List.mem_map, List.not_mem_nil, or_false] at hneed
    rcases hneed with rfl | ⟨time, htime, rfl⟩ | rfl
    · exact hends _ (by simp [hstage]) hmeet
    · simp only [meet] at hmeet
      split at hmeet
      · cases hmeet
        exact h.works hstage (Option.mem_toList.1 htime)
      · cases hmeet
    · exact h.listens hstage hmeet
  | writing data sent =>
    have hstanding := h.standing
    simp only [Standing, hstage] at hstanding
    obtain ⟨-, -, -, -, -, -, hlt, -⟩ := hstanding
    simp only [Service.needs, Service.stageNeeds, hstage, if_neg (Nat.not_le.2 hlt), List.mem_cons,
      List.not_mem_nil, or_false] at hneed
    rcases hneed with rfl | rfl
    · exact hends _ (by simp [hstage]) hmeet
    · exact h.writes hstage hmeet
  | finishing =>
    simp only [Service.needs, Service.stageNeeds, hstage, List.mem_cons, List.not_mem_nil,
      or_false] at hneed
    rcases hneed with rfl | rfl
    · exact hends _ (by simp [hstage]) hmeet
    · exact h.finishes hstage hmeet

/-- **Every move keeps what holds of a stream**, and each move of the service gets it on. -/
theorem step (h : s.Sound router) {move : Move} (hstep : s.step move = some s') :
    s'.Sound router ∧ s.progress + (if move.isServe then 1 else 0) ≤ s'.progress := by
  cases hmove : move.isServe with
  | false =>
    obtain ⟨hsound, hprogress⟩ := (outside_of_step hmove hstep).sound h
    exact ⟨hsound, Nat.le_of_eq hprogress.symm⟩
  | true =>
    cases move with
    | serve place portion =>
      simp only [Inbound.step] at hstep
      obtain ⟨need, hneed, hmet⟩ := Option.bind_eq_some_iff.1 hstep
      obtain ⟨⟨signal, between⟩, hmeet, rfl⟩ := Option.map_eq_some_iff.1 hmet
      exact h.serves (List.mem_of_getElem? hneed) hmeet
    | _ => cases hmove

end Sound

end Inbound

end Switchboard
