import Switchboard.Proofs.Frames.Receiving
import Switchboard.Proofs.Lifetime.Needs
import Switchboard.Proofs.Streams.Opened

/-!
# A call and its peer

An `Exchange` is a call on a fabric. The call looks for what it waits for (`poll`), the connection
of its session moves packets between two channels whose other ends a peer holds that may do what it
likes, and everybody else does what they do, as long as they leave the call its stream (`Others`).
`Follows` is any course of these.

`Stands` says by its stage what the call has done so far and has read. What the peer has sent is
what the call has read and what waits for it at the end of its stream (`arrived`): a course only
adds to it (`Follows.arrived`), and no poll loses any of it (`Turns.arrived`). By that, by what was
sent and by the time, `Ends` says how a call ends and `Waits` why it does not end yet.
-/

namespace Switchboard

open Mux

namespace CallStage

/-- The stream of a call, once there is one: the one that was granted, or the one in use. -/
def stream? (s : Session) : CallStage → Option Nat
  | opening request => s.granted? request
  | writing ref _ _ | reading ref _ | finishing ref _ => some ref.stream
  | asking | done _ => none

def IsOn (session : Nat) : CallStage → Prop
  | writing ref _ _ | reading ref _ | finishing ref _ => ref.session = session
  | asking | opening _ | done _ => True

def rank : CallStage → Nat
  | asking => 0
  | opening _ => 1
  | writing .. => 2
  | reading .. => 3
  | finishing .. => 4
  | done _ => 5

/-- What others make of a session leaves it tidy, and a call at a stage its stream. -/
structure Spares (stage : CallStage) (s s' : Session) : Prop where
  tidy : s'.Tidy
  stream : stage.stream? s' = stage.stream? s
  carries : ∀ k e, stage.stream? s = some k → s.connection.Carries k e → s'.connection.Carries k e

end CallStage

structure Exchange where
  fabric : Fabric
  call : Call
  /-- How many bytes of its request the stream has taken. -/
  sent : Nat := 0
  /-- The bytes that it has read. -/
  read : ByteArray := ByteArray.empty
  /-- Whether the peer has sent anything on the stream after it was done with it. -/
  spokeOn : Bool := false

namespace Exchange

def session? (t : Exchange) : Option Session :=
  t.fabric.session? t.call.session

def isClosed (t : Exchange) : Bool :=
  t.fabric.isClosed t.call.session

def streamEnd? (t : Exchange) : Option StreamEnd :=
  t.session?.bind fun s =>
    (t.call.stage.stream? s).bind fun k => s.connection.ends.find? (·.id = k)

/-- What has arrived on the stream: what the call has read, and what it has not. -/
def arrived (t : Exchange) : ByteArray :=
  t.read ++ (t.streamEnd?.map (·.inbox)).getD ByteArray.empty

def isOver (t : Exchange) : Bool :=
  t.streamEnd?.any fun e => !e.phase.canRead

/-- Whether the peer has put an end to what the call may send. -/
def isShut (t : Exchange) : Bool :=
  t.streamEnd?.any fun e => !e.phase.canWrite

/-- Whether the stream takes no more of the request for now. -/
def isFull (t : Exchange) : Bool :=
  t.streamEnd?.any (·.isFull)

/-- Whether the stream can take no word that the call is done with it: as many packets as may be are
on their way to the peer. -/
def isCrowded (t : Exchange) : Bool :=
  t.streamEnd?.any fun e => e.phase ≠ .ended && orderLimit ≤ e.outstanding

def on (f : Fabric) (t : Exchange) : Exchange :=
  { t with fabric := f }

/-- The exchange once the call was told something. -/
def told (signal : Signal) (t : Exchange) : Exchange :=
  match signal with
  | .taken count => { t with sent := t.sent + count }
  | .bytes data => { t with read := t.read ++ data }
  | _ => t

def hear (need : Need) (signal : Signal) (fabric : Fabric) (t : Exchange) : Exchange :=
  { t.told signal with
    fabric := (t.call.hear need signal).2.foldl Fabric.perform fabric
    call := (t.call.hear need signal).1 }

/-- The call looks for what it waits for; whether any of it was there. -/
def poll (t : Exchange) : Bool × Exchange :=
  match t.fabric.meetFirst (t.call.needs.map ((0, ·))) with
  | (some (_, need, signal), fabric) => (true, t.hear need signal fabric)
  | (none, fabric) => (false, t.on fabric)

/-- The exchange once the connection of the session has made a move. -/
def worked (t : Exchange) : Exchange :=
  let next := t.on (t.fabric.stepSession t.call.session).2
  { next with spokeOn := t.spokeOn || t.isOver && next.arrived ≠ t.arrived }

structure Others (t : Exchange) (fabric : Fabric) : Prop where
  becomes : t.fabric.Becomes fabric
  later : t.fabric.now ≤ fabric.now
  leaves : ∀ s s', t.session? = some s → fabric.session? t.call.session = some s' →
    s'.isClosed = false → s.Tidy → t.call.stage.Spares s s'

/-- What may come of an exchange, and how often the call heard something meanwhile. -/
inductive Follows (t : Exchange) : Nat → Exchange → Prop
  | here : Follows t 0 t
  | poll {n : Nat} {t' : Exchange} (h : Follows t n t') :
      Follows t (n + t'.poll.1.toNat) t'.poll.2
  | work {n : Nat} {t' : Exchange} (h : Follows t n t') : Follows t n t'.worked
  | others {n : Nat} {t' : Exchange} {fabric : Fabric} (h : Follows t n t')
      (hothers : t'.Others fabric) : Follows t n (t'.on fabric)

/-- What the call has come to, but for word that it is done with its stream. -/
inductive Settles (t : Exchange) : Except Fault ByteArray → Prop where
  | frame {frame : Frame} {rest : ByteArray}
      (begins : Frame.decode t.read = .ok (some (frame, rest))) :
      Settles t (Call.reply (.frame frame))
  | ended (unread : t.read.size = 0) (isOver : t.isClosed = false → t.isOver = true)
      (empty : t.isClosed = false → t.spokeOn = false → t.arrived.size = 0) :
      Settles t (Call.reply .ended)

inductive Waits (t : Exchange) : Prop where
  /-- It has no stream yet. -/
  | opens (nothing : t.sent = 0) (unopened : t.streamEnd? = none)
  /-- Its request is not written, and the peer does not let it be. -/
  | writes (fits : t.call.request.size ≤ Frame.maxPayload)
      (left : t.sent < t.call.request.size + Frame.headerSize) (full : t.isFull = true)
  /-- What has arrived is no frame, no header that is refused, and not all. -/
  | listens (written : t.sent = t.call.request.size + Frame.headerSize)
      (undecided : Frame.decode t.arrived = .ok none) (goesOn : t.isOver = false)
  /-- It has read what it was to read, and cannot pass on word that it is done. -/
  | finishes {outcome : Except Fault ByteArray}
      (written : t.sent = t.call.request.size + Frame.headerSize) (settles : t.Settles outcome)
      (crowded : t.isCrowded = true)

/-- The request was written and nothing is left but to end the call. -/
structure Written (t : Exchange) : Prop where
  all : t.sent = t.call.request.size + Frame.headerSize
  free : t.isCrowded = false

/-- How a call ends, by how far it has got and by what its peer has done until then. -/
inductive Ends (t : Exchange) : Except Fault ByteArray → Prop where
  | closed (closed : t.isClosed = true) : Ends t (.error .closed)
  /-- No frame can carry the request, of which nothing was sent. -/
  | tooLarge (large : Frame.maxPayload < t.call.request.size) (nothing : t.sent = 0)
      (opened : t.streamEnd?.isSome = true) :
      Ends t (.error (.transport (Frame.tooLarge .invalidInput t.call.request.size)))
  /-- The peer did not let the request be written. -/
  | unwritten (fits : t.call.request.size ≤ Frame.maxPayload)
      (left : t.sent < t.call.request.size + Frame.headerSize) (shut : t.isShut = true)
      (room : t.isFull = false) :
      Ends t (.error (.transport StreamEnd.writeFault))
  | response {data rest : ByteArray} (written : t.Written)
      (begins : Frame.decode t.arrived = .ok (some (.response data, rest))) : Ends t (.ok data)
  | remote {text : String} {rest : ByteArray} (written : t.Written)
      (begins : Frame.decode t.arrived = .ok (some (.error text, rest))) :
      Ends t (.error (.remote text))
  | request {data rest : ByteArray} (written : t.Written)
      (begins : Frame.decode t.arrived = .ok (some (.request data, rest))) :
      Ends t (.error (.malformed "peer answered with a request frame"))
  /-- The stream was over before anything arrived on it. -/
  | nothing (written : t.Written) (isOver : t.isOver = true) (unread : t.read.size = 0)
      (empty : t.spokeOn = false → t.arrived.size = 0) :
      Ends t (.error (.malformed "stream closed before a response arrived"))
  | invalid {fault : IoFault} (written : t.sent = t.call.request.size + Frame.headerSize)
      (header : Frame.decode t.arrived = .error fault) (kind : fault.kind = .invalidData) :
      Ends t (.error (.transport fault))
  /-- The stream was over inside a frame. -/
  | cutOff (written : t.sent = t.call.request.size + Frame.headerSize) (isOver : t.isOver = true)
      (begun : t.arrived.size ≠ 0) (inside : Frame.decode t.arrived = .ok none) :
      Ends t (.error (.transport (endedInside t.arrived.size)))
  /-- The time is up, and what the call waits for is not there. -/
  | late (due : t.call.deadline ≤ t.fabric.now) (waits : t.Waits) :
      Ends t (.error (.timeout t.call.limit))

/-- What the call has sent and read when it is at a stage. -/
def Stands (t : Exchange) : CallStage → Prop
  | .asking | .opening _ => t.sent = 0 ∧ t.read = ByteArray.empty
  | .writing _ data sent => (Frame.request t.call.request).encode = .ok data ∧ t.sent = sent ∧
      sent < data.size ∧ t.read = ByteArray.empty
  | .reading _ reader => t.sent = t.call.request.size + Frame.headerSize ∧
      reader.buffer = t.read ∧ Frame.decode t.read = .ok none
  | .finishing _ outcome => t.sent = t.call.request.size + Frame.headerSize ∧ t.Settles outcome
  | .done _ => True

/-- The session of a call is in order and has its stream. -/
structure Serves (stage : CallStage) (s : Session) : Prop where
  tidy : s.Tidy
  carries : ∀ k, stage.stream? s = some k → ∃ e, s.connection.Carries k e

structure Sound (t : Exchange) : Prop where
  session : ∃ s, t.session? = some s ∧ s.Sound ∧ (s.isClosed = false → Serves t.call.stage s)
  place : t.call.stage.IsOn t.call.session
  stands : t.Stands t.call.stage

def progress (t : Exchange) : Nat :=
  t.sent + t.read.size + t.call.stage.rank

variable {t t' : Exchange} {f : Fabric} {s s' : Session} {k n : Nat} {e : StreamEnd}
  {signal : Signal} {outcome : Except Fault ByteArray}

@[simp] theorem on_call (t : Exchange) (f : Fabric) : (t.on f).call = t.call := rfl

@[simp] theorem on_read (t : Exchange) (f : Fabric) : (t.on f).read = t.read := rfl

/-! ## What others do -/

theorem isClosed_eq (hs : t.session? = some s) : t.isClosed = s.isClosed :=
  Fabric.isClosed_of_session hs

theorem streamEnd?_of_carries (hs : t.session? = some s) (hk : t.call.stage.stream? s = some k)
    (h : s.connection.Carries k e) : t.streamEnd? = some e := by
  unfold streamEnd?
  rw [hs, Option.bind_some, hk, Option.bind_some, h.find?]

theorem streamEnd?_of_none (hs : t.session? = some s) (hk : t.call.stage.stream? s = none) :
    t.streamEnd? = none := by
  unfold streamEnd?
  rw [hs, Option.bind_some, hk, Option.bind_none]

/-- What a session does for a call while the call does nothing: its stream stays, with what arrives
behind what is there, and a stream that it is granted is new. -/
structure Tends (stage : CallStage) (s s' : Session) : Prop where
  tidy : s'.Tidy
  stays : ∀ k e, stage.stream? s = some k → s.connection.Carries k e →
    stage.stream? s' = some k ∧ ∃ more e', s'.connection.Carries k e' ∧ e.Grows more e'
  begins : stage.stream? s = none → ∀ k, stage.stream? s' = some k →
    ∃ e, s'.connection.Carries k e ∧ e.inbox = ByteArray.empty

theorem Tends.refl (h : s.Tidy) (stage : CallStage) : Tends stage s s where
  tidy := h
  stays _ e hk hcarries := ⟨hk, _, e, hcarries, .refl e⟩
  begins hnone k hk := by rw [hnone] at hk; cases hk

theorem Tends.of_proceeds (h : s.Proceeds s') (stage : CallStage) : Tends stage s s' where
  tidy := h.tidy
  stays k e hk hcarries := by
    refine ⟨?_, h.carries k e hcarries⟩
    cases stage with
    | opening request => exact h.stays request k hk
    | _ => exact hk
  begins hnone k hk := by
    cases stage with
    | opening request =>
      rcases h.granted request k hk with hold | hnew
      · exact absurd (hold.symm.trans hnone) (Option.some_ne_none k)
      · exact hnew
    | _ => exact absurd (hk.symm.trans hnone) (Option.some_ne_none k)

theorem Tends.serves {stage : CallStage} (h : Tends stage s s') (hserves : Serves stage s) :
    Serves stage s' := by
  refine ⟨h.tidy, fun k hk => ?_⟩
  cases hstream : stage.stream? s with
  | none =>
    obtain ⟨e, hcarries, -⟩ := h.begins hstream k hk
    exact ⟨e, hcarries⟩
  | some j =>
    obtain ⟨e, hcarries⟩ := hserves.carries j hstream
    obtain ⟨hj, more, e', hcarries', -⟩ := h.stays j e hstream hcarries
    cases hj.symm.trans hk
    exact ⟨e', hcarries'⟩

/-- What has arrived stays, with more behind it, and what is over stays over. -/
theorem Tends.arrived (h : Tends t.call.stage s s') (hserves : Serves t.call.stage s)
    (hs : t.session? = some s) (hs' : f.session? t.call.session = some s') :
    (∃ more, (t.on f).arrived = t.arrived ++ more) ∧
      (t.isOver = true → (t.on f).isOver = true) := by
  cases hstream : t.call.stage.stream? s with
  | none =>
    have hend := streamEnd?_of_none hs hstream
    refine ⟨⟨ByteArray.empty, ?_⟩, fun hover => ?_⟩
    · cases hstream' : t.call.stage.stream? s' with
      | none =>
        have hend' : (t.on f).streamEnd? = none := streamEnd?_of_none hs' hstream'
        simp [Exchange.arrived, hend, hend']
      | some k =>
        obtain ⟨e, hcarries, hempty⟩ := h.begins hstream k hstream'
        have hend' : (t.on f).streamEnd? = some e :=
          streamEnd?_of_carries hs' hstream' hcarries
        simp [Exchange.arrived, hend, hend', hempty]
    · rw [isOver, hend] at hover
      cases hover
  | some k =>
    obtain ⟨e, hcarries⟩ := hserves.carries k hstream
    obtain ⟨hstream', more, e', hcarries', hgrows⟩ := h.stays k e hstream hcarries
    have hend := streamEnd?_of_carries hs hstream hcarries
    have hend' : (t.on f).streamEnd? = some e' :=
      streamEnd?_of_carries hs' hstream' hcarries'
    refine ⟨⟨more, ?_⟩, fun hover => ?_⟩
    · simp [Exchange.arrived, hend, hend', hgrows.inbox, ByteArray.append_assoc]
    · simp only [isOver, hend, hend', Option.any_some, Bool.not_eq_true'] at hover ⊢
      exact hgrows.heard hover

/-- What the session does for a call leaves the exchange sound, and loses nothing that arrived. -/
theorem Sound.tends (h : t.Sound) (hs : t.session? = some s)
    (hs' : f.session? t.call.session = some s') (hbecomes : s.Becomes s')
    (htends : s'.isClosed = false → s.Tidy → Tends t.call.stage s s') (spokeOn : Bool)
    (hquiet : s'.isClosed = false → t.isOver = true → spokeOn = false →
      t.spokeOn = false ∧ (t.on f).arrived = t.arrived) :
    ({ t.on f with spokeOn } : Exchange).Sound ∧
      (s'.isClosed = false → ∃ more, (t.on f).arrived = t.arrived ++ more) := by
  obtain ⟨r, hr, hsound, hserves⟩ := h.session
  cases hr.symm.trans hs
  have hopen : s'.isClosed = false → s.isClosed = false := fun hs' => by
    cases hclosed : s.isClosed with
    | false => rfl
    | true => rw [hbecomes.isClosed hclosed] at hs'; cases hs'
  have hgoes : s'.isClosed = false → Serves t.call.stage s ∧ Tends t.call.stage s s' := fun hs' =>
    ⟨hserves (hopen hs'), htends hs' (hserves (hopen hs')).tidy⟩
  have hclosed : (t.on f).isClosed = s'.isClosed := isClosed_eq (t := t.on f) hs'
  refine ⟨⟨⟨s', hs', hbecomes.sound hsound, fun hopens => ?_⟩, h.place, ?_⟩, fun hopens => ?_⟩
  · obtain ⟨hserves, htends⟩ := hgoes hopens
    exact htends.serves hserves
  · have hstands := h.stands
    change Stands _ t.call.stage
    cases hstage : t.call.stage with
    | finishing ref outcome =>
      rw [hstage] at hstands
      refine ⟨hstands.1, ?_⟩
      cases hstands.2 with
      | frame begins => exact .frame begins
      | ended unread isOver empty =>
        have hopens : (t.on f).isClosed = false → s'.isClosed = false ∧ t.isClosed = false :=
          fun h => ⟨hclosed ▸ h, (isClosed_eq hs).trans (hopen (hclosed ▸ h))⟩
        refine .ended unread (fun h => ?_) fun h hspoke => ?_
        · obtain ⟨hserves, htends⟩ := hgoes (hopens h).1
          exact (htends.arrived hserves hs hs').2 (isOver (hopens h).2)
        · obtain ⟨hbefore, harrived⟩ := hquiet (hopens h).1 (isOver (hopens h).2) hspoke
          exact Eq.trans (congrArg ByteArray.size harrived) (empty (hopens h).2 hbefore)
    | _ => rw [hstage] at hstands; exact hstands
  · obtain ⟨hserves, htends⟩ := hgoes hopens
    exact (htends.arrived hserves hs hs').1

/-- A session that makes a move makes one of its connection. -/
theorem session?_stepSession (hs : f.session? k = some s) :
    (f.stepSession k).2.session? k = some s ∨
      ∃ s' input output input' output', s.step f.now input output = some (s', input', output') ∧
        (f.stepSession k).2.session? k = some s' := by
  rcases f.stepSession_cases k with heq | ⟨r, s', pipes, hr, ⟨_, _, _, _, hstep⟩, heq⟩
  · exact .inl (by rw [heq, hs])
  · cases hr.symm.trans hs
    refine .inr ⟨s', _, _, _, _, hstep, ?_⟩
    rw [heq]
    change (f.onSession k _).2.session? k = _
    rw [Fabric.session?_onSession, if_pos rfl, hs]
    rfl

theorem Sound.worked (h : t.Sound) : t.worked.Sound ∧
    (t.worked.isClosed = false → ∃ more, t.worked.arrived = t.arrived ++ more) := by
  obtain ⟨s, hs, -, -⟩ := h.session
  have hcourse : ∃ s', t.worked.session? = some s' ∧ s.Becomes s' ∧
      (s'.isClosed = false → s.Tidy → Tends t.call.stage s s') := by
    rcases session?_stepSession hs with hsame | ⟨s', input, output, input', output', hstep, hs'⟩
    · exact ⟨s, hsame, .refl s, fun _ htidy => .refl htidy _⟩
    · refine ⟨s', hs', Session.becomes_step hstep, fun hopen htidy => .of_proceeds ?_ _⟩
      exact Session.proceeds_step htidy hstep (Bool.or_eq_false_iff.1 hopen).1
  obtain ⟨s', hs', hbecomes, htends⟩ := hcourse
  obtain ⟨hsound, harrived⟩ := h.tends hs hs' hbecomes htends t.worked.spokeOn
    fun _ hover hquiet => by
      obtain ⟨hbefore, hnothing⟩ := Bool.or_eq_false_iff.1 hquiet
      rw [hover, Bool.true_and, decide_eq_false_iff_not] at hnothing
      exact ⟨hbefore, Decidable.not_not.1 hnothing⟩
  exact ⟨hsound, fun hopen => harrived (isClosed_eq hs' ▸ hopen)⟩

theorem Sound.others (h : t.Sound) (hothers : t.Others f) :
    (t.on f).Sound ∧ ((t.on f).isClosed = false → (t.on f).arrived = t.arrived) := by
  obtain ⟨s, hs, hsound, hserves⟩ := h.session
  obtain ⟨s', hs', hbecomes⟩ := hothers.becomes.goOn _ s hs
  have htends : s'.isClosed = false → s.Tidy → Tends t.call.stage s s' := by
    intro hopen htidy
    obtain ⟨htidy', hstream, hcarries⟩ := hothers.leaves s s' hs hs' hopen htidy
    exact ⟨htidy', fun k e hk hstays => ⟨hstream.trans hk, _, e, hcarries k e hk hstays, .refl e⟩,
      fun hnone k hk => absurd (hk.symm.trans (hstream.trans hnone)) (Option.some_ne_none k)⟩
  have harrived : s'.isClosed = false → (t.on f).arrived = t.arrived := by
    intro hopens'
    have hopens : s.isClosed = false := by
      cases hclosed : s.isClosed with
      | false => rfl
      | true => rw [hbecomes.isClosed hclosed] at hopens'; cases hopens'
    obtain ⟨htidy, hcarries⟩ := hserves hopens
    obtain ⟨-, hstream, hstays⟩ := hothers.leaves s s' hs hs' hopens' htidy
    have hend : (t.on f).streamEnd? = t.streamEnd? := by
      cases hk : t.call.stage.stream? s with
      | none =>
        rw [streamEnd?_of_none hs hk, streamEnd?_of_none (t := t.on f) hs' (hstream.trans hk)]
      | some k =>
        obtain ⟨e, he⟩ := hcarries k hk
        rw [streamEnd?_of_carries hs hk he,
          streamEnd?_of_carries (t := t.on f) hs' (hstream.trans hk) (hstays k e hk he)]
    unfold arrived
    rw [hend]
    rfl
  obtain ⟨hsound', -⟩ := h.tends hs hs' hbecomes htends t.spokeOn
    fun hopens _ hquiet => ⟨hquiet, harrived hopens⟩
  exact ⟨hsound', fun hopen => harrived ((isClosed_eq (t := t.on f) hs').symm.trans hopen)⟩

/-! ## Looking -/

theorem poll_of_done (h : t.call.outcome? = some outcome) : t.poll = (false, t) := by
  have hneeds : t.call.needs = [] := by
    unfold Call.outcome? at h
    unfold Call.needs
    split at h
    · rfl
    · cases h
  unfold poll
  rw [hneeds]
  rfl

/-- A call that has not ended hears first of all that its session is closed, -/
theorem poll_of_closed (h : t.call.outcome? = none) (hs : t.session? = some s)
    (hcancelled : s.cancelled = true) :
    t.poll = (true, t.hear (.cancelled t.call.session) .done t.fabric) := by
  have hs : t.fabric.session? t.call.session = some s := hs
  unfold poll
  rw [Call.needs_of_pending h]
  simp only [List.map_cons, Fabric.meetFirst, Fabric.meet, Fabric.signalIf, hs, Option.all_some,
    hcancelled, if_true]

/-- and otherwise what its stage waits for, or that its time is up. -/
theorem poll_of_open (h : t.call.outcome? = none) (hopen : t.isClosed = false) :
    t.poll = match t.fabric.meet (t.call.stage.need t.call.session) with
      | (some signal, f) => (true, t.hear (t.call.stage.need t.call.session) signal f)
      | (none, f) => if t.call.deadline ≤ f.now then
          (true, t.hear (.moment t.call.deadline) .done f)
        else (false, t.on f) := by
  unfold poll
  rw [Call.meetFirst_of_open h hopen]
  rcases t.fabric.meet (t.call.stage.need t.call.session) with ⟨_ | signal, f⟩
  · by_cases hdue : t.call.deadline ≤ f.now <;> simp [hdue]
  · rfl

theorem poll_of_met (h : t.call.outcome? = none) (hopen : t.isClosed = false)
    (hmeet : t.fabric.meet (t.call.stage.need t.call.session) = (some signal, f)) :
    t.poll = (true, t.hear (t.call.stage.need t.call.session) signal f) := by
  rw [poll_of_open h hopen, hmeet]

end Exchange

end Switchboard
