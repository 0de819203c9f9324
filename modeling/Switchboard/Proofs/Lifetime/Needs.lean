import Switchboard.Proofs.Calls
import Switchboard.Proofs.FrameStream
import Switchboard.Proofs.Lifetime.Fabric

/-!
# What a need gives

What comes of asking a fabric for something, when the session in question is open: it takes
requests, it refuses none, and a call on it hears first what its stage waits for, and that its time
is up only if that does not come (`Call.meetFirst_of_open`). None of it takes any time.
-/

namespace Switchboard

/-! ## The clock -/

namespace Fabric

variable {f : Fabric} {id : Nat}

theorem onSession_now {α : Type} (f : Fabric) (id : Nat) (g : Session → α × Session) :
    (f.onSession id g).2.now = f.now := by
  obtain ⟨seats, heq⟩ := f.onSession_rest id g
  rw [heq]

theorem meet_now (f : Fabric) (need : Need) : (f.meet need).2.now = f.now := by
  cases need with
  | request id => simp [meet, onSession_now]
  | granted id request => simp [meet, onSession_now]
  | queue id => simp [meet, onSession_now]
  | accepted id acceptor => simp [meet, onSession_now]
  | read ref room => simp [meet, onStream, onSession_now]
  | write ref data start => simp [meet, onStream, onSession_now]
  | finish ref => simp [meet, onStream, onSession_now]
  | pour id data start =>
    simp only [meet]
    split <;> rfl
  | draw id room =>
    simp only [meet]
    split <;> rfl
  | _ => rfl

theorem meetFirst_now (needs : List (Nat × Need)) (f : Fabric) :
    (f.meetFirst needs).2.now = f.now := by
  induction needs generalizing f with
  | nil => rfl
  | cons need needs ih =>
    obtain ⟨place, need⟩ := need
    have hmeet := f.meet_now need
    unfold meetFirst
    split
    · rename_i heq
      rw [heq] at hmeet
      exact hmeet
    · rename_i heq
      rw [heq] at hmeet
      exact (ih _).trans hmeet

theorem perform_now (f : Fabric) (deed : Deed) : (f.perform deed).now = f.now := by
  have hdrop : ∀ (f : Fabric) ref, (f.dropStream ref).now = f.now := fun f ref =>
    onSession_now _ ref.session _
  cases deed with
  | drop ref => exact hdrop f ref
  | abandon id request => exact f.onSession_now id _
  | leave id acceptor => exact f.onSession_now id _
  | name name ref =>
    simp only [perform, nameStream]
    split
    · exact hdrop f _
    · rfl
  | close id =>
    obtain ⟨seats, pipes, processes, heq⟩ := f.closeSession_rest id
    simp [perform, heq]
  | _ => rfl

theorem performs_now (deeds : List Deed) (f : Fabric) :
    (deeds.foldl perform f).now = f.now := by
  induction deeds generalizing f with
  | nil => rfl
  | cons deed deeds ih => exact (ih _).trans (f.perform_now deed)

/-! ## Sessions and streams -/

theorem onSession_of {α : Type} {s : Session} (hs : f.session? id = some s)
    (g : Session → α × Session) :
    ∃ f', f.onSession id g = (some (g s).1, f') ∧ f'.session? id = some (g s).2 ∧
      f'.now = f.now := by
  have hfst := f.onSession_fst id g
  rw [hs] at hfst
  refine ⟨(f.onSession id g).2, Prod.ext hfst rfl, ?_, f.onSession_now id g⟩
  rw [session?_onSession, if_pos rfl, hs]
  rfl

theorem onStream_of {α : Type} {s : Session} {ref : StreamRef}
    (hs : f.session? ref.session = some s)
    (g : Nat → Mux.Connection → Ready α × Mux.Connection) (signal : α → Signal) :
    ∃ f', f.onStream ref g signal =
        (signalOf signal (some (g ref.stream s.connection).1), f') ∧
      f'.session? ref.session = some { s with connection := (g ref.stream s.connection).2 } ∧
      f'.now = f.now := by
  obtain ⟨f', heq, hs', hnow⟩ := onSession_of hs fun s =>
    ((g ref.stream s.connection).1, { s with connection := (g ref.stream s.connection).2 })
  refine ⟨f', ?_, hs', hnow⟩
  unfold onStream
  dsimp only
  rw [heq]

/-! ## Open sessions -/

theorem meet_stream {α : Type} (f : Fabric) (ref : StreamRef)
    (g : Nat → Mux.Connection → Ready α × Mux.Connection) (signal : α → Signal) :
    (f.onStream ref g signal).1 =
      signalOf signal ((f.session? ref.session).map fun s => (g ref.stream s.connection).1) := by
  unfold onStream
  exact congrArg (signalOf signal) (f.onSession_fst ref.session _)

theorem open_iff : f.isClosed id = false ↔
    ∃ s, f.session? id = some s ∧ s.cancelled = false ∧ s.stopped = false := by
  unfold isClosed
  cases f.session? id <;> simp [Session.isClosed]

theorem meet_request_of_open (h : f.isClosed id = false) :
    ∃ n, (f.meet (.request id)).1 = some (.ticket n) := by
  obtain ⟨s, hs, hcancelled, hstopped⟩ := open_iff.1 h
  refine ⟨s.openings.ask.1, ?_⟩
  change some (ticketOf (f.onSession id Session.request).1) = _
  rw [onSession_fst, hs]
  simp [Session.request, Session.isClosed, hcancelled, hstopped, ticketOf]

theorem meet_granted_of_open (hf : f.Sound) (h : f.isClosed id = false) (request : Nat) :
    (f.meet (.granted id request)).1 = none ∨
      ∃ ref, (f.meet (.granted id request)).1 = some (.stream ref) := by
  obtain ⟨s, hs, hcancelled, hstopped⟩ := open_iff.1 h
  change streamOf id (f.onSession id (Session.collect request)).1 = none ∨
    ∃ ref, streamOf id (f.onSession id (Session.collect request)).1 = some (.stream ref)
  rw [onSession_fst, hs, Option.map_some]
  cases hcollect : (s.collect request).1 with
  | none => exact .inl rfl
  | some answer =>
    cases answer with
    | ok stream => exact .inr ⟨⟨id, stream⟩, rfl⟩
    | error fault =>
      obtain ⟨hclosed, -⟩ := Session.collect_eq_error (hf id s hs) hcollect
      simp [Session.isClosed, hcancelled, hstopped] at hclosed

theorem meet_cancelled_of_open (h : f.isClosed id = false) :
    f.meet (.cancelled id) = (none, f) := by
  obtain ⟨s, hs, hcancelled, -⟩ := open_iff.1 h
  simp [meet, signalIf, hs, hcancelled]

end Fabric

/-! ## Calls -/

namespace Call

variable {f : Fabric} {call : Call} {place : Nat}

/-- A request that fits is written once there is a stream. -/
theorem send_of_fits (hfits : call.request.size ≤ Frame.maxPayload) (stream : StreamRef) :
    ∃ data, call.send stream = ({ call with stage := .writing stream data 0 }, []) ∧
      data.size = call.request.size + 5 := by
  have hencode : (Frame.request call.request).encode = .ok _ := Frame.encode_fits hfits
  refine ⟨_, by unfold send; rw [hencode], ?_⟩
  rw [ByteArray.size_append, Frame.size_header, Frame.headerSize, Nat.add_comm]
  rfl

theorem meetFirst_of_open (h : call.outcome? = none) (hopen : f.isClosed call.session = false)
    (place : Nat) :
    f.meetFirst (call.needs.map (place, ·)) =
      match f.meet (call.stage.need call.session) with
      | (some signal, f') => (some (place, call.stage.need call.session, signal), f')
      | (none, f') =>
        (if call.deadline ≤ f'.now then some (place, .moment call.deadline, .done) else none,
          f') := by
  rw [needs_of_pending h]
  simp only [List.map_cons, List.map_nil, Fabric.meetFirst,
    Fabric.meet_cancelled_of_open hopen]
  rcases f.meet (call.stage.need call.session) with ⟨_ | signal, f'⟩
  · by_cases htime : call.deadline ≤ f'.now <;> simp [Fabric.meet, Fabric.signalIf, htime]
  · rfl

theorem lt_deadline (h : call.outcome? = none) (hopen : f.isClosed call.session = false)
    (hmeet : (f.meetFirst (call.needs.map (place, ·))).1 = none) : f.now < call.deadline := by
  rw [meetFirst_of_open h hopen] at hmeet
  have hnow := f.meet_now (call.stage.need call.session)
  split at hmeet
  · cases hmeet
  · rename_i g heq
    rw [heq] at hnow
    split at hmeet
    · cases hmeet
    · rename_i htime
      rw [← hnow]
      exact Nat.lt_of_not_le htime

end Call

end Switchboard
