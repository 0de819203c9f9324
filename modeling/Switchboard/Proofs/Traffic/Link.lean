import Switchboard.Proofs.Traffic.System

/-!
# One stream and its two ends

What holds of a stream together with the call that was told of it and the service that answers it,
whatever the others do. The call has written a beginning of its question and reads what the service
writes; the service reads the question, works on it and writes a beginning of the answer. `Linked`
says so by the stage of each.
-/

namespace Switchboard

def IsReply : Except Fault ByteArray → Prop
  | .ok _ | .error (.remote _) => True
  | .error _ => False

namespace Caller

variable (router : Router) (closed : Bool) (c : Caller)

/-- The outcome is what the answer to a call is for who made the call. -/
def IsDue (outcome : Except Fault ByteArray) : Prop :=
  ∃ frame, router.Yields c.envelope frame ∧ outcome = Call.reply (.frame frame)

/-- The outcome of a call is what it must be, or there is a reason for another one. -/
def Proper : Prop :=
  match c.call.stage with
  | .finishing _ outcome =>
    c.IsDue router outcome ∨ ¬ IsReply outcome ∧ (closed = true ∨ ¬ c.envelope.Fits router)
  | .done outcome =>
    c.IsDue router outcome ∨ ¬ IsReply outcome ∧
      (c.cut = true ∨ outcome = .error (.timeout c.call.limit) ∨ ¬ c.envelope.Fits router)
  | _ => True

def HasReply : Prop :=
  match c.call.stage with
  | .finishing _ outcome | .done outcome => IsReply outcome
  | _ => False

/-- A call is on its way to an answer that can come. -/
def Waits : Prop :=
  c.envelope.Fits router ∧
    match c.call.stage with
    | .writing .. | .reading .. => True
    | _ => False

def AtStrand (k : Nat) (strand : Strand) : Prop :=
  match c.call.stage with
  | .asking | .opening _ => False
  | .writing ref data sent =>
    ref = ⟨0, k⟩ ∧ c.envelope.question.encode = .ok data ∧
      strand.up.written = data.extract 0 sent ∧ sent < data.size ∧ strand.up.ended = false ∧
      strand.down.taken = 0
  | .reading ref reader =>
    ref = ⟨0, k⟩ ∧ c.envelope.question.encode = .ok strand.up.written ∧
      strand.up.ended = false ∧ strand.down.ReadBy reader
  | .finishing ref _ => ref = ⟨0, k⟩ ∧ c.envelope.question.encode = .ok strand.up.written
  | .done _ => strand.up.Fresh ∨ strand.up.Carries c.envelope.question

def rank : Nat :=
  match c.call.stage with
  | .asking => 0
  | .opening _ => 1
  | .writing .. => 2
  | .reading .. => 3
  | .finishing .. => 4
  | .done _ => 5

variable {router closed c} {k : Nat} {strand : Strand}

theorem rank_le : c.rank ≤ 5 := by
  unfold rank
  split <;> omega

theorem Proper.mono (h : c.Proper router closed) {closed' : Bool}
    (hclosed : closed = true → closed' = true) : c.Proper router closed' := by
  unfold Proper at h ⊢
  split at h
  · exact h.imp_right fun hother => ⟨hother.1, hother.2.imp_left hclosed⟩
  · exact h
  · trivial

/-- What a call has written is a beginning of its question. -/
theorem AtStrand.carries (h : c.AtStrand k strand) :
    strand.up.Fresh ∨ strand.up.Carries c.envelope.question := by
  unfold AtStrand at h
  split at h
  · exact h.elim
  · exact h.elim
  · obtain ⟨-, hencode, hwritten, hsent, hended, -⟩ := h
    exact .inr (Flow.carries_of_written hencode hwritten (Nat.le_of_lt hsent) hended)
  · exact .inr (Flow.carries_of_whole h.2.1)
  · exact .inr (Flow.carries_of_whole h.2)
  · exact h

/-- Only a call that finishes its stream, or is done, has said that it is done writing. -/
theorem AtStrand.up_open (h : c.AtStrand k strand) (hwaits : c.Waits router) :
    strand.up.ended = false := by
  have hstage := hwaits.2
  unfold AtStrand at h
  split at hstage
  · rename_i hs
    rw [hs] at h
    exact h.2.2.2.2.1
  · rename_i hs
    rw [hs] at h
    exact h.2.2.1
  · exact hstage.elim

end Caller

namespace Service

/-- How far a service has got with its stream, on which an envelope was sent. -/
def AtStrand (router : Router) (sent? : Option Envelope) (k : Nat) (strand : Strand)
    (service : Service) : Prop :=
  service.stream = ⟨1, k⟩ ∧ service.responder = .router router ∧
  match service.stage with
  | .reading reader => strand.up.ReadBy reader ∧ strand.down.Fresh ∧ strand.invoked = []
  | .working work due =>
    ∃ envelope, sent? = some envelope ∧ work = router.dispatch envelope.method envelope.payload ∧
      due.isSome = work.duration.isSome ∧ envelope.question.encode = .ok strand.up.written ∧
      strand.up.taken = strand.up.written.size ∧ strand.down.Fresh ∧ strand.invoked = [envelope]
  | .writing data sent =>
    ∃ envelope frame, sent? = some envelope ∧ router.Yields envelope frame ∧
      frame.encode = .ok data ∧ strand.down.written = data.extract 0 sent ∧
      sent < data.size ∧ strand.down.ended = false ∧ strand.invoked = [envelope]
  | .finishing =>
    ∃ envelope frame, sent? = some envelope ∧ router.Yields envelope frame ∧
      frame.encode = .ok strand.down.written ∧ strand.down.ended = false ∧
      strand.invoked = [envelope]
  | .done =>
    (strand.down.ended = true ∨ strand.broken = true) ∧
      (strand.down.Fresh ∨
        ∃ envelope frame, sent? = some envelope ∧ router.Yields envelope frame ∧
          strand.down.Carries frame ∧ strand.invoked ≠ []) ∧
      (strand.invoked = [] ∨ ∃ envelope, sent? = some envelope ∧ strand.invoked = [envelope])

def rank (service : Service) : Nat :=
  match service.stage with
  | .reading _ => 3
  | .working .. => 4
  | .writing .. => 5
  | .finishing => 6
  | .done => 7

theorem rank_le (service : Service) : service.rank ≤ 7 := by
  unfold rank
  split <;> omega

variable {router : Router} {sent? : Option Envelope} {k : Nat} {strand : Strand} {service : Service}

/-- What a service has written is a beginning of the answer to what was sent. -/
theorem AtStrand.carries (h : service.AtStrand router sent? k strand) :
    strand.down.Fresh ∨
      ∃ envelope frame, sent? = some envelope ∧ router.Yields envelope frame ∧
        strand.down.Carries frame ∧ strand.invoked ≠ [] := by
  obtain ⟨-, -, h⟩ := h
  split at h
  · exact .inl h.2.1
  · obtain ⟨-, -, -, -, -, -, hfresh, -⟩ := h
    exact .inl hfresh
  · obtain ⟨envelope, frame, hsent, hyields, hencode, hwritten, hlt, hended, hinvoked⟩ := h
    exact .inr ⟨envelope, frame, hsent, hyields,
      Flow.carries_of_written hencode hwritten (Nat.le_of_lt hlt) hended, by simp [hinvoked]⟩
  · obtain ⟨envelope, frame, hsent, hyields, hencode, -, hinvoked⟩ := h
    exact .inr ⟨envelope, frame, hsent, hyields, Flow.carries_of_whole hencode,
      by simp [hinvoked]⟩
  · exact h.2.1

/-- A router is set to work on nothing but what was sent, and once. -/
theorem AtStrand.invoked (h : service.AtStrand router sent? k strand) :
    strand.invoked = [] ∨ ∃ envelope, sent? = some envelope ∧ strand.invoked = [envelope] := by
  obtain ⟨-, -, h⟩ := h
  split at h
  · exact .inl h.2.2
  · obtain ⟨envelope, hsent, -, -, -, -, -, hinvoked⟩ := h
    exact .inr ⟨envelope, hsent, hinvoked⟩
  · obtain ⟨envelope, -, hsent, -, -, -, -, -, hinvoked⟩ := h
    exact .inr ⟨envelope, hsent, hinvoked⟩
  · obtain ⟨envelope, -, hsent, -, -, -, hinvoked⟩ := h
    exact .inr ⟨envelope, hsent, hinvoked⟩
  · exact h.2.2

end Service

namespace Flow

variable {flow after : Flow} {broken : Bool} {portion : Portion} {signal : Signal}

theorem read_cases {room : Nat} (h : flow.read broken room portion = some (signal, after)) :
    (∃ n, 0 < n ∧ flow.taken + n ≤ flow.written.size ∧
      signal = .bytes (flow.written.extract flow.taken (flow.taken + n)) ∧
      after = { flow with taken := flow.taken + n }) ∨
    (signal = .bytes ByteArray.empty ∧ after = flow ∧
      (flow.ended = true ∧ flow.taken = flow.written.size ∨ broken = true)) ∨
    ∃ fault, signal = .failed fault ∧ after = flow ∧ broken = true := by
  cases portion with
  | bytes n =>
    simp only [read] at h
    split at h
    · rename_i hn
      cases h
      exact .inl ⟨n, hn.1, hn.2.2, rfl, rfl⟩
    · cases h
  | ended =>
    simp only [read] at h
    split at h
    · rename_i hend
      cases h
      exact .inr (.inl ⟨rfl, rfl, hend⟩)
    · cases h
  | failed fault =>
    simp only [read] at h
    split at h
    · rename_i hbroken
      cases h
      exact .inr (.inr ⟨fault, rfl, rfl, hbroken⟩)
    · cases h

/-- What comes of a write: some bytes are taken, or it fails. -/
theorem write_cases {data : ByteArray} {start : Nat}
    (h : flow.write broken data start portion = some (signal, after)) :
    (∃ n, 0 < n ∧ start + n ≤ data.size ∧ signal = .taken n ∧
      after = { flow with written := flow.written ++ data.extract start (start + n) }) ∨
    ∃ fault, signal = .failed fault ∧ after = flow ∧ broken = true := by
  cases portion with
  | bytes n =>
    simp only [write] at h
    split at h
    · rename_i hn
      cases h
      exact .inl ⟨n, hn.1, hn.2, rfl, rfl⟩
    · cases h
  | ended => cases h
  | failed fault =>
    simp only [write] at h
    split at h
    · rename_i hbroken
      cases h
      exact .inr ⟨fault, rfl, rfl, hbroken⟩
    · cases h

/-- What comes of the word that no more will be written: it is taken, or it fails. -/
theorem finish_cases (h : flow.finish broken portion = some (signal, after)) :
    (signal = .done ∧ after = { flow with ended := true }) ∨
    ∃ fault, signal = .failed fault ∧ after = flow ∧ broken = true := by
  cases portion with
  | bytes n => cases h
  | ended => cases h; exact .inl ⟨rfl, rfl⟩
  | failed fault =>
    simp only [finish] at h
    split at h
    · rename_i hbroken
      cases h
      exact .inr ⟨fault, rfl, rfl, hbroken⟩
    · cases h

end Flow

namespace Strand

variable {strand : Strand} {id : Nat}

@[simp] theorem drop_up : (strand.drop id).up = strand.up := rfl

@[simp] theorem drop_down : (strand.drop id).down = strand.down := rfl

@[simp] theorem drop_service? : (strand.drop id).service? = strand.service? := rfl

theorem broken_drop (h : strand.broken = true) : (strand.drop id).broken = true := by
  simp [drop, h]

/-- The far end lets go of a stream when it is done writing, or breaks it. -/
theorem ended_or_broken_drop (strand : Strand) :
    strand.down.ended = true ∨ (strand.drop 1).broken = true := by
  cases h : strand.down.ended with
  | true => exact .inl rfl
  | false => exact .inr (by simp [drop, h])

def progress (strand : Strand) : Nat :=
  strand.up.written.size + strand.up.taken + strand.down.written.size + strand.down.taken +
    strand.broken.toNat + (strand.service?.map Service.rank).getD 0

theorem progress_drop (strand : Strand) (id : Nat) :
    strand.progress ≤ (strand.drop id).progress := by
  simp only [progress, drop_up, drop_down, drop_service?]
  cases h : strand.broken with
  | true => exact Nat.le_of_eq (by rw [broken_drop h])
  | false => rw [Bool.toNat_false]; omega

end Strand

/-- How a need of who uses a stream at one end is met: by the stream, or by what lies outside of
it. -/
inductive Strand.Meets (closed : Bool) (id : Nat) (strand : Strand) :
    Need → Signal → Strand → Prop where
  | cancelled (h : closed = true) : Meets closed id strand (.cancelled id) .done strand
  | moment (time : Nat) : Meets closed id strand (.moment time) .done strand
  | stream {need : Need} {portion : Portion} {signal : Signal} {after : Strand}
      (h : strand.meet need portion = some (signal, after)) :
      Meets closed id strand need signal after

/-- What a party does besides waiting that concerns no stream but one. -/
def Deed.Concerns (k : Nat) : Deed → Prop
  | .drop ref => ref.stream = k
  | .note _ => True
  | _ => False

namespace Strand

/-- How far the call has got that was told of a stream, if any was. -/
def Asked (c? : Option Caller) (k : Nat) (strand : Strand) : Prop :=
  match c? with
  | none => strand.up.Fresh ∧ strand.down.taken = 0
  | some c => c.AtStrand k strand

/-- The call depends on what it has written, and on what it has read. -/
theorem Asked.congr {c? : Option Caller} {k : Nat} {strand after : Strand} (h : strand.Asked c? k)
    (hup : after.up.written = strand.up.written) (hended : after.up.ended = strand.up.ended)
    (htaken : after.down.taken = strand.down.taken)
    (hle : strand.down.taken ≤ strand.down.written.size)
    (hdown : ∃ more, after.down.written = strand.down.written ++ more) : after.Asked c? k := by
  have hfresh : strand.up.Fresh → after.up.Fresh :=
    fun hf => ⟨hup.trans hf.empty, hended.trans hf.more⟩
  cases c? with
  | none => exact ⟨hfresh h.1, htaken.trans h.2⟩
  | some c =>
    simp only [Asked, Caller.AtStrand] at h ⊢
    cases hst : c.call.stage with
    | asking => rw [hst] at h; exact h
    | opening request => rw [hst] at h; exact h
    | writing ref data sent =>
      rw [hst] at h
      simp only [hup, hended, htaken]
      exact h
    | reading ref reader =>
      rw [hst] at h
      obtain ⟨href, hencode, hopen, hread⟩ := h
      obtain ⟨more, hmore⟩ := hdown
      simp only [hup, hended]
      refine ⟨href, hencode, hopen, ?_, hread.pending⟩
      rw [hmore, htaken]
      exact (hread.write hle more).buffer
    | finishing ref outcome =>
      rw [hst] at h
      simp only [hup]
      exact h
    | done outcome =>
      rw [hst] at h
      refine h.imp hfresh ?_
      simp only [Flow.Carries, hup, hended]
      exact id

/-- How far the answering of a stream has got, on which an envelope was sent. -/
def Served (router : Router) (sent? : Option Envelope) (k : Nat) (strand : Strand) : Prop :=
  match strand.service? with
  | none => strand.up.taken = 0 ∧ strand.down.Fresh ∧ strand.invoked = []
  | some service => service.AtStrand router sent? k strand

variable {router : Router} {sent? : Option Envelope} {k : Nat} {strand after : Strand}

theorem Served.of_none (hs : strand.service? = none) :
    strand.Served router sent? k ↔
      strand.up.taken = 0 ∧ strand.down.Fresh ∧ strand.invoked = [] := by
  unfold Served; rw [hs]

theorem Served.of_some (service : Service) (hs : strand.service? = some service) :
    strand.Served router sent? k ↔ service.AtStrand router sent? k strand := by
  unfold Served; rw [hs]

/-- The answering of a stream depends on what its two flows hold, on what was read of the first and
on whether the second has ended. -/
theorem Served.congr (h : strand.Served router sent? k)
    (hservice : after.service? = strand.service?) (hup : after.up.written = strand.up.written)
    (htaken : after.up.taken = strand.up.taken) (hdown : after.down.written = strand.down.written)
    (hended : after.down.ended = strand.down.ended) (hinvoked : after.invoked = strand.invoked)
    (hbroken : strand.broken = true → after.broken = true) :
    after.Served router sent? k := by
  have hfresh : strand.down.Fresh → after.down.Fresh :=
    fun hf => ⟨hdown.trans hf.empty, hended.trans hf.more⟩
  cases hs : strand.service? with
  | none =>
    rw [Served.of_none (hservice.trans hs), htaken, hinvoked]
    rw [Served.of_none hs] at h
    exact ⟨h.1, hfresh h.2.1, h.2.2⟩
  | some service =>
    rw [Served.of_some _ (hservice.trans hs)]
    rw [Served.of_some _ hs] at h
    obtain ⟨hstream, hresponder, h⟩ := h
    refine ⟨hstream, hresponder, ?_⟩
    cases hst : service.stage with
    | reading reader =>
      rw [hst] at h
      refine ⟨⟨?_, h.1.pending⟩, hfresh h.2.1, hinvoked.trans h.2.2⟩
      rw [hup, htaken]
      exact h.1.buffer
    | working work due =>
      rw [hst] at h
      obtain ⟨envelope, hsent, hwork, hdue, hwhole, hall, hf, hinv⟩ := h
      simp only [hup, htaken]
      exact ⟨envelope, hsent, hwork, hdue, hwhole, hall, hfresh hf, hinvoked.trans hinv⟩
    | writing data sent =>
      rw [hst] at h
      simp only [hdown, hended, hinvoked]
      exact h
    | finishing =>
      rw [hst] at h
      simp only [hdown, hended, hinvoked]
      exact h
    | done =>
      rw [hst] at h
      obtain ⟨hover, hcarries, hinv⟩ := h
      simp only [hended, hinvoked]
      refine ⟨hover.imp_right hbroken, hcarries.imp hfresh ?_, hinv⟩
      rintro ⟨envelope, frame, hsent, hyields, hcarries, hworked⟩
      refine ⟨envelope, frame, hsent, hyields, ?_, hworked⟩
      simp only [Flow.Carries, hdown, hended]
      exact hcarries

/-- As long as it is not known what is sent on a stream, nothing was answered on it. -/
theorem Served.sent (h : strand.Served router none k) (envelope : Envelope) :
    strand.Served router (some envelope) k := by
  cases hs : strand.service? with
  | none =>
    rw [Served.of_none hs] at h ⊢
    exact h
  | some service =>
    rw [Served.of_some _ hs] at h ⊢
    have hcarries := h.carries
    have hinvoked := h.invoked
    obtain ⟨hstream, hresponder, h⟩ := h
    refine ⟨hstream, hresponder, ?_⟩
    cases hst : service.stage with
    | reading reader => rw [hst] at h; exact h
    | done =>
      rw [hst] at h
      refine ⟨h.1, .inl ?_, .inl ?_⟩
      · rcases hcarries with hfresh | ⟨_, _, hnone, _⟩
        · exact hfresh
        · cases hnone
      · rcases hinvoked with hnothing | ⟨_, hnone, _⟩
        · exact hnothing
        · cases hnone
    | working work due =>
      rw [hst] at h
      obtain ⟨_, hnone, _⟩ := h
      cases hnone
    | _ =>
      rw [hst] at h
      obtain ⟨_, _, hnone, _⟩ := h
      cases hnone

end Strand

/-- What is wanted of a stream that nobody was told of yet, or of one that a call waits on. -/
def Wanted (router : Router) (promised : Prop) : Option Caller → Prop
  | none => promised
  | some c => c.Waits router

/-- How it is with one stream, the call that was told of it, if any, and its service. It is whole
as long as it is wanted; `promised` says whether it still waits for the call that it is for. -/
structure Linked (router : Router) (closed : Bool) (promised : Prop) (c? : Option Caller) (k : Nat)
    (strand : Strand) : Prop where
  up_taken : strand.up.taken ≤ strand.up.written.size
  down_taken : strand.down.taken ≤ strand.down.written.size
  near : strand.Asked c? k
  far : strand.Served router (c?.map Caller.envelope) k
  whole : closed = false → Wanted router promised c? → strand.broken = false

namespace Linked

variable {router : Router} {closed : Bool} {promised : Prop} {c : Caller} {c? : Option Caller}
  {k : Nat} {strand after : Strand} {portion : Portion} {need : Need} {signal : Signal}

theorem fresh (router : Router) (closed : Bool) (promised : Prop) (k : Nat) {broken : Bool}
    (h : promised → broken = false) :
    Linked router closed promised none k { broken } where
  up_taken := Nat.le_refl _
  down_taken := Nat.le_refl _
  near := ⟨⟨rfl, rfl⟩, rfl⟩
  far := ⟨rfl, ⟨rfl, rfl⟩, rfl⟩
  whole _ := h

/-- What was so of a session is so of it when it is closed, or when less is promised. -/
theorem mono (h : Linked router closed promised c? k strand) {closed' : Bool} {promised' : Prop}
    (hclosed : closed = true → closed' = true) (hpromised : promised' → promised) :
    Linked router closed' promised' c? k strand where
  up_taken := h.up_taken
  down_taken := h.down_taken
  near := h.near
  far := h.far
  whole hlive hwanted := by
    refine h.whole ?_ ?_
    · cases closed with
      | false => rfl
      | true => rw [hclosed rfl] at hlive; cases hlive
    · cases c? with
      | none => exact hpromised hwanted
      | some c => exact hwanted

theorem snap (h : Linked router closed promised c? k strand) (hclosed : closed = true) :
    Linked router closed promised c? k { strand with broken := true } where
  up_taken := h.up_taken
  down_taken := h.down_taken
  near := h.near
  far := h.far.congr rfl rfl rfl rfl rfl rfl fun _ => rfl
  whole hlive := by rw [hclosed] at hlive; cases hlive

/-- A stream that nobody was told of, and nobody will be, is handed back. -/
theorem handBack (h : Linked router closed promised none k strand) (hno : ¬ promised) :
    Linked router closed promised none k (strand.drop 0) where
  up_taken := h.up_taken
  down_taken := h.down_taken
  near := h.near
  far := h.far.congr rfl rfl rfl rfl rfl rfl Strand.broken_drop
  whole _ hwanted := absurd hwanted hno

theorem accept (h : Linked router closed promised c? k strand) (hs : strand.service? = none) :
    Linked router closed promised c? k
      { strand with service? := some { stream := ⟨1, k⟩, responder := .router router } } := by
  obtain ⟨htaken, hfresh, hinvoked⟩ := (Strand.Served.of_none hs).1 h.far
  refine ⟨h.up_taken, h.down_taken, h.near.congr rfl rfl rfl h.down_taken
    ⟨ByteArray.empty, ByteArray.append_empty.symm⟩, ?_, h.whole⟩
  refine (Strand.Served.of_some { stream := ⟨1, k⟩, responder := .router router } rfl).2 ?_
  exact ⟨rfl, rfl, Flow.readBy_start htaken, hfresh, hinvoked⟩

/-- What was written back is a beginning of the answer to the call, for which a router was set to
work. -/
theorem down_carries (h : Linked router closed promised (some c) k strand) :
    strand.down.Fresh ∨ ∃ frame, router.Yields c.envelope frame ∧ strand.down.Carries frame ∧
      strand.invoked ≠ [] := by
  have hfar := h.far
  unfold Strand.Served at hfar
  split at hfar
  · exact .inl hfar.2.1
  · rcases hfar.carries with hfresh | ⟨envelope, frame, hsent, hyields, hcarries, hworked⟩
    · exact .inl hfresh
    · cases hsent
      exact .inr ⟨frame, hyields, hcarries, hworked⟩

/-- Where there is something to read at the far end, it is a beginning of the question of the call
that was told of the stream. -/
theorem up_carries (h : Linked router closed promised c? k strand)
    (hsize : 0 < strand.up.written.size) :
    ∃ c, c? = some c ∧ strand.up.Carries c.envelope.question := by
  have hnear := h.near
  have hsome : ¬ strand.up.Fresh := by
    intro hfresh
    rw [hfresh.empty] at hsize
    exact Nat.lt_irrefl 0 hsize
  cases c? with
  | none => exact absurd hnear.1 hsome
  | some c => exact ⟨c, rfl, (Caller.AtStrand.carries hnear).resolve_left hsome⟩

theorem excuse (h : Linked router closed promised (some c) k strand)
    (hstage : c.envelope.Fits router → c.Waits router) (hbroken : strand.broken = true) :
    closed = true ∨ ¬ c.envelope.Fits router := by
  by_cases hclosed : closed = true
  · exact .inl hclosed
  · refine .inr fun hfits => ?_
    have hwhole := h.whole (by simpa using hclosed) (hstage hfits)
    rw [hbroken] at hwhole
    cases hwhole

theorem ends (h : Linked router closed promised (some c) k strand) {c' : Caller}
    (henvelope : c'.envelope = c.envelope) {outcome : Except Fault ByteArray}
    (hdone : c'.call.stage = .done outcome) :
    Linked router closed promised (some c') k (strand.drop 0) where
  up_taken := h.up_taken
  down_taken := h.down_taken
  near := by
    have hcarries := Caller.AtStrand.carries h.near
    simp only [Strand.Asked, Caller.AtStrand, hdone, henvelope]
    exact hcarries
  far := by
    simp only [Option.map_some, henvelope]
    exact h.far.congr rfl rfl rfl rfl rfl rfl Strand.broken_drop
  whole _ hwanted := by
    have hstage := hwanted.2
    rw [hdone] at hstage
    exact hstage.elim

end Linked

end Switchboard
