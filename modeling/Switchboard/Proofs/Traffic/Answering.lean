import Switchboard.Proofs.Traffic.Link

/-!
# A service goes on with its stream

Whatever a service is told, it keeps what holds of it and its stream, and gets on: `ServiceKeeps`.
What it reads is the question of the call that was told of the stream, so that it sets its router
to work on that envelope, and once; what it writes is what comes of that work. It lets go of the
stream before it has written the answer only if nobody waits for it, the session is closed, or no
frame can carry the answer.
-/

namespace Switchboard

/-- A service that is told something keeps what holds of it and its stream, and gets on. Here
`after` is the stream once the need is met. -/
structure ServiceKeeps (router : Router) (closed : Bool) (promised : Prop) (c? : Option Caller)
    (k : Nat) (strand : Strand) (now : Nat) (service : Service) (need : Need) (signal : Signal)
    (after : Strand) : Prop where
  linked : Linked router closed promised c? k
    ((service.hear now need signal).2.foldl Strand.perform (after.hear now service need signal))
  grown : strand.progress <
    ((service.hear now need signal).2.foldl Strand.perform
      (after.hear now service need signal)).progress
  concerns : ∀ deed ∈ (service.hear now need signal).2, deed.Concerns k

theorem foldl_notes {notes : List Deed} (h : ∀ deed ∈ notes, ∃ lines, deed = .note lines)
    (strand : Strand) : notes.foldl Strand.perform strand = strand := by
  induction notes with
  | nil => rfl
  | cons note notes ih =>
    obtain ⟨lines, rfl⟩ := h note (List.mem_cons_self ..)
    exact ih fun deed hdeed => h deed (List.mem_cons_of_mem _ hdeed)

namespace Linked

variable {router : Router} {closed : Bool} {promised : Prop} {c? : Option Caller} {k now : Nat}
  {strand after : Strand} {service : Service} {portion : Portion} {need : Need} {signal : Signal}

/-- A stream that is broken is wanted no more, or the session is closed. -/
theorem unwanted (h : Linked router closed promised c? k strand) (hbroken : strand.broken = true) :
    closed = false → ¬ Wanted router promised c? := by
  intro hlive hwanted
  have hwhole := h.whole hlive hwanted
  rw [hbroken] at hwhole
  cases hwhole

/-- The same when the end of the question was read, which a call that waits does not say. -/
theorem unwanted_of_end (h : Linked router closed promised c? k strand)
    (hend : strand.up.ended = true ∧ strand.up.taken = strand.up.written.size ∨
      strand.broken = true) : closed = false → ¬ Wanted router promised c? := by
  rcases hend with ⟨hended, -⟩ | hbroken
  · intro _ hwanted
    have hopen : strand.up.ended = false := by
      have hnear := h.near
      cases c? with
      | none => exact hnear.1.more
      | some c => exact Caller.AtStrand.up_open hnear hwanted
    rw [hended] at hopen
    cases hopen
  · exact h.unwanted hbroken

theorem service_ends (h : Linked router closed promised c? k strand)
    (hs : strand.service? = some service) (hrank : service.rank < 7) (notes : List Deed)
    (hnotes : ∀ deed ∈ notes, ∃ lines, deed = .note lines)
    (hhear : service.hear now need signal =
      ({ service with stage := .done }, notes ++ [.drop ⟨1, k⟩]))
    (hinvocation : service.invocation? need signal = none)
    (hunwanted : closed = false → ¬ Wanted router promised c?) :
    ServiceKeeps router closed promised c? k strand now service need signal strand := by
  have hfold : ∀ s : Strand, (notes ++ [Deed.drop ⟨1, k⟩]).foldl Strand.perform s = s.drop 1 := by
    intro s
    rw [List.foldl_append, foldl_notes hnotes]
    rfl
  have hafter : strand.hear now service need signal =
      { strand with service? := some { service with stage := .done } } := by
    rw [Strand.hear, hhear, hinvocation, Option.toList_none, List.append_nil]
  have hfar := (Strand.Served.of_some _ hs).1 h.far
  refine ⟨?_, ?_, ?_⟩
  · rw [hhear, hfold, hafter]
    refine ⟨h.up_taken, h.down_taken, h.near.congr rfl rfl rfl h.down_taken
      ⟨ByteArray.empty, ByteArray.append_empty.symm⟩, ?_, fun hlive hwanted =>
      absurd hwanted (hunwanted hlive)⟩
    refine (Strand.Served.of_some { service with stage := .done } rfl).2 ?_
    exact ⟨hfar.1, hfar.2.1, strand.ended_or_broken_drop, hfar.carries, hfar.invoked⟩
  · rw [hhear, hfold, hafter]
    refine Nat.lt_of_lt_of_le ?_ (Strand.progress_drop _ 1)
    simp only [Strand.progress, hs, Option.map_some, Option.getD_some]
    change _ < _ + 7
    omega
  · rw [hhear]
    intro deed hdeed
    rcases List.mem_append.1 hdeed with hnote | hdrop
    · obtain ⟨lines, rfl⟩ := hnotes deed hnote
      trivial
    · rw [List.mem_singleton.1 hdrop]
      exact rfl

/-- A service goes on to another stage and notes something at most. -/
theorem service_goes_on (h : Linked router closed promised c? k strand)
    (hs : strand.service? = some service) (stage : ServiceStage) (notes : List Deed)
    (hnotes : ∀ deed ∈ notes, ∃ lines, deed = .note lines)
    (hhear : service.hear now need signal = ({ service with stage }, notes))
    (hup : after.up.taken ≤ after.up.written.size)
    (hdown : after.down.taken ≤ after.down.written.size) (hasked : after.Asked c? k)
    (hserved : Service.AtStrand router (c?.map Caller.envelope) k
      { after with
        service? := some { service with stage }
        invoked := after.invoked ++ (service.invocation? need signal).toList }
      { service with stage })
    (hbroken : after.broken = strand.broken)
    (hgrown : strand.up.written.size + strand.up.taken + strand.down.written.size +
        strand.down.taken + service.rank <
      after.up.written.size + after.up.taken + after.down.written.size + after.down.taken +
        Service.rank { service with stage }) :
    ServiceKeeps router closed promised c? k strand now service need signal after := by
  have hafter : after.hear now service need signal =
      { after with
        service? := some { service with stage }
        invoked := after.invoked ++ (service.invocation? need signal).toList } := by
    rw [Strand.hear, hhear]
  refine ⟨?_, ?_, ?_⟩
  · rw [hhear, foldl_notes hnotes, hafter]
    refine ⟨hup, hdown, hasked.congr rfl rfl rfl hdown
      ⟨ByteArray.empty, ByteArray.append_empty.symm⟩, (Strand.Served.of_some _ rfl).2 hserved,
      fun hlive hwanted => hbroken.trans (h.whole hlive hwanted)⟩
  · rw [hhear, foldl_notes hnotes, hafter]
    simp only [Strand.progress, hs, Option.map_some, Option.getD_some, hbroken]
    omega
  · rw [hhear]
    intro deed hdeed
    obtain ⟨lines, rfl⟩ := hnotes deed hdeed
    trivial

/-- Anything but what its stage waits for makes a service give its stream up. -/
theorem service_gives_up (h : Linked router closed promised c? k strand)
    (hs : strand.service? = some service) (hrank : service.rank < 7)
    (hhear : service.hear now need signal = service.conclude)
    (hinvocation : service.invocation? need signal = none)
    (hunwanted : closed = false → ¬ Wanted router promised c?) :
    ServiceKeeps router closed promised c? k strand now service need signal strand := by
  have hfar := (Strand.Served.of_some _ hs).1 h.far
  refine h.service_ends hs hrank [] (by simp) ?_ hinvocation hunwanted
  rw [hhear, Service.conclude, hfar.1]
  rfl

theorem service_cancelled (h : Linked router closed promised c? k strand)
    (hs : strand.service? = some service) (hrank : service.rank < 7) (hclosed : closed = true) :
    ServiceKeeps router closed promised c? k strand now service (.cancelled 1) signal strand := by
  refine h.service_gives_up hs hrank rfl ?_ fun hlive => by rw [hclosed] at hlive; cases hlive
  unfold Service.invocation?
  cases service.stage <;> rfl

/-- More of the question is read: a reader that has all of it has the envelope of the call, and the
router is set to work on it. -/
theorem service_reads (h : Linked router closed promised c? k strand)
    (hs : strand.service? = some service) {reader : FrameReader} {room : Nat}
    (hstage : service.stage = .reading reader)
    (hmeet : strand.meet (.read ⟨1, k⟩ room) portion = some (signal, after)) :
    ServiceKeeps router closed promised c? k strand now service (.read ⟨1, k⟩ room) signal
      after := by
  have hfar := (Strand.Served.of_some _ hs).1 h.far
  obtain ⟨hstream, hresponder, hserved⟩ := hfar
  rw [hstage] at hserved
  obtain ⟨hread, hfresh, hinvoked⟩ := hserved
  have hrank : service.rank = 3 := by simp only [Service.rank, hstage]
  simp only [Strand.meet, Nat.one_ne_zero, if_false] at hmeet
  obtain ⟨⟨signal', up⟩, hflow, hafter⟩ := Option.map_eq_some_iff.1 hmeet
  simp only [Prod.mk.injEq] at hafter
  obtain ⟨rfl, rfl⟩ := hafter
  rcases Flow.read_cases hflow with ⟨n, hn, hle, rfl, rfl⟩ | ⟨rfl, rfl, hend⟩ |
    ⟨fault, rfl, rfl, hbroken⟩
  · have hsize : (strand.up.written.extract strand.up.taken (strand.up.taken + n)).size ≠ 0 := by
      rw [ByteArray.size_extract]; omega
    have hasked : Strand.Asked c? k
        { strand with up := { strand.up with taken := strand.up.taken + n } } :=
      h.near.congr rfl rfl rfl h.down_taken ⟨ByteArray.empty, ByteArray.append_empty.symm⟩
    obtain ⟨c, rfl, hcarries⟩ := h.up_carries (by omega)
    obtain ⟨data, hencode, -, -⟩ := id hcarries
    rcases hcarries.feed hencode hread hle with ⟨hfeed, hall, hwhole⟩ | ⟨next, hfeed, hnext⟩
    · have hdecode : Envelope.decode c.envelope.encode = .ok c.envelope :=
        Envelope.decode_encode (Frame.encode_ok hencode).1
      refine h.service_goes_on hs (.working (router.dispatch c.envelope.method c.envelope.payload)
          ((router.dispatch c.envelope.method c.envelope.payload).duration.map (now + ·)))
        [.note (router.dispatch c.envelope.method c.envelope.payload).started] (by simp) ?_ hle
        h.down_taken hasked ⟨hstream, hresponder, c.envelope, rfl, rfl, Option.isSome_map, ?_, ?_,
          ⟨hfresh.empty, hfresh.more⟩, ?_⟩ rfl ?_
      · simp only [Service.hear, Service.advance, hstage, Service.read, if_neg hsize, hfeed,
          Service.take, hresponder, Envelope.question, Service.route, hdecode, Service.dispatch]
      · rw [hencode, hwhole]
      · simp only [hall, hwhole]
      · simp only [Service.invocation?, hstage, if_neg hsize, hfeed, Received.envelope?,
          Envelope.question, hdecode, hinvoked]
        rfl
      · rw [hrank]
        simp only [Service.rank]
        omega
    · refine h.service_goes_on hs (.reading next) [] (by simp) ?_ hle h.down_taken hasked
        ⟨hstream, hresponder, hnext, ⟨hfresh.empty, hfresh.more⟩, ?_⟩ rfl ?_
      · simp only [Service.hear, Service.advance, hstage, Service.read, if_neg hsize, hfeed]
      · simp only [Service.invocation?, hstage, if_neg hsize, hfeed, hinvoked]
        rfl
      · rw [hrank]
        simp only [Service.rank]
        omega
  · refine h.service_gives_up hs (by omega) ?_ ?_ (h.unwanted_of_end hend)
    · simp only [Service.hear, Service.advance, hstage, Service.read, ByteArray.size_empty, if_true,
        Service.take, hresponder, FrameReader.ended]
      split <;> simp only [Service.route, Service.conclude, hresponder]
    · simp only [Service.invocation?, hstage, ByteArray.size_empty, if_true]
  · refine h.service_gives_up hs (by omega) ?_ ?_ (h.unwanted hbroken)
    · simp only [Service.hear, Service.advance, hstage]
    · simp only [Service.invocation?, hstage]

/-- The work is done, and its outcome is what is written back. -/
theorem service_works (h : Linked router closed promised c? k strand)
    (hs : strand.service? = some service) {work : Work ByteArray} {due : Option Nat}
    (hstage : service.stage = .working work due) {time : Nat} (htime : time ∈ due) :
    ServiceKeeps router closed promised c? k strand now service (.moment time) signal strand := by
  have hfar := (Strand.Served.of_some _ hs).1 h.far
  obtain ⟨hstream, hresponder, hserved⟩ := hfar
  rw [hstage] at hserved
  obtain ⟨envelope, hsent, hwork, hdue, hencode, -, hfresh, hinvoked⟩ := hserved
  obtain ⟨c, rfl, rfl⟩ := Option.map_eq_some_iff.1 hsent
  have hrank : service.rank = 4 := by simp only [Service.rank, hstage]
  have hinvocation : service.invocation? (.moment time) signal = none := by
    simp only [Service.invocation?, hstage]
  have hframe : work.frame = router.answer c.envelope := by rw [hwork]; rfl
  have hyields : router.Yields c.envelope (router.answer c.envelope) := by
    refine ⟨?_, rfl⟩
    rw [← hwork, ← hdue, Option.mem_def.1 htime]
    rfl
  cases hanswer : (router.answer c.envelope).encode with
  | error fault =>
    -- an answer that no frame can carry ends the stream
    refine h.service_ends hs (by omega) [.note work.finished] (by simp) ?_ hinvocation ?_
    · simp only [Service.hear, Service.advance, hstage, Service.reply, hframe, hanswer,
        Service.conclude, hstream]
      rfl
    · intro _ hwanted
      rw [Frame.encode_fits hwanted.1.2] at hanswer
      cases hanswer
  | ok data =>
    have hsize : 0 < data.size := by
      obtain ⟨-, rfl⟩ := Frame.encode_ok hanswer
      rw [ByteArray.size_append, Frame.size_header]
      exact Nat.add_pos_left (by decide) _
    refine h.service_goes_on hs (.writing data 0) [.note work.finished] (by simp) ?_ h.up_taken
      h.down_taken h.near ⟨hstream, hresponder, c.envelope, _, rfl, hyields, hanswer, ?_, hsize,
        hfresh.more, ?_⟩ rfl ?_
    · simp only [Service.hear, Service.advance, hstage, Service.reply, hframe, hanswer]
    · rw [hfresh.empty]
      exact (ByteArray.extract_eq_empty_iff.2 (by omega)).symm
    · simp only [hinvocation, hinvoked, Option.toList_none, List.append_nil]
    · rw [hrank]
      exact Nat.add_lt_add_left (by decide : 4 < 5) _

/-- A word of the caller while the work is under way: there is none but the end. -/
theorem service_listens (h : Linked router closed promised c? k strand)
    (hs : strand.service? = some service) {work : Work ByteArray} {due : Option Nat} {room : Nat}
    (hstage : service.stage = .working work due)
    (hmeet : strand.meet (.read ⟨1, k⟩ room) portion = some (signal, after)) :
    ServiceKeeps router closed promised c? k strand now service (.read ⟨1, k⟩ room) signal
      after := by
  have hfar := (Strand.Served.of_some _ hs).1 h.far
  obtain ⟨hstream, hresponder, hserved⟩ := hfar
  rw [hstage] at hserved
  obtain ⟨envelope, -, -, -, -, hall, -, -⟩ := hserved
  have hrank : service.rank = 4 := by simp only [Service.rank, hstage]
  have hhear : ∀ signal, service.hear now (.read ⟨1, k⟩ room) signal = service.conclude := by
    intro signal
    simp only [Service.hear, Service.advance, hstage]
  have hinvocation : ∀ signal, service.invocation? (.read ⟨1, k⟩ room) signal = none := by
    intro signal
    simp only [Service.invocation?, hstage]
  simp only [Strand.meet, Nat.one_ne_zero, if_false] at hmeet
  obtain ⟨⟨signal', up⟩, hflow, hafter⟩ := Option.map_eq_some_iff.1 hmeet
  simp only [Prod.mk.injEq] at hafter
  obtain ⟨rfl, rfl⟩ := hafter
  rcases Flow.read_cases hflow with ⟨n, hn, hle, rfl, rfl⟩ | ⟨rfl, rfl, hend⟩ |
    ⟨fault, rfl, rfl, hbroken⟩
  · omega
  · exact h.service_gives_up hs (by omega) (hhear _) (hinvocation _) (h.unwanted_of_end hend)
  · exact h.service_gives_up hs (by omega) (hhear _) (hinvocation _) (h.unwanted hbroken)

theorem service_writes (h : Linked router closed promised c? k strand)
    (hs : strand.service? = some service) {data : ByteArray} {sent : Nat}
    (hstage : service.stage = .writing data sent)
    (hmeet : strand.meet (.write ⟨1, k⟩ data sent) portion = some (signal, after)) :
    ServiceKeeps router closed promised c? k strand now service (.write ⟨1, k⟩ data sent) signal
      after := by
  have hfar := (Strand.Served.of_some _ hs).1 h.far
  obtain ⟨hstream, hresponder, hserved⟩ := hfar
  rw [hstage] at hserved
  obtain ⟨envelope, frame, hsent, hyields, hanswer, hwritten, hlt, hended, hinvoked⟩ := hserved
  have hrank : service.rank = 5 := by simp only [Service.rank, hstage]
  have hinvocation : ∀ signal, service.invocation? (.write ⟨1, k⟩ data sent) signal = none := by
    intro signal
    simp only [Service.invocation?, hstage]
  simp only [Strand.meet, Nat.one_ne_zero, if_false] at hmeet
  obtain ⟨⟨signal', down⟩, hflow, hafter⟩ := Option.map_eq_some_iff.1 hmeet
  simp only [Prod.mk.injEq] at hafter
  obtain ⟨rfl, rfl⟩ := hafter
  rcases Flow.write_cases hflow with ⟨n, hn, hle, rfl, rfl⟩ | ⟨fault, rfl, rfl, hbroken⟩
  · have hmore : strand.down.written ++ data.extract sent (sent + n) =
        data.extract 0 (sent + n) := by
      rw [hwritten]
      exact Bytes.extract_append_next (by omega)
    have htaken : strand.down.taken ≤
        (strand.down.written ++ data.extract sent (sent + n)).size := by
      have := h.down_taken
      rw [ByteArray.size_append]
      omega
    have hasked : Strand.Asked c? k { strand with
        down := { strand.down with
          written := strand.down.written ++ data.extract sent (sent + n) } } :=
      h.near.congr rfl rfl rfl h.down_taken ⟨_, rfl⟩
    by_cases hlast : data.size ≤ sent + n
    · refine h.service_goes_on hs .finishing [] (by simp) ?_ h.up_taken htaken hasked
        ⟨hstream, hresponder, envelope, frame, hsent, hyields, ?_, hended, ?_⟩ rfl ?_
      · simp only [Service.hear, Service.advance, hstage, if_pos hlast]
      · simp only [hmore, Bytes.extract_zero_of_le hlast, hanswer]
      · simp only [hinvocation, hinvoked, Option.toList_none, List.append_nil]
      · rw [hrank]
        simp only [Service.rank, ByteArray.size_append]
        omega
    · refine h.service_goes_on hs (.writing data (sent + n)) [] (by simp) ?_ h.up_taken htaken
        hasked ⟨hstream, hresponder, envelope, frame, hsent, hyields, hanswer, hmore, by omega,
          hended, ?_⟩ rfl ?_
      · simp only [Service.hear, Service.advance, hstage, if_neg hlast]
      · simp only [hinvocation, hinvoked, Option.toList_none, List.append_nil]
      · rw [hrank]
        simp only [Service.rank, ByteArray.size_append, ByteArray.size_extract]
        omega
  · refine h.service_gives_up hs (by omega) ?_ (hinvocation _) (h.unwanted hbroken)
    simp only [Service.hear, Service.advance, hstage]

/-- The answer is there, and the service says that it is done writing. -/
theorem service_finishes (h : Linked router closed promised c? k strand)
    (hs : strand.service? = some service) (hstage : service.stage = .finishing)
    (hmeet : strand.meet (.finish ⟨1, k⟩) portion = some (signal, after)) :
    ServiceKeeps router closed promised c? k strand now service (.finish ⟨1, k⟩) signal after := by
  have hfar := (Strand.Served.of_some _ hs).1 h.far
  obtain ⟨hstream, hresponder, hserved⟩ := hfar
  rw [hstage] at hserved
  obtain ⟨envelope, frame, hsent, hyields, hanswer, hended, hinvoked⟩ := hserved
  have hrank : service.rank = 6 := by simp only [Service.rank, hstage]
  have hhear : ∀ signal, service.hear now (.finish ⟨1, k⟩) signal = service.conclude := by
    intro signal
    simp only [Service.hear, Service.advance, hstage]
  have hinvocation : ∀ signal, service.invocation? (.finish ⟨1, k⟩) signal = none := by
    intro signal
    simp only [Service.invocation?, hstage]
  simp only [Strand.meet, Nat.one_ne_zero, if_false] at hmeet
  obtain ⟨⟨signal', down⟩, hflow, hafter⟩ := Option.map_eq_some_iff.1 hmeet
  simp only [Prod.mk.injEq] at hafter
  obtain ⟨rfl, rfl⟩ := hafter
  rcases Flow.finish_cases hflow with ⟨rfl, rfl⟩ | ⟨fault, rfl, rfl, hbroken⟩
  · have hcarries : Flow.Carries { strand.down with ended := true } frame :=
      Flow.carries_of_whole hanswer
    have hsession : service.stream.session = 1 := by rw [hstream]
    have hafter : (service.hear now (.finish ⟨1, k⟩) .done).2.foldl Strand.perform
        (Strand.hear now service (.finish ⟨1, k⟩) .done
          { strand with down := { strand.down with ended := true } }) =
        { strand with
          down := { strand.down with ended := true }
          service? := some { service with stage := .done } } := by
      rw [Strand.hear, hhear, hinvocation]
      simp only [Service.conclude, List.foldl_cons, List.foldl_nil, Strand.perform, Strand.drop,
        hsession, Option.toList_none, List.append_nil, Nat.one_ne_zero, if_false, Bool.not_true,
        Bool.or_false]
    refine ⟨?_, ?_, ?_⟩
    · rw [hafter]
      refine ⟨h.up_taken, h.down_taken, h.near.congr rfl rfl rfl h.down_taken
        ⟨ByteArray.empty, ByteArray.append_empty.symm⟩, ?_, h.whole⟩
      refine (Strand.Served.of_some { service with stage := .done } rfl).2 ?_
      exact ⟨hstream, hresponder, .inl rfl,
        .inr ⟨envelope, frame, hsent, hyields, hcarries, by simp [hinvoked]⟩,
        .inr ⟨envelope, hsent, hinvoked⟩⟩
    · rw [hafter]
      simp only [Strand.progress, hs, Option.map_some, Option.getD_some, hrank]
      exact Nat.add_lt_add_left (by decide : 6 < 7) _
    · rw [hhear]
      intro deed hdeed
      rw [List.mem_singleton.1 hdeed]
      exact congrArg StreamRef.stream hstream
  · exact h.service_gives_up hs (by omega) (hhear _) (hinvocation _) (h.unwanted hbroken)

/-- **A service that is told something keeps what holds of it and its stream.** -/
theorem service_hears (h : Linked router closed promised c? k strand)
    (hs : strand.service? = some service) (hneed : need ∈ service.needs)
    (hmeets : strand.Meets closed 1 need signal after) :
    ServiceKeeps router closed promised c? k strand now service need signal after := by
  have hfar := (Strand.Served.of_some _ hs).1 h.far
  obtain ⟨hstream, -, hserved⟩ := hfar
  cases hst : service.stage with
  | done =>
    simp only [Service.needs, hst, List.not_mem_nil] at hneed
  | reading reader =>
    simp only [Service.needs, Service.stageNeeds, hst, hstream, List.mem_cons, List.not_mem_nil,
      or_false] at hneed
    rcases hneed with rfl | rfl
    · cases hmeets with
      | cancelled hclosed => exact h.service_cancelled hs (by simp [Service.rank, hst]) hclosed
      | stream hmeet => cases hmeet
    · cases hmeets with
      | stream hmeet => exact h.service_reads hs hst hmeet
  | working work due =>
    simp only [Service.needs, Service.stageNeeds, hst, hstream, List.mem_cons, List.mem_append,
      List.mem_map, List.not_mem_nil, or_false] at hneed
    rcases hneed with rfl | ⟨time, htime, rfl⟩ | rfl
    · cases hmeets with
      | cancelled hclosed => exact h.service_cancelled hs (by simp [Service.rank, hst]) hclosed
      | stream hmeet => cases hmeet
    · cases hmeets with
      | moment time => exact h.service_works hs hst (Option.mem_toList.1 htime)
      | stream hmeet => cases hmeet
    · cases hmeets with
      | stream hmeet => exact h.service_listens hs hst hmeet
  | writing data sent =>
    rw [hst] at hserved
    obtain ⟨-, -, -, -, -, -, hlt, -⟩ := hserved
    simp only [Service.needs, Service.stageNeeds, hst, hstream, if_neg (Nat.not_le.2 hlt),
      List.mem_cons, List.not_mem_nil, or_false] at hneed
    rcases hneed with rfl | rfl
    · cases hmeets with
      | cancelled hclosed => exact h.service_cancelled hs (by simp [Service.rank, hst]) hclosed
      | stream hmeet => cases hmeet
    · cases hmeets with
      | stream hmeet => exact h.service_writes hs hst hmeet
  | finishing =>
    simp only [Service.needs, Service.stageNeeds, hst, hstream, List.mem_cons, List.not_mem_nil,
      or_false] at hneed
    rcases hneed with rfl | rfl
    · cases hmeets with
      | cancelled hclosed => exact h.service_cancelled hs (by simp [Service.rank, hst]) hclosed
      | stream hmeet => cases hmeet
    · cases hmeets with
      | stream hmeet => exact h.service_finishes hs hst hmeet

end Linked

end Switchboard
