import Switchboard.Proofs.Traffic.Link

/-!
# A call goes on with its stream

Whatever a call is told, it keeps what holds of it and its stream, and gets on: `CallKeeps`. A call
whose stream works makes of it the answer that its service wrote; one that ends with less has been
interrupted, or had something to send or to receive that no frame carries.
-/

namespace Switchboard

/-- A call that is told something keeps what holds of it and its stream, and gets on. Here `after`
is the stream once the need is met. -/
structure CallKeeps (router : Router) (closed : Bool) (promised : Prop) (c : Caller) (k : Nat)
    (strand : Strand) (need : Need) (signal : Signal) (after : Strand) : Prop where
  linked : Linked router closed promised (some (c.hear closed need signal)) k
    ((c.call.hear need signal).2.foldl Strand.perform after)
  proper : (c.hear closed need signal).Proper router closed
  grown : c.rank + strand.progress < (c.hear closed need signal).rank +
    ((c.call.hear need signal).2.foldl Strand.perform after).progress
  concerns : ∀ deed ∈ (c.call.hear need signal).2, deed.Concerns k
  heard : (c.hear closed need signal).HasReply → c.HasReply ∨ strand.invoked ≠ []

namespace Linked

variable {router : Router} {closed : Bool} {promised : Prop} {c : Caller} {k : Nat}
  {strand after : Strand} {portion : Portion} {need : Need} {signal : Signal}
  {outcome : Except Fault ByteArray} {ref : StreamRef}

/-- A call that is done with an outcome lets go of its stream. -/
theorem call_ends (h : Linked router closed promised (some c) k after)
    (outcome : Except Fault ByteArray)
    (hhear : c.call.hear need signal =
      ({ c.call with stage := .done outcome }, [.drop ⟨0, k⟩]))
    (hrank : c.rank < 5) (hprogress : strand.progress ≤ after.progress)
    (houtcome : c.IsDue router outcome ∨ ¬ IsReply outcome ∧
      (closed = true ∨ outcome = .error (.timeout c.call.limit) ∨ ¬ c.envelope.Fits router))
    (hheard : IsReply outcome → c.HasReply) :
    CallKeeps router closed promised c k strand need signal after := by
  have hcall : c.hear closed need signal =
      { c with call := { c.call with stage := .done outcome }, cut := closed } := by
    rw [Caller.hear, hhear]
  constructor
  · rw [hcall, hhear]
    exact h.ends rfl rfl
  · rw [hcall]
    exact houtcome
  · rw [hcall, hhear]
    have hdrop := after.progress_drop 0
    change c.rank + strand.progress < 5 + (after.drop 0).progress
    omega
  · rw [hhear]
    intro deed hdeed
    rw [List.mem_singleton.1 hdeed]
    exact rfl
  · rw [hcall]
    exact fun hreply => .inl (hheard hreply)

/-- Word that the session is cancelled, or that the time is up, ends a call. -/
theorem call_interrupted (h : Linked router closed promised (some c) k strand)
    (hneed : need = .cancelled 0 ∧ closed = true ∨ need = .moment c.call.deadline)
    (hrank : c.rank < 5) :
    CallKeeps router closed promised c k strand need signal strand := by
  have hrelease : c.call.release = [.drop ⟨0, k⟩] := by
    have hnear := h.near
    simp only [Strand.Asked, Caller.AtStrand] at hnear
    unfold Call.release CallStage.release
    split at hnear
    · exact hnear.elim
    · exact hnear.elim
    · rename_i hs
      rw [hs, hnear.1]
    · rename_i hs
      rw [hs, hnear.1]
    · rename_i hs
      rw [hs, hnear.1]
    · rename_i hs
      simp only [Caller.rank, hs] at hrank
      omega
  rcases hneed with ⟨rfl, hclosed⟩ | rfl
  · exact h.call_ends (.error .closed)
      (by simp only [Call.hear, Call.conclude, hrelease]) hrank (Nat.le_refl _)
      (.inr ⟨id, .inl hclosed⟩) False.elim
  · exact h.call_ends (.error (.timeout c.call.limit))
      (by simp only [Call.hear, Call.conclude, hrelease]) hrank (Nat.le_refl _)
      (.inr ⟨id, .inr (.inl rfl)⟩) False.elim

theorem call_fails (h : Linked router closed promised (some c) k strand) (fault : IoFault)
    (hhear : c.call.hear need signal =
      ({ c.call with stage := .done (.error (.transport fault)) }, [.drop ⟨0, k⟩]))
    (hrank : c.rank < 5) (hwaits : c.envelope.Fits router → c.Waits router)
    (hbroken : strand.broken = true) :
    CallKeeps router closed promised c k strand need signal strand := by
  refine h.call_ends _ hhear hrank (Nat.le_refl _) (.inr ⟨id, ?_⟩) False.elim
  rcases h.excuse hwaits hbroken with hclosed | hlarge
  · exact .inl hclosed
  · exact .inr (.inr hlarge)

/-- A call goes on to another stage and does nothing besides. -/
theorem call_goes_on (stage : CallStage)
    (hhear : c.call.hear need signal = ({ c.call with stage }, []))
    (hlinked : Linked router closed promised
      (some { c with call := { c.call with stage }, cut := closed }) k after)
    (hproper : Caller.Proper router closed { c with call := { c.call with stage }, cut := closed })
    (hgrown : c.rank + strand.progress <
      Caller.rank { c with call := { c.call with stage }, cut := closed } + after.progress)
    (hheard : Caller.HasReply { c with call := { c.call with stage }, cut := closed } →
      strand.invoked ≠ []) :
    CallKeeps router closed promised c k strand need signal after := by
  have hcall : c.hear closed need signal =
      { c with call := { c.call with stage }, cut := closed } := by
    rw [Caller.hear, hhear]
  refine ⟨?_, ?_, ?_, ?_, ?_⟩
  · rw [hcall, hhear]; exact hlinked
  · rw [hcall]; exact hproper
  · rw [hcall, hhear]; exact hgrown
  · rw [hhear]
    intro deed hdeed
    cases hdeed
  · rw [hcall]
    exact fun hreply => .inr (hheard hreply)

/-- A call is told of its stream: it begins to write its question, or gives up one that is too
large. -/
theorem call_sends (h : Linked router closed promised none k strand) (hpromised : promised)
    {request : Nat} (hstage : c.call.stage = .opening request)
    (hrequest : c.call.request = c.envelope.encode) (i : Nat) {promised' : Prop} :
    CallKeeps router closed promised' c k strand (.granted 0 request) (.stream ⟨0, k⟩)
      { strand with caller? := some i } := by
  have hrank : c.rank = 1 := by simp only [Caller.rank, hstage]
  have hfar : Strand.Served router (some c.envelope) k { strand with caller? := some i } :=
    (h.far.sent c.envelope).congr rfl rfl rfl rfl rfl rfl id
  cases hencode : c.envelope.question.encode with
  | error fault =>
    have hhear : c.call.hear (.granted 0 request) (.stream ⟨0, k⟩) =
        ({ c.call with stage := .done (.error (.transport fault)) }, [.drop ⟨0, k⟩]) := by
      rw [Envelope.question, ← hrequest] at hencode
      simp only [Call.hear, Call.advance, hstage, Call.send, hencode]
    have hlarge : ¬ c.envelope.Fits router := by
      intro hfits
      rw [Frame.encode_fits (show c.envelope.question.payload.size ≤ _ from hfits.1)] at hencode
      cases hencode
    refine ⟨?_, ?_, ?_, ?_, ?_⟩
    · simp only [Caller.hear, hhear]
      exact ⟨h.up_taken, h.down_taken, .inl h.near.1,
        hfar.congr rfl rfl rfl rfl rfl rfl Strand.broken_drop,
        fun _ hwanted => hwanted.2.elim⟩
    · simp only [Caller.hear, hhear]
      exact .inr ⟨id, .inr (.inr hlarge)⟩
    · have hdrop := Strand.progress_drop { strand with caller? := some i } 0
      simp only [Caller.hear, hhear]
      rw [hrank]
      change 1 + Strand.progress { strand with caller? := some i } < 5 +
        (Strand.drop 0 { strand with caller? := some i }).progress
      omega
    · rw [hhear]
      intro deed hdeed
      rw [List.mem_singleton.1 hdeed]
      exact rfl
    · simp only [Caller.hear, hhear]
      exact False.elim
  | ok data =>
    have hsize : 0 < data.size := by
      obtain ⟨-, rfl⟩ := Frame.encode_ok hencode
      rw [ByteArray.size_append, Frame.size_header]
      exact Nat.add_pos_left (by decide) _
    refine call_goes_on (.writing ⟨0, k⟩ data 0) ?_
      ⟨h.up_taken, h.down_taken, ⟨rfl, hencode, ?_, hsize, h.near.1.more, h.near.2⟩, hfar,
        fun hlive _ => h.whole hlive hpromised⟩ trivial ?_ False.elim
    · rw [Envelope.question, ← hrequest] at hencode
      simp only [Call.hear, Call.advance, hstage, Call.send, hencode]
    · rw [h.near.1.empty]
      exact (ByteArray.extract_eq_empty_iff.2 (by omega)).symm
    · rw [hrank]
      exact Nat.add_lt_add_right (by decide : 1 < 2) strand.progress

/-- Whoever reads a question has not come to its end while more of it is written, so that no router
works on it yet. -/
theorem far_of_more (h : Linked router closed promised (some c) k strand) {data : ByteArray}
    (hencode : c.envelope.question.encode = .ok data) (hshort : strand.up.written.size < data.size)
    (more : ByteArray) :
    Strand.Served router (some c.envelope) k
      { strand with up := { strand.up with written := strand.up.written ++ more } } := by
  have hfar := h.far
  cases hs : strand.service? with
  | none =>
    rw [Strand.Served.of_none hs] at hfar
    exact (Strand.Served.of_none rfl).2 hfar
  | some service =>
    rw [Strand.Served.of_some _ hs] at hfar
    refine (Strand.Served.of_some _ rfl).2 ?_
    obtain ⟨hstream, hresponder, hservice⟩ := hfar
    refine ⟨hstream, hresponder, ?_⟩
    cases hst : service.stage with
    | reading reader =>
      rw [hst] at hservice
      exact ⟨hservice.1.write h.up_taken _, hservice.2⟩
    | working work due =>
      rw [hst] at hservice
      obtain ⟨envelope, hsent, -, -, hwhole, -⟩ := hservice
      cases hsent
      rw [hencode] at hwhole
      cases hwhole
      omega
    | _ => rw [hst] at hservice; exact hservice

theorem call_writes (h : Linked router closed promised (some c) k strand) {data : ByteArray}
    {sent : Nat} (hstage : c.call.stage = .writing ref data sent)
    (hmeet : strand.meet (.write ref data sent) portion = some (signal, after)) :
    CallKeeps router closed promised c k strand (.write ref data sent) signal after := by
  have hnear := h.near
  simp only [Strand.Asked, Caller.AtStrand, hstage] at hnear
  obtain ⟨rfl, hencode, hwritten, hlt, hended, htaken⟩ := hnear
  have hrank : c.rank = 2 := by simp only [Caller.rank, hstage]
  have hwaits : c.envelope.Fits router → c.Waits router :=
    fun hfits => ⟨hfits, by simp only [hstage]⟩
  simp only [Strand.meet, if_true] at hmeet
  obtain ⟨⟨signal', up⟩, hwrite, hafter⟩ := Option.map_eq_some_iff.1 hmeet
  cases hafter
  rcases Flow.write_cases hwrite with ⟨n, hn, hle, rfl, rfl⟩ | ⟨fault, rfl, rfl, hbroken⟩
  · have hmore : strand.up.written ++ data.extract sent (sent + n) = data.extract 0 (sent + n) := by
      rw [hwritten]
      exact Bytes.extract_append_next (by omega)
    have hsize : strand.up.written.size = sent := by
      rw [hwritten, ByteArray.size_extract]; omega
    have hfar := h.far_of_more hencode (by omega) (data.extract sent (sent + n))
    have htake : strand.up.taken ≤ (strand.up.written ++ data.extract sent (sent + n)).size := by
      have := h.up_taken
      rw [ByteArray.size_append]
      omega
    by_cases hlast : data.size ≤ sent + n
    · have hwhole : strand.up.written ++ data.extract sent (sent + n) = data := by
        rw [hmore]
        exact Bytes.extract_zero_of_le hlast
      refine call_goes_on (.reading ⟨0, k⟩ {})
        (by simp only [Call.hear, Call.advance, hstage, if_pos hlast])
        ⟨htake, h.down_taken, ⟨rfl, ?_, hended, Flow.readBy_start htaken⟩, hfar,
          fun hlive hwanted => h.whole hlive (hwaits hwanted.1)⟩ trivial ?_ False.elim
      · simp only [hwhole]
        exact hencode
      · rw [hrank]
        simp only [Caller.rank, Strand.progress, ByteArray.size_append]
        omega
    · refine call_goes_on (.writing ⟨0, k⟩ data (sent + n))
        (by simp only [Call.hear, Call.advance, hstage, if_neg hlast])
        ⟨htake, h.down_taken, ⟨rfl, hencode, hmore, by omega, hended, htaken⟩, hfar,
          fun hlive hwanted => h.whole hlive (hwaits hwanted.1)⟩ trivial ?_ False.elim
      rw [hrank]
      simp only [Caller.rank, Strand.progress, ByteArray.size_append, ByteArray.size_extract]
      omega
  · exact h.call_fails fault
      (by simp only [Call.hear, Call.advance, Call.conclude, Call.release, CallStage.release,
        hstage]) (by omega) hwaits hbroken

/-- More of the answer is read: a reader that has all of it has the frame of the answer. -/
theorem call_reads (h : Linked router closed promised (some c) k strand) {reader : FrameReader}
    {room : Nat} (hstage : c.call.stage = .reading ref reader)
    (hmeet : strand.meet (.read ref room) portion = some (signal, after)) :
    CallKeeps router closed promised c k strand (.read ref room) signal after := by
  have hnear := h.near
  simp only [Strand.Asked, Caller.AtStrand, hstage] at hnear
  obtain ⟨rfl, hencode, hended, hread⟩ := hnear
  have hrank : c.rank = 3 := by simp only [Caller.rank, hstage]
  have hwaits : c.envelope.Fits router → c.Waits router :=
    fun hfits => ⟨hfits, by simp only [hstage]⟩
  simp only [Strand.meet, if_true] at hmeet
  obtain ⟨⟨signal', down⟩, hflow, hafter⟩ := Option.map_eq_some_iff.1 hmeet
  cases hafter
  rcases Flow.read_cases hflow with ⟨n, hn, hle, rfl, rfl⟩ | ⟨rfl, rfl, hend⟩ |
    ⟨fault, rfl, rfl, hbroken⟩
  · -- bytes can only have come from a service that answers this call
    have hsize :
        (strand.down.written.extract strand.down.taken (strand.down.taken + n)).size ≠ 0 := by
      rw [ByteArray.size_extract]; omega
    rcases h.down_carries with hfresh | ⟨frame, hyields, hcarries, hworked⟩
    · rw [hfresh.empty] at hle
      simp only [ByteArray.size_empty] at hle
      omega
    · obtain ⟨data, hanswer, -, -⟩ := id hcarries
      rcases hcarries.feed hanswer hread hle with ⟨hfeed, -, -⟩ | ⟨next, hfeed, hnext⟩
      · refine call_goes_on (.finishing ⟨0, k⟩ (Call.reply (.frame frame)))
          (by simp only [Call.hear, Call.advance, hstage, Call.read, if_neg hsize, hfeed])
          ⟨h.up_taken, hle, ⟨rfl, hencode⟩, h.far.congr rfl rfl rfl rfl rfl rfl id,
            fun _ hwanted => hwanted.2.elim⟩ (.inl ⟨frame, hyields, rfl⟩) ?_
            fun _ => hworked
        rw [hrank]
        simp only [Caller.rank, Strand.progress]
        omega
      · refine call_goes_on (.reading ⟨0, k⟩ next)
          (by simp only [Call.hear, Call.advance, hstage, Call.read, if_neg hsize, hfeed])
          ⟨h.up_taken, hle, ⟨rfl, hencode, hended, hnext⟩, h.far.congr rfl rfl rfl rfl rfl rfl id,
            fun hlive hwanted => h.whole hlive (hwaits hwanted.1)⟩ trivial ?_ False.elim
        rw [hrank]
        simp only [Caller.rank, Strand.progress]
        omega
  · -- the end comes before the answer only if the stream is broken
    have hexcuse : closed = true ∨ ¬ c.envelope.Fits router := by
      rcases hend with ⟨hended, htaken⟩ | hbroken
      · rcases h.down_carries with hfresh | ⟨frame, -, hcarries, -⟩
        · rw [hfresh.more] at hended; cases hended
        · rw [hcarries.not_ended hread htaken] at hended; cases hended
      · exact h.excuse hwaits hbroken
    by_cases hempty : reader.buffer.size = 0
    · refine call_goes_on (.finishing ⟨0, k⟩ (Call.reply .ended))
        (by simp only [Call.hear, Call.advance, hstage, Call.read, ByteArray.size_empty, if_true,
          FrameReader.ended, if_pos hempty])
        ⟨h.up_taken, h.down_taken, ⟨rfl, hencode⟩, h.far, fun _ hwanted => hwanted.2.elim⟩
        (.inr ⟨id, hexcuse⟩) ?_ False.elim
      rw [hrank]
      exact Nat.add_lt_add_right (by decide : 3 < 4) strand.progress
    · refine h.call_ends (.error (.transport (endedInside reader.buffer.size)))
        (by simp only [Call.hear, Call.advance, hstage, Call.read, ByteArray.size_empty, if_true,
          FrameReader.ended, if_neg hempty]) (by omega) (Nat.le_refl _)
        (.inr ⟨id, ?_⟩) False.elim
      rcases hexcuse with hclosed | hlarge
      · exact .inl hclosed
      · exact .inr (.inr hlarge)
  · exact h.call_fails fault
      (by simp only [Call.hear, Call.advance, Call.conclude, Call.release, CallStage.release,
        hstage]) (by omega) hwaits hbroken

/-- The reply is there, and the call says that it is done writing. -/
theorem call_finishes (h : Linked router closed promised (some c) k strand)
    (hproper : c.Proper router closed) (hstage : c.call.stage = .finishing ref outcome)
    (hmeet : strand.meet (.finish ref) portion = some (signal, after)) :
    CallKeeps router closed promised c k strand (.finish ref) signal after := by
  have hnear := h.near
  simp only [Strand.Asked, Caller.AtStrand, hstage] at hnear
  obtain ⟨rfl, hencode⟩ := hnear
  simp only [Caller.Proper, hstage] at hproper
  have hrank : c.rank = 4 := by simp only [Caller.rank, hstage]
  have hhear : c.call.hear (.finish ⟨0, k⟩) signal =
      ({ c.call with stage := .done outcome }, [.drop ⟨0, k⟩]) := by
    simp only [Call.hear, Call.advance, hstage, Call.conclude, Call.release, CallStage.release]
  have houtcome : c.IsDue router outcome ∨ ¬ IsReply outcome ∧
      (closed = true ∨ outcome = .error (.timeout c.call.limit) ∨ ¬ c.envelope.Fits router) := by
    rcases hproper with hdue | ⟨hno, hclosed | hlarge⟩
    · exact .inl hdue
    · exact .inr ⟨hno, .inl hclosed⟩
    · exact .inr ⟨hno, .inr (.inr hlarge)⟩
  have hheard : IsReply outcome → c.HasReply := by
    simp only [Caller.HasReply, hstage]
    exact id
  simp only [Strand.meet, if_true] at hmeet
  obtain ⟨⟨signal', up⟩, hflow, hafter⟩ := Option.map_eq_some_iff.1 hmeet
  cases hafter
  rcases Flow.finish_cases hflow with ⟨rfl, rfl⟩ | ⟨fault, rfl, rfl, hbroken⟩
  · have hended : Linked router closed promised (some c) k
        { strand with up := { strand.up with ended := true } } := by
      refine ⟨h.up_taken, h.down_taken, ?_, ?_, h.whole⟩
      · simp only [Strand.Asked, Caller.AtStrand, hstage]
        exact ⟨trivial, hencode⟩
      · exact h.far.congr rfl rfl rfl rfl rfl rfl id
    exact hended.call_ends _ hhear (by omega) (Nat.le_refl _) houtcome hheard
  · exact h.call_ends _ hhear (by omega) (Nat.le_refl _) houtcome hheard

/-- **A call that is told something keeps what holds of it and its stream.** -/
theorem call_hears (h : Linked router closed promised (some c) k strand)
    (hproper : c.Proper router closed) (hsession : c.call.session = 0)
    (hneed : need ∈ c.call.needs) (hmeets : strand.Meets closed 0 need signal after) :
    CallKeeps router closed promised c k strand need signal after := by
  have hnear := h.near
  simp only [Strand.Asked, Caller.AtStrand] at hnear
  have hneeds : c.rank < 5 ∧
      (need = .cancelled 0 ∨ need = c.call.stage.need 0 ∨ need = .moment c.call.deadline) := by
    unfold Call.needs at hneed
    unfold Caller.rank
    split at hneed
    · cases hneed
    · rename_i hs
      rw [hsession] at hneed
      simp only [List.mem_cons, List.not_mem_nil, or_false] at hneed
      refine ⟨?_, hneed⟩
      split
      all_goals first
        | omega
        | (rename_i hdone; exact absurd hdone (hs _))
  obtain ⟨hrank, hneed⟩ := hneeds
  cases hmeets with
  | cancelled hclosed => exact h.call_interrupted (.inl ⟨rfl, hclosed⟩) hrank
  | moment time =>
    refine h.call_interrupted (.inr ?_) hrank
    rcases hneed with heq | heq | heq
    · cases heq
    · unfold CallStage.need at heq
      split at heq <;> cases heq
    · exact heq
  | stream hmeet =>
    rcases hneed with rfl | rfl | rfl
    · cases hmeet
    · cases hs : c.call.stage with
      | asking => rw [hs] at hnear; exact hnear.elim
      | opening request => rw [hs] at hnear; exact hnear.elim
      | writing ref data sent => rw [hs] at hmeet; exact h.call_writes hs hmeet
      | reading ref reader => rw [hs] at hmeet; exact h.call_reads hs hmeet
      | finishing ref outcome => rw [hs] at hmeet; exact h.call_finishes hproper hs hmeet
      | done outcome => rw [hs] at hmeet; cases hmeet
    · cases hmeet

end Linked

end Switchboard
