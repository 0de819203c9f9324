import Switchboard.Call

/-!
# What a call waits for, and how it ends

A fault of a call that means that the connection is gone comes from nowhere but the session itself:
either its scope was cancelled, or it refused a stream (`Call.hear_mild`). What the peer sends, and
what happens to the stream, never brings such a fault. However it ends, it does nothing but let go
of what it had of its session (`Call.deeds_of_hear`).
-/

namespace Switchboard

namespace FrameReader

theorem feed_ne_waiting (reader : FrameReader) (data : ByteArray) :
    reader.feed data ≠ .inl .waiting := by
  unfold feed
  dsimp only
  split <;> simp

theorem ended_ne_waiting (reader : FrameReader) : reader.ended ≠ .waiting := by
  unfold ended
  split <;> simp

end FrameReader

/-- An outcome that says that the connection is gone. -/
def IsFatal (outcome : Except Fault ByteArray) : Prop :=
  ∃ fault, outcome = .error fault ∧ fault.isFatal = true

namespace Call

variable {call : Call} {need : Need} {signal : Signal} {deed : Deed}
  {outcome : Except Fault ByteArray}

/-- A call that has not ended looks first whether its session is cancelled, and last whether its
time is up. -/
theorem needs_of_pending (h : call.outcome? = none) :
    call.needs =
      [.cancelled call.session, call.stage.need call.session, .moment call.deadline] := by
  unfold outcome? at h
  unfold needs
  split at h
  · cases h
  · rfl

/-- What a call has come to, or will when its stream is finished, is no fault of the connection. -/
def Mild (call : Call) : Prop :=
  ∀ outcome, (call.stage = .done outcome ∨ ∃ stream, call.stage = .finishing stream outcome) →
    ¬ IsFatal outcome

theorem mild_of_done (h : call.stage = .done outcome) (hmild : ¬ IsFatal outcome) : call.Mild := by
  rintro outcome' (heq | ⟨stream, heq⟩)
  · rw [h] at heq
    cases heq
    exact hmild
  · rw [h] at heq
    cases heq

theorem mild_of_finishing {stream : StreamRef} (h : call.stage = .finishing stream outcome)
    (hmild : ¬ IsFatal outcome) : call.Mild := by
  rintro outcome' (heq | ⟨stream', heq⟩)
  · rw [h] at heq
    cases heq
  · rw [h] at heq
    cases heq
    exact hmild

theorem mild_of_other (h : ∀ outcome, call.stage ≠ .done outcome)
    (h' : ∀ stream outcome, call.stage ≠ .finishing stream outcome) : call.Mild := by
  rintro outcome (heq | ⟨stream, heq⟩)
  · exact absurd heq (h outcome)
  · exact absurd heq (h' stream outcome)

theorem transport_not_fatal (cause : IoFault) : ¬ IsFatal (.error (.transport cause)) := by
  rintro ⟨fault, heq, hfatal⟩
  cases heq
  cases hfatal

/-- What the peer sends in reply is no fault of the connection. -/
theorem reply_not_fatal {received : Received} (h : received ≠ .waiting) :
    ¬ IsFatal (reply received) := by
  rintro ⟨fault, hreply, hfatal⟩
  cases received with
  | frame frame => cases frame <;> cases hreply <;> cases hfatal
  | ended => cases hreply; cases hfatal
  | fault cause => cases hreply; cases hfatal
  | waiting => exact h rfl

theorem read_mild (stream : StreamRef) (reader : FrameReader) (data : ByteArray) (call : Call) :
    (call.read stream reader data).1.Mild := by
  unfold read
  by_cases hend : data.size = 0
  · rw [if_pos hend]
    cases hended : reader.ended with
    | fault cause => exact mild_of_done rfl (transport_not_fatal cause)
    | waiting => exact absurd hended reader.ended_ne_waiting
    | _ => exact mild_of_finishing rfl (reply_not_fatal (by simp))
  · rw [if_neg hend]
    cases hfeed : reader.feed data with
    | inl received =>
      cases received with
      | fault cause => exact mild_of_done rfl (transport_not_fatal cause)
      | waiting => exact absurd hfeed (reader.feed_ne_waiting data)
      | _ => exact mild_of_finishing rfl (reply_not_fatal (by simp))
    | inr reader => exact mild_of_other (by simp) (by simp)

theorem send_mild (stream : StreamRef) (call : Call) : (call.send stream).1.Mild := by
  unfold send
  split
  · exact mild_of_done rfl (transport_not_fatal _)
  · exact mild_of_other (by simp) (by simp)

/-- A fault of the connection comes from the session: its scope was cancelled, or it refused a
stream. -/
theorem hear_mild (h : call.Mild) (hneed : ∀ id, need ≠ .cancelled id)
    (hsignal : ∀ fault, signal ≠ .refused fault) : (call.hear need signal).1.Mild := by
  have hadvance : (call.advance signal).1.Mild := by
    unfold advance
    split
    · rename_i stream outcome hstage
      exact mild_of_done rfl (h outcome (.inr ⟨stream, hstage⟩))
    · exact absurd rfl (hsignal _)
    · exact mild_of_done rfl (transport_not_fatal _)
    · exact mild_of_other (by simp) (by simp)
    · exact send_mild _ _
    · dsimp only
      split <;> exact mild_of_other (by simp) (by simp)
    · exact read_mild _ _ _ _
    · exact h
  unfold hear
  split
  · exact absurd rfl (hneed _)
  · refine mild_of_done rfl ?_
    rintro ⟨fault, heq, hfatal⟩
    cases heq
    cases hfatal
  · exact hadvance

theorem ended_of_hear (h : (∃ id, need = .cancelled id) ∨ ∃ fault, signal = .refused fault) :
    (call.hear need signal).1.outcome?.isSome = true := by
  unfold hear
  split
  · rfl
  · rfl
  · rename_i hneed _
    rcases h with ⟨id, rfl⟩ | ⟨fault, rfl⟩
    · exact absurd rfl (hneed id)
    · unfold advance
      split <;> first | rfl | simp_all

theorem hear_session (call : Call) (need : Need) (signal : Signal) :
    (call.hear need signal).1.session = call.session := by
  have hread : ∀ (c : Call) stream reader data,
      (c.read stream reader data).1.session = c.session := by
    intro c stream reader data
    unfold read
    split
    · cases reader.ended <;> rfl
    · split
      · rename_i received _
        cases received <;> rfl
      · rfl
  unfold hear
  split
  · rfl
  · rfl
  · unfold advance
    split <;> try rfl
    · unfold send
      split <;> rfl
    · dsimp only
      split <;> rfl
    · exact hread _ _ _ _

/-- All that a call does besides waiting is to let go of its stream, or to give up its request for
one. -/
theorem deeds_of_hear (h : deed ∈ (call.hear need signal).2) :
    (∃ ref, deed = .drop ref) ∨ ∃ id request, deed = .abandon id request := by
  have hrelease : ∀ {deed : Deed}, deed ∈ call.release →
      (∃ ref, deed = .drop ref) ∨ ∃ id request, deed = .abandon id request := by
    intro deed hdeed
    unfold release CallStage.release at hdeed
    split at hdeed
    · cases hdeed
    · cases hdeed
    · exact .inr ⟨_, _, List.mem_singleton.1 hdeed⟩
    · exact .inl ⟨_, List.mem_singleton.1 hdeed⟩
    · exact .inl ⟨_, List.mem_singleton.1 hdeed⟩
    · exact .inl ⟨_, List.mem_singleton.1 hdeed⟩
  unfold hear at h
  split at h
  · exact hrelease h
  · exact hrelease h
  · unfold advance at h
    split at h
    · exact hrelease h
    · cases h
    · exact hrelease h
    · cases h
    · unfold send at h
      split at h
      · exact .inl ⟨_, List.mem_singleton.1 h⟩
      · cases h
    · dsimp only at h
      split at h <;> cases h
    · unfold read at h
      dsimp only at h
      split at h
      · split at h
        · exact .inl ⟨_, List.mem_singleton.1 h⟩
        · cases h
      · split at h
        · split at h
          · exact .inl ⟨_, List.mem_singleton.1 h⟩
          · cases h
        · cases h
    · cases h

theorem not_answer_of_hear (h : deed ∈ (call.hear need signal).2) (ref : StreamRef)
    (responder : Responder) : deed ≠ .answer ref responder := by
  rcases deeds_of_hear h with ⟨_, rfl⟩ | ⟨_, _, rfl⟩ <;> exact fun heq => by cases heq

end Call

end Switchboard
