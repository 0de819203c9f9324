import Switchboard.Proofs.Handshake.Duplex

/-!
# Both sides of a handshake agree

Follows from `Upgrade.Sound`, which every reachable state keeps, and from how a side stands:

* `Sound.not_refused`, `AtRest.standing_eq`: no side has agreed while the other has refused, and
  where nothing moves by itself both have returned, with the same outcome.
* `Sound.received_eq`, `AtRest.received_eq`: a transport gives what was sent into the other one, and
  no byte of the handshake.
* `Sound.progress_le`: a run comes to an end, but for what is sent over the transports.
* `sides_agree` puts these together for every run.
-/

namespace Switchboard

namespace Upgrade

variable {u : Upgrade} {d : Duplex}

/-! ## Rest -/

/-- Why a side has not returned: it still writes, or it still reads. -/
theorem Sound.pending_cases (h : u.Sound d) {s : Side}
    (hp : u.standing s (d.partner s) = .pending) :
    ((d.partner s).put < (u.text s).size ∧ (d.partner s).cut = false ∧
      (d.partner s).put < (u.output s (d.partner s)).size ∧
      (s = .granter → u.asks.size ≤ (joined (d.partner s).heard).size)) ∨
    ((joined (d.partner s).heard).size < u.need s ∧ (d.partner s).ended = false ∧
      (u.written s (d.partner s)).size ≤ (d.partner s).put ∧
      (s = .seeker → u.asks.size ≠ 0 ∧ u.asks.size ≤ (d.partner s).put)) := by
  cases s with
  | seeker =>
    have hs := (standing_seeker (h.hears .seeker)).1
    have hwritten := written_seeker (u := u) (p := d.partner .seeker)
    rw [hp] at hs
    split at hs
    · cases hs
    · rename_i hempty
      split at hs
      · rename_i hput
        split at hs
        · cases hs
        · rename_i hcut
          rw [Bool.not_eq_true] at hcut
          refine .inl ⟨hput, hcut, ?_, fun hs => by cases hs⟩
          rw [output, hwritten, Partner.taken_of_not_cut hcut, ByteArray.size_append]
          omega
      · rename_i hput
        split at hs
        · rename_i hheard
          split at hs
          · cases hs
          · rename_i hended
            rw [Bool.not_eq_true] at hended
            refine .inr ⟨hheard, hended, ?_, fun _ => ⟨hempty, Nat.not_lt.1 hput⟩⟩
            rw [hwritten, taken_of_not_breaks fun hb => hput hb.2]
            exact Nat.not_lt.1 hput
        · split at hs <;> cases hs
  | granter =>
    have hs := standing_granter (h.hears .granter)
    have hwritten := (granter_after (h.hears .granter)).1
    rw [hp] at hs
    split at hs
    · rename_i hheard
      split at hs
      · cases hs
      · rename_i hended
        rw [Bool.not_eq_true] at hended
        rw [if_pos hheard] at hwritten
        exact .inr ⟨hheard, hended, by rw [hwritten]; exact Nat.zero_le _, fun hs => by cases hs⟩
    · rename_i hheard
      split at hs
      · rename_i hput
        split at hs
        · cases hs
        · rename_i hcut
          rw [Bool.not_eq_true] at hcut
          rw [if_neg hheard, Partner.taken_of_not_cut hcut] at hwritten
          have hout : (d.partner .granter).put < (u.output .granter (d.partner .granter)).size := by
            rw [output, hwritten, ByteArray.size_append]
            omega
          exact .inl ⟨hput, hcut, hout, (h.output_eq hcut hout).2⟩
      · split at hs <;> cases hs

/-- A side that could write finds the pipe full, and neither side has let go. -/
theorem AtRest.full (hrest : u.AtRest d) (h : u.Sound d) {s : Side}
    (hgone : (d.partner s).gone = false) (hcut : (d.partner s).cut = false)
    (hput : (d.partner s).put < (u.output s (d.partner s)).size) :
    (d.pipe s).data.size ≠ 0 ∧ (d.pipe s).closed = false := by
  have hnone := hrest.1 s 1
  have hcapacity := (h s).capacity
  simp only [Upgrade.step, hgone, hcut] at hnone
  rw [if_neg (by simp; omega)] at hnone
  unfold Pipe.write at hnone
  by_cases hclosed : (d.pipe s).closed = true
  · rw [if_pos hclosed] at hnone
    cases hnone
  · rw [if_neg hclosed] at hnone
    rw [Bool.not_eq_true] at hclosed
    refine ⟨fun hzero => ?_, hclosed⟩
    rw [if_neg] at hnone
    · cases hnone
    · simp only [Pipe.room, hzero, ByteArray.size_extract]
      omega

/-- A side that could read finds the pipe empty, and neither side has let go. -/
theorem AtRest.empty (hrest : u.AtRest d) {s : Side} (hgone : (d.partner s).gone = false)
    (hended : (d.partner s).ended = false) (hstands : u.standing s (d.partner s) ≠ .refused)
    (hput : (u.written s (d.partner s)).size ≤ (d.partner s).put) :
    (d.pipe s.other).data.size = 0 ∧ (d.pipe s.other).closed = false := by
  have hnone := hrest.2.1 s 1
  simp only [Upgrade.step, hgone, hended] at hnone
  rw [if_neg (by simp [hstands]; omega)] at hnone
  unfold Pipe.read at hnone
  by_cases hsize : (d.pipe s.other).data.size = 0
  · rw [if_pos hsize] at hnone
    refine ⟨hsize, ?_⟩
    by_cases hclosed : (d.pipe s.other).closed = true
    · rw [if_pos (by simp [hclosed])] at hnone
      cases hnone
    · simpa using hclosed
  · rw [if_neg hsize] at hnone
    simp only at hnone
    split at hnone <;> cases hnone

/-- Where a pipe is open nobody has let go; at rest nobody has refused then. -/
theorem AtRest.not_refused (hrest : u.AtRest d) (h : u.Sound d) {s : Side}
    (hopen : (d.pipe s).closed = false) (t : Side) :
    (d.partner t).gone = false ∧ u.standing t (d.partner t) ≠ .refused := by
  have hgone : (d.partner t).gone = false := by
    by_cases hg : (d.partner t).gone = true
    · have hclosed : (d.pipe s).closed = true := by
        rcases s.eq_or_other t with rfl | rfl
        · exact (h t).closed_iff.2 (.inl hg)
        · exact (h s).closed_iff.2 (.inr hg)
      rw [hopen] at hclosed
      cases hclosed
    · simpa using hg
  refine ⟨hgone, fun hr => ?_⟩
  have hnone := hrest.2.2 t hr
  simp only [Upgrade.step, hgone, hr] at hnone
  cases hnone

/-- The server has granted the upgrade before the agent has. -/
theorem Sound.granter_agreed (h : u.Sound d)
    (ha : u.standing .seeker (d.partner .seeker) = .agreed) :
    u.standing .granter (d.partner .granter) = .agreed := by
  obtain ⟨hg, -, hheard⟩ := h.agreed ha
  have hreply := u.granted_iff.1 hg
  have htext : (u.text .granter).size ≠ 0 := by
    rw [u.text_granter_of_reply hreply]
    decide
  have hput : (u.text .granter).size ≤ (d.partner .granter).put := by
    have hle := h.heard_le .granter
    change (joined (d.partner .seeker).heard).size + _ = _ at hle
    change (u.text .granter).size ≤ _ at hheard
    omega
  have hasks := (h .granter).answered rfl (by omega)
  rw [standing_granter (h.hears .granter), u.need_granter_of_reply hreply, if_neg (by omega),
    if_neg (by omega), if_pos hg]

theorem AtRest.seeker_returned (hrest : u.AtRest d) (h : u.Sound d) :
    u.standing .seeker (d.partner .seeker) ≠ .pending := by
  intro hp
  have hup := h.heard_le .seeker
  have hdown := h.heard_le .granter
  change (joined (d.partner .granter).heard).size + _ = _ at hup
  change (joined (d.partner .seeker).heard).size + _ = _ at hdown
  have hgone : (d.partner .seeker).gone = false := by
    by_cases hg : (d.partner .seeker).gone = true
    · exact absurd hp ((h .seeker).gone hg).1
    · simpa using hg
  rcases h.pending_cases hp with ⟨hput, hcut, hout, -⟩ | ⟨hheard, hended, hwritten, hseeker⟩
  · -- it writes its head: the pipe is full, and the server could read from it
    obtain ⟨hfull, hopen⟩ := hrest.full h hgone hcut hout
    obtain ⟨hgone', hstands⟩ := hrest.not_refused h hopen .granter
    change (d.partner .seeker).put < u.asks.size at hput
    cases hs : u.standing .granter (d.partner .granter) with
    | refused => exact hstands hs
    | agreed =>
      have hasks := (h.agreed hs).2.2
      change u.asks.size ≤ _ at hasks
      omega
    | pending =>
      rcases h.pending_cases hs with ⟨-, -, -, hasks⟩ | ⟨-, hended, hwritten, -⟩
      · have := hasks rfl
        omega
      · exact hfull (hrest.empty hgone' hended hstands hwritten).1
  · -- it waits for the answer: the pipe is empty, and the server could read or write
    obtain ⟨hasks, hput⟩ := hseeker rfl
    obtain ⟨hempty, hopen⟩ := hrest.empty hgone hended (by rw [hp]; decide) hwritten
    obtain ⟨hgone', hstands⟩ := hrest.not_refused h hopen .granter
    change (d.pipe .granter).data.size = 0 at hempty
    cases hs : u.standing .granter (d.partner .granter) with
    | refused => exact hstands hs
    | agreed =>
      obtain ⟨hg, hsaid, -⟩ := h.agreed hs
      rw [u.need_seeker_of_granted hg] at hheard
      omega
    | pending =>
      rcases h.pending_cases hs with ⟨-, hcut, hout, -⟩ | ⟨hheard', hended, hwritten, -⟩
      · exact (hrest.full h hgone' hcut hout).1 hempty
      · have hread := (hrest.empty hgone' hended hstands hwritten).1
        change (d.pipe .seeker).data.size = 0 at hread
        have := u.need_granter_le hasks
        omega

theorem AtRest.granter_returned (hrest : u.AtRest d) (h : u.Sound d) :
    u.standing .granter (d.partner .granter) ≠ .pending := by
  intro hp
  have hgone : (d.partner .granter).gone = false := by
    by_cases hg : (d.partner .granter).gone = true
    · exact absurd hp ((h .granter).gone hg).1
    · simpa using hg
  have hagreed : ∀ s, (d.pipe s).closed = false → False := by
    intro s hopen
    have hstands := (hrest.not_refused h hopen .seeker).2
    cases hs : u.standing .seeker (d.partner .seeker) with
    | pending => exact hrest.seeker_returned h hs
    | refused => exact hstands hs
    | agreed =>
      rw [h.granter_agreed hs] at hp
      cases hp
  rcases h.pending_cases hp with ⟨-, hcut, hout, -⟩ | ⟨-, hended, hwritten, -⟩
  · exact hagreed _ (hrest.full h hgone hcut hout).2
  · exact hagreed _ (hrest.empty hgone hended (by rw [hp]; decide) hwritten).2

/-- **At rest both sides have returned, with the same outcome.** -/
theorem AtRest.standing_eq (hrest : u.AtRest d) (h : u.Sound d) (s : Side) :
    u.standing s (d.partner s) = if u.Granted then .agreed else .refused := by
  have hreturned : u.standing s (d.partner s) ≠ .pending := by
    cases s with
    | seeker => exact hrest.seeker_returned h
    | granter => exact hrest.granter_returned h
  by_cases hg : u.Granted
  · rw [if_pos hg]
    have hr := h.not_refused hg s
    cases hs : u.standing s (d.partner s) with
    | pending => exact absurd hs hreturned
    | agreed => rfl
    | refused => exact absurd hs hr
  · rw [if_neg hg]
    cases hs : u.standing s (d.partner s) with
    | pending => exact absurd hs hreturned
    | agreed => exact absurd (h.agreed hs).1 hg
    | refused => rfl

/-! ## Transports -/

/-- **A transport gives what was sent into the other one.** What it has given, and what is still in
the pipe, are the bytes sent over the other transport that its pipe has taken; the text of the
handshake is not among them. -/
theorem Sound.received_eq (h : u.Sound d) {s : Side} (ha : u.standing s (d.partner s) = .agreed) :
    u.received s (d.partner s) ++ (d.pipe s.other).data =
      (d.partner s.other).said.extract 0 ((d.partner s.other).put - (u.text s.other).size) := by
  obtain ⟨hg, -, hheard⟩ := h.agreed ha
  have hflow := congrArg bytesOf (h.other s).flow
  have hbytes : bytesOf (u.received s (d.partner s)) =
      (bytesOf (joined (d.partner s).heard)).drop (u.text s.other).size := by
    cases s with
    | seeker => exact (standing_seeker (h.hears .seeker)).2 ha
    | granter => exact (granter_after (h.hears .granter)).2 ha
  have hdrop := congrArg (List.drop (u.text s.other).size) hflow
  rw [bytesOf_append, List.drop_append_of_le_length (by simpa using hheard), bytesOf_beginning,
    bytesOf_append, List.drop_take] at hdrop
  apply bytesOf_inj
  rw [bytesOf_append, hbytes, hdrop, bytesOf_beginning]
  congr 1
  rw [List.drop_append_of_le_length (by simp), List.drop_eq_nil_of_le (by simp), List.nil_append]

/-- What a side that has agreed has to say is its text, and then what it sends. -/
theorem Sound.output_of_agreed (h : u.Sound d) {s : Side}
    (ha : u.standing s (d.partner s) = .agreed) :
    u.output s (d.partner s) = u.text s ++ (d.partner s).said := by
  obtain ⟨hg, hput, hheard⟩ := h.agreed ha
  have htaken : (d.partner s).taken (u.text s) = u.text s :=
    taken_of_not_breaks fun hb => Nat.not_lt.2 hput hb.2
  cases s with
  | seeker =>
    rw [output, written_seeker]
    exact congrArg (· ++ _) htaken
  | granter =>
    have hneed := u.need_granter_of_reply (u.granted_iff.1 hg)
    change u.asks.size ≤ _ at hheard
    rw [output, (granter_after (h.hears .granter)).1, if_neg (by omega), htaken]

/-- At rest, and as long as both sides hold the connection, a transport has given all that was sent
into the other one. -/
theorem AtRest.received_eq (hrest : u.AtRest d) (h : u.Sound d) (hg : u.Granted)
    (hheld : ∀ t, (d.partner t).gone = false) (s : Side) :
    u.received s (d.partner s) = (d.partner s.other).said := by
  have hstands : ∀ t, u.standing t (d.partner t) = .agreed := by
    intro t
    rw [hrest.standing_eq h, if_pos hg]
  have hended : (d.partner s).ended = false := by
    by_cases he : (d.partner s).ended = true
    · have := ((h s).ended he).1
      rw [hheld] at this
      cases this
    · simpa using he
  have hcut : (d.partner s.other).cut = false := by
    by_cases hc : (d.partner s.other).cut = true
    · have := (h.other s).cut hc
      rw [hheld] at this
      cases this
    · simpa using hc
  have hwritten : (u.written s (d.partner s)).size ≤ (d.partner s).put := by
    have hs := hstands s
    unfold standing at hs
    split at hs
    · cases hs
    · omega
  have hempty := (hrest.empty (hheld s) hended (by rw [hstands]; decide) hwritten).1
  have hput : ¬ (d.partner s.other).put < (u.output s.other (d.partner s.other)).size :=
    fun hlt => (hrest.full h (hheld s.other) hcut hlt).1 hempty
  rw [h.output_of_agreed (hstands s.other), ByteArray.size_append] at hput
  have heq := h.received_eq (hstands s)
  rwa [ByteArray.size_eq_zero_iff.1 hempty, ByteArray.append_empty,
    Bytes.extract_zero_of_le (by omega)] at heq

end Upgrade

/-! ## Runs end -/

def Partner.progress (p : Partner) : Nat :=
  p.put + (joined p.heard).size + p.ended.toNat + p.cut.toNat + p.gone.toNat

def Duplex.progress (d : Duplex) : Nat :=
  (d.partner .seeker).progress + (d.partner .granter).progress

theorem Duplex.progress_eq (d : Duplex) (s : Side) :
    d.progress = (d.partner s).progress + (d.partner s.other).progress := by
  cases s with
  | seeker => rfl
  | granter => exact Nat.add_comm _ _

namespace Upgrade

variable {u : Upgrade} {d : Duplex}

/-- Every move but that of the user of a transport is progress. -/
theorem progress_step {move : Duplex.Move} {d' : Duplex} (hstep : u.step d move = some d') :
    d.progress + (if !move.isSay then 1 else 0) ≤ d'.progress := by
  cases u.effect_of_step hstep with
  | sent s most n hgone hcut hopen hpos hn =>
    rw [Duplex.progress_eq _ s, Duplex.progress_eq _ s]
    simp only [Duplex.setPipe_partner, Duplex.setPartner_self, Duplex.setPartner_other,
      Partner.progress, Duplex.Move.isSay, Bool.not_false, if_true]
    omega
  | cut s most hgone hcut hclosed =>
    rw [Duplex.progress_eq _ s, Duplex.progress_eq _ s]
    simp only [Duplex.setPartner_self, Duplex.setPartner_other, Partner.progress,
      Duplex.Move.isSay, hcut, Bool.not_false, if_true, Bool.toNat_false, Bool.toNat_true]
    omega
  | heard s room hgone hended hpos hsize =>
    rw [Duplex.progress_eq _ s, Duplex.progress_eq _ s]
    simp only [Duplex.setPipe_partner, Duplex.setPartner_self, Duplex.setPartner_other,
      Partner.progress, Duplex.Move.isSay, joined_append, joined_cons, joined_nil,
      ByteArray.size_append, ByteArray.size_extract, ByteArray.size_empty, Bool.not_false, if_true]
    omega
  | ended s room hgone hended hclosed hsize =>
    rw [Duplex.progress_eq _ s, Duplex.progress_eq _ s]
    simp only [Duplex.setPartner_self, Duplex.setPartner_other, Partner.progress,
      Duplex.Move.isSay, hended, Bool.not_false, if_true, Bool.toNat_false, Bool.toNat_true]
    omega
  | said s data hagreed =>
    rw [Duplex.progress_eq _ s, Duplex.progress_eq _ s]
    simp only [Duplex.setPartner_self, Duplex.setPartner_other, Partner.progress,
      Duplex.Move.isSay, Bool.not_true, Bool.false_eq_true, if_false]
    omega
  | letGo s hgone hreturned =>
    rw [Duplex.progress_eq _ s, Duplex.progress_eq _ s]
    simp only [Duplex.close_partner, Duplex.setPartner_self, Duplex.setPartner_other,
      Partner.progress, Duplex.Move.isSay, hgone, Bool.not_false, if_true, Bool.toNat_false,
      Bool.toNat_true]
    omega

def volume (u : Upgrade) (d : Duplex) : Nat :=
  (u.text .seeker).size + (d.partner .seeker).said.size +
    ((u.text .granter).size + (d.partner .granter).said.size)

theorem Sound.progress_le (h : u.Sound d) : d.progress ≤ 2 * u.volume d + 6 := by
  have hup := h.heard_le .seeker
  have hdown := h.heard_le .granter
  have hseeker := (h .seeker).bounded
  have hgranter := (h .granter).bounded
  have hbit : ∀ b : Bool, b.toNat ≤ 1 := fun b => Bool.toNat_le b
  change (joined (d.partner .granter).heard).size + _ = _ at hup
  change (joined (d.partner .seeker).heard).size + _ = _ at hdown
  rw [ByteArray.size_append] at hseeker hgranter
  have h1 := hbit (d.partner .seeker).ended
  have h2 := hbit (d.partner .seeker).cut
  have h3 := hbit (d.partner .seeker).gone
  have h4 := hbit (d.partner .granter).ended
  have h5 := hbit (d.partner .granter).cut
  have h6 := hbit (d.partner .granter).gone
  unfold Duplex.progress Partner.progress volume
  omega

/-- **Both sides of a handshake agree.** After any run of the two sides against each other: none has
agreed while the other has refused; where nothing moves by itself both have returned, and both with
success or both without, as the request is granted or not; a run has no more moves than there is to
do, so that it comes to such a state; and the transport of a side that has agreed gives what was
sent into the other one, each byte once and in order, and no byte of the handshake. -/
theorem sides_agree (u : Upgrade) (up down : Nat) (hup : 0 < up) (hdown : 0 < down)
    (moves : List Duplex.Move) (d : Duplex)
    (hrun : runFrom u.step (Duplex.start up down) moves = some d) :
    (∀ s, u.standing s (d.partner s) = .agreed →
      u.standing s.other (d.partner s.other) ≠ .refused) ∧
    (u.AtRest d → ∀ s, u.standing s (d.partner s) = if u.Granted then .agreed else .refused) ∧
    moves.countP (fun move => !move.isSay) ≤ 2 * u.volume d + 6 ∧
    ∀ s, u.standing s (d.partner s) = .agreed →
      u.received s (d.partner s) ++ (d.pipe s.other).data =
        (d.partner s.other).said.extract 0 ((d.partner s.other).put - (u.text s.other).size) ∧
      (u.AtRest d → (∀ t, (d.partner t).gone = false) →
        u.received s (d.partner s) = (d.partner s.other).said) := by
  have hkeeps : ∀ d move d', u.Sound d → u.step d move = some d' → u.Sound d' :=
    fun _ _ _ h hstep => h.step hstep
  have hstart := u.sound_start hup hdown
  have h : u.Sound d := runFrom_keeps hkeeps hstart hrun
  have hmoves := runFrom_counts hkeeps (fun move => !move.isSay) Duplex.progress
    (fun _ _ _ _ hstep => progress_step hstep) hstart hrun
  refine ⟨fun s ha => h.not_refused (h.agreed ha).1 s.other, fun hrest s => hrest.standing_eq h s,
    ?_, fun s ha => ⟨h.received_eq ha, fun hrest hheld => ?_⟩⟩
  · have hle := h.progress_le
    omega
  · exact hrest.received_eq h (h.agreed ha).1 hheld s

theorem sides_agree_in_pieces :
    ∃ d, runFrom (step ⟨⟨"h", "/", []⟩, some "/", "server", "agent"⟩) (Duplex.start 64 64)
        [.send .seeker 50, .hear .granter 30, .send .seeker 50, .hear .granter 100,
          .send .granter 100, .hear .seeker 20, .say .granter ⟨#[1, 2]⟩, .send .granter 5,
          .hear .seeker 64] = some d ∧
      standing ⟨⟨"h", "/", []⟩, some "/", "server", "agent"⟩ .seeker (d.partner .seeker) =
        .agreed ∧
      standing ⟨⟨"h", "/", []⟩, some "/", "server", "agent"⟩ .granter (d.partner .granter) ≠
        .refused := by
  have hmap : (runFrom (step ⟨⟨"h", "/", []⟩, some "/", "server", "agent"⟩) (Duplex.start 64 64)
      [.send .seeker 50, .hear .granter 30, .send .seeker 50, .hear .granter 100,
        .send .granter 100, .hear .seeker 20, .say .granter ⟨#[1, 2]⟩, .send .granter 5,
        .hear .seeker 64]).map (fun d =>
      standing ⟨⟨"h", "/", []⟩, some "/", "server", "agent"⟩ .seeker (d.partner .seeker)) =
        some .agreed := by decide +kernel
  obtain ⟨d, hrun, hagreed⟩ := Option.map_eq_some_iff.1 hmap
  exact ⟨d, hrun, hagreed,
    (sides_agree _ 64 64 (by decide) (by decide) _ d hrun).1 .seeker hagreed⟩

end Upgrade

end Switchboard
