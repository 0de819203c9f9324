import Switchboard.Mux.Connection

/-!
# Who holds a stream

A connection knows by the `held` mark of its end whether somebody holds a stream. Whatever a
connection does, and whatever the holders of its streams do, a stream of its own side is only ever
let go of: `GoesOn` is that, and that no stream is begun. Only `begin?` begins one, which its
requester then holds.
-/

namespace Switchboard.Mux

namespace Connection

variable {c c' c'' : Connection} {id : Nat} {p : Packet}

def Holds (c : Connection) (id : Nat) : Prop :=
  ∃ e ∈ c.ends, e.id = id ∧ e.held = true

instance (c : Connection) (id : Nat) : Decidable (c.Holds id) :=
  inferInstanceAs (Decidable (∃ e ∈ c.ends, e.id = id ∧ e.held = true))

/-- What a connection may become while it begins no stream: it numbers its streams as before, and
nobody holds a stream of its side whom nobody held. -/
structure GoesOn (c c' : Connection) : Prop where
  role : c'.role = c.role
  next : c'.nextStream = c.nextStream
  held : ∀ e ∈ c'.ends, e.held = true → c.isOwn e.id = true → c.Holds e.id

instance (c c' : Connection) : Decidable (c.GoesOn c') :=
  decidable_of_iff (c'.role = c.role ∧ c'.nextStream = c.nextStream ∧
    ∀ e ∈ c'.ends, e.held = true → c.isOwn e.id = true → c.Holds e.id)
    ⟨fun h => ⟨h.1, h.2.1, h.2.2⟩, fun h => ⟨h.role, h.next, h.held⟩⟩

namespace GoesOn

theorem isOwn (h : c.GoesOn c') (id : Nat) : c'.isOwn id = c.isOwn id := by
  unfold Connection.isOwn
  rw [h.role]

theorem holds (h : c.GoesOn c') (hown : c.isOwn id = true) (hc : c'.Holds id) : c.Holds id := by
  obtain ⟨e, he, rfl, hheld⟩ := hc
  exact h.held e he hheld hown

theorem of_ends (hrole : c'.role = c.role) (hnext : c'.nextStream = c.nextStream)
    (hends : ∀ e ∈ c'.ends, e.held = true → ∃ d ∈ c.ends, d.id = e.id ∧ d.held = true) :
    c.GoesOn c' :=
  ⟨hrole, hnext, fun e he hheld _ => hends e he hheld⟩

theorem of_same (hrole : c'.role = c.role) (hnext : c'.nextStream = c.nextStream)
    (hends : c'.ends = c.ends) : c.GoesOn c' :=
  .of_ends hrole hnext fun e he hheld => ⟨e, hends ▸ he, rfl, hheld⟩

theorem refl (c : Connection) : c.GoesOn c :=
  .of_same rfl rfl rfl

theorem trans (h : c.GoesOn c') (h' : c'.GoesOn c'') : c.GoesOn c'' where
  role := h'.role.trans h.role
  next := h'.next.trans h.next
  held e he hheld hown :=
    h.holds hown (h'.held e he hheld ((h.isOwn e.id).trans hown))

end GoesOn

/-! ## What the holders of streams do -/

theorem goesOn_drop (c : Connection) (id : Nat) : c.GoesOn (c.drop id) := by
  unfold drop
  split
  · refine .of_ends rfl rfl fun e he hheld => ?_
    obtain ⟨d, hd, rfl⟩ := List.mem_map.1 he
    split at hheld
    · cases hheld
    · rename_i hne
      exact ⟨d, hd, by rw [if_neg hne], hheld⟩
  · exact .of_ends rfl rfl fun e he hheld => ⟨e, (List.mem_filter.1 he).1, rfl, hheld⟩

theorem not_holds_drop (c : Connection) (id : Nat) : ¬ (c.drop id).Holds id := by
  rintro ⟨e, he, heq, hheld⟩
  unfold drop at he
  split at he
  · obtain ⟨d, hd, rfl⟩ := List.mem_map.1 he
    split at heq
    · rename_i hid
      rw [if_pos hid] at hheld
      cases hheld
    · contradiction
  · have hne := (List.mem_filter.1 he).2
    simp only [ne_eq, decide_not, Bool.not_eq_true', decide_eq_false_iff_not] at hne
    exact hne heq

/-- What is done to the end of one stream leaves the ends what they are. -/
theorem updateEnd_ends {α : Type} {f : StreamEnd → α × StreamEnd}
    (hf : ∀ e, (f e).2.id = e.id ∧ (f e).2.held = e.held) (id : Nat) (ends : List StreamEnd) :
    ∀ e ∈ (updateEnd id f ends).2, e.held = true → ∃ d ∈ ends, d.id = e.id ∧ d.held = true := by
  induction ends with
  | nil => exact fun e he => absurd he List.not_mem_nil
  | cons first rest ih =>
    intro e he hheld
    unfold updateEnd at he
    split at he
    · rcases List.mem_cons.1 he with rfl | hrest
      · exact ⟨first, List.mem_cons_self, (hf first).1.symm, (hf first).2.symm.trans hheld⟩
      · exact ⟨e, List.mem_cons_of_mem _ hrest, rfl, hheld⟩
    · rcases List.mem_cons.1 he with rfl | hrest
      · exact ⟨e, List.mem_cons_self, rfl, hheld⟩
      · obtain ⟨d, hd, hsame⟩ := ih e hrest hheld
        exact ⟨d, List.mem_cons_of_mem _ hd, hsame⟩

theorem goesOn_act {α : Type} {f : Bool → StreamEnd → Ready α × StreamEnd × Option Order}
    (hf : ∀ running e, (f running e).2.1.id = e.id ∧ (f running e).2.1.held = e.held)
    (c : Connection) (id : Nat) : c.GoesOn (c.act id f).2 := by
  have hends := updateEnd_ends
    (f := fun e => (((f c.running e).1, (f c.running e).2.2), (f c.running e).2.1))
    (hf c.running) id c.ends
  unfold act
  dsimp only
  split <;> exact .of_ends rfl rfl hends

theorem renew_end (e : StreamEnd) : e.renew.1.id = e.id ∧ e.renew.1.held = e.held := by
  unfold StreamEnd.renew
  split
  · exact ⟨rfl, rfl⟩
  · split
    · exact ⟨rfl, rfl⟩
    · exact ⟨rfl, rfl⟩

theorem take_end (room : Nat) (e : StreamEnd) :
    (e.take room).2.id = e.id ∧ (e.take room).2.held = e.held := by
  unfold StreamEnd.take
  split
  · split <;> exact ⟨rfl, rfl⟩
  · exact ⟨rfl, rfl⟩

theorem goesOn_read (c : Connection) (id room : Nat) : c.GoesOn (c.read id room).2 := by
  refine c.goesOn_act (fun running e => ?_) id
  unfold StreamEnd.read
  split
  · split
    · have htake := take_end room e.renew.1
      exact ⟨htake.1.trans (renew_end e).1, htake.2.trans (renew_end e).2⟩
    · exact ⟨rfl, rfl⟩
  · exact take_end room e

theorem goesOn_write (c : Connection) (id : Nat) (data : ByteArray) (start : Nat) :
    c.GoesOn (c.write id data start).2 := by
  refine c.goesOn_act (fun running e => ?_) id
  unfold StreamEnd.write
  split
  · exact ⟨rfl, rfl⟩
  · split
    · exact ⟨rfl, rfl⟩
    · split
      · exact ⟨rfl, rfl⟩
      · split <;> exact ⟨rfl, rfl⟩

theorem goesOn_finish (c : Connection) (id : Nat) : c.GoesOn (c.finish id).2 := by
  refine c.goesOn_act (fun running e => ?_) id
  unfold StreamEnd.finish
  split
  · exact ⟨rfl, rfl⟩
  · split
    · exact ⟨rfl, rfl⟩
    · split <;> exact ⟨rfl, rfl⟩

/-! ## What the connection does -/

theorem goesOn_modify {f : StreamEnd → StreamEnd} (hf : ∀ e, (f e).id = e.id ∧ (f e).held = e.held)
    (c : Connection) (id : Nat) : c.GoesOn (c.modify id f) := by
  refine .of_ends rfl rfl fun e he hheld => ?_
  obtain ⟨d, hd, rfl⟩ := List.mem_map.1 he
  split at hheld
  · rename_i hid
    rw [if_pos hid]
    exact ⟨d, hd, (hf d).1.symm, (hf d).2.symm.trans hheld⟩
  · rename_i hid
    rw [if_neg hid]
    exact ⟨d, hd, rfl, hheld⟩

theorem goesOn_carry (c : Connection) (id : Nat) (order : Order) :
    c.GoesOn (c.carry id order) := by
  have hsaid : ∀ packet?, c.GoesOn ({ c with packet? }.modify id fun e =>
      { e with outstanding := e.outstanding - 1 }) := fun packet? =>
    have hpacket : c.GoesOn { c with packet? } := .of_same rfl rfl rfl
    hpacket.trans (goesOn_modify (f := fun e => { e with outstanding := e.outstanding - 1 })
      (fun _ => ⟨rfl, rfl⟩) _ id)
  cases order with
  | release =>
    exact .of_ends rfl rfl fun e he hheld => ⟨e, (List.mem_filter.1 he).1, rfl, hheld⟩
  | send packet => exact hsaid _
  | finish acknowledge => exact hsaid _

theorem goesOn_takeUp (h : c.takeUp = some c') : c.GoesOn c' := by
  unfold takeUp at h
  split at h
  · rename_i id order orders _ _
    cases h
    have horders : c.GoesOn { c with orders } := .of_same rfl rfl rfl
    exact horders.trans (goesOn_carry _ id order)
  · cases h

theorem goesOn_load (h : c.load = some c') : c.GoesOn c' := by
  unfold load at h
  split at h <;> cases h <;> exact .of_same rfl rfl rfl

/-- The streams of the other side are none of this side's. -/
theorem not_isOwn_of_refusal? (h : c.refusal? p = none) : c.isOwn p.stream ≠ true := by
  unfold refusal? at h
  split at h
  · cases h
  · assumption

theorem arriving_id (p : Packet) : (arriving p).id = p.stream := by
  unfold arriving
  dsimp only
  split <;> split <;> rfl

theorem heard_end (p : Packet) (e : StreamEnd) :
    (heard p e).id = e.id ∧ (heard p e).held = e.held := by
  unfold heard
  dsimp only
  split <;> split <;> exact ⟨rfl, rfl⟩

theorem goesOn_receiveStream (c : Connection) (p : Packet) :
    c.GoesOn (c.receiveStream p).1 := by
  unfold receiveStream
  split
  · exact c.goesOn_modify (f := (·.moved .ended)) (fun _ => ⟨rfl, rfl⟩) _
  · split
    · split
      · exact .of_same rfl rfl rfl
      · rename_i hrefusal
        refine ⟨rfl, rfl, fun e he hheld hown => ?_⟩
        rcases List.mem_append.1 he with hold | hnew
        · exact ⟨e, hold, rfl, hheld⟩
        · rw [List.mem_singleton.1 hnew, arriving_id] at hown
          exact absurd hown (not_isOwn_of_refusal? hrefusal)
    · split
      · exact .refl c
      · split
        · exact .of_same rfl rfl rfl
        · exact c.goesOn_modify (heard_end p) _

/-- A connection once a packet may have told it that the peer knows a stream. -/
def acknowledged (p : Packet) (c : Connection) : Connection :=
  if p.marks.acknowledges && (p.kind = .data || p.kind = .window) then
    let c := c.modify p.stream (·.moved (.flowing true))
    if c.backlogged then { c with backlogged := false, woken := true } else c
  else c

theorem goesOn_acknowledged (c : Connection) (p : Packet) : c.GoesOn (c.acknowledged p) := by
  have hmodify := c.goesOn_modify (f := (·.moved (.flowing true))) (fun _ => ⟨rfl, rfl⟩) p.stream
  unfold acknowledged
  split
  · dsimp only
    split
    · exact hmodify.trans (.of_same rfl rfl rfl)
    · exact hmodify
  · exact .refl c

/-- A packet is taken in by its kind, once what it acknowledges is noted. -/
theorem receive_eq (c : Connection) (p : Packet) : c.receive p =
    match p.kind with
    | .goodbye => .error .closed
    | .ping =>
      if p.marks.acknowledges then
        .ok ({ c.acknowledged p with reply? := some (.goodbye 1) }, none)
      else if p.stream = 0 || ((c.acknowledged p).find? p.stream).isSome then
        let reply : Packet :=
          { kind := .ping, marks := { acknowledges := true }, number := p.number }
        .ok ({ c.acknowledged p with reply? := some reply }, none)
      else .ok (c.acknowledged p, none)
    | .data | .window => .ok ((c.acknowledged p).receiveStream p) :=
  rfl

theorem goesOn_receive {id? : Option Nat} (h : c.receive p = .ok (c', id?)) : c.GoesOn c' := by
  have hheard := c.goesOn_acknowledged p
  rw [receive_eq] at h
  split at h
  · cases h
  · split at h
    · cases h
      exact hheard.trans (.of_same rfl rfl rfl)
    · split at h <;> cases h
      · exact hheard.trans (.of_same rfl rfl rfl)
      · exact hheard
  · obtain ⟨rfl, -⟩ := Prod.mk.inj (Except.ok.inj h)
    exact hheard.trans (goesOn_receiveStream _ p)
  · obtain ⟨rfl, -⟩ := Prod.mk.inj (Except.ok.inj h)
    exact hheard.trans (goesOn_receiveStream _ p)

theorem goesOn_listen (c : Connection) (input : Pipe) : c.GoesOn (c.listen input).2.1 := by
  have hincoming : ∀ incoming, c.GoesOn { c with incoming } := fun _ => .of_same rfl rfl rfl
  unfold listen
  split
  · exact .refl c
  · split
    · exact .refl c
    · exact .refl c
    · split
      · exact .refl c
      · split
        · exact .refl c
        · exact hincoming _
        · split
          · exact .refl c
          · rename_i hreceive
            exact (hincoming _).trans (goesOn_receive hreceive)
          · rename_i hreceive
            exact (hincoming _).trans (goesOn_receive hreceive)

theorem goesOn_work (c : Connection) (input : Pipe) : c.GoesOn (c.work input).2.1 := by
  unfold work
  split
  · rename_i htake
    exact goesOn_takeUp htake
  · exact c.goesOn_listen input

/-- **A connection that carries packets takes hold of nothing of its side.** -/
theorem goesOn_pump (c : Connection) (input output : Pipe) :
    c.GoesOn (c.pump input output).2.1 := by
  unfold pump
  split
  · split
    · rename_i hload
      exact goesOn_load hload
    · exact c.goesOn_work input
  · split
    · exact .refl c
    · exact .of_same rfl rfl rfl
    · exact c.goesOn_work input

theorem goesOn_kept {f : StreamEnd → StreamEnd} (hf : ∀ e, (f e).id = e.id ∧ (f e).held = e.held)
    (hrole : c'.role = c.role) (hnext : c'.nextStream = c.nextStream)
    (hends : c'.ends = (c.ends.filter (·.held)).map f) : c.GoesOn c' := by
  refine .of_ends hrole hnext fun e he hheld => ?_
  rw [hends] at he
  obtain ⟨d, hd, rfl⟩ := List.mem_map.1 he
  exact ⟨d, (List.mem_filter.1 hd).1, (hf d).1.symm, (hf d).2.symm.trans hheld⟩

theorem goesOn_fail (c : Connection) : c.GoesOn c.fail :=
  goesOn_kept (f := fun e => { e.moved .ended with known := false }) (fun _ => ⟨rfl, rfl⟩)
    rfl rfl rfl

theorem goesOn_hangUp (c : Connection) : c.GoesOn c.hangUp :=
  goesOn_kept (f := fun e => { e with known := false }) (fun _ => ⟨rfl, rfl⟩) rfl rfl rfl

/-! ## New streams -/

theorem isOwn_next (c : Connection) (k : Nat) : c.isOwn (k + 2) = c.isOwn k := by
  unfold isOwn numbers
  cases c.role <;> simp only [Nat.add_mod_right]

/-- What a connection is after it has begun a stream: the next in number, of its own side. -/
structure Begins (c : Connection) (id : Nat) (c' : Connection) : Prop where
  numbered : id = c.nextStream
  role : c'.role = c.role
  next : c'.nextStream = id + 2
  held : ∀ e ∈ c'.ends, e.held = true → c.isOwn e.id = true → c.Holds e.id ∨ e.id = id

theorem Begins.trans (h : c.Begins id c') (h' : c'.GoesOn c'') : c.Begins id c'' where
  numbered := h.numbered
  role := h'.role.trans h.role
  next := h'.next.trans h.next
  held e he hheld hown := by
    have hown' : c'.isOwn e.id = true := by
      unfold isOwn
      rw [h.role]
      exact hown
    obtain ⟨d, hd, heq, hheld'⟩ := h'.held e he hheld hown'
    rw [← heq] at hown ⊢
    exact h.held d hd hheld' hown

theorem begins_of_begin? (h : c.begin? = (.stream id, c')) : c.Begins id c' := by
  unfold begin? at h
  split at h
  · cases h
  · split at h
    · cases h
    · split at h
      · cases h
      · cases h
        refine ⟨rfl, rfl, rfl, fun e he hheld _ => ?_⟩
        rcases List.mem_append.1 he with hold | hnew
        · exact .inl ⟨e, hold, rfl, hheld⟩
        · exact .inr (by rw [List.mem_singleton.1 hnew])

theorem goesOn_of_later (h : c.begin? = (.later, c')) : c.GoesOn c' := by
  unfold begin? at h
  split at h
  · cases h
  · split at h
    · cases h
      exact .of_same rfl rfl rfl
    · split at h <;> cases h

theorem eq_of_failed {fault : MuxFault} (h : c.begin? = (.failed fault, c')) : c' = c := by
  unfold begin? at h
  split at h
  · cases h
    rfl
  · split at h
    · cases h
    · split at h <;> cases h
      rfl

/-! ## What the answer to a request may be -/

/-- A connection with so many streams of its side that nobody holds and that the peer has not
acknowledged. -/
def crowded (n : Nat) (c : Connection) : Connection :=
  let e : StreamEnd :=
    { id := (ofRole c.role).nextStream, announcement := .opens, held := false }
  { c with ends := List.replicate n e }

theorem goesOn_crowded (n : Nat) (c : Connection) : c.GoesOn (c.crowded n) := by
  refine .of_ends rfl rfl fun e he hheld => ?_
  rw [List.eq_of_mem_replicate he] at hheld
  cases hheld

theorem length_known_crowded (n : Nat) (c : Connection) : (c.crowded n).known.length = n := by
  unfold known crowded
  rw [List.filter_replicate, if_pos rfl, List.length_replicate]

theorem backlog_crowded (n : Nat) (c : Connection) : (c.crowded n).backlog = n := by
  have hown : c.isOwn (ofRole c.role).nextStream = true := by
    unfold isOwn
    cases c.role <;> rfl
  have hknown : (c.crowded n).known = (c.crowded n).ends := by
    unfold known crowded
    rw [List.filter_replicate, if_pos rfl]
  unfold backlog
  rw [hknown]
  unfold crowded
  rw [List.filter_replicate, if_pos, List.length_replicate]
  exact Bool.and_eq_true_iff.2 ⟨hown, rfl⟩

/-- **A connection may come to give any answer** to a request for a stream, while it begins none: to
put it off, to fail, and to begin the next stream unless all numbers are used. -/
theorem exists_goesOn_answer (c : Connection) :
    (∃ c', c.GoesOn c' ∧ c'.begin?.1 = .later) ∧
      (∃ c' fault, c.GoesOn c' ∧ c'.begin?.1 = .failed fault) ∧
      (c.nextStream < 2 ^ 32 → ∃ c', c.GoesOn c' ∧ c'.begin?.1 = .stream c.nextStream) := by
  refine ⟨⟨c.crowded backlogLimit, c.goesOn_crowded _, ?_⟩,
    ⟨c.crowded streamLimit, .tooManyStreams, c.goesOn_crowded _, ?_⟩,
    fun hnext => ⟨c.crowded 0, c.goesOn_crowded _, ?_⟩⟩
  · unfold begin?
    rw [length_known_crowded, backlog_crowded, if_neg (by decide), if_pos (Nat.le_refl _)]
  · unfold begin?
    rw [length_known_crowded, if_pos (Nat.le_refl _)]
  · unfold begin?
    rw [length_known_crowded, backlog_crowded, if_neg (by decide), if_neg (by decide),
      if_neg (show ¬ 2 ^ 32 ≤ (c.crowded 0).nextStream from Nat.not_le.2 hnext)]
    rfl

end Connection

end Switchboard.Mux
