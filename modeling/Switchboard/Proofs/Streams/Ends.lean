import Switchboard.Proofs.Streams.Holding

/-!
# The end of a stream

Who began a stream finds its end where it was, until it lets go of it: `Connection.Carries`. Until
then the connection only adds to it what the peer sends, in order, and what the peer is done with
stays done (`StreamEnd.Grows`). `Connection.Proceeds` says so of everything that a connection does
by itself, with one lemma for each of its functions.
-/

namespace Switchboard.Mux

variable {e e' e'' : StreamEnd} {more more' : ByteArray}

namespace StreamPhase

theorem canRead_advance {now : StreamPhase} (h : now.canRead = false) (next : StreamPhase) :
    (now.advance next).canRead = false := by
  cases now <;> cases next <;> first | rfl | cases h

theorem canWrite_advance {now : StreamPhase} (h : now.canWrite = false) (next : StreamPhase) :
    (now.advance next).canWrite = false := by
  cases now <;> cases next <;> first | rfl | cases h

end StreamPhase

namespace StreamEnd

/-- What may come of an end that nobody uses: bytes arrive behind those that are there, and what is
over stays over. -/
structure Grows (more : ByteArray) (e e' : StreamEnd) : Prop where
  id : e'.id = e.id
  inbox : e'.inbox = e.inbox ++ more
  heard : e.phase.canRead = false → e'.phase.canRead = false
  said : e.phase.canWrite = false → e'.phase.canWrite = false

namespace Grows

theorem of_same (hid : e'.id = e.id) (hinbox : e'.inbox = e.inbox)
    (hphase : e'.phase = e.phase ∨ ∃ next, e'.phase = e.phase.advance next) :
    Grows .empty e e' := by
  refine ⟨hid, by rw [hinbox, ByteArray.append_empty], fun h => ?_, fun h => ?_⟩
  · rcases hphase with hsame | ⟨next, hnext⟩
    · rw [hsame, h]
    · rw [hnext, StreamPhase.canRead_advance h]
  · rcases hphase with hsame | ⟨next, hnext⟩
    · rw [hsame, h]
    · rw [hnext, StreamPhase.canWrite_advance h]

theorem refl (e : StreamEnd) : Grows .empty e e :=
  of_same rfl rfl (.inl rfl)

theorem moved (e : StreamEnd) (next : StreamPhase) : Grows .empty e (e.moved next) :=
  of_same rfl rfl (.inr ⟨next, rfl⟩)

theorem trans (h : Grows more e e') (h' : Grows more' e' e'') : Grows (more ++ more') e e'' where
  id := h'.id.trans h.id
  inbox := by rw [h'.inbox, h.inbox, ByteArray.append_assoc]
  heard hover := h'.heard (h.heard hover)
  said hover := h'.said (h.said hover)

end Grows

end StreamEnd

namespace Connection

variable {c c' c'' : Connection} {k id : Nat} {p : Packet}

/-- A connection that runs has begun the streams of its side in the order of their numbers, and has
no orders of others. -/
structure Tidy (c : Connection) : Prop where
  running : c.running = true
  next : c.isOwn c.nextStream = true
  ends : ∀ e ∈ c.ends, c.isOwn e.id = true → e.id < c.nextStream
  orders : ∀ order ∈ c.orders, c.isOwn order.1 = true → order.1 < c.nextStream

/-- A stream of this side has an end, and nobody has let go of it. -/
structure Carries (c : Connection) (k : Nat) (e : StreamEnd) : Prop where
  only : c.ends.filter (·.id = k) = [e]
  own : c.isOwn k = true
  begun : k < c.nextStream
  kept : (k, Order.release) ∉ c.orders

/-- What a connection may become by what it does itself and by what its peer sends. -/
structure Proceeds (c c' : Connection) : Prop where
  tidy : c.Tidy → c'.Tidy
  carries : ∀ k e, c.Carries k e → ∃ more e', c'.Carries k e' ∧ e.Grows more e'

theorem Carries.find? (h : c.Carries k e) : c.ends.find? (·.id = k) = some e := by
  rw [← List.head?_filter, h.only]
  rfl

theorem Carries.id_eq (h : c.Carries k e) : e.id = k := by
  simpa using List.find?_some h.find?

theorem Carries.unique (h : c.Carries k e) (h' : c.Carries k e') : e = e' :=
  Option.some.inj (h.find?.symm.trans h'.find?)

theorem tidy_ofRole (role : Role) : (ofRole role).Tidy where
  running := rfl
  next := by cases role <;> rfl
  ends := fun e he => by cases he
  orders := fun order horder => by cases horder

namespace Proceeds

/-- Each end becomes what it may become, and no order is added. -/
theorem of_map (f : StreamEnd → StreamEnd) (hf : ∀ e : StreamEnd, ∃ more, e.Grows more (f e))
    (hrole : c'.role = c.role) (hnext : c'.nextStream = c.nextStream)
    (hrunning : c'.running = c.running) (hends : c'.ends = c.ends.map f)
    (horders : ∀ order ∈ c'.orders, order ∈ c.orders) : c.Proceeds c' := by
  have hid : ∀ e, (f e).id = e.id := fun e => (hf e).elim fun _ h => h.id
  have hown : ∀ id, c'.isOwn id = c.isOwn id := fun id => by unfold isOwn; rw [hrole]
  refine ⟨fun h => ⟨hrunning.trans h.running, ?_, fun e he => ?_, fun order horder => ?_⟩,
    fun k e h => ?_⟩
  · rw [hown, hnext]
    exact h.next
  · rw [hends] at he
    obtain ⟨d, hd, rfl⟩ := List.mem_map.1 he
    rw [hown, hnext, hid]
    exact h.ends d hd
  · rw [hown, hnext]
    exact h.orders order (horders order horder)
  · obtain ⟨more, hgrows⟩ := hf e
    refine ⟨more, f e, ⟨?_, ?_, ?_, fun hmem => h.kept (horders _ hmem)⟩, hgrows⟩
    · have hsame : ((fun e : StreamEnd => decide (e.id = k)) ∘ f) = fun e => decide (e.id = k) := by
        funext e
        simp only [Function.comp_apply, hid]
      rw [hends, List.filter_map, hsame, h.only]
      rfl
    · rw [hown]
      exact h.own
    · rw [hnext]
      exact h.begun

theorem of_same (hrole : c'.role = c.role) (hnext : c'.nextStream = c.nextStream)
    (hrunning : c'.running = c.running) (hends : c'.ends = c.ends)
    (horders : c'.orders = c.orders) : c.Proceeds c' :=
  .of_map id (fun e => ⟨_, .refl e⟩) hrole hnext hrunning (by rw [hends, List.map_id])
    fun _ h => horders ▸ h

theorem refl (c : Connection) : c.Proceeds c :=
  .of_same rfl rfl rfl rfl rfl

theorem trans (h : c.Proceeds c') (h' : c'.Proceeds c'') : c.Proceeds c'' := by
  refine ⟨fun htidy => h'.tidy (h.tidy htidy), fun k e hcarries => ?_⟩
  obtain ⟨more, e', hcarries', hgrows⟩ := h.carries k e hcarries
  obtain ⟨more', e'', hcarries'', hgrows'⟩ := h'.carries k e' hcarries'
  exact ⟨_, e'', hcarries'', hgrows.trans hgrows'⟩

end Proceeds

/-! ## What a connection does with its ends -/

theorem proceeds_modify {f : StreamEnd → StreamEnd}
    (hf : ∀ e : StreamEnd, ∃ more, e.Grows more (f e)) (c : Connection) (id : Nat) :
    c.Proceeds (c.modify id f) := by
  refine .of_map _ (fun e => ?_) rfl rfl rfl rfl fun _ h => h
  split
  · exact hf e
  · exact ⟨_, .refl e⟩

/-- To forget a stream of which somebody let go forgets no other. -/
theorem proceeds_release {orders : List (Nat × Order)} (packet? : Option Packet)
    (horders : c.orders = (id, .release) :: orders) :
    c.Proceeds { c with orders, packet?, ends := c.ends.filter (·.id ≠ id) } := by
  refine ⟨fun h => ⟨h.running, h.next, fun e he => h.ends e (List.mem_filter.1 he).1,
    fun order horder => h.orders order (horders ▸ List.mem_cons_of_mem _ horder)⟩, fun k e h =>
    ⟨_, e, ⟨?_, h.own, h.begun, fun hmem => h.kept (horders ▸ List.mem_cons_of_mem _ hmem)⟩,
      .refl e⟩⟩
  have hne : k ≠ id := by
    rintro rfl
    exact h.kept (horders ▸ List.mem_cons_self)
  rw [← h.only]
  dsimp only
  rw [List.filter_filter]
  refine List.filter_congr fun d _ => ?_
  by_cases hd : d.id = k <;> simp [hd, hne]

theorem proceeds_takeUp (h : c.takeUp = some c') : c.Proceeds c' := by
  unfold takeUp at h
  split at h
  · rename_i id order orders _ horders
    cases h
    have hrest : ∀ packet?, c.Proceeds { c with orders, packet? } := fun packet? =>
      .of_map (fun e => e) (fun e => ⟨_, .refl e⟩) rfl rfl rfl (List.map_id _).symm
        fun _ hmem => horders ▸ List.mem_cons_of_mem _ hmem
    have hsaid : ∀ packet?, c.Proceeds ({ c with orders, packet? }.modify id fun e =>
        { e with outstanding := e.outstanding - 1 }) := fun packet? =>
      (hrest packet?).trans (proceeds_modify (f := fun e =>
        { e with outstanding := e.outstanding - 1 })
        (fun e => ⟨_, .of_same rfl rfl (.inl rfl)⟩) _ id)
    cases order with
    | release => exact proceeds_release _ horders
    | send packet => exact hsaid _
    | finish acknowledge => exact hsaid _
  · cases h

theorem proceeds_load (h : c.load = some c') : c.Proceeds c' := by
  unfold load at h
  split at h <;> cases h <;> exact .of_same rfl rfl rfl rfl rfl

theorem grows_heard (p : Packet) (e : StreamEnd) : ∃ more, e.Grows more (heard p e) := by
  have hbody : e.Grows p.body (e.receive p.body) := ⟨rfl, rfl, fun h => h, fun h => h⟩
  have hcredit : e.Grows .empty { e with sendCredit := e.sendCredit + p.number } :=
    .of_same rfl rfl (.inl rfl)
  unfold heard
  dsimp only
  split
  · split
    · exact ⟨_, hbody.trans (.moved _ _)⟩
    · exact ⟨_, hcredit.trans (.moved _ _)⟩
  · split
    · exact ⟨_, hbody⟩
    · exact ⟨_, hcredit⟩

theorem proceeds_arriving (h : c.isOwn p.stream ≠ true) :
    c.Proceeds { c with ends := c.ends ++ [arriving p] } := by
  refine ⟨fun htidy => ⟨htidy.running, htidy.next, fun e he hown => ?_, htidy.orders⟩,
    fun k e hcarries => ⟨_, e, ⟨?_, hcarries.own, hcarries.begun, hcarries.kept⟩, .refl e⟩⟩
  · rcases List.mem_append.1 he with hold | hnew
    · exact htidy.ends e hold hown
    · rw [List.mem_singleton.1 hnew, arriving_id] at hown
      exact absurd hown h
  · have hne : (arriving p).id ≠ k := by
      rw [arriving_id]
      rintro rfl
      exact h hcarries.own
    dsimp only
    rw [List.filter_append, hcarries.only, List.filter_cons, List.filter_nil]
    simp [hne]

theorem proceeds_receiveStream (c : Connection) (p : Packet) :
    c.Proceeds (c.receiveStream p).1 := by
  unfold receiveStream
  split
  · exact c.proceeds_modify (fun e => ⟨_, .moved e .ended⟩) _
  · split
    · split
      · exact .of_same rfl rfl rfl rfl rfl
      · rename_i hrefusal
        exact proceeds_arriving (not_isOwn_of_refusal? hrefusal)
    · split
      · exact .refl c
      · split
        · exact .of_same rfl rfl rfl rfl rfl
        · exact c.proceeds_modify (grows_heard p) _

theorem proceeds_acknowledged (c : Connection) (p : Packet) : c.Proceeds (c.acknowledged p) := by
  have hmodify := c.proceeds_modify (f := (·.moved (.flowing true))) (fun e => ⟨_, .moved e _⟩)
    p.stream
  unfold acknowledged
  split
  · dsimp only
    split
    · exact hmodify.trans (.of_same rfl rfl rfl rfl rfl)
    · exact hmodify
  · exact .refl c

theorem proceeds_receive {id? : Option Nat} (h : c.receive p = .ok (c', id?)) : c.Proceeds c' := by
  have hheard := c.proceeds_acknowledged p
  rw [receive_eq] at h
  split at h
  · cases h
  · split at h
    · cases h
      exact hheard.trans (.of_same rfl rfl rfl rfl rfl)
    · split at h <;> cases h
      · exact hheard.trans (.of_same rfl rfl rfl rfl rfl)
      · exact hheard
  · obtain ⟨rfl, -⟩ := Prod.mk.inj (Except.ok.inj h)
    exact hheard.trans (proceeds_receiveStream _ p)
  · obtain ⟨rfl, -⟩ := Prod.mk.inj (Except.ok.inj h)
    exact hheard.trans (proceeds_receiveStream _ p)

theorem proceeds_listen (c : Connection) (input : Pipe) : c.Proceeds (c.listen input).2.1 := by
  have hincoming : ∀ incoming, c.Proceeds { c with incoming } := fun _ =>
    .of_same rfl rfl rfl rfl rfl
  unfold listen
  split
  · exact .refl c
  · split
    · exact .refl c
    · exact .refl c
    · split
      · exact .refl c
      · split
        · exact .refl c
        · exact hincoming _
        · split
          · exact .refl c
          · rename_i hreceive
            exact (hincoming _).trans (proceeds_receive hreceive)
          · rename_i hreceive
            exact (hincoming _).trans (proceeds_receive hreceive)

theorem proceeds_work (c : Connection) (input : Pipe) : c.Proceeds (c.work input).2.1 := by
  unfold work
  split
  · rename_i htake
    exact proceeds_takeUp htake
  · exact c.proceeds_listen input

/-- **A connection that carries packets keeps its streams**: to each it adds what the peer sends,
and nothing else happens to it. -/
theorem proceeds_pump (c : Connection) (input output : Pipe) :
    c.Proceeds (c.pump input output).2.1 := by
  unfold pump
  split
  · split
    · rename_i hload
      exact proceeds_load hload
    · exact c.proceeds_work input
  · split
    · exact .refl c
    · exact .of_same rfl rfl rfl rfl rfl
    · exact c.proceeds_work input

/-! ## New streams -/

/-- A stream that is begun is there, with nothing in it, and the others are as they were. -/
theorem carries_begin? (h : c.Tidy) (hbegin : c.begin? = (.stream id, c')) :
    id = c.nextStream ∧ c.Proceeds c' ∧ c'.Carries id { id, announcement := .opens } := by
  unfold begin? at hbegin
  split at hbegin
  · cases hbegin
  · split at hbegin
    · cases hbegin
    · split at hbegin
      · cases hbegin
      · cases hbegin
        refine ⟨rfl, ⟨fun _ => ⟨h.running, ?_, fun e he hown => ?_, fun order horder hown => ?_⟩,
          fun k e hcarries => ⟨_, e, ⟨?_, hcarries.own, ?_, hcarries.kept⟩, .refl e⟩⟩,
          ⟨?_, h.next, Nat.lt_add_of_pos_right (by decide), fun hmem => ?_⟩⟩
        · exact (c.isOwn_next c.nextStream).trans h.next
        · rcases List.mem_append.1 he with hold | hnew
          · exact Nat.lt_add_right 2 (h.ends e hold hown)
          · rw [List.mem_singleton.1 hnew]
            exact Nat.lt_add_of_pos_right (by decide)
        · exact Nat.lt_add_right 2 (h.orders order horder hown)
        · have hne : c.nextStream ≠ k := Nat.ne_of_gt hcarries.begun
          dsimp only
          rw [List.filter_append, hcarries.only, List.filter_cons, List.filter_nil]
          simp [hne]
        · exact Nat.lt_add_right 2 hcarries.begun
        · have hnone : c.ends.filter (·.id = c.nextStream) = [] := by
            rw [List.filter_eq_nil_iff]
            intro e he heq
            have heq : e.id = c.nextStream := of_decide_eq_true heq
            exact Nat.lt_irrefl _ (heq ▸ h.ends e he (heq ▸ h.next))
          dsimp only
          rw [List.filter_append, hnone, List.filter_cons, List.filter_nil]
          simp
        · exact Nat.lt_irrefl _ (h.orders _ hmem h.next)

theorem proceeds_of_later (h : c.begin? = (.later, c')) : c.Proceeds c' := by
  unfold begin? at h
  split at h
  · cases h
  · split at h
    · cases h
      exact .of_same rfl rfl rfl rfl rfl
    · split at h <;> cases h

/-! ## What the holders of streams do -/

theorem tidy_drop (h : c.Tidy) (hbegun : c.isOwn id = true → id < c.nextStream) :
    (c.drop id).Tidy := by
  unfold drop
  rw [if_pos h.running]
  refine ⟨h.running, h.next, fun e he hown => ?_, fun order horder hown => ?_⟩
  · obtain ⟨d, hd, rfl⟩ := List.mem_map.1 he
    split at hown <;> split <;> exact h.ends d hd hown
  · rcases List.mem_append.1 horder with hold | hnew
    · exact h.orders order hold hown
    · cases List.mem_singleton.1 hnew
      exact hbegun hown

theorem Carries.drop (h : c.Carries k e) (hrunning : c.running = true) (hne : k ≠ id) :
    (c.drop id).Carries k e := by
  unfold Connection.drop
  rw [if_pos hrunning]
  refine ⟨?_, h.own, h.begun, fun hmem => ?_⟩
  · have hsame : ((fun e : StreamEnd => decide (e.id = k)) ∘ fun e =>
        if e.id = id then { e with held := false } else e) = fun e => decide (e.id = k) := by
      funext d
      simp only [Function.comp_apply]
      split <;> rfl
    dsimp only
    rw [List.filter_map, hsame, h.only, List.map_singleton, if_neg (h.id_eq ▸ hne)]
  · rcases List.mem_append.1 hmem with hold | hnew
    · exact h.kept hold
    · exact hne (Prod.mk.inj (List.mem_singleton.1 hnew)).1

end Connection

/-! ## What the holder of an end does -/

section Updates

variable {α : Type} {f : StreamEnd → α × StreamEnd} {k id : Nat} {ends : List StreamEnd}

theorem updateEnd_fst (id : Nat) (f : StreamEnd → α × StreamEnd) (ends : List StreamEnd) :
    (updateEnd id f ends).1 = (ends.find? (·.id = id)).map fun e => (f e).1 := by
  induction ends with
  | nil => rfl
  | cons e rest ih =>
    unfold updateEnd
    by_cases hid : e.id = id
    · simp [hid]
    · simp [hid, ih]

theorem updateEnd_ids (hf : ∀ e, (f e).2.id = e.id) (id : Nat) (ends : List StreamEnd) :
    (updateEnd id f ends).2.map (·.id) = ends.map (·.id) := by
  induction ends with
  | nil => rfl
  | cons e rest ih =>
    unfold updateEnd
    by_cases hid : e.id = id
    · simp [hid, hf]
    · simp [hid, ih]

theorem updateEnd_filter (hf : ∀ e, (f e).2.id = e.id) (h : ends.filter (·.id = k) = [e]) :
    (updateEnd k f ends).2.filter (·.id = k) = [(f e).2] := by
  induction ends with
  | nil => cases h
  | cons d rest ih =>
    unfold updateEnd
    by_cases hd : d.id = k
    · simp only [List.filter_cons, hd, decide_true, if_true, List.cons.injEq] at h
      obtain ⟨rfl, hrest⟩ := h
      simp [hd, hf, hrest]
    · simp only [List.filter_cons, hd, decide_false, Bool.false_eq_true, if_false] at h
      simp [hd, ih h]

theorem updateEnd_filter_of_ne (hf : ∀ e, (f e).2.id = e.id) (hne : k ≠ id) :
    (updateEnd id f ends).2.filter (·.id = k) = ends.filter (·.id = k) := by
  induction ends with
  | nil => rfl
  | cons d rest ih =>
    unfold updateEnd
    by_cases hd : d.id = id
    · simp [hf, hd, hne.symm]
    · simp [hd, List.filter_cons, ih]

end Updates

namespace Connection

section Acts

variable {α : Type} {f : Bool → StreamEnd → Ready α × StreamEnd × Option Order}
  {c : Connection} {k id : Nat}

/-- What an operation of a stream gives is for its end to say. -/
theorem act_fst (c : Connection) (id : Nat)
    (f : Bool → StreamEnd → Ready α × StreamEnd × Option Order) :
    (c.act id f).1 = match c.ends.find? (·.id = id) with
      | none => .failed StreamEnd.writeFault
      | some e => (f c.running e).1 := by
  have hfst := updateEnd_fst id
    (fun e => (((f c.running e).1, (f c.running e).2.2), (f c.running e).2.1)) c.ends
  unfold act
  dsimp only at hfst ⊢
  split
  · rename_i heq
    rw [heq] at hfst
    cases hfind : c.ends.find? (·.id = id) with
    | none => rfl
    | some e => simp [hfind] at hfst
  · rename_i heq
    rw [heq] at hfst
    cases hfind : c.ends.find? (·.id = id) with
    | none => simp [hfind] at hfst
    | some e =>
      simp only [hfind, Option.map_some, Option.some.injEq, Prod.mk.injEq] at hfst
      exact hfst.1
  · rename_i heq
    rw [heq] at hfst
    cases hfind : c.ends.find? (·.id = id) with
    | none => simp [hfind] at hfst
    | some e =>
      simp only [hfind, Option.map_some, Option.some.injEq, Prod.mk.injEq] at hfst
      exact hfst.1

/-- What becomes of a connection by it: one end is changed, and its order is passed on. -/
theorem act_snd (c : Connection) (id : Nat)
    (f : Bool → StreamEnd → Ready α × StreamEnd × Option Order) :
    ∃ ends orders woken, (c.act id f).2 = { c with ends, orders, woken } ∧
      ends = (updateEnd id (fun e =>
        (((f c.running e).1, (f c.running e).2.2), (f c.running e).2.1)) c.ends).2 ∧
      orders = c.orders ++ (((c.ends.find? (·.id = id)).bind fun e => (f c.running e).2.2).map
        fun order => (id, order)).toList := by
  have hfst := updateEnd_fst id
    (fun e => (((f c.running e).1, (f c.running e).2.2), (f c.running e).2.1)) c.ends
  unfold act
  dsimp only at hfst ⊢
  cases hfind : c.ends.find? (·.id = id) with
  | none =>
    rw [hfind] at hfst
    rw [hfst]
    exact ⟨_, _, _, rfl, rfl, (List.append_nil _).symm⟩
  | some e =>
    rw [hfind, Option.map_some] at hfst
    rw [hfst]
    cases horder : (f c.running e).2.2 with
    | none => exact ⟨_, _, _, rfl, rfl, by simp [horder]⟩
    | some order => exact ⟨_, _, _, rfl, rfl, by simp [horder]⟩

theorem tidy_act (h : c.Tidy) (hid : ∀ e, (f true e).2.1.id = e.id) (id : Nat) :
    (c.act id f).2.Tidy := by
  obtain ⟨ends, orders, woken, heq, rfl, rfl⟩ := c.act_snd id f
  rw [heq]
  refine ⟨h.running, h.next, fun e he hown => ?_, fun order horder hown => ?_⟩
  · have hmem : e.id ∈ c.ends.map (·.id) := by
      rw [← updateEnd_ids (f := fun e => (((f c.running e).1, (f c.running e).2.2),
        (f c.running e).2.1)) (h.running ▸ hid) id]
      exact List.mem_map_of_mem he
    obtain ⟨d, hd, hsame⟩ := List.mem_map.1 hmem
    rw [← hsame] at hown ⊢
    exact h.ends d hd hown
  · rcases List.mem_append.1 horder with hold | hnew
    · exact h.orders order hold hown
    · obtain ⟨given, hgiven, rfl⟩ := Option.map_eq_some_iff.1 (Option.mem_toList.1 hnew)
      obtain ⟨e, hfind, -⟩ := Option.bind_eq_some_iff.1 hgiven
      obtain rfl : e.id = id := by simpa using List.find?_some hfind
      exact h.ends e (List.mem_of_find?_eq_some hfind) hown

theorem Carries.act (h : c.Carries k e) (hrunning : c.running = true)
    (hid : ∀ e, (f true e).2.1.id = e.id) (horder : (f true e).2.2 ≠ some .release) :
    (c.act k f).1 = (f true e).1 ∧ (c.act k f).2.Carries k (f true e).2.1 := by
  obtain ⟨ends, orders, woken, heq, rfl, rfl⟩ := c.act_snd k f
  rw [act_fst, heq, h.find?, hrunning]
  refine ⟨rfl, updateEnd_filter hid h.only, h.own, h.begun, fun hmem => ?_⟩
  rcases List.mem_append.1 hmem with hold | hnew
  · exact h.kept hold
  · obtain ⟨given, hgiven, hrelease⟩ := Option.map_eq_some_iff.1 (Option.mem_toList.1 hnew)
    cases hrelease
    exact horder hgiven

theorem Carries.act_of_ne (h : c.Carries k e) (hrunning : c.running = true)
    (hid : ∀ e, (f true e).2.1.id = e.id) (hne : k ≠ id) : (c.act id f).2.Carries k e := by
  obtain ⟨ends, orders, woken, heq, rfl, rfl⟩ := c.act_snd id f
  rw [heq, hrunning]
  refine ⟨(updateEnd_filter_of_ne hid hne).trans h.only, h.own, h.begun, fun hmem => ?_⟩
  rcases List.mem_append.1 hmem with hold | hnew
  · exact h.kept hold
  · obtain ⟨given, -, hrelease⟩ := Option.map_eq_some_iff.1 (Option.mem_toList.1 hnew)
    exact hne (Prod.mk.inj hrelease).1.symm

end Acts

end Connection

namespace StreamEnd

variable {room start : Nat} {data : ByteArray}

theorem renew_rest (e : StreamEnd) : e.renew.1.phase = e.phase ∧ e.renew.1.inbox = e.inbox ∧
    e.renew.2 ≠ some .release := by
  unfold renew sending
  split
  · exact ⟨rfl, rfl, nofun⟩
  · split <;> exact ⟨rfl, rfl, nofun⟩

/-- What a read gives and leaves of what is there: some bytes, the end if the peer is done, or
nothing yet. -/
inductive Reads (room : Nat) (inbox : ByteArray) (isOver : Bool) :
    Ready ByteArray → ByteArray → Prop where
  | bytes (there : inbox.size ≠ 0) :
      Reads room inbox isOver (.now (inbox.extract 0 room)) (inbox.extract room inbox.size)
  | ended (nothing : inbox.size = 0) (done : isOver = true) :
      Reads room inbox isOver (.now .empty) inbox
  | later (nothing : inbox.size = 0) (goesOn : isOver = false) :
      Reads room inbox isOver .later inbox

theorem reads_take (room : Nat) (e : StreamEnd) :
    Reads room e.inbox (!e.phase.canRead) (e.take room).1 (e.take room).2.inbox := by
  unfold take
  by_cases hempty : e.inbox.size = 0
  · rw [if_pos hempty]
    cases e.phase.canRead with
    | true => exact .later hempty rfl
    | false => exact .ended hempty rfl
  · rw [if_neg hempty]
    exact .bytes hempty

theorem reads_read (room : Nat) (e : StreamEnd) :
    Reads room e.inbox (!e.phase.canRead) (e.read room true).1 (e.read room true).2.1.inbox := by
  unfold read
  split
  · obtain ⟨hphase, hinbox, -⟩ := e.renew_rest
    have htake := reads_take room e.renew.1
    rw [hphase, hinbox] at htake
    exact htake
  · exact reads_take room e

theorem read_rest (room : Nat) (e : StreamEnd) :
    (e.read room true).2.1.id = e.id ∧ (e.read room true).2.1.phase = e.phase ∧
      (e.read room true).2.2 ≠ some .release := by
  have htake : ∀ e : StreamEnd, (e.take room).2.phase = e.phase := fun e => by
    unfold take
    split
    · split <;> rfl
    · rfl
  unfold read
  split
  · exact ⟨(Connection.take_end room e.renew.1).1.trans (Connection.renew_end e).1,
      (htake _).trans e.renew_rest.1, e.renew_rest.2.2⟩
  · exact ⟨(Connection.take_end room e).1, htake e, nofun⟩

/-- Whether an end takes no more bytes for now: as many orders as may be are outstanding, or the
peer has given no credit for more. -/
def isFull (e : StreamEnd) : Bool :=
  orderLimit ≤ e.outstanding || e.phase.canWrite && e.sendCredit = 0

/-- What a write gives: some of the bytes are taken, none yet, or the stream takes no more. -/
inductive Writes (e : StreamEnd) (left : Nat) : Ready Nat → Prop where
  | taken {n : Nat} (any : 0 < n) (bound : n ≤ left) : Writes e left (.now n)
  | refused (isShut : e.phase.canWrite = false) (room : e.isFull = false) :
      Writes e left (.failed writeFault)
  | later (full : e.isFull = true) : Writes e left .later

theorem writes_write (e : StreamEnd) (hstart : start < data.size) :
    Writes e (data.size - start) (e.write data start true).1 ∧
      e.Grows .empty (e.write data start true).2.1 ∧
      (e.write data start true).2.2 ≠ some .release := by
  unfold write
  rw [if_neg (by decide)]
  split
  · rename_i hlimit
    exact ⟨.later (by simp [isFull, hlimit]), .refl e, nofun⟩
  · rename_i hroom
    split
    · rename_i hshut
      have hshut : e.phase.canWrite = false := by simpa using hshut
      exact ⟨.refused hshut (by simp [isFull, hroom, hshut]), .refl e, nofun⟩
    · rename_i hwrite
      split
      · rename_i hcredit
        have hwrite : e.phase.canWrite = true := by simpa using hwrite
        exact ⟨.later (by simp [isFull, hwrite, hcredit]), .refl e, nofun⟩
      · rename_i hcredit
        have hshare : 0 < packetShare := by decide
        exact ⟨.taken (by omega) (by omega), .of_same rfl rfl (.inl rfl), nofun⟩

/-- What finishing gives: it is done, or too many orders are outstanding. -/
theorem finish_cases (e : StreamEnd) :
    ((e.finish true).1 = .now () ∧ (e.phase = .ended ∨ e.outstanding < orderLimit) ∨
      (e.finish true).1 = .later ∧ e.phase ≠ .ended ∧ orderLimit ≤ e.outstanding) ∧
      e.Grows .empty (e.finish true).2.1 ∧ (e.finish true).2.2 ≠ some .release := by
  unfold finish
  split
  · rename_i hended
    exact ⟨.inl ⟨rfl, .inl hended⟩, .refl e, nofun⟩
  · rename_i hended
    rw [if_neg (by decide)]
    split
    · rename_i hcrowded
      exact ⟨.inr ⟨rfl, hended, hcrowded⟩, .refl e, nofun⟩
    · rename_i hroom
      exact ⟨.inl ⟨rfl, .inr (Nat.lt_of_not_le hroom)⟩, .of_same rfl rfl (.inr ⟨.saidAll, rfl⟩),
        nofun⟩

end StreamEnd

namespace Connection

variable {c : Connection} {k id room start : Nat} {data : ByteArray}

theorem Carries.read (h : c.Carries k e) (htidy : c.Tidy) (room : Nat) :
    (c.read k room).1 = (e.read room true).1 ∧ (c.read k room).2.Tidy ∧
      (c.read k room).2.Carries k (e.read room true).2.1 := by
  have hid : ∀ e : StreamEnd, (e.read room true).2.1.id = e.id := fun e => (e.read_rest room).1
  obtain ⟨hresult, hcarries⟩ := h.act htidy.running hid (e.read_rest room).2.2
  exact ⟨hresult, tidy_act htidy hid k, hcarries⟩

theorem Carries.write (h : c.Carries k e) (htidy : c.Tidy) (hstart : start < data.size) :
    (c.write k data start).1 = (e.write data start true).1 ∧ (c.write k data start).2.Tidy ∧
      (c.write k data start).2.Carries k (e.write data start true).2.1 := by
  have hid : ∀ e : StreamEnd, (e.write data start true).2.1.id = e.id := fun e =>
    (e.writes_write hstart).2.1.id
  obtain ⟨hresult, hcarries⟩ := h.act htidy.running hid (e.writes_write hstart).2.2
  exact ⟨hresult, tidy_act htidy hid k, hcarries⟩

theorem Carries.finish (h : c.Carries k e) (htidy : c.Tidy) :
    (c.finish k).1 = (e.finish true).1 ∧ (c.finish k).2.Tidy ∧
      (c.finish k).2.Carries k (e.finish true).2.1 := by
  have hid : ∀ e : StreamEnd, (e.finish true).2.1.id = e.id := fun e => e.finish_cases.2.1.id
  obtain ⟨hresult, hcarries⟩ := h.act htidy.running hid e.finish_cases.2.2
  exact ⟨hresult, tidy_act htidy hid k, hcarries⟩

end Connection

end Switchboard.Mux
